import SecureDebug.Driver.Endless

/-! What a device does at each stage of an operation, less how long it keeps the driver waiting and
what it says while a flag is awaited. This much determines what the operation returns and sends. -/

namespace SecureDebug
open Interaction Program Framing

inductive Beat where
  | takes
  | full
  | gives
  | silent
  | answers (code : SDMReturnCode)
  | delivers (stream : Stream' UInt8)

def Beat.code : Beat → SDMReturnCode
  | .takes | .gives | .delivers _ => .success
  | .full | .silent => .timeoutError
  | .answers code => code

namespace ExternalComPortDriver
variable {σ : Type}

/-- The first 5000 statuses are not ready, and the next one is no error. -/
def Unready (this : ExternalComPortDriver) (m : Machine Host σ) (level : Status → UInt8) (s : σ) :
    Prop :=
  ∃ as b ready t, as.length = maxRetries ∧ (∀ c ∈ as, pollResult level c = .ok false) ∧
    pollResult level b = .ok ready ∧ m.Plays s ((as ++ [b]).map this.statusEvent) t

/-- What a device shows at a stage. The pace is left out of it, and so are the bytes ahead of an
awaited flag. -/
inductive Shows (this : ExternalComPortDriver) (m : Machine Host σ) : Stage → σ → Beat → σ → Prop
  | takes {flag : UInt8} {s t : σ} : this.TakesByte m flag s t → Shows this m (.send flag) s .takes t
  | full {flag : UInt8} {s : σ} : this.Unready m Status.txFree s → Shows this m (.send flag) s .full s
  | gives {flag : UInt8} {s t u : σ} {noise : List UInt8} : Steps (this.GivesByte m) s noise t →
      flag ∉ noise → this.GivesByte m t flag u → Shows this m (.await flag) s .gives u
  | silent {flag : UInt8} {s t : σ} {noise : List UInt8} : Steps (this.GivesByte m) s noise t →
      flag ∉ noise → this.Unready m Status.rxData t → Shows this m (.await flag) s .silent t
  | resetStart {s t : σ} {code : SDMReturnCode} : m.answer .resetStart s = (code, t) →
      Shows this m .resetStart s (.answers code) t
  | resetEnd {s t : σ} {code : SDMReturnCode} : m.answer .resetEnd s = (code, t) →
      Shows this m .resetEnd s (.answers code) t
  | delivers {s : σ} {stream : Stream' UInt8} : this.DeliversAll m s stream →
      Shows this m .identify s (.delivers stream) s

/-- What a device shows at the stages one after the other, up to the first that fails. -/
inductive Course (this : ExternalComPortDriver) (m : Machine Host σ) :
    List Stage → σ → List Beat → Prop
  | nil (s : σ) : Course this m [] s []
  | go {stage : Stage} {ss : List Stage} {s t : σ} {b : Beat} {bs : List Beat} :
      this.Shows m stage s b t → b.code = .success → Course this m ss t bs →
      Course this m (stage :: ss) s (b :: bs)
  | stop {stage : Stage} {ss : List Stage} {s t : σ} {b : Beat} :
      this.Shows m stage s b t → b.code ≠ .success → Course this m (stage :: ss) s [b]

variable {this : ExternalComPortDriver} {m : Machine Host σ} {s t u : σ} {level : Status → UInt8}
  {as : List AccessResult} {a b : AccessResult} {l : Trace} {flag byte : UInt8}

/-! ### Single bytes -/

theorem polls_late (hlen : as.length = maxRetries)
    (hidle : ∀ c ∈ as, pollResult level c = .ok false) {ready : Bool}
    (hb : pollResult level b = .ok ready) :
    ∃ n, maxRetries ≤ n ∧ Polls level maxRetries (as ++ [b]) (.ok n) := by
  have hzero (n : Nat) (h : Polls level 0 [b] (.ok n)) : Polls level maxRetries (as ++ [b]) (.ok n) := by
    have hext := h.extend hidle
    rwa [Nat.zero_add, hlen] at hext
  cases ready with
  | true => exact ⟨maxRetries, Nat.le_refl _, hzero _ (.ready hb)⟩
  | false => exact ⟨maxRetries + 1, Nat.le_succ _, hzero _ (.exhausted hb)⟩

section
variable {β : Type} (fail : SDMReturnCode → β) {accesses : List SDMRegisterAccess}
  (finish : AccessResult → β) (hcb : this.mRegisterAccessCallback = true)
include hcb

variable (accesses) in
theorem exec_of_unready (h : this.Unready m level s) :
    ∃ (as : List AccessResult) (t : σ), m.exec (this.polledAccess level fail accesses finish) s =
      (.ok (fail .timeoutError), as.map this.statusEvent, t) := by
  obtain ⟨as, b, ready, t, hlen, hidle, hb, hplays⟩ := h
  obtain ⟨n, hn, hpolls⟩ := polls_late hlen hidle hb
  refine ⟨as ++ [b], t, Machine.exec_eq_iff.mpr ⟨?_, hplays⟩⟩
  rw [polledAccess, run_bind_ok]
  refine ⟨.ok n, _, [], (List.append_nil _).symm, run_of_polls hcb hpolls, ?_⟩
  dsimp only
  rw [if_pos hn]
  exact .ret _

end

theorem written_statusEvents (this : ExternalComPortDriver) (as : List AccessResult) :
    this.written (as.map this.statusEvent) = [] := by
  rw [written, traffic_statusEvents]
  rfl

theorem written_readEvent (this : ExternalComPortDriver) (a : AccessResult) :
    this.written [this.readEvent a] = [] := by
  rw [written, traffic_readEvent]
  split_ifs <;> rfl

section
variable (hcb : this.mRegisterAccessCallback = true)
include hcb

theorem TakesByte.exec_eq (h : this.TakesByte m byte s t) :
    ∃ l, m.exec (this.eComSendByte byte) s = (.ok .success, l, t) ∧ this.written l = [byte] := by
  obtain ⟨l, hexec⟩ := (leads_eComSendByte hcb).mpr h
  refine ⟨l, hexec, ?_⟩
  rcases run_eComSendByte (Machine.exec_eq_iff.mp hexec).1 with ⟨-, ht⟩ | ⟨hr, -⟩
  · rw [written, ht]
    rfl
  · exact absurd rfl hr

theorem exec_send_unready (h : this.Unready m Status.txFree s) (byte : UInt8) :
    ∃ l t, m.exec (this.eComSendByte byte) s = (.ok .timeoutError, l, t) ∧ this.written l = [] := by
  obtain ⟨as, t, hexec⟩ :=
    exec_of_unready id [this.writeAccess false byte] (writeResult 1) hcb h
  rw [← eComSendByte_eq] at hexec
  exact ⟨_, t, hexec, this.written_statusEvents as⟩

theorem GivesByte.exec_eq (h : this.GivesByte m s byte t) (old : UInt8) :
    ∃ l, m.exec (this.eComReadByte old) s = (.ok (.success, byte), l, t) ∧ this.written l = [] := by
  obtain ⟨l, hexec⟩ := (leads_eComReadByte hcb).mpr h
  refine ⟨l, hexec, ?_⟩
  rcases run_eComReadByte (Machine.exec_eq_iff.mp hexec).1 with ⟨-, hne⟩ | ⟨byte', ht, -⟩
  · exact absurd rfl (hne .success byte rfl)
  · rw [written, ht]
    rfl

theorem exec_read_unready (h : this.Unready m Status.rxData s) (old : UInt8) :
    ∃ l t, m.exec (this.eComReadByte old) s = (.ok (.timeoutError, old), l, t) ∧
      this.written l = [] := by
  obtain ⟨as, t, hexec⟩ :=
    exec_of_unready (·, old) [this.readAccess] (readByteResult old) hcb h
  rw [← eComReadByte_eq] at hexec
  exact ⟨_, t, hexec, this.written_statusEvents as⟩

/-! ### Waiting for a flag -/

/-- What the wait loop does after the bytes that are not the flag it does a turn later. -/
theorem exec_waitLoop_noise {noise : List UInt8} (h : Steps (this.GivesByte m) s noise t)
    (hflag : flag ∉ noise) (byte : UInt8) :
    ∃ byte' l, this.written l = [] ∧ ∀ k, m.exec (this.waitLoop flag (k + noise.length) byte) s =
      ((m.exec (this.waitLoop flag k byte') t).1, l ++ (m.exec (this.waitLoop flag k byte') t).2.1,
        (m.exec (this.waitLoop flag k byte') t).2.2) := by
  induction h generalizing byte with
  | nil s => exact ⟨byte, [], rfl, fun k => rfl⟩
  | @cons s t u first noise hfirst _ ih =>
    obtain ⟨hne, hrest⟩ := not_or.mp (mt List.mem_cons.mpr hflag)
    -- reading starts its retries afresh for each byte, so one of the noise costs one turn
    obtain ⟨l₁, hexec, hw₁⟩ := hfirst.exec_eq hcb byte
    obtain ⟨byte', l₂, hw₂, hloop⟩ := ih hrest first
    refine ⟨byte', l₁ ++ l₂, by rw [written_append, hw₁, hw₂]; rfl, fun k => ?_⟩
    rw [List.length_cons, ← Nat.add_assoc, waitLoop, Machine.exec_bind, hexec]
    dsimp only
    rw [if_neg (not_not.mpr rfl), if_pos (Ne.symm hne), hloop k, List.append_assoc]

theorem exec_waitFlag_gives (h : this.GivesFlag m flag s u) :
    ∃ n l, this.written l = [] ∧ ∀ k, n ≤ k → m.exec (this.eComWaitFlag k flag) s =
      (.ok .success, l, u) := by
  obtain ⟨n, l, hexec⟩ := (leads_waitFlag hcb).mpr h
  refine ⟨n, l, ?_, fun k hk => (fueled_waitLoop flag flagNULL).exec_eq hexec hk⟩
  obtain ⟨bytes, -, ⟨-, ht⟩ | ⟨hr, -⟩⟩ := run_eComWaitFlag (Machine.exec_eq_iff.mp hexec).1
  · rw [written, ht, List.filterMap_map]
    exact List.filterMap_eq_nil_iff.mpr fun _ _ => rfl
  · exact absurd rfl hr

theorem exec_waitFlag_silent {noise : List UInt8} (h : Steps (this.GivesByte m) s noise t)
    (hflag : flag ∉ noise) (hsilent : this.Unready m Status.rxData t) :
    ∃ n l u, this.written l = [] ∧ ∀ k, n ≤ k → m.exec (this.eComWaitFlag k flag) s =
      (.ok .timeoutError, l, u) := by
  obtain ⟨byte', l₁, hw₁, hloop⟩ := exec_waitLoop_noise hcb h hflag flagNULL
  obtain ⟨l₂, u, hexec, hw₂⟩ := exec_read_unready hcb hsilent byte'
  have hlast : m.exec (this.waitLoop flag 1 byte') t = (.ok .timeoutError, l₂, u) := by
    rw [waitLoop, Machine.exec_bind, hexec]
    dsimp only
    rw [if_pos (by decide)]
    exact congrArg (fun l => (_, l, u)) (List.append_nil l₂)
  have hall := hloop 1
  rw [hlast] at hall
  refine ⟨1 + noise.length, l₁ ++ l₂, u, by rw [written_append, hw₁, hw₂]; rfl, fun k hk => ?_⟩
  exact (fueled_waitLoop flag flagNULL).exec_eq hall hk

end

/-! ### Stages -/

/-- What the device shows at the stages determines what the procedure returns and which bytes it
sends, on every device. -/
def Determined (this : ExternalComPortDriver) (p : Nat → Sdm SDMReturnCode) (ss : List Stage) : Prop :=
  ∀ rest bs, ∃ code ws, ∀ (σ : Type) (m : Machine Host σ) (s : σ), this.Course m (ss ++ rest) s bs →
    ∃ n l t, (∀ k, n ≤ k → m.exec (p k) s = (.ok code, l, t)) ∧ this.written l = ws ∧
      (code = .success → this.Course m rest t (bs.drop ss.length))

section
variable {p q : Nat → Sdm SDMReturnCode} {ss₁ ss₂ : List Stage} {stage : Stage}

theorem determined_stage (h : ∀ b, ∃ ws, ∀ (σ : Type) (m : Machine Host σ) (s t : σ),
      this.Shows m stage s b t → ∃ n l u, (∀ k, n ≤ k → m.exec (p k) s = (.ok b.code, l, u)) ∧
        this.written l = ws ∧ (b.code = .success → u = t)) :
    this.Determined p [stage] := by
  intro rest bs
  cases bs with
  | nil =>
    -- every stage shows as a beat
    refine ⟨.success, [], fun σ m s hcourse => ?_⟩
    cases hcourse
  | cons b bs =>
    obtain ⟨ws, hstage⟩ := h b
    refine ⟨b.code, ws, fun σ m s hcourse => ?_⟩
    cases hcourse with
    | go hshows hcode hrest =>
      obtain ⟨n, l, u, hexec, hws, hend⟩ := hstage σ m s _ hshows
      rw [hend hcode] at hexec
      exact ⟨n, l, _, hexec, hws, fun _ => hrest⟩
    | stop hshows hcode =>
      obtain ⟨n, l, u, hexec, hws, -⟩ := hstage σ m s _ hshows
      exact ⟨n, l, u, hexec, hws, fun h => absurd h hcode⟩

theorem determined_return : this.Determined (fun _ => pure .success) [] := fun _ _ =>
  ⟨.success, [], fun _ _ s hcourse => ⟨0, [], s, fun _ _ => rfl, rfl, fun _ => hcourse⟩⟩

theorem determined_assert (hp : this.Determined p ss₁) (hq : this.Determined q ss₂) :
    this.Determined (fun fuel => psaAdacAssert id (p fuel) (q fuel)) (ss₁ ++ ss₂) := by
  intro rest bs
  obtain ⟨code₁, ws₁, hfirst⟩ := hp (ss₂ ++ rest) bs
  obtain ⟨code₂, ws₂, hsecond⟩ := hq rest (bs.drop ss₁.length)
  -- whether the second part is reached is decided by the course, not by the device
  by_cases hcode : code₁ = .success
  · refine ⟨code₂, ws₁ ++ ws₂, fun σ m s hcourse => ?_⟩
    rw [List.append_assoc] at hcourse
    obtain ⟨n₁, l₁, t, hexec₁, hws₁, hmid⟩ := hfirst σ m s hcourse
    obtain ⟨n₂, l₂, u, hexec₂, hws₂, hend⟩ := hsecond σ m t (hmid hcode)
    refine ⟨max n₁ n₂, l₁ ++ l₂, u, fun k hk => ?_, by rw [written_append, hws₁, hws₂], ?_⟩
    · have hk₁ := hexec₁ k ((Nat.le_max_left n₁ n₂).trans hk)
      rw [hcode] at hk₁
      rw [exec_assert _ hk₁, hexec₂ k ((Nat.le_max_right n₁ n₂).trans hk)]
    · rwa [List.length_append, ← List.drop_drop]
  · refine ⟨code₁, ws₁, fun σ m s hcourse => ?_⟩
    rw [List.append_assoc] at hcourse
    obtain ⟨n, l, t, hexec, hws, -⟩ := hfirst σ m s hcourse
    exact ⟨n, l, t, fun k hk => exec_assert_bail _ (hexec k hk) hcode, hws,
      fun h => absurd h hcode⟩

end

section
variable (hcb : this.mRegisterAccessCallback = true)
include hcb

theorem determined_send (flag : UInt8) :
    this.Determined (fun _ => this.eComSendFlag flag) [.send flag] := by
  apply determined_stage
  intro b
  by_cases htakes : b = .takes
  · refine ⟨[flag], fun σ m s t hshows => ?_⟩
    cases hshows with
    | takes h =>
      obtain ⟨l, hexec, hws⟩ := h.exec_eq hcb
      exact ⟨0, l, t, fun _ _ => hexec, hws, fun _ => rfl⟩
    | full => cases htakes
  · refine ⟨[], fun σ m s t hshows => ?_⟩
    cases hshows with
    | takes => exact absurd rfl htakes
    | full h =>
      obtain ⟨l, u, hexec, hws⟩ := exec_send_unready hcb h flag
      exact ⟨0, l, u, fun _ _ => hexec, hws, fun hcode => (by cases hcode)⟩

theorem determined_await (flag : UInt8) :
    this.Determined (fun fuel => this.eComWaitFlag fuel flag) [.await flag] := by
  apply determined_stage
  intro b
  refine ⟨[], fun σ m s t hshows => ?_⟩
  cases hshows with
  | gives hnoise hflag hgives =>
    obtain ⟨n, l, hws, hexec⟩ := exec_waitFlag_gives hcb ⟨_, _, hnoise, hflag, hgives⟩
    exact ⟨n, l, t, hexec, hws, fun _ => rfl⟩
  | silent hnoise hflag hsilent =>
    obtain ⟨n, l, u, hws, hexec⟩ := exec_waitFlag_silent hcb hnoise hflag hsilent
    exact ⟨n, l, u, hexec, hws, fun hcode => (by cases hcode)⟩

theorem determined_reboot : this.Determined (fun _ => this.eComPortRReboot) [.send flagLPH2RR] :=
  determined_assert (determined_send hcb flagLPH2RR) determined_return

end

theorem determined_resetStart : this.Determined (fun _ => callHost .resetStart) [.resetStart] := by
  apply determined_stage
  intro b
  refine ⟨[], fun σ m s t hshows => ?_⟩
  cases hshows with
  | @resetStart s t code h =>
    refine ⟨0, [⟨.resetStart, code⟩], t, fun _ _ => ?_, rfl, fun _ => rfl⟩
    show m.exec (.call .resetStart .ret) s = _
    rw [Machine.exec, h]
    rfl

theorem determined_resetEnd : this.Determined (fun _ => callHost .resetEnd) [.resetEnd] := by
  apply determined_stage
  intro b
  refine ⟨[], fun σ m s t hshows => ?_⟩
  cases hshows with
  | @resetEnd s t code h =>
    refine ⟨0, [⟨.resetEnd, code⟩], t, fun _ _ => ?_, rfl, fun _ => rfl⟩
    show m.exec (.call .resetEnd .ret) s = _
    rw [Machine.exec, h]
    rfl

/-! ### Operations -/

section
variable {q : Nat → Sdm SDMReturnCode} {ss : List Stage} (remoteReset : ECPDRemoteResetType)

theorem determined_initResetStart (hq : this.Determined q ss) :
    this.Determined (fun fuel => this.initResetStart id remoteReset (q fuel))
      (remoteReset.start ++ ss) := by
  cases remoteReset with
  | none => exact hq
  | com => exact hq
  | system =>
    by_cases hset : this.mResetStartCallback = true ∧ this.mResetEndCallback = true
    · simp only [initResetStart_calls hset]
      exact determined_assert determined_resetStart hq
    · -- a callback that is not set is reported before the device shows anything
      simp only [initResetStart_missing hset]
      intro rest bs
      exact ⟨.internalError, [], fun _ _ s _ =>
        ⟨0, [], s, fun _ _ => rfl, rfl, fun hcode => (by cases hcode)⟩⟩

variable (hcb : this.mRegisterAccessCallback = true)
include hcb

theorem determined_initResetEnd (hq : this.Determined q ss) :
    this.Determined (fun fuel => this.initResetEnd id remoteReset (q fuel))
      (remoteReset.step ++ ss) := by
  cases remoteReset with
  | none => exact hq
  | com => exact determined_assert (determined_reboot hcb) hq
  | system => exact determined_assert determined_resetEnd hq

theorem determined_powerOn :
    this.Determined (fun fuel => this.eComPortPower fuel .powerOn) powerOn :=
  determined_assert (determined_send hcb _) <| determined_assert (determined_await hcb _) <|
    determined_assert (determined_send hcb _) <| determined_assert (determined_await hcb _)
      determined_return

theorem determined_initHandshake : this.Determined (fun fuel => this.initHandshake fuel remoteReset)
    (link remoteReset ++ (remoteReset.step ++ [.await flagLPH2RA, .send flagIDR])) := by
  rw [link, List.append_assoc, List.append_assoc]
  exact determined_initResetStart remoteReset <| determined_assert (determined_powerOn hcb) <|
    determined_assert (determined_send hcb _) <| determined_initResetEnd remoteReset hcb <|
    determined_assert (determined_await hcb _) <| determined_assert (determined_send hcb _)
      determined_return

theorem determined_sendBytes (bytes : List UInt8) :
    this.Determined (fun _ => this.eComSendBytes bytes) (bytes.map .send) := by
  induction bytes with
  | nil => exact determined_return
  | cons byte bytes ih =>
    have hcons : this.eComSendBytes (byte :: bytes) =
        psaAdacAssert id (this.eComSendByte byte) (this.eComSendBytes bytes) := by
      rw [eComSendBytes, psaAdacAssert]
      congr 1
      funext code
      by_cases hcode : code = .success
      · rw [if_neg (not_not.mpr hcode), if_pos hcode]
      · rw [if_pos hcode, if_neg hcode]
        rfl
    simp only [hcons]
    exact determined_assert (determined_send hcb byte) ih

end

end ExternalComPortDriver
end SecureDebug
