import SecureDebug.Driver.Handshake
import SecureDebug.Interaction.Ending
import SecureDebug.Interaction.Steps

/-! What a device and the reset callbacks offer, whichever they are and however often they fail:
room for a byte, a byte to read, a flag in the end, a callback that succeeds. An operation gets
through its stages just as far as they are offered. -/

namespace SecureDebug
open Interaction Program

namespace ExternalComPortDriver

def Faulty (value : UInt32) : Prop :=
  (statusOfSR value).linkErrs ≠ 0 ∨ (statusOfSR value).txOverflow ≠ 0

section
variable {σ : Type}

/-- After at most 4999 statuses that are not ready one is, and `accesses` are answered with `a`. -/
def ReadyFor (this : ExternalComPortDriver) (m : Machine Host σ) (level : Status → UInt8)
    (accesses : List SDMRegisterAccess) (s : σ) (a : AccessResult) (t : σ) : Prop :=
  ∃ as b, as.length < maxRetries ∧ (∀ c ∈ as, pollResult level c = .ok false) ∧
    pollResult level b = .ok true ∧
    m.Plays s ((as ++ [b]).map this.statusEvent ++ [⟨.registerAccess accesses, a⟩]) t

def TakesByte (this : ExternalComPortDriver) (m : Machine Host σ) (byte : UInt8) (s t : σ) : Prop :=
  ∃ a, writeResult 1 a = .success ∧
    this.ReadyFor m Status.txFree [this.writeAccess false byte] s a t

def GivesByte (this : ExternalComPortDriver) (m : Machine Host σ) (s : σ) (byte : UInt8) (t : σ) :
    Prop :=
  ∃ a, (a.result = .success ∧ a.accessesCompleted = 1) ∧ dataByte a = byte ∧
    this.ReadyFor m Status.rxData [this.readAccess] s a t

/-- The bytes that the device gives lead to the flag. -/
def GivesFlag (this : ExternalComPortDriver) (m : Machine Host σ) (flag : UInt8) (s u : σ) : Prop :=
  ∃ noise t, Steps (this.GivesByte m) s noise t ∧ flag ∉ noise ∧ this.GivesByte m t flag u

/-- The stage is let succeed. The reset start callback is made only if both are set. -/
inductive Offers (this : ExternalComPortDriver) (m : Machine Host σ) : σ → Stage → σ → Prop
  | send {s t : σ} {flag : UInt8} : this.TakesByte m flag s t → Offers this m s (.send flag) t
  | await {s t : σ} {flag : UInt8} : this.GivesFlag m flag s t → Offers this m s (.await flag) t
  | resetStart {s t : σ} : this.mResetStartCallback = true → this.mResetEndCallback = true →
      m.answer .resetStart s = (.success, t) → Offers this m s .resetStart t
  | resetEnd {s t : σ} : m.answer .resetEnd s = (.success, t) → Offers this m s .resetEnd t

end

variable {this : ExternalComPortDriver} {σ β : Type} {m : Machine Host σ} {s t u : σ}
  {level : Status → UInt8} {fuel : Nat} {as : List AccessResult} {a b : AccessResult}
  {byte flag : UInt8}

/-! ### Single bytes -/

theorem run_of_polls (hcb : this.mRegisterAccessCallback = true) {left : Nat}
    {x : Except SDMReturnCode Nat} (h : Polls level left as x) :
    Run (this.pollLoop level left) (as.map this.statusEvent) (.ok x) := by
  induction h with
  | @failed left a code ha =>
    rw [pollLoop_eq, run_access_bind hcb]
    refine ⟨a, [], rfl, ?_⟩
    rw [ha]
    exact .ret _
  | @ready left a ha =>
    rw [pollLoop_eq, run_access_bind hcb]
    refine ⟨a, [], rfl, ?_⟩
    rw [ha]
    exact .ret _
  | @exhausted a ha =>
    rw [pollLoop_eq, run_access_bind hcb]
    refine ⟨a, [], rfl, ?_⟩
    rw [ha]
    exact .ret _
  | @again left a as x ha _ ih =>
    rw [pollLoop_eq, run_access_bind hcb]
    refine ⟨a, as.map this.statusEvent, rfl, ?_⟩
    rw [ha]
    exact ih

theorem Polls.extend {left : Nat} {x : Except SDMReturnCode Nat} (h : Polls level left [b] x)
    (hidle : ∀ c ∈ as, pollResult level c = .ok false) :
    Polls level (left + as.length) (as ++ [b]) x := by
  induction as with
  | nil => exact h
  | cons a as ih =>
    obtain ⟨ha, has⟩ := List.forall_mem_cons.mp hidle
    rw [List.length_cons, ← Nat.add_assoc, List.cons_append]
    exact .again ha (ih has)

theorem polls_ready (hlen : as.length < maxRetries)
    (hidle : ∀ c ∈ as, pollResult level c = .ok false) (hb : pollResult level b = .ok true) :
    Polls level maxRetries (as ++ [b]) (.ok as.length) := by
  have hfirst : Polls level (maxRetries - as.length) [b]
      (.ok (maxRetries - (maxRetries - as.length))) := .ready hb
  have h := hfirst.extend hidle
  rwa [Nat.sub_add_cancel hlen.le, Nat.sub_sub_self hlen.le] at h

theorem readyFor_of_polls {accesses : List SDMRegisterAccess} {x : Except SDMReturnCode Nat} {n : Nat}
    (hpolls : Polls level maxRetries as x) (hx : x = .ok n) (hn : n < maxRetries)
    (hplays : m.Plays s (as.map this.statusEvent ++ [⟨.registerAccess accesses, a⟩]) t) :
    this.ReadyFor m level accesses s a t := by
  obtain ⟨as', b, rfl, hidle, ⟨code, -, hx'⟩ | ⟨hb, hle, hx'⟩ | ⟨-, -, hx'⟩⟩ := hpolls.split
  · rw [hx] at hx'
    cases hx'
  · rw [hx, Nat.sub_sub_self hle] at hx'
    rw [Except.ok.inj hx'] at hn
    exact ⟨as', b, hn, hidle, hb, hplays⟩
  · rw [hx] at hx'
    exact absurd (Except.ok.inj hx') (by omega)

section
variable {accesses : List SDMRegisterAccess} (finish : AccessResult → β)
  (hcb : this.mRegisterAccessCallback = true)
include hcb

theorem exec_of_readyFor (fail : SDMReturnCode → β)
    (h : this.ReadyFor m level accesses s a t) :
    ∃ as : List AccessResult, m.exec (this.polledAccess level fail accesses finish) s =
      (.ok (finish a), as.map this.statusEvent ++ [⟨.registerAccess accesses, a⟩], t) := by
  obtain ⟨as, b, hlen, hidle, hb, hplays⟩ := h
  refine ⟨as ++ [b], Machine.exec_eq_iff.mpr ⟨?_, hplays⟩⟩
  rw [polledAccess, run_bind_ok]
  refine ⟨.ok as.length, _, _, rfl, run_of_polls hcb (polls_ready hlen hidle hb), ?_⟩
  dsimp only
  rw [if_neg (Nat.not_le.mpr hlen), run_access_bind hcb]
  exact ⟨a, [], rfl, .ret _⟩

variable {finish} in
theorem leads_polledAccess {fail : SDMReturnCode → β} {b : β}
    (hfail : ∀ code, code ≠ .success → b ≠ fail code) :
    Leads m (this.polledAccess level fail accesses finish) s b t ↔
      ∃ a, b = finish a ∧ this.ReadyFor m level accesses s a t := by
  constructor
  · intro h
    obtain ⟨l, hexec⟩ := h
    obtain ⟨hrun, hplays⟩ := Machine.exec_eq_iff.mp hexec
    obtain ⟨as, x, hpolls, ⟨code, rfl, -, hb⟩ | ⟨_, -, -, -, hb⟩ | ⟨n, a, hx, hn, rfl, hb⟩⟩ :=
      run_polledAccess hcb hrun
    · exact absurd (Except.ok.inj hb) (hfail code hpolls.error_ne)
    · exact absurd (Except.ok.inj hb) (hfail .timeoutError (by decide))
    · exact ⟨a, Except.ok.inj hb, readyFor_of_polls hpolls hx hn hplays⟩
  · intro h
    obtain ⟨a, rfl, hready⟩ := h
    obtain ⟨as, hexec⟩ := exec_of_readyFor finish hcb fail hready
    exact ⟨_, hexec⟩

variable (accesses) in
theorem exists_leads_polledAccess (fail : SDMReturnCode → β) (m : Machine Host σ) (s : σ) :
    ∃ b t, Leads m (this.polledAccess level fail accesses finish) s b t := by
  rcases hexec : m.exec (this.polledAccess level fail accesses finish) s with ⟨r, l, t⟩
  obtain ⟨as, x, -, ⟨_, -, -, rfl⟩ | ⟨_, -, -, -, rfl⟩ | ⟨_, _, -, -, -, rfl⟩⟩ :=
    run_polledAccess hcb (Machine.exec_eq_iff.mp hexec).1
  · exact ⟨_, t, l, hexec⟩
  · exact ⟨_, t, l, hexec⟩
  · exact ⟨_, t, l, hexec⟩

end

theorem readByteResult_iff {old : UInt8} : readByteResult old a = (.success, byte) ↔
    (a.result = .success ∧ a.accessesCompleted = 1) ∧ dataByte a = byte := by
  rw [readByteResult]
  by_cases hread : (readResult a).1 = .success
  · have hdone := (readResult_eq_success.mp (Prod.ext hread rfl)).1
    rw [if_pos hread, Prod.mk.injEq]
    exact and_congr_left' (iff_of_true rfl hdone)
  · rw [if_neg hread, Prod.mk.injEq]
    refine iff_of_false (fun h => hread h.1) fun h => hread ?_
    rw [readResult_of_clean h.1]

theorem GivesFlag.hit (h : this.GivesByte m s flag u) : this.GivesFlag m flag s u :=
  ⟨[], s, .nil s, List.not_mem_nil, h⟩

theorem GivesFlag.miss (h : this.GivesByte m s byte t) (hbyte : byte ≠ flag)
    (hrest : this.GivesFlag m flag t u) : this.GivesFlag m flag s u := by
  obtain ⟨noise, t', hnoise, hmem, hlast⟩ := hrest
  refine ⟨byte :: noise, t', .cons h hnoise, ?_, hlast⟩
  rw [List.mem_cons, not_or]
  exact ⟨Ne.symm hbyte, hmem⟩

section
variable (hcb : this.mRegisterAccessCallback = true)
include hcb

theorem leads_eComSendByte :
    Leads m (this.eComSendByte byte) s .success t ↔ this.TakesByte m byte s t := by
  have hfail (code : SDMReturnCode) (h : code ≠ .success) : .success ≠ id code := Ne.symm h
  rw [eComSendByte_eq, leads_polledAccess hcb hfail]
  exact exists_congr fun a => and_congr_left' eq_comm

theorem leads_eComReadByte {old : UInt8} :
    Leads m (this.eComReadByte old) s (.success, byte) t ↔ this.GivesByte m s byte t := by
  have hfail (code : SDMReturnCode) (h : code ≠ .success) : (.success, byte) ≠ (code, old) :=
    fun heq => h (Prod.mk.inj heq).1.symm
  rw [eComReadByte_eq, leads_polledAccess hcb hfail]
  refine exists_congr fun a => ?_
  rw [eq_comm, readByteResult_iff, and_assoc]

/-! ### Flags -/

theorem givesFlag_of_leads {old : UInt8}
    (h : Leads m (this.waitLoop flag fuel old) s .success u) : this.GivesFlag m flag s u := by
  induction fuel generalizing s old with
  | zero =>
    obtain ⟨l, h⟩ := h
    cases h
  | succ fuel ih =>
    rw [waitLoop, leads_bind] at h
    obtain ⟨⟨code, byte⟩, t, hread, hrest⟩ := h
    dsimp only at hrest
    by_cases hcode : code = .success
    · subst hcode
      have hgives := (leads_eComReadByte hcb).mp hread
      rw [if_neg (not_not.mpr rfl)] at hrest
      by_cases hbyte : byte = flag
      · subst hbyte
        rw [if_neg (not_not.mpr rfl)] at hrest
        obtain ⟨-, rfl⟩ := leads_pure.mp hrest
        exact .hit hgives
      · rw [if_pos hbyte] at hrest
        exact .miss hgives hbyte (ih hrest)
    · rw [if_pos hcode] at hrest
      exact absurd (leads_pure.mp hrest).1.symm hcode

theorem leads_waitLoop_of_gives {noise : List UInt8} (h : Steps (this.GivesByte m) s noise t)
    (hmem : flag ∉ noise) (hlast : this.GivesByte m t flag u) (old : UInt8) :
    Leads m (this.waitLoop flag (noise.length + 1) old) s .success u := by
  induction h generalizing old with
  | nil s =>
    refine leads_bind.mpr ⟨(.success, flag), u, (leads_eComReadByte hcb).mpr hlast, ?_⟩
    dsimp only
    rw [if_neg (not_not.mpr rfl), if_neg (not_not.mpr rfl)]
    exact leads_pure.mpr ⟨rfl, rfl⟩
  | @cons s t' t byte noise hfirst _ ih =>
    obtain ⟨hne, hrest⟩ := not_or.mp (mt List.mem_cons.mpr hmem)
    refine leads_bind.mpr ⟨(.success, byte), t', (leads_eComReadByte hcb).mpr hfirst, ?_⟩
    dsimp only
    rw [if_neg (not_not.mpr rfl), if_pos (Ne.symm hne)]
    exact ih hrest hlast byte

theorem leads_waitFlag :
    (∃ fuel, Leads m (this.eComWaitFlag fuel flag) s .success u) ↔ this.GivesFlag m flag s u := by
  constructor
  · intro h
    obtain ⟨fuel, h⟩ := h
    exact givesFlag_of_leads hcb h
  · intro h
    obtain ⟨noise, t, hnoise, hmem, hlast⟩ := h
    exact ⟨_, leads_waitLoop_of_gives hcb hnoise hmem hlast flagNULL⟩

end

theorem fueled_waitLoop (flag byte : UInt8) :
    Fueled .outOfFuel fun fuel => this.waitLoop flag fuel byte := by
  intro n k hnk
  induction n generalizing k byte with
  | zero => exact .stuck _
  | succ n ih =>
    obtain ⟨k, rfl⟩ : ∃ k', k = k' + 1 := Nat.exists_eq_add_of_le' (Nat.le_of_add_left_le hnk)
    show Extends _ (this.waitLoop flag (n + 1) byte) (this.waitLoop flag (k + 1) byte)
    rw [waitLoop, waitLoop]
    apply Extends.bind_refl
    intro read
    apply extends_ite (extends_refl _)
    apply extends_ite _ (extends_refl _)
    exact ih read.2 k (Nat.le_of_succ_le_succ hnk)

/-! ### Operations -/

/-- Whatever the surroundings, with enough turns for its waits the procedure succeeds just if its
stages are offered. -/
structure Staged (this : ExternalComPortDriver) (p : Nat → Sdm SDMReturnCode) (ss : List Stage) :
    Prop where
  fueled : Fueled .outOfFuel p
  leads : ∀ {σ : Type} (m : Machine Host σ) (s t : σ),
    (∃ fuel, Leads m (p fuel) s .success t) ↔ Steps (this.Offers m) s ss t

section
variable {p q : Nat → Sdm SDMReturnCode} {ss₁ ss₂ : List Stage}

theorem leads_assert {bail : SDMReturnCode → β} {call : Sdm SDMReturnCode} {rest : Sdm β} {b : β} :
    Leads m (psaAdacAssert bail call rest) s b u ↔
      ∃ code t, Leads m call s code t ∧ ((code = .success ∧ Leads m rest t b u) ∨
        (code ≠ .success ∧ b = bail code ∧ u = t)) := by
  rw [psaAdacAssert, leads_bind]
  apply exists_congr
  intro code
  apply exists_congr
  intro t
  apply and_congr_right
  intro _
  by_cases hcode : code = .success
  · rw [if_pos hcode]
    simp [hcode]
  · rw [if_neg hcode, leads_pure]
    simp [hcode]

theorem staged_assert (hp : this.Staged p ss₁) (hq : this.Staged q ss₂) :
    this.Staged (fun fuel => psaAdacAssert id (p fuel) (q fuel)) (ss₁ ++ ss₂) := by
  have hrest (code : SDMReturnCode) : Fueled .outOfFuel fun fuel =>
      if code = .success then q fuel else pure (id code) := fueled_ite hq.fueled (fueled_const _)
  refine ⟨hp.fueled.bind hrest, fun m s u => ?_⟩
  rw [steps_append]
  constructor
  · intro h
    obtain ⟨fuel, h⟩ := h
    obtain ⟨code, t, hfirst, ⟨rfl, hsecond⟩ | ⟨hcode, hres, -⟩⟩ := leads_assert.mp h
    · exact ⟨t, (hp.leads m s t).mp ⟨fuel, hfirst⟩, (hq.leads m t u).mp ⟨fuel, hsecond⟩⟩
    · exact absurd hres.symm hcode
  · intro h
    obtain ⟨t, hfirst, hsecond⟩ := h
    obtain ⟨n, hfirst⟩ := (hp.leads m s t).mpr hfirst
    obtain ⟨k, hsecond⟩ := (hq.leads m t u).mpr hsecond
    refine ⟨max n k, leads_assert.mpr ⟨_, t, ?_, .inl ⟨rfl, ?_⟩⟩⟩
    · exact hp.fueled.leads_of_le hfirst (Nat.le_max_left n k)
    · exact hq.fueled.leads_of_le hsecond (Nat.le_max_right n k)

theorem staged_return : this.Staged (fun _ => pure .success) [] := by
  refine ⟨fueled_const _, fun m s t => ?_⟩
  rw [steps_nil, exists_const, leads_pure, and_iff_right rfl]

theorem staged_single {call : Sdm SDMReturnCode} {st : Stage}
    (h : ∀ {σ : Type} (m : Machine Host σ) (s t : σ),
      Leads m call s .success t ↔ this.Offers m s st t) : this.Staged (fun _ => call) [st] := by
  refine ⟨fueled_const _, fun m s t => ?_⟩
  rw [steps_singleton, exists_const, h]

theorem staged_send (hcb : this.mRegisterAccessCallback = true) (flag : UInt8) :
    this.Staged (fun _ => this.eComSendFlag flag) [.send flag] := by
  apply staged_single
  intro σ m s t
  rw [eComSendFlag, leads_eComSendByte hcb]
  constructor
  · exact .send
  · intro h
    cases h with
    | send htakes => exact htakes

theorem staged_await (hcb : this.mRegisterAccessCallback = true) (flag : UInt8) :
    this.Staged (fun fuel => this.eComWaitFlag fuel flag) [.await flag] := by
  refine ⟨fueled_waitLoop flag flagNULL, fun m s t => ?_⟩
  rw [leads_waitFlag hcb, steps_singleton]
  constructor
  · exact .await
  · intro h
    cases h with
    | await hgives => exact hgives

theorem exec_callHost {c : HostCall} {a : Host.Answer c} {l : Trace} :
    m.exec (callHost c : Sdm (Host.Answer c)) s = (.ok a, l, t) ↔
      m.answer c s = (a, t) ∧ l = [⟨c, a⟩] := by
  have hexec : m.exec (callHost c : Sdm (Host.Answer c)) s =
      (.ok (m.answer c s).1, [⟨c, (m.answer c s).1⟩], (m.answer c s).2) := rfl
  rcases ha : m.answer c s with ⟨a', t'⟩
  rw [hexec, ha]
  constructor
  · intro h
    cases h
    exact ⟨rfl, rfl⟩
  · intro h
    obtain ⟨hanswer, rfl⟩ := h
    cases hanswer
    rfl

theorem leads_callHost {c : HostCall} {a : Host.Answer c} :
    Leads m (callHost c : Sdm (Host.Answer c)) s a t ↔ m.answer c s = (a, t) := by
  constructor
  · intro h
    obtain ⟨l, h⟩ := h
    exact (exec_callHost.mp h).1
  · intro h
    exact ⟨_, exec_callHost.mpr ⟨h, rfl⟩⟩

theorem staged_resetStart (hstart : this.mResetStartCallback = true)
    (hend : this.mResetEndCallback = true) :
    this.Staged (fun _ => callHost .resetStart) [.resetStart] := by
  apply staged_single
  intro σ m s t
  rw [leads_callHost]
  constructor
  · exact .resetStart hstart hend
  · intro h
    cases h with
    | resetStart _ _ hcode => exact hcode

theorem staged_resetEnd : this.Staged (fun _ => callHost .resetEnd) [.resetEnd] := by
  apply staged_single
  intro σ m s t
  rw [leads_callHost]
  constructor
  · exact .resetEnd
  · intro h
    cases h with
    | resetEnd hcode => exact hcode

theorem initResetStart_calls {bail : SDMReturnCode → β} {rest : Sdm β}
    (hset : this.mResetStartCallback = true ∧ this.mResetEndCallback = true) :
    this.initResetStart bail .system rest = psaAdacAssert bail (callHost .resetStart) rest := by
  rw [initResetStart, if_pos rfl, psaAdacAssertError, psaAdacAssertError, if_pos hset.1, if_pos hset.2]

theorem initResetStart_missing {bail : SDMReturnCode → β} {rest : Sdm β}
    (hset : ¬(this.mResetStartCallback = true ∧ this.mResetEndCallback = true)) :
    this.initResetStart bail .system rest = pure (bail .internalError) := by
  rw [initResetStart, if_pos rfl, psaAdacAssertError, psaAdacAssertError]
  by_cases hstart : this.mResetStartCallback = true
  · rw [if_pos hstart, if_neg fun hend => hset ⟨hstart, hend⟩]
  · rw [if_neg hstart]

theorem not_offers_resetStart
    (hset : ¬(this.mResetStartCallback = true ∧ this.mResetEndCallback = true)) :
    ¬this.Offers m s .resetStart t := by
  intro h
  cases h with
  | resetStart hstart hend _ => exact hset ⟨hstart, hend⟩

theorem staged_missing {code : SDMReturnCode}
    (hset : ¬(this.mResetStartCallback = true ∧ this.mResetEndCallback = true)) (ss : List Stage)
    (hcode : code ≠ .success) : this.Staged (fun _ => pure code) (.resetStart :: ss) := by
  refine ⟨fueled_const _, fun m s t => ?_⟩
  rw [exists_const, leads_pure, steps_cons]
  refine iff_of_false (fun h => hcode h.1.symm) ?_
  rintro ⟨u, hfirst, -⟩
  exact not_offers_resetStart hset hfirst

end

section
variable {bail : SDMReturnCode → β}

theorem exec_assert {l : Trace} {call : Sdm SDMReturnCode} (rest : Sdm β)
    (h : m.exec call s = (.ok .success, l, t)) : m.exec (psaAdacAssert bail call rest) s =
      ((m.exec rest t).1, l ++ (m.exec rest t).2.1, (m.exec rest t).2.2) := by
  rw [psaAdacAssert, Machine.exec_bind, h]
  dsimp only
  rw [if_pos rfl]

theorem exec_assert_bail {l : Trace} {call : Sdm SDMReturnCode} (rest : Sdm β)
    {code : SDMReturnCode} (h : m.exec call s = (.ok code, l, t)) (hcode : code ≠ .success) :
    m.exec (psaAdacAssert bail call rest) s = (.ok (bail code), l, t) := by
  rw [psaAdacAssert, Machine.exec_bind, h]
  dsimp only
  rw [if_neg hcode]
  exact congrArg (fun l => (_, l, t)) (List.append_nil l)

theorem assert_assert (call next : Sdm SDMReturnCode) (rest : Sdm β) :
    psaAdacAssert bail (psaAdacAssert id call next) rest =
      psaAdacAssert bail call (psaAdacAssert bail next rest) := by
  rw [psaAdacAssert, psaAdacAssert, psaAdacAssert, bind_assoc]
  congr 1
  funext code
  by_cases hcode : code = .success
  · rw [if_pos hcode, if_pos hcode]
    rfl
  · rw [if_neg hcode, if_neg hcode, pure_bind]
    exact if_neg hcode

theorem assert_success (rest : Sdm β) : psaAdacAssert bail (pure .success) rest = rest := by
  rw [psaAdacAssert, pure_bind, if_pos rfl]

end

end ExternalComPortDriver
end SecureDebug
