import SecureDebug.Driver.Receive

/-! The receive loop against a data register that delivers a stream of bytes: what it reads,
when it accepts, and what it leaves in the buffer. -/

namespace SecureDebug
open Interaction Program Framing

/-- The byte `EComRxRaw` takes from the answer to a single read. -/
def dataByte (a : AccessResult) : UInt8 := (a.values.headD 0).toUInt8

namespace ExternalComPortDriver
variable {this : ExternalComPortDriver}

/-- Read `bytes.length` times from `s` on, the data register gives `bytes` without an error
and leaves the surroundings in `t`. -/
def Delivers {σ : Type} (this : ExternalComPortDriver) (m : Machine Host σ) (s : σ)
    (bytes : List UInt8) (t : σ) : Prop :=
  this.mRegisterAccessCallback = true ∧ ∃ as : List AccessResult,
    (∀ a ∈ as, a.result = .success ∧ a.accessesCompleted = 1) ∧ as.map dataByte = bytes ∧
    m.Plays s (as.map this.readEvent) t

section
variable {σ : Type} {m : Machine Host σ} {s t : σ}

theorem delivers_append {bytes bytes' : List UInt8} :
    this.Delivers m s (bytes ++ bytes') t ↔
      ∃ u, this.Delivers m s bytes u ∧ this.Delivers m u bytes' t := by
  constructor
  · rintro ⟨hcb, as, has, hmap, hp⟩
    obtain ⟨as₁, as₂, rfl, rfl, rfl⟩ := List.map_eq_append_iff.mp hmap
    rw [List.map_append, Machine.plays_append] at hp
    obtain ⟨u, hu, hu'⟩ := hp
    exact ⟨u, ⟨hcb, as₁, fun a ha => has a (List.mem_append_left _ ha), rfl, hu⟩,
      hcb, as₂, fun a ha => has a (List.mem_append_right _ ha), rfl, hu'⟩
  · rintro ⟨u, ⟨hcb, as₁, h₁, rfl, hp₁⟩, -, as₂, h₂, rfl, hp₂⟩
    refine ⟨hcb, as₁ ++ as₂, ?_, List.map_append, ?_⟩
    · intro a ha
      exact (List.mem_append.mp ha).elim (h₁ a) (h₂ a)
    · rw [List.map_append]
      exact hp₁.append hp₂

theorem delivers_nil : this.Delivers m s [] t ↔ this.mRegisterAccessCallback = true ∧ t = s := by
  constructor
  · rintro ⟨hcb, as, -, hmap, hp⟩
    obtain rfl := List.map_eq_nil_iff.mp hmap
    exact ⟨hcb, Machine.plays_nil.mp hp⟩
  · rintro ⟨hcb, rfl⟩
    exact ⟨hcb, [], by simp, rfl, .nil t⟩

theorem Delivers.prefix {bytes stream : List UInt8} (h : this.Delivers m s stream t)
    (hb : bytes <+: stream) : ∃ u, this.Delivers m s bytes u ∧ (bytes = stream → u = t) := by
  obtain ⟨rest, rfl⟩ := hb
  obtain ⟨u, hu, hrest⟩ := delivers_append.mp h
  refine ⟨u, hu, fun heq => ?_⟩
  obtain rfl := List.self_eq_append_right.mp heq
  exact (delivers_nil.mp hrest).2.symm

def cleanRead (byte : UInt8) : AccessResult := ⟨.success, 1, [byte.toUInt32]⟩

theorem delivers_scripted (hcb : this.mRegisterAccessCallback = true) (bytes : List UInt8)
    (rest : List AccessResult) :
    this.Delivers scripted (bytes.map cleanRead ++ rest) bytes rest := by
  refine ⟨hcb, bytes.map cleanRead, ?_, ?_, ?_⟩
  · intro a ha
    obtain ⟨b, -, rfl⟩ := List.mem_map.mp ha
    exact ⟨rfl, rfl⟩
  · have hbyte : dataByte ∘ cleanRead = id := funext UInt8.toUInt8_toUInt32
    rw [List.map_map, hbyte, List.map_id]
  · induction bytes with
    | nil => exact .nil rest
    | cons b bytes ih => exact .cons ih

end

/-! ### The loop as a program -/

section
variable {startFlag : UInt8} {rxBufferLength fuel : Nat} {s : RxState} {out : RxResult}
  {bytes : List UInt8} {l : Trace}

theorem rxLoop_eq : this.rxLoop startFlag rxBufferLength (fuel + 1) s =
    this.registerAccess [this.readAccess] >>= fun a =>
      if (readResult a).1 ≠ .success then pure ⟨(readResult a).1, s.rxBuffer, s.actualLength⟩
      else lift (rxStep startFlag rxBufferLength s (dataByte a)) >>= fun
        | .done out => pure out
        | .more s => this.rxLoop startFlag rxBufferLength fuel s := by
  rw [rxLoop, eComRxRaw_eq, bind_assoc]
  congr 1
  funext a
  rw [pure_bind]
  rcases hr : readResult a with ⟨result, read⟩
  by_cases h : result = .success
  · subst h
    obtain ⟨-, rfl⟩ := readResult_eq_success.mp hr
    rfl
  · simp [h]

theorem readResult_of_clean {a : AccessResult} (h : a.result = .success ∧ a.accessesCompleted = 1) :
    readResult a = (.success, [dataByte a]) := readResult_eq_success.mpr ⟨h, rfl⟩

theorem run_of_receives (h : Receives startFlag rxBufferLength s bytes out)
    (hcb : this.mRegisterAccessCallback = true) {as : List AccessResult}
    (has : ∀ a ∈ as, a.result = .success ∧ a.accessesCompleted = 1)
    (hbytes : as.map dataByte = bytes) (hfuel : bytes.length ≤ fuel) :
    Run (this.rxLoop startFlag rxBufferLength fuel s) (as.map this.readEvent) (.ok out) := by
  induction h generalizing as fuel with
  | @last s byte out h =>
    obtain ⟨a, rfl, rfl⟩ := List.map_eq_singleton_iff.mp hbytes
    obtain ⟨fuel, rfl⟩ : ∃ n, fuel = n + 1 := Nat.exists_eq_add_of_le' hfuel
    rw [rxLoop_eq, run_access_bind hcb]
    refine ⟨a, [], rfl, ?_⟩
    rw [readResult_of_clean (has a (List.mem_singleton_self a)), h]
    exact .ret out
  | @next s s' byte bytes out h h' ih =>
    obtain ⟨a, as', rfl, rfl, hbytes'⟩ := List.map_eq_cons_iff.mp hbytes
    obtain ⟨fuel, rfl⟩ : ∃ n, fuel = n + 1 :=
      Nat.exists_eq_add_of_le' (Nat.le_trans (by simp) hfuel)
    rw [rxLoop_eq, run_access_bind hcb]
    refine ⟨a, as'.map this.readEvent, rfl, ?_⟩
    rw [readResult_of_clean (has a List.mem_cons_self), h]
    exact ih (fun b hb => has b (List.mem_cons_of_mem a hb)) hbytes' (by simpa using hfuel)

/-- How a run of the loop shows, and what is left of it behind its first turn. -/
inductive LoopTurn (this : ExternalComPortDriver) (startFlag : UInt8) (rxBufferLength fuel : Nat)
    (s : RxState) (r : Except Stop RxResult) : List Observation → Prop
  | silent : (∀ out, r = .ok out → out.res ≠ .success) → LoopTurn this _ _ _ s r []
  | done {byte : UInt8} {out : RxResult} : rxStep startFlag rxBufferLength s byte = .ok (.done out) →
      r = .ok out → LoopTurn this _ _ _ s r [.read byte]
  | stopped {byte : UInt8} {e : Stop} : rxStep startFlag rxBufferLength s byte = .error e →
      r = .error e → LoopTurn this _ _ _ s r [.read byte]
  | more {byte : UInt8} {s' : RxState} {l : Trace} :
      rxStep startFlag rxBufferLength s byte = .ok (.more s') →
      Run (this.rxLoop startFlag rxBufferLength fuel s') l r →
      LoopTurn this _ _ _ s r (.read byte :: this.traffic l)

theorem run_rxLoop_succ {r : Except Stop RxResult}
    (h : Run (this.rxLoop startFlag rxBufferLength (fuel + 1) s) l r) :
    this.LoopTurn startFlag rxBufferLength fuel s r (this.traffic l) := by
  rw [rxLoop_eq] at h
  cases hcb : this.mRegisterAccessCallback with
  | false =>
    obtain ⟨rfl, rfl⟩ := (run_access_bind_of_null hcb).mp h
    apply LoopTurn.silent
    intro out hr
    cases hr
  | true =>
    obtain ⟨a, l', rfl, h'⟩ := (run_access_bind hcb).mp h
    rw [← List.singleton_append, traffic_append]
    have hread := this.traffic_readEvent a
    rw [readEvent] at hread
    by_cases ha : a.result = .success ∧ a.accessesCompleted = 1
    · rw [if_pos ha] at hread
      rw [readResult_of_clean ha, if_neg (not_not.mpr rfl), run_bind] at h'
      rw [hread]
      rcases h' with ⟨step, l₁, l₂, rfl, h₁, h₂⟩ | ⟨e, rfl, he⟩
      · obtain ⟨rfl, hstep⟩ := run_lift.mp h₁
        cases step with
        | done out =>
          obtain ⟨rfl, hr⟩ := run_pure.mp h₂
          exact .done hstep.symm hr
        | more s' => exact .more hstep.symm h₂
      · obtain ⟨rfl, hstep⟩ := run_lift.mp he
        exact .stopped hstep.symm rfl
    · -- a failed access ends the loop before a byte is seen
      rw [if_neg ha] at hread
      have hres : (readResult a).1 ≠ .success := fun hs =>
        ha (readResult_eq_success.mp (Prod.ext hs rfl)).1
      rw [if_pos hres] at h'
      obtain ⟨rfl, rfl⟩ := run_pure.mp h'
      rw [hread]
      apply LoopTurn.silent
      intro out hr
      rw [← Except.ok.inj hr]
      exact hres

/-- What any run of the loop has read: either these bytes are a reading that ends in what it
returns, or they are no complete reading and it does not return success. -/
theorem run_rxLoop {r : Except Stop RxResult}
    (h : Run (this.rxLoop startFlag rxBufferLength fuel s) l r) :
    ∃ bytes : List UInt8, this.traffic l = bytes.map .read ∧
      ((∃ out, r = .ok out ∧ Receives startFlag rxBufferLength s bytes out) ∨
        ((∀ out, r = .ok out → out.res ≠ .success) ∧
          ∀ out, ¬Receives startFlag rxBufferLength s bytes out)) := by
  have hhalt (e : Stop) (out : RxResult) (hr : Except.error e = .ok out) : out.res ≠ .success := by
    cases hr
  induction fuel generalizing s l with
  | zero =>
    obtain ⟨rfl, rfl⟩ := run_halt.mp h
    exact ⟨[], rfl, .inr ⟨hhalt _, fun _ => not_receives_nil⟩⟩
  | succ fuel ih =>
    have hturn := run_rxLoop_succ h
    generalize this.traffic l = t at hturn
    cases hturn with
    | silent hres => exact ⟨[], rfl, .inr ⟨hres, fun _ => not_receives_nil⟩⟩
    | @done byte out hstep hr => exact ⟨[byte], rfl, .inl ⟨out, hr, .last hstep⟩⟩
    | @stopped byte e hstep hr =>
      rw [hr]
      exact ⟨[byte], rfl, .inr ⟨hhalt e, fun _ => not_receives_of_error hstep⟩⟩
    | @more byte s' l' hstep hrest =>
      obtain ⟨bytes, hb, hbytes⟩ := ih hrest
      refine ⟨byte :: bytes, ?_, ?_⟩
      · rw [hb, List.map_cons]
      · simpa only [receives_cons_of_more hstep] using hbytes

theorem traffic_readEvents {as : List AccessResult}
    (has : ∀ a ∈ as, a.result = .success ∧ a.accessesCompleted = 1) :
    this.traffic (as.map this.readEvent) = (as.map dataByte).map .read := by
  induction as with
  | nil => rfl
  | cons a as ih =>
    rw [List.map_cons, ← List.singleton_append, traffic_append, traffic_readEvent,
      if_pos (has a List.mem_cons_self), ih fun b hb => has b (List.mem_cons_of_mem a hb)]
    rfl

theorem exec_rxLoop {σ : Type} {m : Machine Host σ} {s₀ t : σ}
    (h : Receives startFlag rxBufferLength s bytes out) (hd : this.Delivers m s₀ bytes t)
    (hfuel : bytes.length ≤ fuel) :
    ∃ l, m.exec (this.rxLoop startFlag rxBufferLength fuel s) s₀ = (.ok out, l, t) ∧
      this.traffic l = bytes.map .read ∧ l.length = bytes.length := by
  obtain ⟨hcb, as, has, rfl, hp⟩ := hd
  exact ⟨_, Machine.exec_eq_iff.mpr ⟨run_of_receives h hcb has rfl hfuel, hp⟩,
    traffic_readEvents has, by simp⟩

end

/-! ### What the receiver accepts -/

section
variable {startFlag : UInt8} {rxBuffer pre : List UInt8} {rxBufferLength actualLength fuel : Nat}

theorem fits_nil_iff (hflag : IsStartFlag startFlag) :
    Receiver.Fits (sdc600 startFlag) maxPreNullFlags rxBufferLength {} pre ↔
      Receiver.leadingNulls (sdc600 startFlag) pre ≤ maxPreNullFlags ∧
        ∀ run ∈ pre.splitOn startFlag, (sdc600 startFlag).dataCount run ≤ rxBufferLength := by
  have lawful := sdc600_lawful hflag
  obtain ⟨seg, segs, hs⟩ := List.exists_cons_of_ne_nil (List.splitOn_ne_nil startFlag pre)
  rw [Receiver.fits_iff lawful.start_ne_null lawful.start_ne_esc lawful.esc_ne_null Receiver.ok_nil hs, hs]
  simp

theorem started_nil_run (hflag : IsStartFlag startFlag) :
    (({} : Receiver UInt8).run (sdc600 startFlag) pre).started = true ↔ startFlag ∈ pre := by
  have lawful := sdc600_lawful hflag
  rw [Receiver.started_run _ lawful.start_ne_null lawful.start_ne_esc, Bool.false_or]
  exact decide_eq_true_iff

variable (actualLength) in
theorem exists_receives (hflag : IsStartFlag startFlag) (room : Room rxBufferLength rxBuffer)
    (hend : flagEND ∉ pre) :
    ∃ bytes out, bytes <+: pre ++ [flagEND] ∧
      Receives startFlag rxBufferLength (rxStateOf rxBuffer actualLength {}) bytes out ∧
      (out.res = .success ↔ startFlag ∈ pre ∧
        Receiver.Fits (sdc600 startFlag) maxPreNullFlags rxBufferLength {} pre) ∧
      (out.res = .success → bytes = pre ++ [flagEND]) ∧
      ∃ ys, ys.length ≤ rxBufferLength ∧ out.rxBuffer = overlay rxBuffer ys := by
  by_cases hfits : Receiver.Fits (sdc600 startFlag) maxPreNullFlags rxBufferLength {} pre
  · refine ⟨_, _, List.prefix_refl _, receives_of_fits _ hflag room hend hfits, ?_, fun _ => rfl,
      _, (hfits.ok Receiver.ok_nil).length_image, rfl⟩
    rw [← started_nil_run hflag, and_iff_left hfits, rxResultOf]
    split_ifs with h <;> simp [h]
  · obtain ⟨bytes, out, hpre, hres, hys, hrec⟩ :=
      exists_receives_of_not_fits actualLength hflag room hend Receiver.ok_nil hfits
    refine ⟨bytes, out, hpre.trans (List.prefix_append _ _), hrec, ?_, fun h => absurd h hres, hys⟩
    exact iff_of_false hres fun h => hfits h.2

variable (actualLength) in
/-- The receiver is exact: it succeeds just on the streams in which a start flag comes
before the end flag, at most 10000 idle bytes come before that, and no stretch between two
start flags outgrows the buffer. -/
theorem eComPortRxInt_exact {σ : Type} {m : Machine Host σ} {s t : σ}
    (hflag : IsStartFlag startFlag) (room : Room rxBufferLength rxBuffer) (hend : flagEND ∉ pre)
    (hs : this.Delivers m s (pre ++ [flagEND]) t) (hfuel : pre.length < fuel) :
    ∃ out l s', m.exec (this.eComPortRxInt fuel startFlag rxBuffer rxBufferLength actualLength) s =
        (.ok out, l, s') ∧
      (out.res = .success ↔ startFlag ∈ pre ∧
        (pre.takeWhile (· ≠ startFlag)).count flagNULL ≤ 10000 ∧
        ∀ run ∈ pre.splitOn startFlag,
          (run.countP fun b => b ≠ flagNULL && b ≠ flagESC) ≤ rxBufferLength) ∧
      (out.res = .success → l.length = pre.length + 1 ∧
        this.traffic l = (pre ++ [flagEND]).map .read ∧ s' = t) ∧
      out.rxBuffer.length = rxBuffer.length ∧
      out.rxBuffer.drop rxBufferLength = rxBuffer.drop rxBufferLength ∧
      ((pre.takeWhile (· ≠ startFlag)).count flagNULL ≤ 10000 →
        ∀ {σ' : Type} (m' : Machine Host σ') (s₁ t₁ : σ'),
          this.Delivers m' s₁ (pre.filter (· ≠ flagNULL) ++ [flagEND]) t₁ →
          ∃ l' s₁', m'.exec (this.eComPortRxInt fuel startFlag rxBuffer rxBufferLength actualLength)
            s₁ = (.ok out, l', s₁')) ∧
      (startFlag = flagSTART → this.mIsComPortInited = true →
        m.exec (this.eComPortRx fuel rxBuffer rxBufferLength actualLength) s = (.ok out, l, s')) := by
  obtain ⟨bytes, out, hpre, hrec, hres, hall, ys, hys, hbuf⟩ :=
    exists_receives actualLength hflag room hend
  obtain ⟨s', hs', hlast⟩ := hs.prefix hpre
  have hlen : (pre ++ [flagEND]).length ≤ fuel := by simpa using Nat.succ_le_of_lt hfuel
  obtain ⟨l, hexec, htraffic, hl⟩ := exec_rxLoop hrec hs' (Nat.le_trans hpre.length_le hlen)
  refine ⟨out, l, s', hexec, ?_, ?_, ?_, ?_, ?_, ?_⟩
  · rw [hres, fits_nil_iff hflag]
    rfl
  · intro hsuccess
    obtain rfl := hall hsuccess
    exact ⟨by rw [hl]; simp, htraffic, hlast rfl⟩
  · rw [hbuf, length_overlay, max_eq_left (Nat.le_trans hys room.memory)]
  · rw [hbuf, drop_overlay hys]
  · intro hnulls σ' m' s₁ t₁ hs₁
    have hfilter := hrec.filter hflag 0 hpre (by
      show 0 + Receiver.leadingNulls (sdc600 startFlag) _ ≤ _
      have hne : flagEND ≠ (sdc600 startFlag).null := (sdc600_lawful hflag).stop_ne_null
      rw [Receiver.leadingNulls_concat hne, Nat.zero_add]
      exact hnulls)
    have hpre' : bytes.filter (· ≠ flagNULL) <+: pre.filter (· ≠ flagNULL) ++ [flagEND] := by
      have := hpre.filter (· ≠ flagNULL)
      rwa [List.filter_append] at this
    obtain ⟨s₁', hs₁', -⟩ := hs₁.prefix hpre'
    have hlen' := (List.length_filter_le (· ≠ flagNULL) bytes).trans (hpre.length_le.trans hlen)
    obtain ⟨l', hexec', -, -⟩ := exec_rxLoop hfilter hs₁' hlen'
    exact ⟨l', s₁', hexec'⟩
  · rintro rfl hinit
    rw [eComPortRx, hinit]
    exact hexec

theorem eComPortRxInt_exact_noise :
    ∃ out l s', scripted.exec ((new .armADIv5 true true true).eComPortRxInt 9 flagIDA [0, 0] 2 0)
        ([0x11, flagIDA, 0x12, 0x13, flagIDA, 0x14, flagNULL, flagEND].map cleanRead ++ []) =
      (.ok out, l, s') ∧ out.res = .success := by
  have hd : (new .armADIv5 true true true).Delivers scripted _
      ([0x11, flagIDA, 0x12, 0x13, flagIDA, 0x14, flagNULL] ++ [flagEND]) [] :=
    delivers_scripted rfl _ []
  have room : Room 2 [0, 0] := ⟨by decide, by decide⟩
  have hfuel : 7 < 9 := by decide
  obtain ⟨out, l, s', hexec, hiff, -⟩ :=
    eComPortRxInt_exact 0 (.inr rfl : IsStartFlag flagIDA) room (by decide) hd hfuel
  exact ⟨out, l, s', hexec, hiff.mpr (by decide)⟩

end

end ExternalComPortDriver
end SecureDebug
