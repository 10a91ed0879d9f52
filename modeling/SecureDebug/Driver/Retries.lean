import SecureDebug.Driver.Device
import SecureDebug.Driver.Transmit

/-! The retries of `EComSendByte` and `EComReadByte` against a device without errors: which status
is the last they read, and when a time-out says that it was not ready. -/

namespace SecureDebug
open Interaction Program

namespace ExternalComPortDriver
variable {this : ExternalComPortDriver} {level : Status → UInt8} {sr : Nat → UInt32} {a : AccessResult}

/-- A device whose status register reads as `sr`, value after value, and that answers any other
access with `a`. Its state is the number of status values read. -/
def polled (this : ExternalComPortDriver) (sr : Nat → UInt32) (a : AccessResult) :
    Machine Host Nat where
  answer
    | .registerAccess accesses, n =>
      if accesses = [this.statusAccess] then (clean (sr n), n + 1) else (a, n)
    | c, n => ((scripted.answer c []).1, n)

theorem fst_readByteResult (byte : UInt8) (a : AccessResult) :
    (readByteResult byte a).1 = (readResult a).1 := by
  rw [readByteResult]
  split_ifs with h
  · exact h.symm
  · rfl

/-- The first status that is ready is the one read when the retries are used up. -/
def Late (level : Status → UInt8) (sr : Nat → UInt32) : Prop :=
  (∀ i < maxRetries, level (statusOfSR (sr i)) = 0) ∧ level (statusOfSR (sr maxRetries)) ≠ 0

section
variable (hcb : this.mRegisterAccessCallback = true)
include hcb

theorem exec_polled_status {β : Type} (sr : Nat → UInt32) (a : AccessResult)
    (f : AccessResult → Sdm β) (n : Nat) :
    (polled this sr a).exec (this.registerAccess [this.statusAccess] >>= f) n =
      let out := (polled this sr a).exec (f (clean (sr n))) (n + 1)
      (out.1, this.statusEvent (clean (sr n)) :: out.2.1, out.2.2) := by
  have hanswer : (polled this sr a).answer (.registerAccess [this.statusAccess]) n =
      (clean (sr n), n + 1) := if_pos rfl
  exact exec_access_bind hcb hanswer f

theorem exec_pollLoop (level : Status → UInt8) (a : AccessResult) (hsr : ∀ n, ¬Faulty (sr n))
    (left k : Nat) :
    ∃ n ≤ left, (∀ i < n, level (statusOfSR (sr (k + i))) = 0) ∧
      ∃ x l, (polled this sr a).exec (this.pollLoop level left) k = (.ok (.ok x), l, k + n + 1) ∧
        ((level (statusOfSR (sr (k + n))) ≠ 0 ∧ x = maxRetries - (left - n)) ∨
          (n = left ∧ level (statusOfSR (sr (k + n))) = 0 ∧ x = maxRetries + 1)) := by
  induction left generalizing k with
  | zero =>
    refine ⟨0, Nat.le_refl 0, fun i hi => absurd hi (Nat.not_lt_zero i), ?_⟩
    rw [pollLoop_eq, exec_polled_status hcb, pollResult_clean (hsr k), Nat.add_zero]
    by_cases hready : level (statusOfSR (sr k)) = 0
    · rw [decide_eq_false (not_not.mpr hready)]
      exact ⟨_, _, rfl, .inr ⟨rfl, hready, rfl⟩⟩
    · rw [decide_eq_true hready]
      exact ⟨_, _, rfl, .inl ⟨hready, rfl⟩⟩
  | succ left ih =>
    rw [pollLoop_eq, exec_polled_status hcb, pollResult_clean (hsr k)]
    by_cases hready : level (statusOfSR (sr k)) = 0
    · obtain ⟨n, hn, hidle, x, l, hexec, hx⟩ := ih (k + 1)
      have hshift (i : Nat) : k + (i + 1) = k + 1 + i := by omega
      refine ⟨n + 1, Nat.succ_le_succ hn, fun i hi => ?_, x,
        this.statusEvent (clean (sr k)) :: l, ?_, ?_⟩
      · cases i with
        | zero => exact hready
        | succ i =>
          rw [hshift]
          exact hidle i (Nat.lt_of_succ_lt_succ hi)
      · rw [decide_eq_false (not_not.mpr hready)]
        dsimp only
        rw [hexec, ← hshift n]
      · rw [hshift, Nat.add_sub_add_right, Nat.add_right_cancel_iff]
        exact hx
    · rw [decide_eq_true hready]
      exact ⟨0, Nat.zero_le _, fun i hi => absurd hi (Nat.not_lt_zero i), _, _, rfl, .inl ⟨hready, rfl⟩⟩

theorem exec_polledAccess {β : Type} (level : Status → UInt8) (fail : SDMReturnCode → β)
    {accesses : List SDMRegisterAccess} (finish : AccessResult → β) (a : AccessResult)
    (hsr : ∀ n, ¬Faulty (sr n)) (hother : accesses ≠ [this.statusAccess]) :
    ∃ n r l, (polled this sr a).exec (this.polledAccess level fail accesses finish) 0 = (r, l, n + 1) ∧
      (∀ i < n, level (statusOfSR (sr i)) = 0) ∧
      ((n < maxRetries ∧ level (statusOfSR (sr n)) ≠ 0 ∧ r = .ok (finish a) ∧
          ⟨.registerAccess accesses, a⟩ ∈ l) ∨
        (n = maxRetries ∧ r = .ok (fail .timeoutError))) := by
  have hanswer (n : Nat) : (polled this sr a).answer (.registerAccess accesses) n = (a, n) :=
    if_neg hother
  obtain ⟨n, hn, hidle, x, l, hexec, hx⟩ := exec_pollLoop hcb level a hsr maxRetries 0
  rw [Nat.zero_add] at hexec hx
  simp only [Nat.zero_add] at hidle
  rw [Nat.sub_sub_self hn] at hx
  rw [polledAccess, Machine.exec_bind, hexec]
  dsimp only
  by_cases hlast : n = maxRetries
  · have hused : x ≥ maxRetries := by
      rcases hx with ⟨-, rfl⟩ | ⟨-, -, rfl⟩
      · exact hlast.ge
      · exact Nat.le_succ _
    rw [if_pos hused]
    exact ⟨n, _, _, rfl, hidle, .inr ⟨hlast, rfl⟩⟩
  · -- retries are left only where the loop ended on a status that is ready
    obtain ⟨hready, rfl⟩ := hx.resolve_right fun h => hlast h.1
    have hlt := Nat.lt_of_le_of_ne hn hlast
    rw [if_neg (Nat.not_le.mpr hlt), exec_access_bind hcb (hanswer _)]
    exact ⟨_, _, _, rfl, hidle, .inl ⟨hlt, hready, rfl, by simp⟩⟩

theorem polledAccess_timeout_iff {β : Type} (level : Status → UInt8) (fail : SDMReturnCode → β)
    {accesses : List SDMRegisterAccess} (finish : AccessResult → β) (code : β → SDMReturnCode)
    (a : AccessResult) (hsr : ∀ n, ¬Faulty (sr n)) (hother : accesses ≠ [this.statusAccess])
    (hfail : code (fail .timeoutError) = .timeoutError) :
    ∃ n r l, (polled this sr a).exec (this.polledAccess level fail accesses finish) 0 = (r, l, n + 1) ∧
      n ≤ maxRetries ∧
      (((r.map code = .ok .timeoutError → level (statusOfSR (sr n)) = 0) ∧
          (level (statusOfSR (sr n)) ≠ 0 → ⟨.registerAccess accesses, a⟩ ∈ l)) ↔
        ¬Late level sr ∧ ((∃ i < maxRetries, level (statusOfSR (sr i)) ≠ 0) →
          code (finish a) ≠ .timeoutError)) := by
  obtain ⟨n, r, l, hexec, hidle, ⟨hlt, hready, rfl, hmem⟩ | ⟨rfl, rfl⟩⟩ :=
    exec_polledAccess hcb level fail finish a hsr hother
  · refine ⟨n, _, l, hexec, hlt.le, ?_⟩
    have hlate : ¬Late level sr := fun h => hready (h.1 n hlt)
    rw [and_iff_left fun _ => hmem, and_iff_right hlate]
    constructor
    · intro h _ hcode
      exact hready (h (congrArg Except.ok hcode))
    · intro h hcode
      exact absurd (Except.ok.inj hcode) (h ⟨n, hlt, hready⟩)
  · refine ⟨maxRetries, _, l, hexec, Nat.le_refl _, ?_⟩
    have hcode : Except.map code (.ok (fail .timeoutError) : Except Stop β) = .ok .timeoutError :=
      congrArg Except.ok hfail
    constructor
    · intro h
      refine ⟨fun hlate => hlate.2 (h.1 hcode), fun hready => ?_⟩
      obtain ⟨i, hi, hne⟩ := hready
      exact absurd (hidle i hi) hne
    · intro h
      have hzero : level (statusOfSR (sr maxRetries)) = 0 := by
        by_contra hne
        exact h.1 ⟨hidle, hne⟩
      exact ⟨fun _ => hzero, fun hne => absurd hzero hne⟩

/-- A time-out means that the last status read was not ready, and a ready status leads to the
access, just if the device does not become ready with the last retry and the access that follows
an earlier one does not itself come back with the time-out code. -/
theorem eComSendByte_timeout_iff (sr : Nat → UInt32) (hsr : ∀ n, ¬Faulty (sr n)) (a : AccessResult)
    (byte : UInt8) :
    (∃ n r l, (polled this sr a).exec (this.eComSendByte byte) 0 = (r, l, n + 1) ∧ n + 1 ≤ 5001 ∧
      (((r = .ok .timeoutError → (statusOfSR (sr n)).txFree = 0) ∧
          ((statusOfSR (sr n)).txFree ≠ 0 → this.writeEvent false [byte] a ∈ l)) ↔
        ¬Late Status.txFree sr ∧ ((∃ i < maxRetries, (statusOfSR (sr i)).txFree ≠ 0) →
          writeResult 1 a ≠ .timeoutError))) ∧
    ∃ n r l, (polled this sr a).exec (this.eComReadByte byte) 0 = (r, l, n + 1) ∧ n + 1 ≤ 5001 ∧
      (((r.map Prod.fst = .ok .timeoutError → (statusOfSR (sr n)).rxData = 0) ∧
          ((statusOfSR (sr n)).rxData ≠ 0 → this.readEvent a ∈ l)) ↔
        ¬Late Status.rxData sr ∧ ((∃ i < maxRetries, (statusOfSR (sr i)).rxData ≠ 0) →
          (readResult a).1 ≠ .timeoutError)) := by
  have hwrite : [this.writeAccess false byte] ≠ [this.statusAccess] := by
    intro h
    have hop := congrArg SDMRegisterAccess.op (List.cons.inj h).1
    cases hop
  have hread : [this.readAccess] ≠ [this.statusAccess] := by
    intro h
    have haddr := congrArg SDMRegisterAccess.address (List.cons.inj h).1
    exact absurd ((this.regAddr_inj).mp haddr) (by decide)
  constructor
  · obtain ⟨n, r, l, hexec, hn, hiff⟩ :=
      polledAccess_timeout_iff hcb Status.txFree id (writeResult 1) id a hsr hwrite rfl
    rw [← eComSendByte_eq] at hexec
    refine ⟨n, r, l, hexec, Nat.succ_le_succ hn, ?_⟩
    rwa [show r.map id = r by cases r <;> rfl] at hiff
  · obtain ⟨n, r, l, hexec, hn, hiff⟩ := polledAccess_timeout_iff hcb Status.rxData (·, byte)
      (readByteResult byte) Prod.fst a hsr hread rfl
    rw [← eComReadByte_eq] at hexec
    rw [fst_readByteResult] at hiff
    exact ⟨n, r, l, hexec, Nat.succ_le_succ hn, hiff⟩

end

def readyFrom (k n : Nat) : UInt32 := if n < k then 0 else 0x00010001

theorem not_faulty_readyFrom (k n : Nat) : ¬Faulty (readyFrom k n) := by
  rw [readyFrom]
  split_ifs
  · exact fun h => by simp [Faulty, statusOfSR] at h
  · rw [Faulty]
    decide

theorem eComSendByte_timeout_iff_soon :
    (¬Late Status.txFree (readyFrom 3) ∧
      ∃ n r l, (polled inited (readyFrom 3) ⟨.success, 1, []⟩).exec (inited.eComSendByte 0x41) 0 =
          (r, l, n + 1) ∧ n + 1 ≤ 5001 ∧
        (r = .ok .timeoutError → (statusOfSR (readyFrom 3 n)).txFree = 0) ∧
        ((statusOfSR (readyFrom 3 n)).txFree ≠ 0 →
          inited.writeEvent false [0x41] ⟨.success, 1, []⟩ ∈ l)) ∧
    ¬Late Status.rxData (readyFrom 3) ∧
      ∃ n r l, (polled inited (readyFrom 3) ⟨.success, 1, []⟩).exec (inited.eComReadByte 0x41) 0 =
          (r, l, n + 1) ∧ n + 1 ≤ 5001 ∧
        (r.map Prod.fst = .ok .timeoutError → (statusOfSR (readyFrom 3 n)).rxData = 0) ∧
        ((statusOfSR (readyFrom 3 n)).rxData ≠ 0 → inited.readEvent ⟨.success, 1, []⟩ ∈ l) := by
  obtain ⟨⟨n, r, l, hexec, hn, hsend⟩, n', r', l', hexec', hn', hread⟩ :=
    eComSendByte_timeout_iff (show inited.mRegisterAccessCallback = true from rfl) (readyFrom 3)
      (not_faulty_readyFrom 3) ⟨.success, 1, []⟩ 0x41
  have hroom : ¬Late Status.txFree (readyFrom 3) := fun h => absurd (h.1 3 (by decide)) (by decide)
  have hdata : ¬Late Status.rxData (readyFrom 3) := fun h => absurd (h.1 3 (by decide)) (by decide)
  exact ⟨⟨hroom, n, r, l, hexec, hn, hsend.mpr ⟨hroom, fun _ => by decide⟩⟩,
    hdata, n', r', l', hexec', hn', hread.mpr ⟨hdata, fun _ => by decide⟩⟩

/-- Room that shows with the last status of 5001 comes too late. -/
theorem eComSendByte_timeout_iff_ready :
    ¬∀ (this : ExternalComPortDriver) (sr : Nat → UInt32) (a : AccessResult) (byte : UInt8),
      this.mRegisterAccessCallback = true → (∀ n, ¬Faulty (sr n)) → writeResult 1 a = .success →
      ∃ n r l, (polled this sr a).exec (this.eComSendByte byte) 0 = (r, l, n + 1) ∧
        (r = .ok .timeoutError → (statusOfSR (sr n)).txFree = 0) := by
  intro h
  obtain ⟨n, r, l, hexec, hready⟩ :=
    h inited (readyFrom maxRetries) ⟨.success, 1, []⟩ 0x41 rfl (not_faulty_readyFrom maxRetries) rfl
  have hwrite : [inited.writeAccess false 0x41] ≠ [inited.statusAccess] := by decide
  have hidle (i : Nat) (hi : i < maxRetries) : (statusOfSR (readyFrom maxRetries i)).txFree = 0 := by
    rw [readyFrom, if_pos hi]
    rfl
  have hroom : (statusOfSR (readyFrom maxRetries maxRetries)).txFree ≠ 0 := by
    rw [readyFrom, if_neg (Nat.lt_irrefl _)]
    decide
  have hcb : inited.mRegisterAccessCallback = true := rfl
  obtain ⟨n', r', l', hexec', -, ⟨hlt, hne, -⟩ | ⟨rfl, rfl⟩⟩ := exec_polledAccess hcb
    Status.txFree id (writeResult 1) ⟨.success, 1, []⟩ (not_faulty_readyFrom maxRetries) hwrite
  · exact hne (hidle n' hlt)
  · rw [← eComSendByte_eq, hexec] at hexec'
    cases hexec'
    exact hroom (hready rfl)

end ExternalComPortDriver
end SecureDebug
