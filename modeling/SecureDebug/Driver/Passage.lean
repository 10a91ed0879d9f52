import SecureDebug.Driver.Stream
import SecureDebug.Framing.Escape
import SecureDebug.Interaction.Ending
import SecureDebug.Interaction.Steps

/-! What the receive loop passes over, for a buffer of any length: each turn that goes on as a
step of its variables, and what these say about the bytes read so far. The index is 16 bits wide,
so a message can be stored over its own beginning. -/

namespace SecureDebug
open Interaction Program Framing

def indexRange : Nat := 2 ^ 16

structure IsData (startFlag byte : UInt8) : Prop where
  ne_end : byte ≠ flagEND
  ne_null : byte ≠ flagNULL
  ne_esc : byte ≠ flagESC
  ne_start : byte ≠ startFlag

/-- One turn of the receive loop after which it reads on. -/
inductive Turn (startFlag : UInt8) (rxBufferLength : Nat) (s : RxState) : UInt8 → RxState → Prop
  | null : s.preNullFlags + (if s.isStartRecv then 0 else 1) ≤ maxPreNullFlags →
      Turn startFlag rxBufferLength s flagNULL
        { s with preNullFlags := s.preNullFlags + if s.isStartRecv then 0 else 1 }
  | esc : Turn startFlag rxBufferLength s flagESC { s with isEscRecv := true }
  | start : Turn startFlag rxBufferLength s startFlag { s with bufferIdx := 0, isStartRecv := true }
  | data {byte : UInt8} : IsData startFlag byte → s.bufferIdx < rxBufferLength →
      s.bufferIdx < s.rxBuffer.length →
      Turn startFlag rxBufferLength s byte { s with
        isEscRecv := false
        rxBuffer := s.rxBuffer.set s.bufferIdx (if s.isEscRecv then byte ||| 0x80 else byte)
        bufferIdx := (s.bufferIdx + 1) % indexRange
        actualLength := (s.bufferIdx + 1) % indexRange }

abbrev PassesOver (startFlag : UInt8) (rxBufferLength : Nat) : RxState → List UInt8 → RxState → Prop :=
  Steps (Turn startFlag rxBufferLength)

section
variable {startFlag byte : UInt8} {rxBufferLength : Nat} {s s' : RxState} {bytes bytes' pre : List UInt8}
  {out : RxResult}

theorem isData_or (startFlag byte : UInt8) : byte = flagEND ∨ byte = flagNULL ∨ byte = flagESC ∨
    byte = startFlag ∨ IsData startFlag byte := by
  by_contra h
  simp only [not_or] at h
  obtain ⟨hend, hnull, hesc, hstart, hdata⟩ := h
  exact hdata ⟨hend, hnull, hesc, hstart⟩

/-! ### The loop body, one kind of byte at a time -/

theorem rxStep_end : rxStep startFlag rxBufferLength s flagEND =
    .ok (.done ⟨if s.isStartRecv then .success else .internalError, s.rxBuffer, s.actualLength⟩) := by
  rw [rxStep, if_pos rfl]
  cases s.isStartRecv <;> rfl

theorem rxStep_null : rxStep startFlag rxBufferLength s flagNULL =
    if s.preNullFlags + (if s.isStartRecv then 0 else 1) ≤ maxPreNullFlags then
      .ok (.more { s with preNullFlags := s.preNullFlags + if s.isStartRecv then 0 else 1 })
    else .ok (.done ⟨.timeoutError, s.rxBuffer, s.actualLength⟩) := by
  by_cases hle : s.preNullFlags + (if s.isStartRecv then 0 else 1) ≤ maxPreNullFlags
  · rw [if_pos hle, rxStep_flagNULL hle]
  rw [if_neg hle, rxStep, if_neg (by decide), if_pos rfl]
  cases hs : s.isStartRecv with
  | true =>
    simp only [hs, if_true, Nat.add_zero] at hle ⊢
    rw [if_pos (Nat.lt_of_not_le hle)]
  | false =>
    simp only [hs, Bool.false_eq_true, if_false] at hle ⊢
    rw [if_pos (Nat.lt_of_not_le hle)]

theorem rxStep_esc :
    rxStep startFlag rxBufferLength s flagESC = .ok (.more { s with isEscRecv := true }) := rfl

theorem rxStep_start (hflag : IsStartFlag startFlag) : rxStep startFlag rxBufferLength s startFlag =
    .ok (.more { s with bufferIdx := 0, isStartRecv := true }) := by
  have lawful := sdc600_lawful hflag
  have hend : startFlag ≠ flagEND := lawful.start_ne_stop
  have hnull : startFlag ≠ flagNULL := lawful.start_ne_null
  have hesc : startFlag ≠ flagESC := lawful.start_ne_esc
  rw [rxStep, if_neg hend, if_neg hnull, if_neg hesc, if_pos rfl]

theorem rxStep_data (h : IsData startFlag byte) : rxStep startFlag rxBufferLength s byte =
    if s.bufferIdx ≥ rxBufferLength then .ok (.done ⟨.internalError, s.rxBuffer, s.actualLength⟩)
    else do
      let rxBuffer ← store s.rxBuffer s.bufferIdx (if s.isEscRecv then byte ||| 0x80 else byte)
      return .more { s with
        isEscRecv := false
        rxBuffer
        bufferIdx := (s.bufferIdx + 1) % indexRange
        actualLength := (s.bufferIdx + 1) % indexRange } := by
  rw [rxStep, if_neg h.ne_end, if_neg h.ne_null, if_neg h.ne_esc, if_neg h.ne_start]
  rfl

theorem rxStep_more_iff (hflag : IsStartFlag startFlag) :
    rxStep startFlag rxBufferLength s byte = .ok (.more s') ↔
      Turn startFlag rxBufferLength s byte s' := by
  constructor
  · intro h
    rcases isData_or startFlag byte with hb | hb | hb | hb | hdata
    · rw [hb, rxStep_end] at h
      cases h
    · rw [hb, rxStep_null] at h
      rw [hb]
      by_cases hle : s.preNullFlags + (if s.isStartRecv then 0 else 1) ≤ maxPreNullFlags
      · rw [if_pos hle] at h
        cases h
        exact .null hle
      · rw [if_neg hle] at h
        cases h
    · rw [hb, rxStep_esc] at h
      cases h
      rw [hb]
      exact .esc
    · rw [hb, rxStep_start hflag] at h
      cases h
      rw [hb]
      exact .start
    · rw [rxStep_data hdata] at h
      by_cases hfull : s.bufferIdx ≥ rxBufferLength
      · rw [if_pos hfull] at h
        cases h
      rw [if_neg hfull, store] at h
      by_cases hmem : s.bufferIdx < s.rxBuffer.length
      · rw [if_pos hmem] at h
        cases h
        exact .data hdata (Nat.lt_of_not_le hfull) hmem
      · rw [if_neg hmem] at h
        cases h
  · intro h
    cases h with
    | null hle => rw [rxStep_null, if_pos hle]
    | esc => exact rxStep_esc
    | start => exact rxStep_start hflag
    | data hdata hroom hmem =>
      rw [rxStep_data hdata, if_neg (Nat.not_le.mpr hroom), store, if_pos hmem]
      rfl

/-- Why the loop ends, and with which code. -/
inductive Leaves (startFlag : UInt8) (rxBufferLength : Nat) (s : RxState) : UInt8 → SDMReturnCode → Prop
  | stop : Leaves startFlag rxBufferLength s flagEND
      (if s.isStartRecv then .success else .internalError)
  | late : maxPreNullFlags < s.preNullFlags + (if s.isStartRecv then 0 else 1) →
      Leaves startFlag rxBufferLength s flagNULL .timeoutError
  | full {byte : UInt8} : IsData startFlag byte → rxBufferLength ≤ s.bufferIdx →
      Leaves startFlag rxBufferLength s byte .internalError

theorem rxStep_done (hflag : IsStartFlag startFlag)
    (h : rxStep startFlag rxBufferLength s byte = .ok (.done out)) :
    Leaves startFlag rxBufferLength s byte out.res ∧ out = ⟨out.res, s.rxBuffer, s.actualLength⟩ := by
  rcases isData_or startFlag byte with hb | hb | hb | hb | hdata
  · rw [hb, rxStep_end] at h
    cases h
    rw [hb]
    exact ⟨.stop, rfl⟩
  · rw [hb, rxStep_null] at h
    rw [hb]
    by_cases hle : s.preNullFlags + (if s.isStartRecv then 0 else 1) ≤ maxPreNullFlags
    · rw [if_pos hle] at h
      cases h
    · rw [if_neg hle] at h
      cases h
      exact ⟨.late (Nat.lt_of_not_le hle), rfl⟩
  · rw [hb, rxStep_esc] at h
    cases h
  · rw [hb, rxStep_start hflag] at h
    cases h
  · rw [rxStep_data hdata] at h
    by_cases hfull : s.bufferIdx ≥ rxBufferLength
    · rw [if_pos hfull] at h
      cases h
      exact ⟨.full hdata hfull, rfl⟩
    · rw [if_neg hfull] at h
      cases hb : store s.rxBuffer s.bufferIdx (if s.isEscRecv then byte ||| 0x80 else byte) with
      | ok rxBuffer =>
        rw [hb] at h
        cases h
      | error e =>
        rw [hb] at h
        cases h

theorem turn_or_leaves (byte : UInt8)
    (hmem : s.bufferIdx < rxBufferLength → s.bufferIdx < s.rxBuffer.length) :
    (∃ s', Turn startFlag rxBufferLength s byte s') ∨
      ∃ res, rxStep startFlag rxBufferLength s byte = .ok (.done ⟨res, s.rxBuffer, s.actualLength⟩) := by
  rcases isData_or startFlag byte with hb | hb | hb | hb | hdata
  · rw [hb]
    exact .inr ⟨_, rxStep_end⟩
  · rw [hb]
    by_cases hle : s.preNullFlags + (if s.isStartRecv then 0 else 1) ≤ maxPreNullFlags
    · exact .inl ⟨_, .null hle⟩
    · rw [rxStep_null, if_neg hle]
      exact .inr ⟨_, rfl⟩
  · rw [hb]
    exact .inl ⟨_, .esc⟩
  · rw [hb]
    exact .inl ⟨_, .start⟩
  · by_cases hfull : s.bufferIdx ≥ rxBufferLength
    · rw [rxStep_data hdata, if_pos hfull]
      exact .inr ⟨_, rfl⟩
    · have hroom := Nat.lt_of_not_le hfull
      exact .inl ⟨_, .data hdata hroom (hmem hroom)⟩

/-! ### Readings -/

theorem receives_of_passes (hflag : IsStartFlag startFlag)
    (h : PassesOver startFlag rxBufferLength s pre s')
    (h' : Receives startFlag rxBufferLength s' bytes out) :
    Receives startFlag rxBufferLength s (pre ++ bytes) out := by
  induction h with
  | nil s => exact h'
  | cons hturn _ ih => exact .next ((rxStep_more_iff hflag).mpr hturn) (ih h')

theorem Receives.exists_passes (hflag : IsStartFlag startFlag)
    (h : Receives startFlag rxBufferLength s bytes out) :
    ∃ pre byte s', bytes = pre ++ [byte] ∧ PassesOver startFlag rxBufferLength s pre s' ∧
      rxStep startFlag rxBufferLength s' byte = .ok (.done out) := by
  induction h with
  | @last s byte out h => exact ⟨[], byte, s, rfl, .nil s, h⟩
  | @next s s₁ byte bytes out h _ ih =>
    obtain ⟨pre, last, s', rfl, hpass, hlast⟩ := ih
    exact ⟨byte :: pre, last, s', rfl, .cons ((rxStep_more_iff hflag).mp h) hpass, hlast⟩

theorem Receives.exists_passes_of_success (hflag : IsStartFlag startFlag)
    (h : Receives startFlag rxBufferLength s bytes out) (hres : out.res = .success) :
    ∃ pre s', bytes = pre ++ [flagEND] ∧ PassesOver startFlag rxBufferLength s pre s' ∧
      s'.isStartRecv = true ∧ out = ⟨.success, s'.rxBuffer, s'.actualLength⟩ := by
  obtain ⟨pre, byte, s', rfl, hpass, hlast⟩ := h.exists_passes hflag
  obtain ⟨hleaves, hout⟩ := rxStep_done hflag hlast
  rw [hres] at hout
  generalize hcode : out.res = code at hleaves
  cases hleaves with
  | stop =>
    refine ⟨pre, s', rfl, hpass, ?_, hout⟩
    cases hs : s'.isStartRecv with
    | true => rfl
    | false =>
      rw [hs, hres] at hcode
      cases hcode
  | late =>
    rw [hres] at hcode
    cases hcode
  | full =>
    rw [hres] at hcode
    cases hcode

theorem turn_not_end (hflag : IsStartFlag startFlag) (h : Turn startFlag rxBufferLength s byte s') :
    byte ≠ flagEND := by
  have lawful := sdc600_lawful hflag
  have hend : startFlag ≠ flagEND := lawful.start_ne_stop
  cases h with
  | null => decide
  | esc => decide
  | start => exact hend
  | data hdata => exact hdata.ne_end

end

/-! ### What the variables say -/

/-- The variables of the loop after the bytes `pre`, read into `rxBuffer`. -/
structure Heard (startFlag : UInt8) (rxBufferLength : Nat) (rxBuffer pre : List UInt8) (s : RxState) :
    Prop where
  live : flagEND ∉ pre
  nulls : s.preNullFlags = Receiver.leadingNulls (sdc600 startFlag) pre
  early : s.preNullFlags ≤ maxPreNullFlags
  started : s.isStartRecv = decide (startFlag ∈ pre)
  escaping : s.isEscRecv = (sdc600 startFlag).pending pre
  index : s.bufferIdx =
    (sdc600 startFlag).dataCount (Alphabet.lastRun startFlag pre) % indexRange
  room : rxBufferLength < indexRange →
    (sdc600 startFlag).dataCount (Alphabet.lastRun startFlag pre) ≤ rxBufferLength
  size : s.rxBuffer.length = rxBuffer.length

section
variable {startFlag byte : UInt8} {rxBufferLength actualLength : Nat} {s s' : RxState}
  {rxBuffer bytes pre : List UInt8} {out : RxResult}

theorem heard_nil (startFlag : UInt8) (rxBufferLength : Nat) (rxBuffer : List UInt8)
    (actualLength : Nat) :
    Heard startFlag rxBufferLength rxBuffer [] (rxStateOf rxBuffer actualLength {}) where
  live := List.not_mem_nil
  nulls := rfl
  early := Nat.zero_le _
  started := rfl
  escaping := rfl
  index := rfl
  room _ := Nat.zero_le _
  size := rfl

theorem dataCount_concat_data (h : IsData startFlag byte) (as : List UInt8) :
    (sdc600 startFlag).dataCount (as ++ [byte]) = (sdc600 startFlag).dataCount as + 1 := by
  have hdata : (sdc600 startFlag).isData byte = true := by
    rw [Alphabet.isData, Bool.and_eq_true, decide_eq_true_iff, decide_eq_true_iff]
    exact ⟨h.ne_null, h.ne_esc⟩
  rw [Alphabet.dataCount, List.countP_append, List.countP_singleton, if_pos hdata]
  rfl

theorem dataCount_concat_skip (h : byte = flagNULL ∨ byte = flagESC) (as : List UInt8) :
    (sdc600 startFlag).dataCount (as ++ [byte]) = (sdc600 startFlag).dataCount as := by
  have hskip : (sdc600 startFlag).isData byte = false := by
    rcases h with h | h
    · rw [h]
      rfl
    · rw [h]
      rfl
  rw [Alphabet.dataCount, List.countP_append, List.countP_singleton, hskip]
  rfl

theorem Heard.nulls_concat (hflag : IsStartFlag startFlag)
    (h : Heard startFlag rxBufferLength rxBuffer pre s) :
    s.preNullFlags + (if s.isStartRecv then 0 else 1) =
      Receiver.leadingNulls (sdc600 startFlag) (pre ++ [flagNULL]) := by
  rw [h.started, h.nulls]
  by_cases hmem : startFlag ∈ pre
  · have hcount := Receiver.leadingNulls_append (A := sdc600 startFlag) hmem [flagNULL]
    rw [hcount, if_pos (decide_eq_true hmem), Nat.add_zero]
  · have hcount := Receiver.leadingNulls_concat_null (A := sdc600 startFlag)
      (sdc600_lawful hflag).start_ne_null hmem
    rw [if_neg (by simpa using hmem)]
    exact hcount.symm

theorem Heard.turn (hflag : IsStartFlag startFlag) (h : Heard startFlag rxBufferLength rxBuffer pre s)
    (hturn : Turn startFlag rxBufferLength s byte s') :
    Heard startFlag rxBufferLength rxBuffer (pre ++ [byte]) s' := by
  have lawful := sdc600_lawful hflag
  have hstartnull : startFlag ≠ flagNULL := lawful.start_ne_null
  have hstartesc : startFlag ≠ flagESC := lawful.start_ne_esc
  have hlive : flagEND ∉ pre ++ [byte] := by
    simpa [h.live] using (turn_not_end hflag hturn).symm
  have hpending := (sdc600 startFlag).pending_concat pre byte
  have hrun := Alphabet.lastRun_concat startFlag byte pre
  cases hturn with
  | null hle =>
    rw [if_neg hstartnull.symm] at hrun
    rw [if_pos (.inl rfl)] at hpending
    refine ⟨hlive, h.nulls_concat hflag, hle, ?_, h.escaping.trans hpending.symm, ?_, ?_, h.size⟩
    · simpa [hstartnull] using h.started
    · rw [hrun, dataCount_concat_skip (.inl rfl)]
      exact h.index
    · rw [hrun, dataCount_concat_skip (.inl rfl)]
      exact h.room
  | esc =>
    rw [if_neg hstartesc.symm] at hrun
    have hesc : ¬(flagESC = (sdc600 startFlag).null ∨ flagESC = (sdc600 startFlag).start) :=
      not_or.mpr ⟨lawful.esc_ne_null, hstartesc.symm⟩
    rw [if_neg hesc] at hpending
    have hcount := Receiver.leadingNulls_concat (A := sdc600 startFlag) lawful.esc_ne_null pre
    refine ⟨hlive, h.nulls.trans hcount.symm, h.early, ?_, hpending.symm, ?_, ?_, h.size⟩
    · simpa [hstartesc] using h.started
    · rw [hrun, dataCount_concat_skip (.inr rfl)]
      exact h.index
    · rw [hrun, dataCount_concat_skip (.inr rfl)]
      exact h.room
  | start =>
    rw [if_pos rfl] at hrun
    rw [if_pos (.inr rfl)] at hpending
    have hcount := Receiver.leadingNulls_concat (A := sdc600 startFlag) lawful.start_ne_null pre
    refine ⟨hlive, h.nulls.trans hcount.symm, h.early, ?_, h.escaping.trans hpending.symm, ?_, ?_, h.size⟩
    · simp
    · rw [hrun]
      rfl
    · rw [hrun]
      exact fun _ => Nat.zero_le _
  | data hdata hroom hmem =>
    rw [if_neg hdata.ne_start] at hrun
    have hplain : ¬(byte = (sdc600 startFlag).null ∨ byte = (sdc600 startFlag).start) :=
      not_or.mpr ⟨hdata.ne_null, hdata.ne_start⟩
    have hnotesc : decide (byte = (sdc600 startFlag).esc) = false := decide_eq_false hdata.ne_esc
    rw [if_neg hplain, hnotesc] at hpending
    have hcount := Receiver.leadingNulls_concat (A := sdc600 startFlag) hdata.ne_null pre
    refine ⟨hlive, h.nulls.trans hcount.symm, h.early, ?_, hpending.symm, ?_, ?_, ?_⟩
    · simpa [hdata.ne_start.symm] using h.started
    · rw [hrun, dataCount_concat_data hdata]
      dsimp only
      rw [h.index, Nat.mod_add_mod]
    · intro hmax
      -- with a buffer that the index can fill it does not wrap
      have hle := h.room hmax
      have hidx := h.index
      rw [Nat.mod_eq_of_lt (Nat.lt_of_le_of_lt hle hmax)] at hidx
      rw [hrun, dataCount_concat_data hdata, ← hidx]
      exact hroom
    · dsimp only
      rw [List.length_set]
      exact h.size

theorem Heard.passes (hflag : IsStartFlag startFlag)
    (h : Heard startFlag rxBufferLength rxBuffer pre s)
    (hpass : PassesOver startFlag rxBufferLength s bytes s') :
    Heard startFlag rxBufferLength rxBuffer (pre ++ bytes) s' :=
  hpass.invariant (fun _ _ _ _ hs hturn => hs.turn hflag hturn) h

theorem heard_of_passes (hflag : IsStartFlag startFlag)
    (hpass : PassesOver startFlag rxBufferLength (rxStateOf rxBuffer actualLength {}) pre s) :
    Heard startFlag rxBufferLength rxBuffer pre s :=
  (heard_nil startFlag rxBufferLength rxBuffer actualLength).passes hflag hpass

theorem Heard.index_lt (h : Heard startFlag rxBufferLength rxBuffer pre s)
    (hmem : rxBufferLength ≤ rxBuffer.length) (hlt : s.bufferIdx < rxBufferLength) :
    s.bufferIdx < s.rxBuffer.length := by
  rw [h.size]
  exact Nat.lt_of_lt_of_le hlt hmem

theorem Heard.exists_turn (hflag : IsStartFlag startFlag) (hmem : rxBufferLength ≤ rxBuffer.length)
    (h : Heard startFlag rxBufferLength rxBuffer pre s) (hend : byte ≠ flagEND)
    (hnulls : Receiver.leadingNulls (sdc600 startFlag) (pre ++ [byte]) ≤ maxPreNullFlags)
    (hroom : rxBufferLength < indexRange →
      (sdc600 startFlag).dataCount (Alphabet.lastRun startFlag (pre ++ [byte])) ≤ rxBufferLength) :
    ∃ s', Turn startFlag rxBufferLength s byte s' := by
  rcases isData_or startFlag byte with hb | hb | hb | hb | hdata
  · exact absurd hb hend
  · rw [hb, ← h.nulls_concat hflag] at hnulls
    rw [hb]
    exact ⟨_, .null hnulls⟩
  · rw [hb]
    exact ⟨_, .esc⟩
  · rw [hb]
    exact ⟨_, .start⟩
  · have hlt : s.bufferIdx < rxBufferLength := by
      rw [h.index]
      rcases Nat.lt_or_ge rxBufferLength indexRange with hmax | hwide
      · have hlast := hroom hmax
        rw [Alphabet.lastRun_concat, if_neg hdata.ne_start, dataCount_concat_data hdata] at hlast
        exact Nat.lt_of_le_of_lt (Nat.mod_le _ _) hlast
      · -- an index of 16 bits never gets to the end of such a buffer
        exact Nat.lt_of_lt_of_le (Nat.mod_lt _ (by decide)) hwide
    exact ⟨_, .data hdata hlt (h.index_lt hmem hlt)⟩

/-- The loop reads on just as long as there is no end flag, the idle bytes in front of the first
start flag are few and, if the index can tell, no stretch between start flags outgrows the buffer. -/
theorem exists_passes_iff (hflag : IsStartFlag startFlag) (hmem : rxBufferLength ≤ rxBuffer.length) :
    (∃ s, PassesOver startFlag rxBufferLength (rxStateOf rxBuffer actualLength {}) pre s) ↔
      flagEND ∉ pre ∧ Receiver.leadingNulls (sdc600 startFlag) pre ≤ maxPreNullFlags ∧
        (rxBufferLength < indexRange → ∀ p, p <+: pre →
          (sdc600 startFlag).dataCount (Alphabet.lastRun startFlag p) ≤ rxBufferLength) := by
  constructor
  · intro hpasses
    obtain ⟨s, hpass⟩ := hpasses
    have h := heard_of_passes hflag hpass
    refine ⟨h.live, ?_, fun hmax p hp => ?_⟩
    · rw [← h.nulls]
      exact h.early
    · obtain ⟨rest, rfl⟩ := hp
      obtain ⟨t, ht, -⟩ := steps_append.mp hpass
      exact (heard_of_passes hflag ht).room hmax
  · intro hlimits
    induction pre using List.reverseRecOn with
    | nil => exact ⟨_, .nil _⟩
    | append_singleton pre byte ih =>
      obtain ⟨hend, hnulls, hroom⟩ := hlimits
      have hprefix : pre <+: pre ++ [byte] := List.prefix_append pre [byte]
      have hend' : flagEND ∉ pre := fun h => hend (List.mem_append_left _ h)
      have hnulls' := Receiver.leadingNulls_mono (A := sdc600 startFlag) hprefix
      obtain ⟨s, hpass⟩ := ih ⟨hend', hnulls'.trans hnulls, fun hmax p hp =>
        hroom hmax p (hp.trans hprefix)⟩
      have hbyte : byte ≠ flagEND := by
        intro heq
        rw [heq] at hend
        exact hend (List.mem_append_right _ List.mem_cons_self)
      obtain ⟨s', hturn⟩ := (heard_of_passes hflag hpass).exists_turn hflag hmem hbyte hnulls
        fun hmax => hroom hmax _ (List.prefix_refl _)
      exact ⟨s', steps_append.mpr ⟨s, hpass, steps_singleton.mpr hturn⟩⟩

variable (actualLength) in
theorem passes_or_receives (hflag : IsStartFlag startFlag) (hmem : rxBufferLength ≤ rxBuffer.length)
    (stream : List UInt8) :
    (∃ s, PassesOver startFlag rxBufferLength (rxStateOf rxBuffer actualLength {}) stream s) ∨
      ∃ bytes out, bytes <+: stream ∧
        Receives startFlag rxBufferLength (rxStateOf rxBuffer actualLength {}) bytes out := by
  induction stream using List.reverseRecOn with
  | nil => exact .inl ⟨_, .nil _⟩
  | append_singleton stream byte ih =>
    rcases ih with ⟨s, hpass⟩ | ⟨bytes, out, hprefix, hrec⟩
    · have h := heard_of_passes hflag hpass
      rcases turn_or_leaves byte (h.index_lt hmem) with ⟨s', hturn⟩ | ⟨res, hlast⟩
      · exact .inl ⟨s', steps_append.mpr ⟨s, hpass, steps_singleton.mpr hturn⟩⟩
      · exact .inr ⟨_, _, List.prefix_refl _, receives_of_passes hflag hpass (.last hlast)⟩
    · exact .inr ⟨bytes, out, hprefix.trans (List.prefix_append _ _), hrec⟩

end

/-! ### Turns as fuel -/

namespace ExternalComPortDriver
variable {this : ExternalComPortDriver} {startFlag : UInt8} {rxBufferLength actualLength fuel : Nat}
  {rxBuffer : List UInt8} {out : RxResult} {l : Trace}

theorem fueled_rxLoop (startFlag : UInt8) (rxBufferLength : Nat) (s : RxState) :
    Fueled .outOfFuel fun fuel => this.rxLoop startFlag rxBufferLength fuel s := by
  intro n k hnk
  induction n generalizing k s with
  | zero => exact .stuck _
  | succ n ih =>
    obtain ⟨k, rfl⟩ : ∃ k', k = k' + 1 := Nat.exists_eq_add_of_le' (Nat.le_of_add_left_le hnk)
    show Extends _ (this.rxLoop startFlag rxBufferLength (n + 1) s)
      (this.rxLoop startFlag rxBufferLength (k + 1) s)
    rw [rxLoop_eq, rxLoop_eq]
    refine .bind_refl _ fun a => extends_ite (extends_refl _) (.bind_refl _ fun step => ?_)
    cases step with
    | done out => exact extends_refl _
    | more s' => exact ih s' k (Nat.le_of_succ_le_succ hnk)

theorem fueled_eComPortRx (rxBuffer : List UInt8) (rxBufferLength actualLength : Nat) :
    Fueled .outOfFuel fun fuel => this.eComPortRx fuel rxBuffer rxBufferLength actualLength := by
  intro n k hnk
  exact extends_ite (extends_refl _) (fueled_rxLoop flagSTART rxBufferLength _ n k hnk)

theorem inited_of_rx_success (h : Run (this.eComPortRx fuel rxBuffer rxBufferLength actualLength) l
    (.ok out)) (hres : out.res = .success) : this.mIsComPortInited = true := by
  cases hinit : this.mIsComPortInited with
  | true => rfl
  | false =>
    rw [eComPortRx, hinit] at h
    obtain ⟨-, hout⟩ := run_pure.mp h
    cases hout
    cases hres

theorem eComPortRx_of_inited (hinit : this.mIsComPortInited = true) :
    this.eComPortRx fuel rxBuffer rxBufferLength actualLength =
      this.rxLoop flagSTART rxBufferLength fuel (rxStateOf rxBuffer actualLength {}) := by
  rw [eComPortRx, hinit]
  rfl

theorem receives_of_exec {σ : Type} {m : Machine Host σ} {s₀ t t' : σ} {stream : List UInt8}
    (hmem : rxBufferLength ≤ rxBuffer.length) (hend : flagEND ∈ stream)
    (hinit : this.mIsComPortInited = true) (hd : this.Delivers m s₀ stream t)
    (hx : m.exec (this.eComPortRx fuel rxBuffer rxBufferLength actualLength) s₀ = (.ok out, l, t')) :
    ∃ bytes, bytes <+: stream ∧ this.Delivers m s₀ bytes t' ∧
      Receives flagSTART rxBufferLength (rxStateOf rxBuffer actualLength {}) bytes out := by
  have hflag : IsStartFlag flagSTART := .inl rfl
  rcases passes_or_receives actualLength hflag hmem stream with ⟨s, hpass⟩ | ⟨bytes, out', hprefix, hrec⟩
  · exact absurd hend (heard_of_passes hflag hpass).live
  obtain ⟨u, hu, -⟩ := hd.prefix hprefix
  obtain ⟨l', hexec, -, -⟩ := exec_rxLoop hrec hu (Nat.le_refl _)
  rw [← eComPortRx_of_inited hinit] at hexec
  have hfueled : Fueled .outOfFuel fun fuel =>
      this.eComPortRx fuel rxBuffer rxBufferLength actualLength := fueled_eComPortRx _ _ _
  obtain ⟨rfl, -, rfl⟩ := hfueled.exec_unique hx hexec
  exact ⟨bytes, hprefix, hu, hrec⟩

end ExternalComPortDriver
end SecureDebug
