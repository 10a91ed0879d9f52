import SecureDebug.Driver.Access
import SecureDebug.Framing.Receiver

/-! The receive loop refines the ideal receiver of the link: as long as the limits hold its
variables are a function of what the receiver knows, and a broken limit is an error. -/

namespace SecureDebug
open Interaction Program Framing

/-- The link as the driver speaks it, with either start flag. -/
def sdc600 (startFlag : UInt8) : Alphabet UInt8 where
  start := startFlag
  stop := flagEND
  esc := flagESC
  null := flagNULL
  flagged := isFlagByte
  strip := (· &&& 0x7F)
  mark := (· ||| 0x80)

/-- `EComPort_Rx` passes `START`, `EComPort_Init` passes `IDA`. -/
def IsStartFlag (startFlag : UInt8) : Prop := startFlag = flagSTART ∨ startFlag = flagIDA

theorem isFlagByte_iff (byte : UInt8) :
    isFlagByte byte = true ↔ 0xA0 ≤ byte.toNat ∧ byte.toNat < 0xC0 := by
  simp [isFlagByte, UInt8.le_iff_toNat_le, UInt8.lt_iff_toNat_lt]

theorem toNat_strip (byte : UInt8) : (byte &&& 0x7F).toNat = byte.toNat % 2 ^ 7 := by
  rw [UInt8.toNat_and]
  exact Nat.and_two_pow_sub_one_eq_mod byte.toNat 7

theorem isFlagByte_strip (byte : UInt8) (h : isFlagByte byte = true) :
    isFlagByte (byte &&& 0x7F) = false := by
  obtain ⟨h₁, h₂⟩ := (isFlagByte_iff byte).mp h
  rw [← Bool.not_eq_true, isFlagByte_iff, toNat_strip]
  omega

theorem mark_strip (byte : UInt8) (h : isFlagByte byte = true) :
    (byte &&& 0x7F) ||| 0x80 = byte := by
  obtain ⟨h₁, h₂⟩ := (isFlagByte_iff byte).mp h
  rw [← UInt8.toNat_inj, UInt8.toNat_or, toNat_strip, Nat.or_comm]
  have hlt : byte.toNat % 2 ^ 7 < 2 ^ 7 := Nat.mod_lt _ (by decide)
  show 2 ^ 7 * 1 ||| _ = _
  rw [← Nat.two_pow_add_eq_or_of_lt hlt 1]
  omega

theorem sdc600_lawful {startFlag : UInt8} (h : IsStartFlag startFlag) : (sdc600 startFlag).Lawful := by
  have hflags : isFlagByte startFlag = true ∧ startFlag ≠ flagEND ∧ startFlag ≠ flagESC ∧
      startFlag ≠ flagNULL := by
    rcases h with rfl | rfl <;> decide
  obtain ⟨h₁, h₂, h₃, h₄⟩ := hflags
  exact {
    flagged_start := h₁
    flagged_stop := show isFlagByte flagEND = true by decide
    flagged_esc := show isFlagByte flagESC = true by decide
    flagged_null := show isFlagByte flagNULL = true by decide
    flagged_strip := isFlagByte_strip
    mark_strip := mark_strip
    start_ne_stop := h₂
    start_ne_esc := h₃
    start_ne_null := h₄
    stop_ne_null := show flagEND ≠ flagNULL by decide
    esc_ne_null := show flagESC ≠ flagNULL by decide
    esc_ne_stop := show flagESC ≠ flagEND by decide }

section
variable {startFlag : UInt8} {r : Receiver UInt8}

theorem step_flagNULL (hs : r.started = false) :
    r.step (sdc600 startFlag) flagNULL = { r with nulls := r.nulls + 1 } := by
  refine r.step_null.trans ?_
  rw [hs, if_neg Bool.false_ne_true]

theorem step_flagNULL_started (hs : r.started = true) : r.step (sdc600 startFlag) flagNULL = r := by
  refine r.step_null.trans ?_
  rw [hs, if_pos rfl]

theorem step_flagESC : r.step (sdc600 startFlag) flagESC = { r with escaping := true } :=
  r.step_esc (show flagESC ≠ flagNULL by decide)

theorem step_startFlag (h : IsStartFlag startFlag) : r.step (sdc600 startFlag) startFlag =
    { r with started := true, done := r.image, cur := [] } :=
  r.step_start (sdc600_lawful h).start_ne_null (sdc600_lawful h).start_ne_esc

end

/-! ### One turn of the loop -/

/-- The variables of the loop when the receiver has heard `r`. -/
def rxStateOf (rxBuffer : List UInt8) (actualLength : Nat) (r : Receiver UInt8) : RxState where
  preNullFlags := r.nulls
  bufferIdx := r.cur.length
  isStartRecv := r.started
  isEscRecv := r.escaping
  rxBuffer := overlay rxBuffer r.image
  actualLength := r.stored.getD actualLength

/-- The size passed with the buffer fits the 16-bit index and the memory behind the pointer. -/
structure Room (rxBufferLength : Nat) (rxBuffer : List UInt8) : Prop where
  index : rxBufferLength ≤ 65535
  memory : rxBufferLength ≤ rxBuffer.length

section
variable {startFlag : UInt8} {rxBufferLength actualLength : Nat} {rxBuffer : List UInt8}
  {r : Receiver UInt8} {byte : UInt8}

theorem store_image (h : r.cur.length < rxBuffer.length) :
    store (overlay rxBuffer r.image) r.cur.length byte =
      .ok (overlay rxBuffer (overlay r.done (r.cur ++ [byte]))) := by
  have hidx : r.cur.length < (overlay rxBuffer r.done).length := by
    rw [length_overlay]
    exact Nat.lt_of_lt_of_le h (Nat.le_max_left _ _)
  have hbuf : overlay rxBuffer r.image = overlay (overlay rxBuffer r.done) r.cur :=
    (overlay_assoc rxBuffer r.done r.cur).symm
  rw [hbuf, store, if_pos (by rw [length_overlay]; exact Nat.lt_of_lt_of_le hidx (Nat.le_max_left _ _)),
    ← overlay_concat hidx, overlay_assoc]

theorem rxStep_of_ok (hflag : IsStartFlag startFlag) (room : Room rxBufferLength rxBuffer)
    (hend : byte ≠ flagEND)
    (h : Receiver.Ok maxPreNullFlags rxBufferLength (r.step (sdc600 startFlag) byte)) :
    rxStep startFlag rxBufferLength (rxStateOf rxBuffer actualLength r) byte =
      .ok (.more (rxStateOf rxBuffer actualLength (r.step (sdc600 startFlag) byte))) := by
  rw [rxStep, if_neg hend]
  by_cases hnull : byte = flagNULL
  · subst hnull
    rw [if_pos rfl]
    cases hs : r.started with
    | true =>
      rw [step_flagNULL_started hs] at h ⊢
      simp only [rxStateOf, hs, if_true]
      rw [if_neg (Nat.not_lt.mpr h.nulls)]
    | false =>
      rw [step_flagNULL hs] at h ⊢
      simp only [rxStateOf, hs, Bool.false_eq_true, if_false]
      rw [if_neg (Nat.not_lt.mpr h.nulls)]
      rfl
  rw [if_neg hnull]
  by_cases hesc : byte = flagESC
  · subst hesc
    rw [if_pos rfl, step_flagESC]
    rfl
  rw [if_neg hesc]
  by_cases hstart : byte = startFlag
  · subst hstart
    rw [if_pos rfl, step_startFlag hflag]
    simp [rxStateOf, Receiver.image]
  · rw [if_neg hstart]
    rw [r.step_data (A := sdc600 startFlag) hnull hesc hstart] at h ⊢
    have hlen : r.cur.length < rxBufferLength := Nat.lt_of_succ_le (by simpa using h.cur)
    have hmod : (r.cur.length + 1) % 2 ^ 16 = r.cur.length + 1 := by
      have := room.index
      exact Nat.mod_eq_of_lt (by omega)
    simp only [rxStateOf, ge_iff_le, Nat.not_le.mpr hlen, if_false, hmod,
      store_image (Nat.lt_of_lt_of_le hlen room.memory)]
    simp [Receiver.image, sdc600]
    rfl

theorem rxStep_of_not_ok (hflag : IsStartFlag startFlag) (hend : byte ≠ flagEND)
    (hr : Receiver.Ok maxPreNullFlags rxBufferLength r)
    (h : ¬Receiver.Ok maxPreNullFlags rxBufferLength (r.step (sdc600 startFlag) byte)) :
    ∃ res, res ≠ .success ∧
      rxStep startFlag rxBufferLength (rxStateOf rxBuffer actualLength r) byte =
        .ok (.done ⟨res, overlay rxBuffer r.image, r.stored.getD actualLength⟩) := by
  rw [rxStep, if_neg hend]
  by_cases hnull : byte = flagNULL
  · subst hnull
    rw [if_pos rfl]
    cases hs : r.started with
    | true =>
      rw [step_flagNULL_started hs] at h
      exact absurd hr h
    | false =>
      rw [step_flagNULL hs] at h
      have hgt : r.nulls + 1 > maxPreNullFlags := by
        by_contra hle
        exact h ⟨Nat.le_of_not_lt hle, hr.cur, hr.done⟩
      simp only [rxStateOf, hs, Bool.false_eq_true, if_false]
      rw [if_pos hgt]
      exact ⟨_, by decide, rfl⟩
  rw [if_neg hnull]
  by_cases hesc : byte = flagESC
  · subst hesc
    rw [step_flagESC] at h
    exact absurd ⟨hr.nulls, hr.cur, hr.done⟩ h
  rw [if_neg hesc]
  by_cases hstart : byte = startFlag
  · subst hstart
    rw [step_startFlag hflag] at h
    exact absurd ⟨hr.nulls, Nat.zero_le _, hr.length_image⟩ h
  · rw [if_neg hstart]
    rw [r.step_data (A := sdc600 startFlag) hnull hesc hstart] at h
    have hge : rxBufferLength ≤ r.cur.length := by
      by_contra hlt
      exact h ⟨hr.nulls, by simpa using Nat.succ_le_of_lt (Nat.lt_of_not_le hlt), hr.done⟩
    simp only [rxStateOf, ge_iff_le, hge, if_true]
    exact ⟨_, by decide, rfl⟩

end

/-! ### The whole loop over the bytes it reads -/

/-- `Receives startFlag rxBufferLength s bytes out`: from `s` the loop reads exactly `bytes`
and returns `out` at the last of them. -/
inductive Receives (startFlag : UInt8) (rxBufferLength : Nat) :
    RxState → List UInt8 → RxResult → Prop
  | last {s : RxState} {byte : UInt8} {out : RxResult}
      (h : rxStep startFlag rxBufferLength s byte = .ok (.done out)) :
      Receives startFlag rxBufferLength s [byte] out
  | next {s s' : RxState} {byte : UInt8} {bytes : List UInt8} {out : RxResult}
      (h : rxStep startFlag rxBufferLength s byte = .ok (.more s'))
      (h' : Receives startFlag rxBufferLength s' bytes out) :
      Receives startFlag rxBufferLength s (byte :: bytes) out

section
variable {startFlag : UInt8} {rxBufferLength actualLength : Nat} {rxBuffer : List UInt8}
  {r : Receiver UInt8} {byte : UInt8} {bytes bytes' pre : List UInt8} {out out' : RxResult}
  {s : RxState}

def rxResultOf (rxBuffer : List UInt8) (actualLength : Nat) (r : Receiver UInt8) : RxResult where
  res := if r.started then .success else .internalError
  rxBuffer := overlay rxBuffer r.image
  actualLength := r.stored.getD actualLength

theorem rxStep_flagEND : rxStep startFlag rxBufferLength (rxStateOf rxBuffer actualLength r) flagEND =
    .ok (.done (rxResultOf rxBuffer actualLength r)) := by
  rw [rxStep, if_pos rfl, rxResultOf]
  cases hs : r.started <;> simp [rxStateOf, hs]

theorem not_receives_nil : ¬Receives startFlag rxBufferLength s [] out := by
  intro h
  cases h

theorem receives_cons_of_more {s' : RxState}
    (h : rxStep startFlag rxBufferLength s byte = .ok (.more s')) :
    Receives startFlag rxBufferLength s (byte :: bytes) out ↔
      Receives startFlag rxBufferLength s' bytes out := by
  constructor
  · intro hx
    cases hx with
    | last hx => cases h.symm.trans hx
    | next hx h' =>
      cases h.symm.trans hx
      exact h'
  · exact .next h

theorem not_receives_of_error {e : Stop}
    (h : rxStep startFlag rxBufferLength s byte = .error e) :
    ¬Receives startFlag rxBufferLength s (byte :: bytes) out := by
  intro hx
  cases hx with
  | last hx => cases h.symm.trans hx
  | next hx => cases h.symm.trans hx

theorem Receives.unique (h : Receives startFlag rxBufferLength s bytes out)
    (h' : Receives startFlag rxBufferLength s bytes' out')
    {stream : List UInt8} (hb : bytes <+: stream) (hb' : bytes' <+: stream) :
    bytes = bytes' ∧ out = out' := by
  induction h generalizing bytes' stream with
  | @last s byte out h =>
    obtain ⟨rest, rfl⟩ := hb
    cases h' with
    | last h' =>
      obtain ⟨rfl, -⟩ := List.cons_prefix_cons.mp hb'
      cases h.symm.trans h'
      exact ⟨rfl, rfl⟩
    | next h' _ =>
      obtain ⟨rfl, -⟩ := List.cons_prefix_cons.mp hb'
      cases h.symm.trans h'
  | next h _ ih =>
    obtain ⟨rest, rfl⟩ := hb
    cases h' with
    | last h' =>
      obtain ⟨rfl, -⟩ := List.cons_prefix_cons.mp hb'
      cases h.symm.trans h'
    | next h' hx =>
      obtain ⟨rfl, htail⟩ := List.cons_prefix_cons.mp hb'
      cases h.symm.trans h'
      obtain ⟨rfl, rfl⟩ := ih hx ⟨rest, rfl⟩ htail
      exact ⟨rfl, rfl⟩

variable (actualLength) in
theorem receives_of_fits (hflag : IsStartFlag startFlag) (room : Room rxBufferLength rxBuffer)
    (hend : flagEND ∉ pre)
    (h : Receiver.Fits (sdc600 startFlag) maxPreNullFlags rxBufferLength r pre) :
    Receives startFlag rxBufferLength (rxStateOf rxBuffer actualLength r) (pre ++ [flagEND])
      (rxResultOf rxBuffer actualLength (r.run (sdc600 startFlag) pre)) := by
  induction pre generalizing r with
  | nil => exact .last rxStep_flagEND
  | cons byte pre ih =>
    obtain ⟨hbyte, hpre⟩ : flagEND ≠ byte ∧ flagEND ∉ pre := by simpa using hend
    exact .next (rxStep_of_ok hflag room hbyte.symm h.1) (ih hpre h.2)

variable (actualLength) in
theorem exists_receives_of_not_fits (hflag : IsStartFlag startFlag)
    (room : Room rxBufferLength rxBuffer) (hend : flagEND ∉ pre)
    (hr : Receiver.Ok maxPreNullFlags rxBufferLength r)
    (h : ¬Receiver.Fits (sdc600 startFlag) maxPreNullFlags rxBufferLength r pre) :
    ∃ bytes out, bytes <+: pre ∧ out.res ≠ .success ∧
      (∃ ys, ys.length ≤ rxBufferLength ∧ out.rxBuffer = overlay rxBuffer ys) ∧
      Receives startFlag rxBufferLength (rxStateOf rxBuffer actualLength r) bytes out := by
  induction pre generalizing r with
  | nil => exact absurd trivial h
  | cons byte pre ih =>
    obtain ⟨hbyte, hpre⟩ : flagEND ≠ byte ∧ flagEND ∉ pre := by simpa using hend
    by_cases hok : Receiver.Ok maxPreNullFlags rxBufferLength (r.step (sdc600 startFlag) byte)
    · obtain ⟨bytes, out, ⟨rest, rfl⟩, hres, hys, hrec⟩ := ih hpre hok (fun hf => h ⟨hok, hf⟩)
      exact ⟨byte :: bytes, out, ⟨rest, rfl⟩, hres, hys,
        .next (rxStep_of_ok hflag room hbyte.symm hok) hrec⟩
    · obtain ⟨res, hres, hstep⟩ := rxStep_of_not_ok hflag hbyte.symm hr hok
      exact ⟨[byte], _, ⟨pre, rfl⟩, hres, ⟨r.image, hr.length_image, rfl⟩, .last hstep⟩

theorem Receives.success (hflag : IsStartFlag startFlag) (room : Room rxBufferLength rxBuffer)
    (hr : Receiver.Ok maxPreNullFlags rxBufferLength r)
    (h : Receives startFlag rxBufferLength (rxStateOf rxBuffer actualLength r) bytes out)
    (hres : out.res = .success) :
    ∃ pre, bytes = pre ++ [flagEND] ∧ flagEND ∉ pre ∧
      Receiver.Fits (sdc600 startFlag) maxPreNullFlags rxBufferLength r pre ∧
      (r.run (sdc600 startFlag) pre).started = true ∧
      out = rxResultOf rxBuffer actualLength (r.run (sdc600 startFlag) pre) := by
  generalize hs : rxStateOf rxBuffer actualLength r = s at h
  induction h generalizing r with
  | @last s byte out h =>
    subst hs
    by_cases hbyte : byte = flagEND
    · subst hbyte
      rw [rxStep_flagEND] at h
      cases h
      refine ⟨[], rfl, List.not_mem_nil, trivial, ?_, rfl⟩
      cases hs : r.started with
      | true => exact hs
      | false => simp [rxResultOf, hs] at hres
    · by_cases hok : Receiver.Ok maxPreNullFlags rxBufferLength (r.step (sdc600 startFlag) byte)
      · rw [rxStep_of_ok hflag room hbyte hok] at h
        cases h
      · obtain ⟨res, hne, hstep⟩ := rxStep_of_not_ok hflag hbyte hr hok
        rw [hstep] at h
        cases h
        exact absurd hres hne
  | @next s s' byte bytes out h h' ih =>
    subst hs
    by_cases hbyte : byte = flagEND
    · subst hbyte
      rw [rxStep_flagEND] at h
      cases h
    · by_cases hok : Receiver.Ok maxPreNullFlags rxBufferLength (r.step (sdc600 startFlag) byte)
      · rw [rxStep_of_ok hflag room hbyte hok] at h
        cases h
        obtain ⟨pre, rfl, hpre, hfits, hstarted, rfl⟩ := ih hok hres rfl
        exact ⟨byte :: pre, rfl, by simpa using ⟨Ne.symm hbyte, hpre⟩, ⟨hok, hfits⟩, hstarted, rfl⟩
      · obtain ⟨res, hne, hstep⟩ := rxStep_of_not_ok hflag hbyte hr hok
        rw [hstep] at h
        cases h

/-! ### Idle bytes -/

def RxStep.withNulls (n : Nat) : RxStep → RxStep
  | .more s => .more { s with preNullFlags := n }
  | .done out => .done out

theorem rxStep_flagNULL (hs : s.preNullFlags + (if s.isStartRecv then 0 else 1) ≤ maxPreNullFlags) :
    rxStep startFlag rxBufferLength s flagNULL = .ok (.more { s with
      preNullFlags := s.preNullFlags + if s.isStartRecv then 0 else 1 }) := by
  have hend : flagNULL ≠ flagEND := by decide
  rw [rxStep, if_neg hend, if_pos rfl]
  cases hstart : s.isStartRecv with
  | true =>
    have hle : s.preNullFlags ≤ maxPreNullFlags := by simpa [hstart] using hs
    simp only [if_true, gt_iff_lt, Nat.not_lt.mpr hle, if_false]
    rw [← hstart]
    rfl
  | false =>
    have hle : s.preNullFlags + 1 ≤ maxPreNullFlags := by simpa [hstart] using hs
    simp only [Bool.false_eq_true, if_false, gt_iff_lt, Nat.not_lt.mpr hle]

theorem rxStep_withNulls (n : Nat) (hnull : byte ≠ flagNULL) :
    rxStep startFlag rxBufferLength { s with preNullFlags := n } byte =
      (rxStep startFlag rxBufferLength s byte).map (RxStep.withNulls n) := by
  unfold rxStep
  dsimp only
  split_ifs <;> first | rfl | (cases store s.rxBuffer s.bufferIdx _ <;> rfl)

theorem rxStep_more {s' : RxState} (hflag : IsStartFlag startFlag) (hnull : byte ≠ flagNULL)
    (h : rxStep startFlag rxBufferLength s byte = .ok (.more s')) :
    s'.preNullFlags = s.preNullFlags ∧
      s'.isStartRecv = (s.isStartRecv || decide (byte = startFlag)) := by
  have hesc : startFlag ≠ flagESC := (sdc600_lawful hflag).start_ne_esc
  have hnulls : rxStep startFlag rxBufferLength s byte =
      (rxStep startFlag rxBufferLength s byte).map (RxStep.withNulls s.preNullFlags) :=
    rxStep_withNulls s.preNullFlags hnull
  constructor
  · rw [h] at hnulls
    injection hnulls with hnulls
    injection hnulls with hnulls
    rw [hnulls]
  · unfold rxStep at h
    dsimp only at h
    by_cases hend : byte = flagEND
    · rw [if_pos hend] at h
      cases h
    rw [if_neg hend, if_neg hnull] at h
    by_cases hbyte : byte = flagESC
    · rw [if_pos hbyte] at h
      cases h
      simp [hbyte, hesc.symm]
    rw [if_neg hbyte] at h
    by_cases hstart : byte = startFlag
    · rw [if_pos hstart] at h
      cases h
      simp [hstart]
    rw [if_neg hstart] at h
    by_cases hfull : s.bufferIdx ≥ rxBufferLength
    · rw [if_pos hfull] at h
      cases h
    rw [if_neg hfull] at h
    cases hb : store s.rxBuffer s.bufferIdx (if s.isEscRecv then byte ||| 0x80 else byte) with
    | error e =>
      rw [hb] at h
      cases h
    | ok rxBuffer =>
      rw [hb] at h
      cases h
      simp [hstart]

/-- Without a time-out the idle bytes could as well be missing. -/
theorem Receives.filter {stream : List UInt8} (hflag : IsStartFlag startFlag) (n : Nat)
    (h : Receives startFlag rxBufferLength s bytes out) (hstream : bytes <+: stream)
    (hnulls : s.preNullFlags + (if s.isStartRecv then 0 else
      Receiver.leadingNulls (sdc600 startFlag) stream) ≤ maxPreNullFlags) :
    Receives startFlag rxBufferLength { s with preNullFlags := n } (bytes.filter (· ≠ flagNULL))
      out := by
  have hne : (sdc600 startFlag).null ≠ (sdc600 startFlag).start :=
    (sdc600_lawful hflag).start_ne_null.symm
  -- with room for the idle bytes ahead a `NULL` only moves the count
  have hskip {s : RxState} {rest : List UInt8} (hs : s.preNullFlags + (if s.isStartRecv then 0 else
      Receiver.leadingNulls (sdc600 startFlag) (flagNULL :: rest)) ≤ maxPreNullFlags) :
      s.preNullFlags + (if s.isStartRecv then 0 else 1) +
        (if s.isStartRecv then 0 else Receiver.leadingNulls (sdc600 startFlag) rest) ≤
          maxPreNullFlags := by
    have hcons : Receiver.leadingNulls (sdc600 startFlag) (flagNULL :: rest) =
        1 + Receiver.leadingNulls (sdc600 startFlag) rest := by
      rw [Receiver.leadingNulls_cons]
      exact (if_neg hne).trans (congrArg (· + _) (if_pos rfl))
    rw [hcons] at hs
    split_ifs at hs ⊢ <;> omega
  induction h generalizing stream with
  | @last s byte out h =>
    obtain ⟨rest, rfl⟩ := hstream
    have hnull : byte ≠ flagNULL := by
      rintro rfl
      rw [rxStep_flagNULL (Nat.le_of_add_right_le (hskip hnulls))] at h
      cases h
    rw [List.filter_cons_of_pos (by simpa using hnull)]
    refine .last ?_
    rw [rxStep_withNulls n hnull, h]
    rfl
  | @next s s' byte bytes out h h' ih =>
    obtain ⟨rest, rfl⟩ := hstream
    by_cases hnull : byte = flagNULL
    · subst hnull
      have hs := hskip hnulls
      rw [rxStep_flagNULL (Nat.le_of_add_right_le hs)] at h
      cases h
      rw [List.filter_cons_of_neg (by simp)]
      exact ih (List.prefix_append _ rest) hs
    · rw [List.filter_cons_of_pos (by simpa using hnull)]
      obtain ⟨hpre, hstart⟩ := rxStep_more hflag hnull h
      have hstep : rxStep startFlag rxBufferLength { s with preNullFlags := n } byte =
          .ok (.more { s' with preNullFlags := n }) := by
        rw [rxStep_withNulls n hnull, h]
        rfl
      refine .next hstep (ih (List.prefix_append _ rest) ?_)
      rw [List.cons_append, Receiver.leadingNulls_cons] at hnulls
      rw [hpre, hstart]
      by_cases hb : byte = startFlag
      · simpa [hb] using Nat.le_of_add_right_le hnulls
      · have hb' : byte ≠ (sdc600 startFlag).start := hb
        have hn' : byte ≠ (sdc600 startFlag).null := hnull
        rw [if_neg hb', if_neg hn', Nat.zero_add] at hnulls
        simpa [hb] using hnulls

end

end SecureDebug
