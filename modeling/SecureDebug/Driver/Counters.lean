import Mathlib.Data.Nat.Find
import SecureDebug.Driver.Message

/-! What the driver counts: how long a frame it prepares, how many bytes it copies and stores,
and what it reports as consumed. Indices are 16 bits wide, the lengths around them are not. -/

namespace SecureDebug
open Interaction Program Framing

/-! ### Preparing a frame -/

section
variable {data outData : List UInt8} {outDataBufferSize : Nat}

theorem length_lt_of_prepared {out : PrepareResult}
    (h : eComPortPrepareData data outData outDataBufferSize = .ok out) : data.length < 2 ^ 32 := by
  by_contra hlong
  rw [eComPortPrepareData] at h
  cases hfirst : putByte (List.replicate ((data.length * 2 + 2) % 2 ^ 64) 0, 0) flagSTART with
  | error e =>
    rw [hfirst] at h
    cases h
  | ok first =>
    rw [hfirst] at h
    change ((if data.length ≥ 2 ^ 32 then _ else _) : Except Stop _) = _ at h
    rw [if_pos (Nat.le_of_not_lt hlong)] at h
    cases h

/-- A frame that the index can count is stored if it fits and refused if it does not. The buffer
that `EComPort_Tx` provides always fits. -/
theorem eComPortPrepareData_capacity (hindex : ((sdc600 flagSTART).frame data).length ≤ 65535)
    (hbuffer : outDataBufferSize ≤ outData.length) :
    (∃ out, eComPortPrepareData data outData outDataBufferSize = .ok out ∧
      (out.res = .success ↔ ((sdc600 flagSTART).frame data).length ≤ outDataBufferSize) ∧
      (((sdc600 flagSTART).frame data).length ≤ outDataBufferSize →
        out.outSize = ((sdc600 flagSTART).frame data).length ∧
        out.outData.take out.outSize = (sdc600 flagSTART).frame data ∧
        out.outData.drop out.outSize = outData.drop out.outSize) ∧
      (outDataBufferSize < ((sdc600 flagSTART).frame data).length →
        out = ⟨.internalError, outData, 0⟩)) ∧
    (∃ frame, eComPortPrepareData data (List.replicate (data.length * 2 + 2) 0) (data.length * 2 + 2) =
      .ok frame ∧ frame.res = .success) ∧
    ∀ (this : ExternalComPortDriver) (actualLength : Nat) (block : Bool),
      this.mIsComPortInited = true → this.eComPortTx data actualLength block =
        this.eComSendBlock ((sdc600 flagSTART).frame data) block >>= fun res =>
          pure (res, ((sdc600 flagSTART).frame data).length) := by
  have hlen := (sdc600 flagSTART).length_frame data
  have hframe := length_frame_le data
  refine ⟨?_, ?_, ?_⟩
  · by_cases hfits : ((sdc600 flagSTART).frame data).length ≤ outDataBufferSize
    · refine ⟨_, eComPortPrepareData_eq hindex hfits (hfits.trans hbuffer), iff_of_true rfl hfits,
        fun _ => ⟨rfl, ?_, ?_⟩, fun hlt => absurd hfits (Nat.not_le.mpr hlt)⟩
      · rw [take_overlay (Nat.le_refl _), List.take_length]
      · exact drop_overlay (Nat.le_refl _)
    · refine ⟨⟨.internalError, outData, 0⟩, ?_, iff_of_false (by simp) hfits,
        fun hle => absurd hle hfits, fun _ => rfl⟩
      rw [eComPortPrepareData_encoded (by omega), encoded_eq_frame hindex,
        if_pos (Nat.lt_of_not_le hfits)]
  · exact ⟨_, eComPortPrepareData_eq hindex hframe (by rwa [List.length_replicate]), rfl⟩
  · intro this actualLength block hinit
    exact ExternalComPortDriver.eComPortTx_eq hinit hindex

theorem eComPortPrepareData_capacity_flags :
    (∃ out, eComPortPrepareData [0xA5, 0xBF] [1, 2, 3, 4, 5, 6, 7] 6 = .ok out ∧
      (out.res = .success ↔ ((sdc600 flagSTART).frame [0xA5, 0xBF]).length ≤ 6) ∧
      (((sdc600 flagSTART).frame [0xA5, 0xBF]).length ≤ 6 →
        out.outSize = ((sdc600 flagSTART).frame [0xA5, 0xBF]).length ∧
        out.outData.take out.outSize = (sdc600 flagSTART).frame [0xA5, 0xBF] ∧
        out.outData.drop out.outSize = [1, 2, 3, 4, 5, 6, 7].drop out.outSize) ∧
      (6 < ((sdc600 flagSTART).frame [0xA5, 0xBF]).length →
        out = ⟨.internalError, [1, 2, 3, 4, 5, 6, 7], 0⟩)) ∧
    (∃ frame, eComPortPrepareData [0xA5, 0xBF] (List.replicate 6 0) 6 = .ok frame ∧
      frame.res = .success) ∧
    ∀ (this : ExternalComPortDriver) (actualLength : Nat) (block : Bool),
      this.mIsComPortInited = true → this.eComPortTx [0xA5, 0xBF] actualLength block =
        this.eComSendBlock ((sdc600 flagSTART).frame [0xA5, 0xBF]) block >>= fun res =>
          pure (res, ((sdc600 flagSTART).frame [0xA5, 0xBF]).length) :=
  eComPortPrepareData_capacity (by decide) (by decide)

/-- The frame comes out whole unless the loop over the payload never ends or the index has wrapped
and what it then says is not refused. -/
theorem eComPortPrepareData_whole_iff (hbuffer : outDataBufferSize ≤ outData.length) :
    (∃ out, eComPortPrepareData data outData outDataBufferSize = .ok out ∧
      (out.res = .success → out.outSize = ((sdc600 flagSTART).frame data).length ∧
        out.outData.take out.outSize = (sdc600 flagSTART).frame data)) ↔
      data.length < 2 ^ 32 ∧ (((sdc600 flagSTART).frame data).length ≤ 65535 ∨
        outDataBufferSize < ((sdc600 flagSTART).frame data).length % 2 ^ 16) := by
  constructor
  · intro h
    obtain ⟨out, hout, hwhole⟩ := h
    have hlen := length_lt_of_prepared hout
    refine ⟨hlen, ?_⟩
    rw [eComPortPrepareData_encoded hlen] at hout
    by_cases hrefused : (encoded data).length > outDataBufferSize
    · rw [length_encoded] at hrefused
      exact .inr hrefused
    · rw [if_neg hrefused, if_neg (by omega)] at hout
      rw [← Except.ok.inj hout] at hwhole
      have hsize := (hwhole rfl).1
      dsimp only at hsize
      rw [length_encoded] at hsize
      omega
  · intro h
    obtain ⟨hlen, hcase⟩ := h
    rw [eComPortPrepareData_encoded hlen]
    by_cases hrefused : (encoded data).length > outDataBufferSize
    · refine ⟨⟨.internalError, outData, 0⟩, if_pos hrefused, fun hres => ?_⟩
      cases hres
    · have hindex : ((sdc600 flagSTART).frame data).length ≤ 65535 := by
        rw [length_encoded] at hrefused
        exact hcase.resolve_right hrefused
      rw [if_neg hrefused, if_neg (by omega), encoded_eq_frame hindex]
      refine ⟨_, rfl, fun _ => ⟨rfl, ?_⟩⟩
      rw [take_overlay (Nat.le_refl _), List.take_length]

end

/-! ### Copying what was read -/

namespace ExternalComPortDriver
section
variable {outBytesLength : Nat} {vals : List UInt32} {ys outBytes : List UInt8}

theorem rxRawCopy_cons (val : UInt32) (hvals : vals.length + 1 < 2 ^ 64) (i : Nat)
    (outBytes : List UInt8) :
    rxRawCopy outBytesLength (val :: vals) i (vals.length + 1) outBytes =
      if (outBytesLength + 2 ^ 64 - i) % 2 ^ 64 = 0 then
        rxRawCopy outBytesLength vals (i + 1) vals.length outBytes
      else store outBytes i val.toUInt8 >>= fun outBytes =>
        rxRawCopy outBytesLength vals (i + 1) vals.length outBytes := by
  have hmod : (vals.length + 1 + 2 ^ 64 - 1) % 2 ^ 64 = vals.length := by omega
  rw [rxRawCopy, hmod]
  by_cases hfree : (outBytesLength + 2 ^ 64 - i) % 2 ^ 64 = 0
  · rw [hfree, if_pos rfl, if_pos (by omega)]
  · rw [if_neg hfree, if_neg (by omega)]

theorem rxRawCopy_store (val : UInt32) (hvals : vals.length + 1 < 2 ^ 64)
    (hlen : outBytes.length < 2 ^ 64) (hroom : ys.length < outBytes.length) :
    rxRawCopy outBytes.length (val :: vals) ys.length (vals.length + 1) (overlay outBytes ys) =
      rxRawCopy outBytes.length vals (ys ++ [val.toUInt8]).length vals.length
        (overlay outBytes (ys ++ [val.toUInt8])) := by
  have hstore : store (overlay outBytes ys) ys.length val.toUInt8 =
      .ok (overlay outBytes (ys ++ [val.toUInt8])) := by
    rw [store, if_pos, overlay_concat hroom]
    rw [length_overlay]
    exact Nat.lt_of_lt_of_le hroom (Nat.le_max_left _ _)
  rw [rxRawCopy_cons val hvals, if_neg (by omega), hstore, List.length_append, List.length_singleton]
  rfl

theorem rxRawCopy_skip (val : UInt32) (hvals : vals.length + 1 < 2 ^ 64)
    (hend : ys.length = outBytes.length) :
    rxRawCopy outBytes.length (val :: vals) ys.length (vals.length + 1) (overlay outBytes ys) =
      rxRawCopy outBytes.length vals (ys.length + 1) vals.length (overlay outBytes ys) := by
  rw [rxRawCopy_cons val hvals, if_pos]
  rw [hend, Nat.add_sub_cancel_left, Nat.mod_self]

theorem rxRawCopy_of_le (hlen : outBytes.length < 2 ^ 64) (hvals : vals.length < 2 ^ 64)
    (hys : ys.length ≤ outBytes.length) (hfits : ys.length + vals.length ≤ outBytes.length + 1) :
    rxRawCopy outBytes.length vals ys.length vals.length (overlay outBytes ys) = .ok (overlay outBytes
      (ys ++ (vals.map UInt32.toUInt8).take (outBytes.length - ys.length))) := by
  induction vals generalizing ys with
  | nil => rw [rxRawCopy, List.map_nil, List.take_nil, List.append_nil]
  | cons val vals ih =>
    rw [List.length_cons] at hvals hfits ⊢
    rcases Nat.lt_or_eq_of_le hys with hroom | hend
    · rw [rxRawCopy_store val hvals hlen hroom, ih (Nat.lt_of_succ_lt hvals)]
      · obtain ⟨free, hfree⟩ : ∃ free, outBytes.length - ys.length = free + 1 :=
          ⟨outBytes.length - ys.length - 1, by omega⟩
        have hfree' : outBytes.length - (ys ++ [val.toUInt8]).length = free := by
          rw [List.length_append, List.length_singleton]
          omega
        rw [hfree, hfree', List.map_cons, List.take_succ_cons, List.append_assoc]
        rfl
      · rw [List.length_append, List.length_singleton]
        omega
      · rw [List.length_append, List.length_singleton]
        omega
    · obtain rfl : vals = [] := List.length_eq_zero_iff.mp (by omega)
      rw [rxRawCopy_skip val hvals hend, rxRawCopy, hend, Nat.sub_self, List.take_zero, List.append_nil]

/-- The second value left over is stored behind the buffer: the free space has wrapped. -/
theorem rxRawCopy_of_lt (hlen : outBytes.length < 2 ^ 64) (hvals : vals.length < 2 ^ 64)
    (hys : ys.length ≤ outBytes.length) (hmore : outBytes.length + 1 < ys.length + vals.length) :
    rxRawCopy outBytes.length vals ys.length vals.length (overlay outBytes ys) =
      .error .outOfBounds := by
  induction vals generalizing ys with
  | nil =>
    rw [List.length_nil] at hmore
    omega
  | cons val vals ih =>
    rw [List.length_cons] at hvals hmore ⊢
    rcases Nat.lt_or_eq_of_le hys with hroom | hend
    · rw [rxRawCopy_store val hvals hlen hroom, ih (Nat.lt_of_succ_lt hvals)]
      · rw [List.length_append, List.length_singleton]
        omega
      · rw [List.length_append, List.length_singleton]
        omega
    · -- the free space is 0 for this value, which is skipped, and 2 ^ 64 - 1 for the next
      rw [rxRawCopy_skip val hvals hend]
      obtain ⟨next, rest, rfl⟩ : ∃ next rest, vals = next :: rest :=
        List.exists_cons_of_length_pos (by omega)
      rw [List.length_cons] at hvals
      have hbehind : ¬ys.length + 1 < (overlay outBytes ys).length := by
        rw [length_overlay, hend, Nat.max_self]
        omega
      rw [List.length_cons, rxRawCopy_cons next (by omega), if_neg (by omega), store,
        if_neg hbehind]
      rfl

variable {this : ExternalComPortDriver} {numBytes : Nat}

theorem run_eComRxRaw_iff (hnum : 0 < numBytes) (hout : 0 < outBytesLength)
    (hvals : vals.length = numBytes) {bytes : List UInt8} :
    Run (this.eComRxRaw numBytes outBytes outBytesLength)
        [⟨.registerAccess (List.replicate numBytes this.readAccess),
          (⟨.success, numBytes, vals⟩ : AccessResult)⟩] (.ok (.success, bytes)) ↔
      this.mRegisterAccessCallback = true ∧ numBytes < 2 ^ 32 ∧
        rxRawCopy outBytesLength vals 0 vals.length outBytes = .ok bytes := by
  by_cases hcount : numBytes < 2 ^ 32
  · have hall : (List.range numBytes).map (fun i => vals.getD i 0) = vals := by
      refine List.ext_getElem (by simp [hvals]) fun i hi hi' => ?_
      rw [List.getElem_map, List.getElem_range]
      exact (List.getElem_eq_getD 0).symm
    rw [this.eComRxRaw_eq_copy hnum.ne' hout.ne' hcount, and_iff_right hcount]
    cases hcb : this.mRegisterAccessCallback with
    | false =>
      rw [run_access_bind_of_null hcb]
      simp
    | true =>
      rw [run_access_bind hcb]
      constructor
      · intro h
        obtain ⟨a, l', hl, h⟩ := h
        cases hl
        rw [if_neg (not_not.mpr rfl), if_neg (not_not.mpr rfl), hall] at h
        obtain ⟨bytes', l₁, l₂, -, h₁, h₂⟩ := run_bind_ok.mp h
        obtain ⟨-, -, rfl⟩ := run_pure_pair.mp h₂
        rw [hvals]
        exact ⟨rfl, (run_lift.mp h₁).2.symm⟩
      · intro h
        refine ⟨_, [], rfl, ?_⟩
        rw [if_neg (not_not.mpr rfl), if_neg (not_not.mpr rfl), hall, ← hvals, h.2]
        exact .ret _
  · -- the index of the loop is 32 bits wide and never reaches such a count
    refine iff_of_false (fun h => ?_) fun h => hcount h.2.1
    rw [eComRxRaw, if_neg (not_or.mpr ⟨hnum.ne', hout.ne'⟩)] at h
    change Run (if numBytes ≥ 2 ^ 32 then halt _ else _) _ _ at h
    rw [if_pos (Nat.le_of_not_lt hcount)] at h
    cases (run_halt.mp h).2

/-- `EComRxRaw` stays within its buffer and its differences above zero just if it is asked for one
byte more than fits at most, and for few enough that it reads at all. -/
theorem eComRxRaw_within_iff (hnum : 0 < numBytes) (hout : 0 < outBytesLength)
    (hsize : outBytesLength < 2 ^ 64) (hmem : outBytes.length = outBytesLength)
    (hvals : vals.length = numBytes) :
    (Run (this.eComRxRaw numBytes outBytes outBytesLength)
        [⟨.registerAccess (List.replicate numBytes this.readAccess),
          (⟨.success, numBytes, vals⟩ : AccessResult)⟩]
        (.ok (.success, overlay outBytes ((vals.map UInt32.toUInt8).take outBytesLength))) ∧
      ∀ i < numBytes, (outBytesLength + 2 ^ 64 - i) % 2 ^ 64 + i = outBytesLength ∧
        (numBytes - i + 2 ^ 64 - 1) % 2 ^ 64 + 1 = numBytes - i) ↔
      this.mRegisterAccessCallback = true ∧ numBytes < 2 ^ 32 ∧ numBytes ≤ outBytesLength + 1 := by
  subst hmem
  rw [run_eComRxRaw_iff hnum hout hvals]
  constructor
  · intro h
    obtain ⟨⟨hcb, hcount, hcopy⟩, -⟩ := h
    refine ⟨hcb, hcount, ?_⟩
    by_contra hmore
    have hwrapped : rxRawCopy outBytes.length vals ([] : List UInt8).length vals.length
        (overlay outBytes []) = .error .outOfBounds :=
      rxRawCopy_of_lt hsize (by omega) (Nat.zero_le _) (by rw [List.length_nil]; omega)
    rw [overlay_nil] at hwrapped
    rw [List.length_nil, hcopy] at hwrapped
    cases hwrapped
  · intro h
    obtain ⟨hcb, hcount, hfits⟩ := h
    have hcopy : rxRawCopy outBytes.length vals ([] : List UInt8).length vals.length
        (overlay outBytes []) = .ok _ :=
      rxRawCopy_of_le hsize (by omega) (Nat.zero_le _) (by rw [List.length_nil]; omega)
    rw [overlay_nil] at hcopy
    refine ⟨⟨hcb, hcount, hcopy⟩, fun i hi => ?_⟩
    omega

theorem eComRxRaw_within_iff_short :
    Run (inited.eComRxRaw 2 [7] 1) [⟨.registerAccess (List.replicate 2 inited.readAccess),
          (⟨.success, 2, [0x1141, 0x42]⟩ : AccessResult)⟩] (.ok (.success, [0x41])) ∧
      ∀ i < 2, (1 + 2 ^ 64 - i) % 2 ^ 64 + i = 1 ∧ (2 - i + 2 ^ 64 - 1) % 2 ^ 64 + 1 = 2 - i :=
  (eComRxRaw_within_iff Nat.two_pos Nat.one_pos (show 1 < 2 ^ 64 by decide) rfl rfl).mpr
    ⟨rfl, show 2 < 2 ^ 32 by decide, Nat.le_refl 2⟩

/-- Asked for three bytes into one it stores the third behind the buffer. -/
theorem eComRxRaw_within_iff_behind :
    ¬∀ (this : ExternalComPortDriver) (numBytes outBytesLength : Nat) (outBytes : List UInt8)
      (vals : List UInt32), this.mRegisterAccessCallback = true → 0 < numBytes → numBytes < 2 ^ 32 →
      0 < outBytesLength → outBytes.length = outBytesLength → vals.length = numBytes →
      Run (this.eComRxRaw numBytes outBytes outBytesLength)
        [⟨.registerAccess (List.replicate numBytes this.readAccess),
          (⟨.success, numBytes, vals⟩ : AccessResult)⟩]
        (.ok (.success, overlay outBytes ((vals.map UInt32.toUInt8).take outBytesLength))) := by
  intro h
  have hrun := h inited 3 1 [0] [0x11, 0x22, 0x33] rfl (by decide) (by decide) (by decide) rfl rfl
  obtain ⟨-, -, hcopy⟩ := (run_eComRxRaw_iff (Nat.succ_pos 2) Nat.one_pos rfl).mp hrun
  cases hcopy

end
end ExternalComPortDriver

/-! ### Storing a message -/

namespace ExternalComPortDriver
variable {this : ExternalComPortDriver} {startFlag : UInt8} {fuel rxBufferLength actualLength : Nat}
  {rxBuffer : List UInt8} {l : Trace} {out : RxResult}

theorem run_eComPortRxInt_index (hflag : IsStartFlag startFlag)
    (h : Run (this.eComPortRxInt fuel startFlag rxBuffer rxBufferLength actualLength) l (.ok out))
    (hres : out.res = .success) :
    ∃ u w s, this.traffic l = (u ++ startFlag :: (w ++ [flagEND])).map .read ∧ startFlag ∉ w ∧
      PassesOver startFlag rxBufferLength (rxStateOf rxBuffer actualLength {}) (u ++ startFlag :: w) s ∧
      out = ⟨.success, s.rxBuffer, s.actualLength⟩ ∧
      ((s.bufferIdx = messageLength w ∧
          (messageLength w ≠ 0 → out.actualLength = messageLength w)) ↔ messageLength w ≤ 65535) := by
  obtain ⟨u, w, s, ht, hw, -, -, hpass, hout⟩ := run_eComPortRxInt_success hflag h hres
  refine ⟨u, w, s, ht, hw, hpass, hout, ?_⟩
  have hlen : (sdc600 startFlag).dataCount (Alphabet.lastRun startFlag (u ++ startFlag :: w)) =
      messageLength w := by
    rw [Alphabet.lastRun_append_cons hw]
    rfl
  have hidx : s.bufferIdx = messageLength w % 2 ^ 16 := by
    rw [← hlen]
    exact (heard_of_passes hflag hpass).index
  have hcurrent := current_of_passes hflag hpass
  rw [hlen] at hcurrent
  rw [hout, hidx]
  constructor
  · intro hcount
    omega
  · intro hmax
    have hmod : messageLength w % 2 ^ 16 = messageLength w := Nat.mod_eq_of_lt (by omega)
    refine ⟨hmod, fun hne => ?_⟩
    dsimp only
    rw [hcurrent hne, hidx, hmod]

/-- Both counters are exact just as long as they do not wrap. -/
theorem counters_exact_iff {data outData : List UInt8} {outDataBufferSize : Nat}
    (hbuffer : outDataBufferSize ≤ outData.length) :
    ((∃ out, eComPortPrepareData data outData outDataBufferSize = .ok out ∧
      (out.res = .success → out.outSize = ((sdc600 flagSTART).frame data).length ∧
        out.outData.take out.outSize = (sdc600 flagSTART).frame data)) ↔
      data.length < 2 ^ 32 ∧ (((sdc600 flagSTART).frame data).length ≤ 65535 ∨
        outDataBufferSize < ((sdc600 flagSTART).frame data).length % 2 ^ 16)) ∧
    ∀ (this : ExternalComPortDriver) (startFlag : UInt8) (fuel rxBufferLength actualLength : Nat)
      (rxBuffer : List UInt8) (l : Trace) (out : RxResult), IsStartFlag startFlag →
      Run (this.eComPortRxInt fuel startFlag rxBuffer rxBufferLength actualLength) l (.ok out) →
      out.res = .success →
      ∃ u w s, this.traffic l = (u ++ startFlag :: (w ++ [flagEND])).map .read ∧ startFlag ∉ w ∧
        PassesOver startFlag rxBufferLength (rxStateOf rxBuffer actualLength {})
          (u ++ startFlag :: w) s ∧
        out = ⟨.success, s.rxBuffer, s.actualLength⟩ ∧
        ((s.bufferIdx = messageLength w ∧
            (messageLength w ≠ 0 → out.actualLength = messageLength w)) ↔
          messageLength w ≤ 65535) := by
  refine ⟨eComPortPrepareData_whole_iff hbuffer, ?_⟩
  intro this startFlag fuel rxBufferLength actualLength rxBuffer l out hflag h hres
  exact run_eComPortRxInt_index hflag h hres

theorem counters_exact_iff_short :
    (∃ out, eComPortPrepareData [0xA5] [0, 0, 0, 0] 4 = .ok out ∧
      (out.res = .success → out.outSize = ((sdc600 flagSTART).frame [0xA5]).length ∧
        out.outData.take out.outSize = (sdc600 flagSTART).frame [0xA5])) ∧
    ∃ u w s, inited.traffic (scripted.exec (inited.eComPortRxInt 4 flagIDA [0, 0] 2 7)
          (streamScript [flagIDA, 0x41, flagEND])).2.1 = (u ++ flagIDA :: (w ++ [flagEND])).map .read ∧
      PassesOver flagIDA 2 (rxStateOf [0, 0] 7 {}) (u ++ flagIDA :: w) s ∧
      messageLength w ≤ 65535 ∧ s.bufferIdx = messageLength w ∧
      (messageLength w ≠ 0 → 1 = messageLength w) := by
  obtain ⟨hprepared, hreceived⟩ := @counters_exact_iff [0xA5] [0, 0, 0, 0] 4 (by decide)
  refine ⟨hprepared.mpr ⟨by decide, .inl (by decide)⟩, ?_⟩
  have hrun : Run (inited.eComPortRxInt 4 flagIDA [0, 0] 2 7) _ (.ok ⟨.success, [0x41, 0], 1⟩) :=
    run_of_exec (streamScript [flagIDA, 0x41, flagEND]) (by decide +kernel)
  have hread : inited.traffic (scripted.exec (inited.eComPortRxInt 4 flagIDA [0, 0] 2 7)
      (streamScript [flagIDA, 0x41, flagEND])).2.1 =
        ([] ++ flagIDA :: ([0x41] ++ [flagEND])).map .read := by decide +kernel
  obtain ⟨u, w, s, ht, hw, hpass, -, hiff⟩ := hreceived _ _ _ _ _ _ _ _ (.inr rfl) hrun rfl
  obtain ⟨rfl, rfl⟩ := split_unique (by decide) hw (by decide) ht hread
  have hlen : messageLength [0x41] ≤ 65535 := by decide
  obtain ⟨hidx, hreported⟩ := hiff.mpr hlen
  exact ⟨_, _, s, ht, hpass, hlen, hidx, hreported⟩

theorem counters_exact_iff_wrapped :
    ¬∀ (data outData : List UInt8) (outDataBufferSize : Nat), data.length * 2 + 2 < 2 ^ 64 →
      outDataBufferSize ≤ outData.length →
      ∃ out, eComPortPrepareData data outData outDataBufferSize = .ok out ∧
        (out.res = .success → out.outSize = ((sdc600 flagSTART).frame data).length ∧
          out.outData.take out.outSize = (sdc600 flagSTART).frame data) := by
  intro h
  have hlen : ((sdc600 flagSTART).frame (List.replicate 65534 0)).length = 65536 := by
    rw [Alphabet.length_frame, List.countP_replicate, if_neg (by decide), List.length_replicate]
  have hwhole := h (List.replicate 65534 0) (List.replicate 131070 0) 131070
    (by rw [List.length_replicate]; decide) (by rw [List.length_replicate])
  have hcond := ((eComPortPrepareData_whole_iff (by rw [List.length_replicate])).mp hwhole).2
  rw [hlen] at hcond
  omega

/-! ### Reporting what was consumed -/

/-- How many bytes of the payload the device has taken whole, each with its escape. -/
def consumed (payload taken : List UInt8) : Nat :=
  Nat.findGreatest (fun k => flagSTART :: (sdc600 flagSTART).stuff (payload.take k) <+: taken)
    payload.length

theorem consumed_lt {payload taken : List UInt8} (h : taken ≠ []) :
    consumed payload taken < taken.length := by
  by_cases hzero : consumed payload taken = 0
  · rw [hzero]
    exact List.length_pos_iff.mpr h
  · have hle : consumed payload taken ≤ payload.length := Nat.findGreatest_le _
    have hprefix : flagSTART :: (sdc600 flagSTART).stuff (payload.take (consumed payload taken)) <+:
        taken := Nat.findGreatest_of_ne_zero rfl hzero
    have hlen := hprefix.length_le
    rw [List.length_cons, Alphabet.length_stuff, List.length_take, Nat.min_eq_left hle] at hlen
    omega

theorem consumed_nil (payload : List UInt8) : consumed payload [] = 0 := by
  rw [consumed, Nat.findGreatest_eq_zero_iff]
  intro k _ _ hprefix
  exact List.cons_ne_nil _ _ (List.prefix_nil.mp hprefix)

section
variable {payload : List UInt8} {block : Bool} {res : SDMReturnCode} {reported : Nat}

theorem length_lt_of_tx (hinit : this.mIsComPortInited = true)
    (h : Run (this.eComPortTx payload actualLength block) l (.ok (res, reported))) :
    payload.length < 2 ^ 32 := by
  rw [eComPortTx, hinit] at h
  change Run (lift (preparedFrame payload) >>= _) l _ at h
  obtain ⟨out, l₁, l₂, -, h₁, -⟩ := run_bind_ok.mp h
  exact length_lt_of_prepared (run_lift.mp h₁).2.symm

/-- The report is never what was consumed, except where the index has wrapped to 0 and the empty
batch is refused. -/
theorem eComPortTx_consumed_iff (hinit : this.mIsComPortInited = true)
    (h : Run (this.eComPortTx payload actualLength block) l (.ok (res, reported))) :
    (reported = consumed payload (this.written l) ∧ (res = .success → reported = payload.length)) ↔
      ((sdc600 flagSTART).frame payload).length % 2 ^ 16 = 0 ∧ block = true := by
  rw [eComPortTx_encoded hinit (length_lt_of_tx hinit h)] at h
  obtain ⟨code, l₁, l₂, rfl, h₁, h₂⟩ := run_bind_ok.mp h
  obtain ⟨rfl, rfl, rfl⟩ := run_pure_pair.mp h₂
  rw [List.append_nil, ← length_encoded]
  by_cases hempty : encoded payload = []
  · rw [hempty] at h₁ ⊢
    cases block with
    | true =>
      -- `EComTxRaw` has nothing to write
      obtain ⟨rfl, hres⟩ := run_pure_ok.mp (eComSendBlock_true ▸ h₁)
      refine iff_of_true ⟨(consumed_nil payload).symm, fun hsuccess => ?_⟩ ⟨rfl, rfl⟩
      rw [hres] at hsuccess
      cases hsuccess
    | false =>
      -- the loop over the bytes has no turn
      obtain ⟨-, hres⟩ := run_pure_ok.mp h₁
      have hpayload : payload.length ≠ 0 := by
        intro hzero
        have hlen := length_encoded payload
        rw [hempty, List.length_eq_zero_iff.mp hzero] at hlen
        cases hlen
      exact iff_of_false (fun hboth => hpayload (hboth.2 hres).symm) fun hboth => by cases hboth.2
  · obtain ⟨hsent, -, -⟩ := run_eComSendBlock hempty h₁
    have hpos := List.length_pos_iff.mpr hempty
    have hless : consumed payload (this.written l₁) < (encoded payload).length := by
      by_cases hnone : this.written l₁ = []
      · rw [hnone, consumed_nil]
        exact hpos
      · exact Nat.lt_of_lt_of_le (consumed_lt hnone) hsent.length_le
    exact iff_of_false (fun hboth => absurd hboth.1 hless.ne') fun hboth => absurd hboth.1 hpos.ne'

theorem eComPortTx_consumed_iff_cut :
    ((sdc600 flagSTART).frame [0x41, 0xA5]).length % 2 ^ 16 ≠ 0 ∧
    ¬(5 = consumed [0x41, 0xA5] (inited.written (scripted.exec (inited.eComPortTx [0x41, 0xA5] 9 true)
        [⟨.ioError, 5, []⟩]).2.1) ∧
      (SDMReturnCode.ioError = .success → 5 = [(0x41 : UInt8), 0xA5].length)) := by
  have hrun : Run (inited.eComPortTx [0x41, 0xA5] 9 true) _ (.ok (.ioError, 5)) :=
    run_of_exec [⟨.ioError, 5, []⟩] (by decide +kernel)
  have hsize : ((sdc600 flagSTART).frame [0x41, 0xA5]).length % 2 ^ 16 ≠ 0 := by decide
  exact ⟨hsize, fun h => hsize ((eComPortTx_consumed_iff rfl hrun).mp h).1⟩

theorem eComPortTx_consumed_plain :
    ¬∀ (this : ExternalComPortDriver) (payload : List UInt8) (actualLength : Nat) (block : Bool)
      (l : Trace) (res : SDMReturnCode) (reported : Nat), this.mIsComPortInited = true →
      Run (this.eComPortTx payload actualLength block) l (.ok (res, reported)) →
      reported = consumed payload (this.written l) ∧ (res = .success → reported = payload.length) := by
  intro h
  have hrun : Run (inited.eComPortTx [0x41] 0 true) _ (.ok (.success, 3)) :=
    run_of_exec [⟨.success, 3, []⟩] (by decide +kernel)
  exact absurd ((h _ _ _ _ _ _ _ rfl hrun).2 rfl) (by decide)

end

end ExternalComPortDriver
end SecureDebug
