import SecureDebug.Driver.Receive
import SecureDebug.Framing.Escape

/-! `EComPortPrepareData` builds the frame of the link, and `EComPort_Tx` puts it on the wire,
all of it or a prefix, whichever of the two ways it sends. -/

namespace SecureDebug
open Interaction Program Framing

/-! ### Building the frame -/

section
variable {size : Nat} {ws data outData : List UInt8} {byte : UInt8}

/-- `tempData` and `outByteIndex` after `ws` was put into a zeroed buffer of `size` bytes. The
16-bit index stores over the front of the buffer once it has wrapped. -/
def putState (size : Nat) (ws : List UInt8) : List UInt8 × Nat :=
  (writeRing (2 ^ 16) (List.replicate size 0) 0 ws, ws.length % 2 ^ 16)

theorem putByte_putState (hsize : ws.length < size) :
    putByte (putState size ws) byte = .ok (putState size (ws ++ [byte])) := by
  have hindex : ws.length % 2 ^ 16 < size := Nat.lt_of_le_of_lt (Nat.mod_le _ _) hsize
  have hring := writeRing_append (k := 2 ^ 16) (i := 0) (by decide) (List.replicate size (0 : UInt8))
    ws [byte]
  rw [Nat.zero_add] at hring
  have hstore : store (writeRing (2 ^ 16) (List.replicate size 0) 0 ws) (ws.length % 2 ^ 16) byte =
      .ok (writeRing (2 ^ 16) (List.replicate size 0) 0 (ws ++ [byte])) := by
    rw [store, if_pos, hring]
    · rfl
    · rwa [length_writeRing, List.length_replicate]
  rw [putState, putByte, hstore, putState, List.length_append, List.length_singleton]
  show Except.ok (_, (ws.length % 2 ^ 16 + 1) % 2 ^ 16) = _
  rw [Nat.mod_add_mod]

theorem prepareLoop_putState {data ws : List UInt8}
    (hsize : ws.length + ((sdc600 flagSTART).stuff data).length ≤ size) :
    prepareLoop data (putState size ws) =
      .ok (putState size (ws ++ (sdc600 flagSTART).stuff data)) := by
  induction data generalizing ws with
  | nil => rw [prepareLoop, Alphabet.stuff_nil, List.append_nil]; rfl
  | cons byte data ih =>
    rw [Alphabet.stuff_cons, List.length_append] at hsize
    rw [prepareLoop, Alphabet.stuff_cons, ← List.append_assoc]
    show (if isFlagByte byte = true then _ else _) = _
    by_cases hflag : isFlagByte byte = true
    · have hstuff : (if (sdc600 flagSTART).flagged byte then
          [(sdc600 flagSTART).esc, (sdc600 flagSTART).strip byte] else [byte]) =
            [flagESC, byte &&& 0x7F] := if_pos hflag
      rw [hstuff] at hsize ⊢
      simp only [List.length_cons, List.length_nil] at hsize
      have hfirst : putByte (putState size ws) flagESC = .ok (putState size (ws ++ [flagESC])) :=
        putByte_putState (by omega)
      have hsecond : putByte (putState size (ws ++ [flagESC])) (byte &&& 0x7F) =
          .ok (putState size (ws ++ [flagESC] ++ [byte &&& 0x7F])) :=
        putByte_putState (by simp; omega)
      rw [if_pos hflag, hfirst]
      show (putByte (putState size (ws ++ [flagESC])) (byte &&& 0x7F) >>= _) = _
      rw [hsecond, List.append_assoc]
      exact ih (by simp; omega)
    · have hstuff : (if (sdc600 flagSTART).flagged byte then
          [(sdc600 flagSTART).esc, (sdc600 flagSTART).strip byte] else [byte]) = [byte] :=
        if_neg hflag
      rw [hstuff] at hsize ⊢
      simp only [List.length_cons, List.length_nil] at hsize
      rw [if_neg hflag, putByte_putState (by omega)]
      exact ih (by simp; omega)

/-- What `EComPortPrepareData` takes for the frame: as many bytes as its index says, out of the
buffer that the frame was put into. -/
def encoded (data : List UInt8) : List UInt8 :=
  (putState (data.length * 2 + 2) ((sdc600 flagSTART).frame data)).1.take
    (((sdc600 flagSTART).frame data).length % 2 ^ 16)

variable (data) in
theorem length_frame_le : ((sdc600 flagSTART).frame data).length ≤ data.length * 2 + 2 := by
  have hlen := (sdc600 flagSTART).length_frame data
  have hcount : data.countP (sdc600 flagSTART).flagged ≤ data.length := List.countP_le_length
  omega

variable (data) in
theorem length_encoded :
    (encoded data).length = ((sdc600 flagSTART).frame data).length % 2 ^ 16 := by
  rw [encoded, putState, List.length_take, length_writeRing, List.length_replicate]
  exact Nat.min_eq_left ((Nat.mod_le _ _).trans (length_frame_le data))

theorem encoded_eq_frame (hindex : ((sdc600 flagSTART).frame data).length ≤ 65535) :
    encoded data = (sdc600 flagSTART).frame data := by
  have hmod : ((sdc600 flagSTART).frame data).length % 2 ^ 16 =
      ((sdc600 flagSTART).frame data).length := Nat.mod_eq_of_lt (by omega)
  rw [encoded, putState, hmod]
  apply take_writeRing _ _ (Nat.le_succ_of_le hindex)
  rw [List.length_replicate]
  exact length_frame_le data

theorem eComPortPrepareData_encoded (hlen : data.length < 2 ^ 32) :
    eComPortPrepareData data outData size =
      if (encoded data).length > size then .ok ⟨.internalError, outData, 0⟩
      else if (encoded data).length > outData.length then .error .outOfBounds
      else .ok ⟨.success, overlay outData (encoded data), (encoded data).length⟩ := by
  have hframe := length_frame_le data
  have hstuff : ((sdc600 flagSTART).frame data).length =
      ((sdc600 flagSTART).stuff data).length + 2 := by
    rw [Alphabet.frame, List.length_append, List.length_cons, List.length_singleton]
  have hmod : (data.length * 2 + 2) % 2 ^ 64 = data.length * 2 + 2 := Nat.mod_eq_of_lt (by omega)
  have hfirst : putByte (putState (data.length * 2 + 2) []) flagSTART =
      .ok (putState (data.length * 2 + 2) [flagSTART]) := putByte_putState (by simp)
  have hloop : prepareLoop data (putState (data.length * 2 + 2) [flagSTART]) = .ok (putState
      (data.length * 2 + 2) ([flagSTART] ++ (sdc600 flagSTART).stuff data)) :=
    prepareLoop_putState (by simp; omega)
  have hlast : putByte (putState (data.length * 2 + 2) ([flagSTART] ++
      (sdc600 flagSTART).stuff data)) flagEND =
      .ok (putState (data.length * 2 + 2) ((sdc600 flagSTART).frame data)) :=
    putByte_putState (by simp; omega)
  rw [eComPortPrepareData, hmod]
  show (putByte (putState (data.length * 2 + 2) []) flagSTART >>= _) = _
  rw [hfirst]
  show ((if data.length ≥ 2 ^ 32 then _ else _) : Except Stop _) = _
  rw [if_neg (by omega)]
  show (prepareLoop data _ >>= _) = _
  rw [hloop]
  show (putByte _ flagEND >>= _) = _
  rw [hlast, length_encoded]
  show ((if ((sdc600 flagSTART).frame data).length % 2 ^ 16 > size then _ else _) :
    Except Stop _) = _
  refine if_congr Iff.rfl rfl (if_congr Iff.rfl rfl ?_)
  rw [overlay, length_encoded]
  rfl

/-- What `EComPortPrepareData` builds is the frame. -/
theorem eComPortPrepareData_eq (hindex : ((sdc600 flagSTART).frame data).length ≤ 65535)
    (hsize : ((sdc600 flagSTART).frame data).length ≤ size)
    (hout : ((sdc600 flagSTART).frame data).length ≤ outData.length) :
    eComPortPrepareData data outData size = .ok ⟨.success,
      overlay outData ((sdc600 flagSTART).frame data), ((sdc600 flagSTART).frame data).length⟩ := by
  have hlen := (sdc600 flagSTART).length_frame data
  rw [eComPortPrepareData_encoded (by omega), encoded_eq_frame hindex,
    if_neg (Nat.not_lt.mpr hsize), if_neg (Nat.not_lt.mpr hout)]

def preparedFrame (data : List UInt8) : Except Stop PrepareResult :=
  let tempBuffLen := (data.length * 2 + 2) % 2 ^ 64
  eComPortPrepareData data (List.replicate tempBuffLen 0) tempBuffLen

theorem preparedFrame_encoded (hlen : data.length < 2 ^ 32) :
    preparedFrame data = .ok ⟨.success, overlay (List.replicate (data.length * 2 + 2) 0)
      (encoded data), (encoded data).length⟩ := by
  have hmod : (data.length * 2 + 2) % 2 ^ 64 = data.length * 2 + 2 := Nat.mod_eq_of_lt (by omega)
  have hfits : (encoded data).length ≤ data.length * 2 + 2 := by
    rw [length_encoded]
    exact (Nat.mod_le _ _).trans (length_frame_le data)
  rw [preparedFrame, hmod, eComPortPrepareData_encoded hlen, if_neg (Nat.not_lt.mpr hfits),
    if_neg (by rw [List.length_replicate]; exact Nat.not_lt.mpr hfits)]

theorem preparedFrame_eq (hindex : ((sdc600 flagSTART).frame data).length ≤ 65535) :
    ∃ frame, preparedFrame data = .ok frame ∧ frame.res = .success ∧
      frame.outSize = ((sdc600 flagSTART).frame data).length ∧
      frame.outData.take frame.outSize = (sdc600 flagSTART).frame data := by
  have hlen := (sdc600 flagSTART).length_frame data
  refine ⟨_, preparedFrame_encoded (by omega), rfl, ?_⟩
  rw [encoded_eq_frame hindex]
  refine ⟨rfl, ?_⟩
  rw [take_overlay (Nat.le_refl _), List.take_length]

end

/-! ### Putting it on the wire -/

namespace ExternalComPortDriver
variable {this : ExternalComPortDriver}

def taken : Observation → Option UInt8
  | .wrote byte _ => some byte
  | _ => none

def written (this : ExternalComPortDriver) (l : Trace) : List UInt8 :=
  (this.traffic l).filterMap taken

theorem written_append (l l' : Trace) :
    this.written (l ++ l') = this.written l ++ this.written l' := by
  rw [written, traffic_append, List.filterMap_append, written, written]

def FineAnswer (this : ExternalComPortDriver) : Event Host → Prop
  | ⟨.registerAccess accesses, (a : AccessResult)⟩ =>
    a.result = .success ∧ a.accessesCompleted = accesses.length ∧
      (accesses = [this.statusAccess] → (statusOfSR (a.values.getD 0 0)).linkErrs = 0 ∧
        (statusOfSR (a.values.getD 0 0)).txOverflow = 0)
  | _ => True

instance (e : Event Host) : Decidable (this.FineAnswer e) :=
  match e with
  | ⟨.registerAccess _, (_ : AccessResult)⟩ => inferInstanceAs (Decidable (_ ∧ _ ∧ (_ → _)))
  | ⟨.resetStart, _⟩ | ⟨.resetEnd, _⟩ | ⟨.updateProgress _ _, _⟩ | ⟨.presentForm _, _⟩
  | ⟨.psaAdacInit, _⟩ | ⟨.importPrivateKey _, _⟩ | ⟨.loadTrustChain _, _⟩
  | ⟨.psaAdacSignToken _ _ _, _⟩ | ⟨.splitTlvStatic _, _⟩ | ⟨.uninitialised _, _⟩
  | ⟨.newImpl, _⟩ => .isTrue trivial

def NeverErrs (this : ExternalComPortDriver) (l : Trace) : Prop := ∀ e ∈ l, this.FineAnswer e

/-- At most 4999 consecutive statuses show no room for a byte. -/
def Patient (this : ExternalComPortDriver) (l : Trace) : Prop :=
  ∀ as : List AccessResult, as.map this.statusEvent <:+: l →
    (∀ a ∈ as, (statusOfSR (a.values.getD 0 0)).txFree = 0) → as.length ≤ 4999

section
variable {l l' : Trace} {block : Bool} {byte : UInt8} {bytes payload : List UInt8}
  {actualLength : Nat}

theorem neverErrs_append :
    this.NeverErrs (l ++ l') ↔ this.NeverErrs l ∧ this.NeverErrs l' := List.forall_mem_append

theorem Patient.left (h : this.Patient (l ++ l')) : this.Patient l :=
  fun as has => h as (has.trans List.infix_append_left)

theorem Patient.right (h : this.Patient (l ++ l')) : this.Patient l' :=
  fun as has => h as (has.trans List.infix_append_right)

theorem pollResult_of_fine {level : Status → UInt8} {a : AccessResult}
    (h : this.FineAnswer (this.statusEvent a)) :
    pollResult level a = .ok (level (statusOfSR (a.values.getD 0 0)) ≠ 0) := by
  obtain ⟨hres, hdone, hstatus⟩ := h
  obtain ⟨hlink, hover⟩ := hstatus rfl
  have hdone' : a.accessesCompleted = 1 := hdone
  have hresult : statusResult a = (.success, statusOfSR (a.values.getD 0 0)) := by
    rw [statusResult, if_neg (not_not.mpr hres), if_neg (not_not.mpr hdone')]
  rw [pollResult, hresult]
  dsimp only
  rw [if_neg (not_not.mpr rfl), if_neg (not_not.mpr hlink), if_neg (not_not.mpr hover)]

theorem Polls.lt_of_fine {as : List AccessResult} {x : Except SDMReturnCode Nat}
    (h : Polls Status.txFree maxRetries as x) (hf : this.NeverErrs (as.map this.statusEvent))
    (hp : this.Patient (as.map this.statusEvent)) : ∃ n, x = .ok n ∧ n < maxRetries := by
  have hfine (a : AccessResult) (ha : a ∈ as) : this.FineAnswer (this.statusEvent a) :=
    hf _ (List.mem_map_of_mem ha)
  obtain ⟨as', a, rfl, hall, hlast⟩ := h.split
  -- the statuses passed over show no room, so there are few of them
  have hlen : as'.length ≤ 4999 := by
    refine hp as' ?_ fun b hb => ?_
    · rw [List.map_append]
      exact List.infix_append_left
    · have hb' := hall b hb
      rw [pollResult_of_fine (hfine b (List.mem_append_left _ hb))] at hb'
      simpa using hb'
  have hmax : maxRetries = 5000 := rfl
  rcases hlast with ⟨code, ha, -⟩ | ⟨-, -, rfl⟩ | ⟨-, heq, -⟩
  · rw [pollResult_of_fine (hfine a (by simp))] at ha
    cases ha
  · exact ⟨_, rfl, by omega⟩
  · omega

theorem written_eComSendByte {r : Except Stop SDMReturnCode}
    (h : Run (this.eComSendByte byte) l r) :
    (this.written l = [] ∧ r ≠ .ok .success) ∨ this.written l = [byte] := by
  rcases run_eComSendByte h with ⟨-, ht⟩ | ⟨hr, ht | ht | ht⟩
  · exact .inr (by rw [written, ht]; rfl)
  · exact .inl ⟨by rw [written, ht]; rfl, hr⟩
  · exact .inl ⟨by rw [written, ht]; rfl, hr⟩
  · exact .inr (by rw [written, ht]; rfl)

theorem eComSendByte_fine {r : Except Stop SDMReturnCode} (hcb : this.mRegisterAccessCallback = true)
    (h : Run (this.eComSendByte byte) l r) (hf : this.NeverErrs l) (hp : this.Patient l) :
    r = .ok .success := by
  rw [eComSendByte_eq] at h
  obtain ⟨as, x, hpolls, ⟨code, rfl, rfl, rfl⟩ | ⟨n, rfl, hn, rfl, rfl⟩ | ⟨n, a, rfl, -, rfl, rfl⟩⟩ :=
    run_polledAccess hcb h
  · obtain ⟨n, hx, -⟩ := hpolls.lt_of_fine hf hp
    cases hx
  · obtain ⟨n, hx, hlt⟩ := hpolls.lt_of_fine hf hp
    cases hx
    exact absurd hlt (Nat.not_lt.mpr hn)
  · obtain ⟨hres, hdone, -⟩ := (neverErrs_append.mp hf).2 _ (List.mem_singleton_self _)
    exact congrArg Except.ok (writeResult_eq_success.mpr ⟨hres, hdone⟩)

theorem run_eComSendBytes {r : Except Stop SDMReturnCode}
    (h : Run (this.eComSendBytes bytes) l r) :
    this.written l <+: bytes ∧ (r = .ok .success → this.written l = bytes) ∧
      (this.mRegisterAccessCallback = true → this.NeverErrs l → this.Patient l →
        r = .ok .success) := by
  induction bytes generalizing l with
  | nil =>
    obtain ⟨rfl, rfl⟩ := run_pure.mp h
    exact ⟨List.nil_prefix, fun _ => rfl, fun _ _ _ => rfl⟩
  | cons byte bytes ih =>
    rw [eComSendBytes, run_bind] at h
    rcases h with ⟨code, l₁, l₂, rfl, h₁, h₂⟩ | ⟨e, rfl, he⟩
    · rw [written_append]
      by_cases hcode : code = .success
      · subst hcode
        rw [if_neg (not_not.mpr rfl)] at h₂
        obtain ⟨hpre, hall, hfine⟩ := ih h₂
        have hbyte : this.written l₁ = [byte] := by
          rcases written_eComSendByte h₁ with ⟨-, hne⟩ | hb
          · exact absurd rfl hne
          · exact hb
        rw [hbyte, List.singleton_append]
        refine ⟨List.cons_prefix_cons.mpr ⟨rfl, hpre⟩, fun hr => by rw [hall hr], ?_⟩
        exact fun hcb hf hp => hfine hcb (neverErrs_append.mp hf).2 hp.right
      · rw [if_pos hcode] at h₂
        obtain ⟨rfl, rfl⟩ := run_pure.mp h₂
        rw [show this.written [] = [] from rfl, List.append_nil]
        refine ⟨?_, fun hr => absurd (Except.ok.inj hr) hcode, fun hcb hf hp => ?_⟩
        · rcases written_eComSendByte h₁ with ⟨hw, -⟩ | hw
          · exact hw ▸ List.nil_prefix
          · exact hw ▸ List.cons_prefix_cons.mpr ⟨rfl, List.nil_prefix⟩
        · exact eComSendByte_fine hcb h₁ (neverErrs_append.mp hf).1 hp.left
    · refine ⟨?_, fun hr => (by cases hr), fun hcb hf hp => ?_⟩
      · rcases written_eComSendByte he with ⟨hw, -⟩ | hw
        · exact hw ▸ List.nil_prefix
        · exact hw ▸ List.cons_prefix_cons.mpr ⟨rfl, List.nil_prefix⟩
      · cases eComSendByte_fine hcb he hf hp

theorem run_eComTxRaw {r : Except Stop SDMReturnCode} (hne : bytes ≠ [])
    (h : Run (this.eComTxRaw block bytes) l r) :
    this.written l <+: bytes ∧ (r = .ok .success → this.written l = bytes) ∧
      (this.mRegisterAccessCallback = true → this.NeverErrs l → r = .ok .success) := by
  rw [this.eComTxRaw_eq block hne] at h
  cases hcb : this.mRegisterAccessCallback with
  | false =>
    obtain ⟨rfl, rfl⟩ := (run_access_bind_of_null hcb).mp h
    exact ⟨List.nil_prefix, fun hr => (by cases hr), fun hcb' => absurd hcb' Bool.false_ne_true⟩
  | true =>
    obtain ⟨a, l', rfl, h'⟩ := (run_access_bind hcb).mp h
    obtain ⟨rfl, rfl⟩ := run_pure.mp h'
    have hw : this.written [this.writeEvent block bytes a] = bytes.take a.accessesCompleted := by
      have hwrote : taken ∘ (Observation.wrote · (writeResult bytes.length a = .success)) = some := rfl
      have hoffered : taken ∘ Observation.offered = fun _ => none := rfl
      rw [written, traffic_writeEvent, List.filterMap_append, List.filterMap_map,
        List.filterMap_map, hwrote, hoffered, List.filterMap_some, List.filterMap_none,
        List.append_nil]
    rw [writeEvent] at hw
    rw [hw]
    refine ⟨List.take_prefix _ _, fun hr => ?_, fun _ hf => ?_⟩
    · obtain ⟨-, hdone⟩ := writeResult_eq_success.mp (Except.ok.inj hr)
      rw [hdone, List.take_length]
    · obtain ⟨hres, hdone, -⟩ := hf _ (List.mem_singleton_self _)
      rw [List.length_map] at hdone
      exact congrArg Except.ok (writeResult_eq_success.mpr ⟨hres, hdone⟩)

theorem eComSendBlock_true : this.eComSendBlock bytes true = this.eComTxRaw true bytes := by
  rw [eComSendBlock, if_pos rfl]
  conv_rhs => rw [← bind_pure (this.eComTxRaw true bytes)]
  congr 1
  funext code
  split_ifs with hcode
  · rfl
  · rw [not_not.mp hcode]

theorem run_eComSendBlock {r : Except Stop SDMReturnCode} (hne : bytes ≠ [])
    (h : Run (this.eComSendBlock bytes block) l r) :
    this.written l <+: bytes ∧ (r = .ok .success → this.written l = bytes) ∧
      (this.mRegisterAccessCallback = true → this.NeverErrs l → this.Patient l →
        r = .ok .success) := by
  cases block with
  | false => exact run_eComSendBytes h
  | true =>
    rw [eComSendBlock_true] at h
    obtain ⟨hpre, hall, hfine⟩ := run_eComTxRaw hne h
    exact ⟨hpre, hall, fun hcb hf _ => hfine hcb hf⟩

theorem eComPortTx_encoded (hinit : this.mIsComPortInited = true) (hlen : payload.length < 2 ^ 32) :
    this.eComPortTx payload actualLength block =
      this.eComSendBlock (encoded payload) block >>= fun res => pure (res, (encoded payload).length) := by
  rw [eComPortTx, hinit]
  show (lift (preparedFrame payload) >>= _) = _
  rw [preparedFrame_encoded hlen]
  show (this.eComSendBlock ((overlay _ _).take _) block >>= _) = _
  rw [take_overlay (Nat.le_refl _), List.take_length]

theorem eComPortTx_eq (hinit : this.mIsComPortInited = true)
    (hlen : ((sdc600 flagSTART).frame payload).length ≤ 65535) :
    this.eComPortTx payload actualLength block =
      this.eComSendBlock ((sdc600 flagSTART).frame payload) block >>= fun res =>
        pure (res, ((sdc600 flagSTART).frame payload).length) := by
  have hframe := (sdc600 flagSTART).length_frame payload
  rw [eComPortTx_encoded hinit (by omega), encoded_eq_frame hlen]

/-- Both ways of sending put the frame on the wire: whatever the device does it takes a
prefix of the frame, all of it if the call succeeds, and the call succeeds on a device that
neither errs nor keeps the driver waiting too long. -/
theorem eComPortTx_wire {r : Except Stop (SDMReturnCode × Nat)}
    (hinit : this.mIsComPortInited = true)
    (hlen : ((sdc600 flagSTART).frame payload).length ≤ 65535)
    (h : Run (this.eComPortTx payload actualLength block) l r) :
    this.written l <+: (sdc600 flagSTART).frame payload ∧
      (∀ n, r = .ok (.success, n) → this.written l = (sdc600 flagSTART).frame payload) ∧
      (this.mRegisterAccessCallback = true → this.NeverErrs l → this.Patient l →
        (∃ n, r = .ok (.success, n)) ∧ this.written l = (sdc600 flagSTART).frame payload) := by
  rw [eComPortTx_eq hinit hlen, run_bind] at h
  have hne : (sdc600 flagSTART).frame payload ≠ [] := List.cons_ne_nil _ _
  rcases h with ⟨res, l₁, l₂, rfl, h₁, h₂⟩ | ⟨e, rfl, he⟩
  · obtain ⟨rfl, rfl⟩ := run_pure.mp h₂
    rw [List.append_nil]
    obtain ⟨hpre, hall, hfine⟩ := run_eComSendBlock hne h₁
    refine ⟨hpre, fun n hr => ?_, fun hcb hf hp => ?_⟩
    · cases hr
      exact hall rfl
    · have hres := hfine hcb hf hp
      cases hres
      exact ⟨⟨_, rfl⟩, hall rfl⟩
  · obtain ⟨hpre, -, hfine⟩ := run_eComSendBlock hne he
    refine ⟨hpre, fun n hr => (by cases hr), fun hcb hf hp => ?_⟩
    cases hfine hcb hf hp

def inited : ExternalComPortDriver :=
  { new .armADIv5 true true true with mIsComPortInited := true }

theorem eComPortTx_wire_cut :
    inited.written (scripted.exec (inited.eComPortTx [0x41, 0xA5] 0 false)
      [⟨.success, 1, [1]⟩, ⟨.success, 1, []⟩, ⟨.success, 1, [1]⟩, ⟨.ioError, 1, []⟩]).2.1 <+:
        [0xAC, 0x41, 0xAE, 0x25, 0xAD] :=
  (eComPortTx_wire rfl (by decide) (Machine.exec_run scripted
    (inited.eComPortTx [0x41, 0xA5] 0 false) _)).1

end
end ExternalComPortDriver
end SecureDebug
