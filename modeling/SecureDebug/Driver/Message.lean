import SecureDebug.Driver.Passage
import SecureDebug.Driver.Transmit

/-! What a successful `EComPort_Rx` hands over: which bytes of the stream are in the buffer, what
the reported length says about them, and which streams the transmitter could have sent. -/

namespace SecureDebug
open Interaction Program Framing

/-! ### What is stored -/

section
variable {startFlag : UInt8} {rxBufferLength actualLength : Nat} {s s' : RxState}
  {rxBuffer bytes pre u w : List UInt8}

theorem rxBuffer_of_passes (hflag : IsStartFlag startFlag)
    (h : PassesOver startFlag rxBufferLength s bytes s') (hstart : startFlag ∉ bytes) :
    s'.rxBuffer = writeRing indexRange s.rxBuffer s.bufferIdx
      ((sdc600 startFlag).unstuff s.isEscRecv bytes) := by
  have lawful := sdc600_lawful hflag
  have hescnull : flagESC ≠ (sdc600 startFlag).null := lawful.esc_ne_null
  induction h with
  | nil s => rfl
  | @cons s t s' byte bytes hturn _ ih =>
    obtain ⟨hbyte, hbytes⟩ : startFlag ≠ byte ∧ startFlag ∉ bytes := by simpa using hstart
    rw [ih hbytes, Alphabet.unstuff]
    cases hturn with
    | null => rw [if_pos (show flagNULL = (sdc600 startFlag).null from rfl)]
    | esc => rw [if_neg hescnull, if_pos (show flagESC = (sdc600 startFlag).esc from rfl)]
    | start => exact absurd rfl hbyte
    | data hdata =>
      have hnull : byte ≠ (sdc600 startFlag).null := hdata.ne_null
      have hesc : byte ≠ (sdc600 startFlag).esc := hdata.ne_esc
      rw [if_neg hnull, if_neg hesc, writeRing]
      rfl

theorem rxBuffer_of_message (hflag : IsStartFlag startFlag)
    (h : PassesOver startFlag rxBufferLength (rxStateOf rxBuffer actualLength {}) (u ++ startFlag :: w) s)
    (hw : startFlag ∉ w) :
    ∃ memory : List UInt8, memory.length = rxBuffer.length ∧ s.rxBuffer =
      writeRing indexRange memory 0 ((sdc600 startFlag).unstuff ((sdc600 startFlag).pending u) w) := by
  have hconcat : u ++ startFlag :: w = (u ++ [startFlag]) ++ w := by simp
  rw [hconcat] at h
  obtain ⟨t, hu, hpass⟩ := steps_append.mp h
  have ht := heard_of_passes hflag hu
  have hidx : t.bufferIdx = 0 := by
    rw [ht.index, Alphabet.lastRun_concat, if_pos rfl]
    rfl
  have hesc : t.isEscRecv = (sdc600 startFlag).pending u := by
    rw [ht.escaping, Alphabet.pending_concat, if_pos (.inr rfl)]
  refine ⟨t.rxBuffer, ht.size, ?_⟩
  rw [rxBuffer_of_passes hflag hpass hw, hidx, hesc]

theorem current_turn {byte : UInt8} (hflag : IsStartFlag startFlag)
    (h : (sdc600 startFlag).dataCount (Alphabet.lastRun startFlag pre) ≠ 0 →
      s.actualLength = s.bufferIdx)
    (hturn : Turn startFlag rxBufferLength s byte s')
    (hne : (sdc600 startFlag).dataCount (Alphabet.lastRun startFlag (pre ++ [byte])) ≠ 0) :
    s'.actualLength = s'.bufferIdx := by
  have lawful := sdc600_lawful hflag
  have hstartnull : flagNULL ≠ startFlag := lawful.start_ne_null.symm
  have hstartesc : flagESC ≠ startFlag := lawful.start_ne_esc.symm
  rw [Alphabet.lastRun_concat] at hne
  cases hturn with
  | null =>
    rw [if_neg hstartnull, dataCount_concat_skip (.inl rfl)] at hne
    exact h hne
  | esc =>
    rw [if_neg hstartesc, dataCount_concat_skip (.inr rfl)] at hne
    exact h hne
  | start =>
    rw [if_pos rfl] at hne
    exact absurd rfl hne
  | data => rfl

theorem current_of_passes (hflag : IsStartFlag startFlag)
    (hpass : PassesOver startFlag rxBufferLength (rxStateOf rxBuffer actualLength {}) pre s) :
    (sdc600 startFlag).dataCount (Alphabet.lastRun startFlag pre) ≠ 0 →
      s.actualLength = s.bufferIdx := by
  let P (read : List UInt8) (t : RxState) : Prop :=
    (sdc600 startFlag).dataCount (Alphabet.lastRun startFlag read) ≠ 0 → t.actualLength = t.bufferIdx
  have hnil : P [] (rxStateOf rxBuffer actualLength {}) := fun hne => absurd rfl hne
  exact hpass.invariant (P := P) (fun _ _ _ _ ht hturn => current_turn hflag ht hturn) hnil

/-- What `*actualLength` says about the bytes read, while the index cannot wrap. -/
structure Reported (startFlag : UInt8) (actualLength : Nat) (pre : List UInt8) (s : RxState) : Prop where
  current : (sdc600 startFlag).dataCount (Alphabet.lastRun startFlag pre) ≠ 0 →
    s.actualLength = s.bufferIdx
  stale : ∀ byte ∈ pre, IsData startFlag byte → s.actualLength ≠ 0
  fresh : (∀ byte ∈ pre, ¬IsData startFlag byte) → s.actualLength = actualLength

theorem Reported.skip {byte : UInt8} (h : Reported startFlag actualLength pre s)
    (hbyte : ¬IsData startFlag byte) (hlen : s'.actualLength = s.actualLength)
    (hcurrent : (sdc600 startFlag).dataCount (Alphabet.lastRun startFlag (pre ++ [byte])) ≠ 0 →
      s'.actualLength = s'.bufferIdx) :
    Reported startFlag actualLength (pre ++ [byte]) s' where
  current := hcurrent
  stale b hb hdata := by
    rw [hlen]
    rcases List.mem_append.mp hb with hb | hb
    · exact h.stale b hb hdata
    · rw [List.mem_singleton.mp hb] at hdata
      exact absurd hdata hbyte
  fresh hall := by
    rw [hlen]
    exact h.fresh fun b hb => hall b (List.mem_append_left _ hb)

theorem not_isData_flagNULL : ¬IsData startFlag flagNULL := fun h => h.ne_null rfl

theorem not_isData_flagESC : ¬IsData startFlag flagESC := fun h => h.ne_esc rfl

theorem not_isData_startFlag : ¬IsData startFlag startFlag := fun h => h.ne_start rfl

theorem Reported.turn {byte : UInt8} (hflag : IsStartFlag startFlag) (hmax : rxBufferLength < indexRange)
    (h : Reported startFlag actualLength pre s) (hturn : Turn startFlag rxBufferLength s byte s') :
    Reported startFlag actualLength (pre ++ [byte]) s' := by
  have hcurrent := current_turn hflag h.current hturn
  cases hturn with
  | null => exact h.skip not_isData_flagNULL rfl hcurrent
  | esc => exact h.skip not_isData_flagESC rfl hcurrent
  | start => exact h.skip not_isData_startFlag rfl hcurrent
  | data hdata hroom =>
    have hmod : (s.bufferIdx + 1) % indexRange = s.bufferIdx + 1 :=
      Nat.mod_eq_of_lt (Nat.lt_of_le_of_lt hroom hmax)
    refine ⟨hcurrent, fun b _ _ => ?_, fun hall => ?_⟩
    · dsimp only
      rw [hmod]
      exact Nat.succ_ne_zero _
    · exact absurd hdata (hall byte (by simp))

theorem reported_of_passes (hflag : IsStartFlag startFlag) (hmax : rxBufferLength < indexRange)
    (hpass : PassesOver startFlag rxBufferLength (rxStateOf rxBuffer actualLength {}) pre s) :
    Reported startFlag actualLength pre s := by
  have hnil : Reported startFlag actualLength [] (rxStateOf rxBuffer actualLength {}) :=
    ⟨fun hne => absurd rfl hne, fun b hb => absurd hb List.not_mem_nil, fun _ => rfl⟩
  exact hpass.invariant (fun _ _ _ _ ht hturn => ht.turn hflag hmax hturn) hnil

end

/-! ### A reading that succeeds -/

/-- The data bytes of a stretch without start flags. -/
def messageLength (w : List UInt8) : Nat := w.countP fun b => b ≠ flagNULL && b ≠ flagESC

theorem length_unstuff_message (e : Bool) (w : List UInt8) :
    ((sdc600 flagSTART).unstuff e w).length = messageLength w := Alphabet.length_unstuff _ e w

namespace ExternalComPortDriver
variable {this : ExternalComPortDriver} {rxBufferLength actualLength fuel : Nat}
  {rxBuffer : List UInt8} {out : RxResult} {l : Trace}

/-- A successful call has read a stream that ends with the first end flag and holds a start flag,
the last of them in front of the message. -/
theorem run_eComPortRxInt_success {startFlag : UInt8} (hflag : IsStartFlag startFlag)
    (h : Run (this.eComPortRxInt fuel startFlag rxBuffer rxBufferLength actualLength) l (.ok out))
    (hres : out.res = .success) :
    ∃ u w s, this.traffic l = (u ++ startFlag :: (w ++ [flagEND])).map .read ∧
      startFlag ∉ w ∧ flagEND ∉ u ∧ flagEND ∉ w ∧
      PassesOver startFlag rxBufferLength (rxStateOf rxBuffer actualLength {}) (u ++ startFlag :: w) s ∧
      out = ⟨.success, s.rxBuffer, s.actualLength⟩ := by
  obtain ⟨bytes, ht, hbytes⟩ := run_rxLoop h
  rcases hbytes with ⟨out', hout, hrec⟩ | ⟨hne, -⟩
  swap
  · exact absurd hres (hne out rfl)
  obtain rfl := Except.ok.inj hout
  obtain ⟨pre, s, rfl, hpass, hstarted, hlast⟩ := hrec.exists_passes_of_success hflag hres
  have hpass : PassesOver startFlag rxBufferLength (rxStateOf rxBuffer actualLength {}) pre s := hpass
  have hheard := heard_of_passes hflag hpass
  rw [hheard.started] at hstarted
  obtain ⟨u, hpre, hw⟩ := Alphabet.exists_lastRun (of_decide_eq_true hstarted)
  have hlive := hheard.live
  rw [hpre] at hpass hlive
  refine ⟨u, _, s, ?_, hw, ?_, ?_, hpass, hlast⟩
  · rw [ht]
    conv_lhs => rw [hpre]
    simp
  · exact fun hu => hlive (List.mem_append_left _ hu)
  · exact fun hw' => hlive (List.mem_append_right _ (List.mem_cons_of_mem _ hw'))

theorem run_eComPortRx_success
    (h : Run (this.eComPortRx fuel rxBuffer rxBufferLength actualLength) l (.ok out))
    (hres : out.res = .success) :
    ∃ u w s, this.traffic l = (u ++ flagSTART :: (w ++ [flagEND])).map .read ∧
      flagSTART ∉ w ∧ flagEND ∉ u ∧ flagEND ∉ w ∧
      PassesOver flagSTART rxBufferLength (rxStateOf rxBuffer actualLength {}) (u ++ flagSTART :: w) s ∧
      out = ⟨.success, s.rxBuffer, s.actualLength⟩ := by
  have hinit := inited_of_rx_success h hres
  rw [eComPortRx_of_inited hinit] at h
  exact run_eComPortRxInt_success (.inl rfl) h hres

theorem take_message {u w : List UInt8} {s : RxState} (hmax : rxBufferLength ≤ 65535)
    (hpass : PassesOver flagSTART rxBufferLength (rxStateOf rxBuffer actualLength {})
      (u ++ flagSTART :: w) s)
    (hw : flagSTART ∉ w) (hmem : messageLength w ≤ rxBuffer.length) :
    s.rxBuffer.take (messageLength w) =
      (sdc600 flagSTART).unstuff ((sdc600 flagSTART).pending u) w := by
  have hflag : IsStartFlag flagSTART := .inl rfl
  have hmax' : rxBufferLength < indexRange := Nat.lt_succ_of_le hmax
  have hroom := (heard_of_passes hflag hpass).room hmax'
  rw [Alphabet.lastRun_append_cons hw] at hroom
  have hlen := length_unstuff_message ((sdc600 flagSTART).pending u) w
  obtain ⟨memory, hmemory, hbuf⟩ := rxBuffer_of_message hflag hpass hw
  have htake := take_writeRing (k := indexRange) memory
    ((sdc600 flagSTART).unstuff ((sdc600 flagSTART).pending u) w)
    (by rw [hlen]; exact (hroom.trans hmax'.le)) (by rw [hlen, hmemory]; exact hmem)
  rw [hbuf, ← hlen]
  exact htake

def streamScript (stream : List UInt8) : List AccessResult := stream.map cleanRead

/-! ### The reported length -/

theorem isData_flagSTART_iff {b : UInt8} (hb : b ≠ flagEND) :
    IsData flagSTART b ↔ ¬(b = flagSTART ∨ b = flagNULL ∨ b = flagESC) := by
  constructor
  · intro h hor
    rcases hor with hor | hor | hor
    · exact h.ne_start hor
    · exact h.ne_null hor
    · exact h.ne_esc hor
  · intro h
    obtain ⟨hstart, hrest⟩ := not_or.mp h
    obtain ⟨hnull, hesc⟩ := not_or.mp hrest
    exact ⟨hb, hnull, hesc, hstart⟩

theorem not_isData_of_messageLength {w : List UInt8} (hw : messageLength w = 0) :
    ∀ b ∈ w, ¬IsData flagSTART b := by
  intro b hb hdata
  have hcount := List.countP_eq_zero.mp hw b hb
  rw [Bool.and_eq_true, decide_eq_true_iff, decide_eq_true_iff] at hcount
  exact hcount ⟨hdata.ne_null, hdata.ne_esc⟩

/-- The reported length is that of the message just if the message is not empty, or nothing was
stored before it and the length was 0 on entry. -/
theorem eComPortRx_reported (room : Room rxBufferLength rxBuffer)
    (h : Run (this.eComPortRx fuel rxBuffer rxBufferLength actualLength) l (.ok out))
    (hres : out.res = .success) :
    ∃ u w, this.traffic l = (u ++ flagSTART :: (w ++ [flagEND])).map .read ∧
      flagSTART ∉ w ∧ flagEND ∉ u ∧ flagEND ∉ w ∧
      ((out.actualLength = messageLength w ∧
          ∃ e, out.rxBuffer.take out.actualLength = (sdc600 flagSTART).unstuff e w) ↔
        messageLength w ≠ 0 ∨
          ((∀ b ∈ u, b = flagSTART ∨ b = flagNULL ∨ b = flagESC) ∧ actualLength = 0)) := by
  have hflag : IsStartFlag flagSTART := .inl rfl
  have hmax : rxBufferLength < indexRange := Nat.lt_succ_of_le room.index
  obtain ⟨u, w, s, ht, hw, hendu, hendw, hpass, rfl⟩ := run_eComPortRx_success h hres
  refine ⟨u, w, ht, hw, hendu, hendw, ?_⟩
  have hheard := heard_of_passes hflag hpass
  have hreport := reported_of_passes hflag hmax hpass
  have hlen : (sdc600 flagSTART).dataCount (Alphabet.lastRun flagSTART (u ++ flagSTART :: w)) =
      messageLength w := by
    rw [Alphabet.lastRun_append_cons hw]
    rfl
  have hroom := hheard.room hmax
  have hidx := hheard.index
  rw [hlen] at hroom hidx
  rw [Nat.mod_eq_of_lt (Nat.lt_of_le_of_lt hroom hmax)] at hidx
  have htake := take_message room.index hpass hw (hroom.trans room.memory)
  have hboth : (s.actualLength = messageLength w ∧
      ∃ e, s.rxBuffer.take s.actualLength = (sdc600 flagSTART).unstuff e w) ↔
        s.actualLength = messageLength w := by
    refine and_iff_left_of_imp fun hlength => ⟨(sdc600 flagSTART).pending u, ?_⟩
    rw [hlength]
    exact htake
  refine hboth.trans ?_
  by_cases hempty : messageLength w = 0
  swap
  · have hcurrent := hreport.current (by rw [hlen]; exact hempty)
    exact iff_of_true (hcurrent.trans hidx) (.inl hempty)
  -- nothing of the message was stored, so the report is about what came before it
  rw [or_iff_right (not_not.mpr hempty), hempty]
  have hnodata := not_isData_of_messageLength hempty
  by_cases hu : ∀ b ∈ u, b = flagSTART ∨ b = flagNULL ∨ b = flagESC
  · rw [and_iff_right hu, hreport.fresh]
    intro b hb hdata
    rcases List.mem_append.mp hb with hb | hb
    · have hbend : b ≠ flagEND := fun heq => hendu (heq ▸ hb)
      exact (isData_flagSTART_iff hbend).mp hdata (hu b hb)
    · rcases List.mem_cons.mp hb with hb | hb
      · exact hdata.ne_start hb
      · exact hnodata b hb hdata
  · refine iff_of_false (fun hzero => hu fun b hb => ?_) fun hcond => hu hcond.1
    by_contra hne
    have hbend : b ≠ flagEND := fun heq => hendu (heq ▸ hb)
    have hdata := (isData_flagSTART_iff hbend).mpr hne
    exact hreport.stale b (List.mem_append_left _ hb) hdata hzero

/-- What lies before the last start flag and behind it can be read off the traffic. -/
theorem split_unique {startFlag : UInt8} {t : List Observation} {u u' w w' : List UInt8}
    (hflag : startFlag ≠ flagEND) (hw : startFlag ∉ w) (hw' : startFlag ∉ w')
    (ht : t = (u ++ startFlag :: (w ++ [flagEND])).map .read)
    (ht' : t = (u' ++ startFlag :: (w' ++ [flagEND])).map .read) : u = u' ∧ w = w' := by
  have hbytes := List.map_injective_iff.mpr (fun a b h => Observation.read.inj h) (ht.symm.trans ht')
  have hlast (v : List UInt8) (hv : startFlag ∉ v) : startFlag ∉ v ++ [flagEND] := by
    rw [List.mem_append, List.mem_singleton]
    exact not_or.mpr ⟨hv, hflag⟩
  have hruns := congrArg (Alphabet.lastRun startFlag) hbytes
  rw [Alphabet.lastRun_append_cons (hlast w hw), Alphabet.lastRun_append_cons (hlast w' hw')] at hruns
  obtain rfl := List.append_cancel_right hruns
  exact ⟨List.append_cancel_right hbytes, rfl⟩

theorem eComPortRx_reported_restart : ∃ u w, inited.traffic (scripted.exec
      (inited.eComPortRx 5 [0, 0] 2 9) (streamScript [flagSTART, 0x41, flagSTART, 0x42, flagEND])).2.1 =
        (u ++ flagSTART :: (w ++ [flagEND])).map .read ∧ messageLength w ≠ 0 ∧
      1 = messageLength w ∧ ∃ e, [0x42, 0].take 1 = (sdc600 flagSTART).unstuff e w := by
  have hrun : Run (inited.eComPortRx 5 [0, 0] 2 9) _ (.ok ⟨.success, [0x42, 0], 1⟩) :=
    run_of_exec (streamScript [flagSTART, 0x41, flagSTART, 0x42, flagEND])
      (by decide +kernel)
  have hread : inited.traffic (scripted.exec (inited.eComPortRx 5 [0, 0] 2 9)
      (streamScript [flagSTART, 0x41, flagSTART, 0x42, flagEND])).2.1 =
        ([flagSTART, 0x41] ++ flagSTART :: ([0x42] ++ [flagEND])).map .read := by decide +kernel
  obtain ⟨u, w, ht, hw, -, -, hiff⟩ := eComPortRx_reported ⟨by decide, by decide⟩ hrun rfl
  -- the message is what comes behind the last start flag
  obtain ⟨-, hlast⟩ := split_unique (by decide) hw (by decide) ht hread
  have hlen : messageLength w ≠ 0 := by
    rw [hlast]
    decide
  obtain ⟨hreported, hmessage⟩ := hiff.mpr (.inl hlen)
  exact ⟨u, w, ht, hlen, hreported, hmessage⟩

/-- A message that is broken off by another start flag and followed by an empty one. -/
theorem eComPortRx_reported_stale :
    ¬∀ (this : ExternalComPortDriver) (fuel rxBufferLength actualLength : Nat)
      (rxBuffer u w : List UInt8) (l : Trace) (out : RxResult), Room rxBufferLength rxBuffer →
      Run (this.eComPortRx fuel rxBuffer rxBufferLength actualLength) l (.ok out) →
      out.res = .success → this.traffic l = (u ++ flagSTART :: (w ++ [flagEND])).map .read →
      flagSTART ∉ w → flagEND ∉ u → flagEND ∉ w → out.actualLength = messageLength w := by
  intro h
  have hrun : Run (inited.eComPortRx 4 [0, 0] 2 0) _ (.ok ⟨.success, [0x41, 0], 1⟩) :=
    run_of_exec (streamScript [flagSTART, 0x41, flagSTART, flagEND]) (by decide +kernel)
  have hlength := h inited 4 2 0 [0, 0] [flagSTART, 0x41] [] _ _ ⟨by decide, by decide⟩ hrun rfl
    (by decide +kernel) (by decide) (by decide) (by decide)
  exact absurd hlength (by decide)

end ExternalComPortDriver

/-! ### Escaped bytes -/

theorem uint8_cases {P : UInt8 → Prop} (h : ∀ n < 256, P (UInt8.ofNat n)) (b : UInt8) : P b := by
  have hb := h b.toNat b.toNat_lt
  rwa [UInt8.ofNat_toNat] at hb

theorem mark_eq_iff (b : UInt8) : b ||| 0x80 = b ↔ 0x80 ≤ b :=
  uint8_cases (P := fun b => b ||| 0x80 = b ↔ 0x80 ≤ b) (by decide +kernel) b

theorem esc_or_mark_iff (startFlag b : UInt8) :
    b = (sdc600 startFlag).esc ∨ (sdc600 startFlag).mark b = b ↔ 0x80 ≤ b := by
  constructor
  · intro h
    rcases h with h | h
    · rw [h]
      exact (by decide : (0x80 : UInt8) ≤ flagESC)
    · exact (mark_eq_iff b).mp h
  · intro h
    exact .inr ((mark_eq_iff b).mpr h)

theorem escaped_iff (b : UInt8) :
    isFlagByte (b ||| 0x80) = true ∧ (b ||| 0x80) &&& 0x7F = b ↔ 0x20 ≤ b ∧ b < 0x40 :=
  uint8_cases (P := fun b =>
    isFlagByte (b ||| 0x80) = true ∧ (b ||| 0x80) &&& 0x7F = b ↔ 0x20 ≤ b ∧ b < 0x40)
    (by decide +kernel) b

/-- What the transmitter puts between the flags of a message: no byte that looks like a flag on its
own, and behind each `ESC` one byte in `0x20..0x3F`. -/
inductive WellEscaped : List UInt8 → Prop
  | nil : WellEscaped []
  | plain {b : UInt8} {bs : List UInt8} : ¬(0xA0 ≤ b ∧ b < 0xC0) → WellEscaped bs →
      WellEscaped (b :: bs)
  | escaped {b : UInt8} {bs : List UInt8} : 0x20 ≤ b ∧ b < 0x40 → WellEscaped bs →
      WellEscaped (flagESC :: b :: bs)

theorem not_isFlagByte_iff {b : UInt8} : isFlagByte b = false ↔ ¬(0xA0 ≤ b ∧ b < 0xC0) := by
  rw [← Bool.not_eq_true, isFlagByte, Bool.and_eq_true, decide_eq_true_iff, decide_eq_true_iff]

theorem stuffed_iff (startFlag : UInt8) (bs : List UInt8) :
    (sdc600 startFlag).Stuffed bs ↔ WellEscaped bs := by
  constructor
  · intro h
    induction h with
    | nil => exact .nil
    | plain hflag _ ih => exact .plain (not_isFlagByte_iff.mp hflag) ih
    | escaped hflag hstrip _ ih => exact .escaped ((escaped_iff _).mp ⟨hflag, hstrip⟩) ih
  · intro h
    induction h with
    | nil => exact .nil
    | plain hflag _ ih => exact .plain (not_isFlagByte_iff.mpr hflag) ih
    | escaped hb _ ih =>
      obtain ⟨hflag, hstrip⟩ := (escaped_iff _).mpr hb
      exact .escaped hflag hstrip ih

namespace ExternalComPortDriver
variable {this : ExternalComPortDriver} {rxBufferLength actualLength actualLength' fuel fuel' : Nat}
  {rxBuffer rxBuffer' : List UInt8} {out out' : RxResult} {l l' : Trace}

/-- What was read since the last start flag is the frame of what was stored just if it is well
escaped and no escape from before that flag changed its first byte. -/
theorem eComPortRx_image (room : Room rxBufferLength rxBuffer)
    (h : Run (this.eComPortRx fuel rxBuffer rxBufferLength actualLength) l (.ok out))
    (hres : out.res = .success) :
    ∃ u w, this.traffic l = (u ++ flagSTART :: (w ++ [flagEND])).map .read ∧
      flagSTART ∉ w ∧ flagEND ∉ u ∧ flagEND ∉ w ∧
      ((flagSTART :: (w ++ [flagEND])).filter (· ≠ flagNULL) =
          (sdc600 flagSTART).frame (out.rxBuffer.take (messageLength w)) ↔
        WellEscaped (w.filter (· ≠ flagNULL)) ∧ ((sdc600 flagSTART).pending u = true →
          ∀ b, w.find? (· ≠ flagNULL) = some b → 0x80 ≤ b)) := by
  have hflag : IsStartFlag flagSTART := .inl rfl
  have lawful := sdc600_lawful hflag
  have hmax : rxBufferLength < indexRange := Nat.lt_succ_of_le room.index
  obtain ⟨u, w, s, ht, hw, hendu, hendw, hpass, rfl⟩ := run_eComPortRx_success h hres
  refine ⟨u, w, ht, hw, hendu, hendw, ?_⟩
  have hroom := (heard_of_passes hflag hpass).room hmax
  rw [Alphabet.lastRun_append_cons hw] at hroom
  have htake := take_message room.index hpass hw (hroom.trans room.memory)
  have hread : (flagSTART :: (w ++ [flagEND])).filter (· ≠ flagNULL) =
      flagSTART :: (w.filter (· ≠ flagNULL) ++ [flagEND]) := by
    rw [List.filter_cons_of_pos (by decide), List.filter_append]
    rfl
  have hframe (p : List UInt8) : (sdc600 flagSTART).frame p =
      flagSTART :: ((sdc600 flagSTART).stuff p ++ [flagEND]) := rfl
  rw [hread, hframe, List.cons.injEq, and_iff_right rfl, List.append_left_inj]
  dsimp only
  rw [htake, ← Alphabet.unstuff_filter, eq_comm]
  have hnull : (sdc600 flagSTART).null ∉ w.filter (· ≠ flagNULL) := fun hmem =>
    absurd rfl (of_decide_eq_true (List.mem_filter.mp hmem).2)
  have himage := lawful.stuff_unstuff_iff ((sdc600 flagSTART).pending u) hnull
  have hfind : (w.filter (· ≠ flagNULL)).find? (· ≠ (sdc600 flagSTART).null) =
      w.find? (· ≠ flagNULL) := by
    rw [List.find?_filter]
    congr 1
    funext b
    exact decide_eq_decide.mpr (and_self_iff.trans decide_eq_true_iff)
  rw [hfind, stuffed_iff] at himage
  refine himage.trans (and_congr_right fun _ => imp_congr_right fun _ => forall_congr' fun b =>
    imp_congr_right fun _ => ?_)
  exact esc_or_mark_iff flagSTART b

theorem eComPortRx_image_escaped : ∃ u w, inited.traffic (scripted.exec
      (inited.eComPortRx 6 [0, 0] 2 0)
      (streamScript [flagSTART, flagESC, flagNULL, 0x25, 0x41, flagEND])).2.1 =
        (u ++ flagSTART :: (w ++ [flagEND])).map .read ∧
      WellEscaped (w.filter (· ≠ flagNULL)) ∧ (flagSTART :: (w ++ [flagEND])).filter (· ≠ flagNULL) =
        (sdc600 flagSTART).frame ([0xA5, 0x41].take (messageLength w)) := by
  have hrun : Run (inited.eComPortRx 6 [0, 0] 2 0) _ (.ok ⟨.success, [0xA5, 0x41], 2⟩) :=
    run_of_exec (streamScript [flagSTART, flagESC, flagNULL, 0x25, 0x41, flagEND])
      (by decide +kernel)
  have hread : inited.traffic (scripted.exec (inited.eComPortRx 6 [0, 0] 2 0)
      (streamScript [flagSTART, flagESC, flagNULL, 0x25, 0x41, flagEND])).2.1 =
        ([] ++ flagSTART :: ([flagESC, flagNULL, 0x25, 0x41] ++ [flagEND])).map .read := by
    decide +kernel
  obtain ⟨u, w, ht, hw, -, -, hiff⟩ := eComPortRx_image ⟨by decide, by decide⟩ hrun rfl
  obtain ⟨rfl, rfl⟩ := split_unique (by decide) hw (by decide) ht hread
  have hescaped : WellEscaped ([flagESC, flagNULL, 0x25, 0x41].filter (· ≠ flagNULL)) :=
    .escaped (by decide) (.plain (by decide) .nil)
  exact ⟨_, _, ht, hescaped, hiff.mpr ⟨hescaped, fun hpending => nomatch hpending⟩⟩

theorem eComPortRx_image_flag :
    ¬∀ (this : ExternalComPortDriver) (fuel rxBufferLength actualLength : Nat)
      (rxBuffer u w : List UInt8) (l : Trace) (out : RxResult), Room rxBufferLength rxBuffer →
      Run (this.eComPortRx fuel rxBuffer rxBufferLength actualLength) l (.ok out) →
      out.res = .success → this.traffic l = (u ++ flagSTART :: (w ++ [flagEND])).map .read →
      flagSTART ∉ w → flagEND ∉ u → flagEND ∉ w →
      (flagSTART :: (w ++ [flagEND])).filter (· ≠ flagNULL) =
        (sdc600 flagSTART).frame (out.rxBuffer.take (messageLength w)) := by
  intro h
  have hrun : Run (inited.eComPortRx 3 [0] 1 0) _ (.ok ⟨.success, [0xA2], 1⟩) :=
    run_of_exec (streamScript [flagSTART, 0xA2, flagEND]) (by decide +kernel)
  have hframe := h inited 3 1 0 [0] [] [0xA2] _ _ ⟨by decide, by decide⟩ hrun rfl
    (by decide +kernel) (by decide) (by decide) (by decide)
  exact absurd hframe (by decide)

/-! ### Resynchronisation -/

def beforeEnd (stream : List UInt8) : List UInt8 := stream.takeWhile (· ≠ flagEND)

theorem beforeEnd_eq {pre rest : List UInt8} (h : flagEND ∉ pre) :
    beforeEnd (pre ++ flagEND :: rest) = pre := by
  have hpre (b : UInt8) (hb : b ∈ pre) : decide (b ≠ flagEND) = true :=
    decide_eq_true fun heq => h (heq ▸ hb)
  rw [beforeEnd, List.takeWhile_append_of_pos hpre, List.takeWhile_cons_of_neg (by decide),
    List.append_nil]

theorem beforeEnd_append {u s : List UInt8} (h : flagEND ∉ u) :
    beforeEnd (u ++ flagSTART :: s) = u ++ flagSTART :: beforeEnd s := by
  have hpre (b : UInt8) (hb : b ∈ u) : decide (b ≠ flagEND) = true :=
    decide_eq_true fun heq => h (heq ▸ hb)
  rw [beforeEnd, List.takeWhile_append_of_pos hpre, List.takeWhile_cons_of_pos (by decide)]
  rfl

theorem passes_of_exec {σ : Type} {m : Machine Host σ} {s₀ t t' : σ} {u s : List UInt8}
    (hmem : rxBufferLength ≤ rxBuffer.length) (hu : flagEND ∉ u) (hend : flagEND ∈ s)
    (hd : this.Delivers m s₀ (u ++ flagSTART :: s) t)
    (hx : m.exec (this.eComPortRx fuel rxBuffer rxBufferLength actualLength) s₀ = (.ok out, l, t'))
    (hres : out.res = .success) :
    ∃ st, PassesOver flagSTART rxBufferLength (rxStateOf rxBuffer actualLength {})
        (u ++ flagSTART :: beforeEnd s) st ∧ out = ⟨.success, st.rxBuffer, st.actualLength⟩ := by
  have hflag : IsStartFlag flagSTART := .inl rfl
  have hstream : flagEND ∈ u ++ flagSTART :: s :=
    List.mem_append_right _ (List.mem_cons_of_mem _ hend)
  have hinit := inited_of_rx_success (Machine.exec_eq_iff.mp hx).1 hres
  obtain ⟨bytes, hprefix, -, hrec⟩ := receives_of_exec hmem hstream hinit hd hx
  obtain ⟨pre, st, rfl, hpass, -, hout⟩ := hrec.exists_passes_of_success hflag hres
  obtain ⟨rest, hrest⟩ := hprefix
  have hpre : pre = u ++ flagSTART :: beforeEnd s := by
    rw [← beforeEnd_append hu, ← hrest, List.append_assoc]
    exact (beforeEnd_eq (heard_of_passes hflag hpass).live).symm
  rw [hpre] at hpass
  exact ⟨st, hpass, hout⟩

/-- What came before the last start flag does not show in the message just if it leaves the same
escape pending, or that escape cannot show: the first byte of the message has bit 7 set, there is
no such byte, or the message is so long that its first cell is written again. -/
theorem eComPortRx_resync {σ σ' : Type} {m : Machine Host σ} {m' : Machine Host σ'}
    {s₀ t₀ r₀ : σ} {s₁ t₁ r₁ : σ'} {u v s : List UInt8}
    (hmem : rxBufferLength ≤ rxBuffer.length) (hmem' : rxBufferLength ≤ rxBuffer'.length)
    (hu : flagEND ∉ u) (hv : flagEND ∉ v) (hstart : flagSTART ∉ s) (hend : flagEND ∈ s)
    (hd : this.Delivers m s₀ (u ++ flagSTART :: s) t₀)
    (hd' : this.Delivers m' s₁ (v ++ flagSTART :: s) t₁)
    (hx : m.exec (this.eComPortRx fuel rxBuffer rxBufferLength actualLength) s₀ = (.ok out, l, r₀))
    (hx' : m'.exec (this.eComPortRx fuel' rxBuffer' rxBufferLength actualLength') s₁ =
      (.ok out', l', r₁))
    (hres : out.res = .success) (hres' : out'.res = .success) :
    out.rxBuffer.take (min (messageLength (beforeEnd s)) indexRange) =
        out'.rxBuffer.take (min (messageLength (beforeEnd s)) indexRange) ↔
      (sdc600 flagSTART).pending u = (sdc600 flagSTART).pending v ∨
        (∀ b, (beforeEnd s).find? (· ≠ flagNULL) = some b → 0x80 ≤ b) ∨
        indexRange < messageLength (beforeEnd s) := by
  have hflag : IsStartFlag flagSTART := .inl rfl
  have hw : flagSTART ∉ beforeEnd s := fun h => hstart (List.takeWhile_subset _ h)
  have hstored {buffer : List UInt8} {length : Nat} {u : List UInt8} {st : RxState}
      (hmem : rxBufferLength ≤ buffer.length) (hpass : PassesOver flagSTART rxBufferLength
        (rxStateOf buffer length {}) (u ++ flagSTART :: beforeEnd s) st) :
      ∃ memory : List UInt8, min (messageLength (beforeEnd s)) indexRange ≤ memory.length ∧
        st.rxBuffer = writeRing indexRange memory 0
          ((sdc600 flagSTART).unstuff ((sdc600 flagSTART).pending u) (beforeEnd s)) := by
    obtain ⟨memory, hsize, hbuf⟩ := rxBuffer_of_message hflag hpass hw
    refine ⟨memory, ?_, hbuf⟩
    rw [hsize]
    rcases Nat.lt_or_ge rxBufferLength indexRange with hmax | hwide
    · have hroom := (heard_of_passes hflag hpass).room hmax
      rw [Alphabet.lastRun_append_cons hw] at hroom
      exact (Nat.min_le_left _ _).trans (hroom.trans hmem)
    · exact (Nat.min_le_right _ _).trans (hwide.trans hmem)
  obtain ⟨st, hpass, rfl⟩ := passes_of_exec hmem hu hend hd hx hres
  obtain ⟨st', hpass', rfl⟩ := passes_of_exec hmem' hv hend hd' hx' hres'
  obtain ⟨memory, hmemory, hbuf⟩ := hstored hmem hpass
  obtain ⟨memory', hmemory', hbuf'⟩ := hstored hmem' hpass'
  have hlen (e : Bool) := length_unstuff_message e (beforeEnd s)
  have hsame := take_writeRing_eq_iff (k := indexRange) memory memory' (by decide)
    ((hlen ((sdc600 flagSTART).pending u)).trans (hlen ((sdc600 flagSTART).pending v)).symm)
    ((sdc600 flagSTART).tail_unstuff_eq _ _ _) (by rw [hlen]; exact hmemory)
    (by rw [hlen]; exact hmemory')
  rw [hlen, ← hbuf, ← hbuf'] at hsame
  refine hsame.trans (Iff.trans (or_congr_left ?_) or_assoc)
  have hfirst := ((sdc600 flagSTART).unstuff_eq_iff (beforeEnd s)).trans
    (forall_congr' fun b => imp_congr_right fun _ => esc_or_mark_iff flagSTART b)
  cases (sdc600 flagSTART).pending u with
  | false =>
    cases (sdc600 flagSTART).pending v with
    | false => exact iff_of_true rfl (.inl rfl)
    | true =>
      rw [or_iff_right Bool.false_ne_true, eq_comm]
      exact hfirst
  | true =>
    cases (sdc600 flagSTART).pending v with
    | false =>
      rw [or_iff_right Bool.false_ne_true.symm]
      exact hfirst
    | true => exact iff_of_true rfl (.inl rfl)

theorem eComPortRx_resync_noise :
    ([0x41, 0xA2] : List UInt8).take
        (min (messageLength (beforeEnd [flagNULL, 0x41, flagEND])) indexRange) =
        [0x41, 7].take (min (messageLength (beforeEnd [flagNULL, 0x41, flagEND])) indexRange) ∧
      (sdc600 flagSTART).pending [0x11, flagESC, 0x22] = (sdc600 flagSTART).pending [flagNULL] := by
  have hd : inited.Delivers scripted _
      ([0x11, flagESC, 0x22] ++ flagSTART :: [flagNULL, 0x41, flagEND]) [] :=
    delivers_scripted rfl _ []
  have hd' : inited.Delivers scripted _ ([flagNULL] ++ flagSTART :: [flagNULL, 0x41, flagEND]) [] :=
    delivers_scripted rfl _ []
  have hx := exec_eq_of_parts (m := scripted) (p := inited.eComPortRx 7 [0, 0] 2 0)
    (s := streamScript [0x11, flagESC, 0x22, flagSTART, flagNULL, 0x41, flagEND])
    (a := ⟨.success, [0x41, 0xA2], 1⟩) (t := []) (by decide +kernel) (by decide +kernel)
  have hx' := exec_eq_of_parts (m := scripted) (p := inited.eComPortRx 5 [0, 7] 2 3)
    (s := streamScript [flagNULL, flagSTART, flagNULL, 0x41, flagEND])
    (a := ⟨.success, [0x41, 7], 1⟩) (t := []) (by decide +kernel) (by decide +kernel)
  have hpending : (sdc600 flagSTART).pending [0x11, flagESC, 0x22] =
      (sdc600 flagSTART).pending [flagNULL] := by decide
  exact ⟨(eComPortRx_resync (by decide) (by decide) (by decide) (by decide) (by decide) (by decide) hd
    hd' hx hx' rfl rfl).mpr (.inl hpending), hpending⟩

/-- The start flag leaves an escape pending, and it marks the first byte of the message. -/
theorem eComPortRx_resync_escape :
    ¬∀ (this : ExternalComPortDriver) (fuel fuel' rxBufferLength actualLength actualLength' : Nat)
      (rxBuffer rxBuffer' u v s : List UInt8) (out out' : RxResult) (l l' : Trace)
      (script script' rest rest' : List AccessResult), rxBufferLength ≤ rxBuffer.length →
      rxBufferLength ≤ rxBuffer'.length → flagEND ∉ u → flagEND ∉ v → flagSTART ∉ s → flagEND ∈ s →
      this.Delivers scripted script (u ++ flagSTART :: s) rest →
      this.Delivers scripted script' (v ++ flagSTART :: s) rest' →
      scripted.exec (this.eComPortRx fuel rxBuffer rxBufferLength actualLength) script =
        (.ok out, l, rest) →
      scripted.exec (this.eComPortRx fuel' rxBuffer' rxBufferLength actualLength') script' =
        (.ok out', l', rest') →
      out.res = .success → out'.res = .success →
      out.rxBuffer.take (messageLength (beforeEnd s)) =
        out'.rxBuffer.take (messageLength (beforeEnd s)) := by
  intro h
  have hd : inited.Delivers scripted _ ([flagESC] ++ flagSTART :: [0x41, flagEND]) [] :=
    delivers_scripted rfl _ []
  have hd' : inited.Delivers scripted _ ([] ++ flagSTART :: [0x41, flagEND]) [] :=
    delivers_scripted rfl _ []
  have hx := exec_eq_of_parts (m := scripted) (p := inited.eComPortRx 4 [0] 1 0)
    (s := streamScript [flagESC, flagSTART, 0x41, flagEND])
    (a := ⟨.success, [0xC1], 1⟩) (t := []) (by decide +kernel) (by decide +kernel)
  have hx' := exec_eq_of_parts (m := scripted) (p := inited.eComPortRx 3 [0] 1 0)
    (s := streamScript [flagSTART, 0x41, flagEND])
    (a := ⟨.success, [0x41], 1⟩) (t := []) (by decide +kernel) (by decide +kernel)
  have hsame := h inited 4 3 1 0 0 [0] [0] [flagESC] [] [0x41, flagEND] _ _ _ _ _ _ _ _ (by decide)
    (by decide) (by decide) (by decide) (by decide) (by decide) hd hd' hx hx' rfl rfl
  exact absurd hsame (by decide)

end ExternalComPortDriver
end SecureDebug
