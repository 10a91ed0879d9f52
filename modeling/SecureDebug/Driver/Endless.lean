import SecureDebug.Driver.Passage
import SecureDebug.Driver.Waiting

/-! The receive loop has no bound of its own either. Against a stream without end: when it returns,
and which streams keep it busy for ever. -/

namespace SecureDebug
open Interaction Program Framing

namespace ExternalComPortDriver
variable {this : ExternalComPortDriver} {startFlag : UInt8} {rxBufferLength actualLength : Nat}
  {s s' : RxState} {rxBuffer bytes : List UInt8}

theorem run_of_passes (h : PassesOver startFlag rxBufferLength s bytes s')
    (hflag : IsStartFlag startFlag) (hcb : this.mRegisterAccessCallback = true)
    {as : List AccessResult} (has : ∀ a ∈ as, a.result = .success ∧ a.accessesCompleted = 1)
    (hbytes : as.map dataByte = bytes) :
    Run (this.rxLoop startFlag rxBufferLength bytes.length s) (as.map this.readEvent)
      (.error .outOfFuel) := by
  induction h generalizing as with
  | nil s =>
    obtain rfl := List.map_eq_nil_iff.mp hbytes
    exact .halt _
  | @cons s t s' byte bytes hturn _ ih =>
    obtain ⟨a, as', rfl, rfl, hbytes'⟩ := List.map_eq_cons_iff.mp hbytes
    rw [List.length_cons, rxLoop_eq, run_access_bind hcb]
    refine ⟨a, as'.map this.readEvent, rfl, ?_⟩
    rw [readResult_of_clean (has a List.mem_cons_self), (rxStep_more_iff hflag).mpr hturn]
    exact ih (fun b hb => has b (List.mem_cons_of_mem a hb)) hbytes'

/-- The surroundings deliver the stream for as long as it is read. -/
def DeliversAll {σ : Type} (this : ExternalComPortDriver) (m : Machine Host σ) (s : σ)
    (stream : Stream' UInt8) : Prop := ∀ n, ∃ t, this.Delivers m s (stream.take n) t

/-- A receive goes on for ever just if it passes over every stretch of the stream. -/
theorem completes_eComPortRx {σ : Type} {m : Machine Host σ} {s₀ : σ} {stream : Stream' UInt8}
    (hinit : this.mIsComPortInited = true) (hmem : rxBufferLength ≤ rxBuffer.length)
    (hd : this.DeliversAll m s₀ stream) :
    Completes m (fun fuel => this.eComPortRx fuel rxBuffer rxBufferLength actualLength) s₀ ↔
      ∃ n, ¬∃ s, PassesOver flagSTART rxBufferLength (rxStateOf rxBuffer actualLength {})
        (stream.take n) s := by
  have hflag : IsStartFlag flagSTART := .inl rfl
  have hfueled : Fueled .outOfFuel fun fuel =>
      this.eComPortRx fuel rxBuffer rxBufferLength actualLength := fueled_eComPortRx _ _ _
  rw [hfueled.completes_iff]
  constructor
  · intro h
    obtain ⟨n, out, t, l, hexec⟩ := h
    refine ⟨n, fun hpass => ?_⟩
    obtain ⟨s, hpass⟩ := hpass
    obtain ⟨t', hcb, as, has, hbytes, hplays⟩ := hd n
    have hrun := run_of_passes hpass hflag hcb has hbytes
    rw [Stream'.length_take, ← eComPortRx_of_inited hinit] at hrun
    rw [Machine.exec_eq_iff.mpr ⟨hrun, hplays⟩] at hexec
    cases hexec
  · intro h
    obtain ⟨n, hn⟩ := h
    obtain ⟨bytes, out, hbytes, hrec⟩ :=
      (passes_or_receives actualLength hflag hmem (stream.take n)).resolve_left hn
    obtain ⟨t, ht⟩ := hd n
    obtain ⟨u, hu, -⟩ := ht.prefix hbytes
    obtain ⟨l, hexec, -, -⟩ := exec_rxLoop hrec hu (Nat.le_refl _)
    rw [← eComPortRx_of_inited hinit] at hexec
    exact ⟨_, out, u, l, hexec⟩

/-- A receive returns just if the stream holds an end flag, too many idle bytes in front of its
first start flag, or, where the index can tell, too many data bytes without a start flag between. -/
theorem eComPortRx_returns {σ : Type} {m : Machine Host σ} {s₀ : σ} {stream : Stream' UInt8}
    (hinit : this.mIsComPortInited = true) (hmem : rxBufferLength ≤ rxBuffer.length)
    (hd : this.DeliversAll m s₀ stream) :
    Completes m (fun fuel => this.eComPortRx fuel rxBuffer rxBufferLength actualLength) s₀ ↔
      ∃ n, stream.get n = flagEND ∨
        maxPreNullFlags < Receiver.leadingNulls (sdc600 flagSTART) (stream.take n) ∨
        (rxBufferLength < indexRange ∧ rxBufferLength <
          (sdc600 flagSTART).dataCount (Alphabet.lastRun flagSTART (stream.take n))) := by
  have hflag : IsStartFlag flagSTART := .inl rfl
  rw [completes_eComPortRx hinit hmem hd]
  constructor
  · intro h
    obtain ⟨n, hn⟩ := h
    by_contra hnone
    rw [not_exists] at hnone
    simp only [not_or, not_and, Nat.not_lt] at hnone
    rw [exists_passes_iff hflag hmem] at hn
    refine hn ⟨fun hend => ?_, (hnone n).2.1, fun hmax p hp => ?_⟩
    · obtain ⟨i, hi, hget⟩ := List.getElem_of_mem hend
      rw [Stream'.take_get] at hget
      exact (hnone i).1 hget
    · have htake := List.prefix_iff_eq_take.mp hp
      rw [Stream'.take_take] at htake
      rw [htake]
      exact (hnone _).2.2 hmax
  · intro h
    obtain ⟨n, hn⟩ := h
    have hprefix : stream.take n <+: stream.take (n + 1) := by
      rw [Stream'.take_succ']
      exact List.prefix_append _ _
    refine ⟨n + 1, fun hpass => ?_⟩
    obtain ⟨hend, hnulls, hroom⟩ := (exists_passes_iff hflag hmem).mp hpass
    rcases hn with hn | hn | ⟨hmax, hn⟩
    · rw [Stream'.take_succ', hn] at hend
      exact absurd (by simp) hend
    · exact absurd ((Receiver.leadingNulls_mono hprefix).trans hnulls) (Nat.not_le.mpr hn)
    · exact absurd (hroom hmax _ hprefix) (Nat.not_le.mpr hn)

theorem deliversAll_device (hcb : this.mRegisterAccessCallback = true) (d : Device) :
    this.DeliversAll (device this) d (d.data.map UInt32.toUInt8) := by
  intro n
  rw [← Stream'.map_take]
  exact ⟨d.skipData n, delivers_device hcb d n⟩

theorem take_const_null (n : Nat) :
    ((Stream'.const flagNULL.toUInt32).take n).map UInt32.toUInt8 = List.replicate n flagNULL := by
  induction n with
  | zero => rfl
  | succ n ih =>
    rw [Stream'.take_succ, List.map_cons, List.replicate_succ, ← ih]
    rfl

theorem eComPortRx_returns_idle :
    Completes (device inited) (fun fuel => inited.eComPortRx fuel [0] 1 0) idleDevice ∧
      maxPreNullFlags < Receiver.leadingNulls (sdc600 flagSTART)
        ((idleDevice.data.map UInt32.toUInt8).take (maxPreNullFlags + 1)) := by
  have hnulls : maxPreNullFlags < Receiver.leadingNulls (sdc600 flagSTART)
      ((idleDevice.data.map UInt32.toUInt8).take (maxPreNullFlags + 1)) := by
    have hcount := Receiver.leadingNulls_replicate (A := sdc600 flagSTART)
      (sdc600_lawful (.inl rfl)).start_ne_null (maxPreNullFlags + 1)
    rw [← Stream'.map_take]
    have htake : (idleDevice.data.take (maxPreNullFlags + 1)).map UInt32.toUInt8 =
        List.replicate (maxPreNullFlags + 1) flagNULL := take_const_null _
    rw [htake]
    exact (Nat.lt_succ_self _).trans_le (Nat.le_of_eq hcount.symm)
  have hd : inited.DeliversAll (device inited) idleDevice (idleDevice.data.map UInt32.toUInt8) :=
    deliversAll_device rfl idleDevice
  exact ⟨(eComPortRx_returns rfl (by decide) hd).mpr ⟨_, .inr (.inl hnulls)⟩, hnulls⟩

/-- A device that begins a message and then delivers `NULL` for ever. -/
def stalledDevice : Device :=
  { idleDevice with data := Stream'.cons flagSTART.toUInt32 (Stream'.const flagNULL.toUInt32) }

theorem take_stalledDevice (n : Nat) : (stalledDevice.data.map UInt32.toUInt8).take (n + 1) =
    flagSTART :: List.replicate n flagNULL := by
  rw [← Stream'.map_take]
  exact congrArg (flagSTART :: ·) (take_const_null n)

theorem turn_null_started (hs : s.isStartRecv = true) (hearly : s.preNullFlags ≤ maxPreNullFlags) :
    Turn startFlag rxBufferLength s flagNULL s := by
  obtain ⟨preNullFlags, bufferIdx, isStartRecv, isEscRecv, rxBuffer, actualLength⟩ := s
  obtain rfl : isStartRecv = true := hs
  exact .null hearly

theorem passes_nulls_started (n : Nat) (hs : s.isStartRecv = true)
    (hearly : s.preNullFlags ≤ maxPreNullFlags) :
    PassesOver startFlag rxBufferLength s (List.replicate n flagNULL) s := by
  induction n with
  | zero => exact .nil s
  | succ n ih => exact .cons (turn_null_started hs hearly) ih

theorem eComPortRx_returns_stalled :
    ¬∀ (this : ExternalComPortDriver) (d : Device) (rxBuffer : List UInt8)
      (rxBufferLength actualLength : Nat), this.mRegisterAccessCallback = true →
      this.mIsComPortInited = true → Room rxBufferLength rxBuffer →
      Completes (device this) (fun fuel => this.eComPortRx fuel rxBuffer rxBufferLength actualLength)
        d := by
  intro h
  have hreturns := h inited stalledDevice [0] 1 0 rfl rfl ⟨by decide, by decide⟩
  have hd : inited.DeliversAll (device inited) stalledDevice
      (stalledDevice.data.map UInt32.toUInt8) := deliversAll_device rfl stalledDevice
  rw [completes_eComPortRx rfl (by decide) hd] at hreturns
  obtain ⟨n, hn⟩ := hreturns
  apply hn
  cases n with
  | zero => exact ⟨_, .nil _⟩
  | succ n =>
    rw [take_stalledDevice]
    exact ⟨_, .cons .start (passes_nulls_started n rfl (Nat.zero_le _))⟩

end ExternalComPortDriver
end SecureDebug
