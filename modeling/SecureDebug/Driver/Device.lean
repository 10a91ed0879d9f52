import Mathlib.Data.Stream.Init
import SecureDebug.Driver.Offers

/-! A device whose accesses all succeed, given by what its registers read as, access after access
and without end. What the polled accesses of the driver do against it is a matter of these values
alone. -/

namespace SecureDebug
open Interaction Program

structure Device where
  status : Stream' UInt32
  data : Stream' UInt32
  resetStart : SDMReturnCode
  resetEnd : SDMReturnCode

namespace Device

def byte (d : Device) (n : Nat) : UInt8 := (d.data.get n).toUInt8

def skipStatus (d : Device) (n : Nat) : Device := { d with status := d.status.drop n }

def skipData (d : Device) (n : Nat) : Device := { d with data := d.data.drop n }

@[simp] theorem get_skipStatus (d : Device) (m n : Nat) :
    (d.skipStatus m).status.get n = d.status.get (m + n) := by
  rw [skipStatus, Stream'.get_drop]

@[simp] theorem byte_skipStatus (d : Device) (m n : Nat) : (d.skipStatus m).byte n = d.byte n := rfl

@[simp] theorem byte_skipData (d : Device) (m n : Nat) : (d.skipData m).byte n = d.byte (m + n) := by
  rw [byte, skipData, Stream'.get_drop, byte]

@[simp] theorem status_skipData (d : Device) (n : Nat) : (d.skipData n).status = d.status := rfl

theorem skipStatus_skipStatus (d : Device) (m n : Nat) :
    (d.skipStatus m).skipStatus n = d.skipStatus (m + n) := by
  rw [skipStatus, skipStatus, skipStatus, Stream'.drop_drop, Nat.add_comm]

theorem skipData_skipData (d : Device) (m n : Nat) :
    (d.skipData m).skipData n = d.skipData (m + n) := by
  rw [skipData, skipData, skipData, Stream'.drop_drop, Nat.add_comm]

def access (this : ExternalComPortDriver) (d : Device) (a : SDMRegisterAccess) : UInt32 × Device :=
  if a.op = .write then (a.value, d)
  else if a.address = this.regAddr regSR then (d.status.head, d.skipStatus 1)
  else if a.address = this.regAddr regDR then (d.data.head, d.skipData 1)
  else (0, d)

def accesses (this : ExternalComPortDriver) : Device → List SDMRegisterAccess → List UInt32 × Device
  | d, [] => ([], d)
  | d, a :: as =>
    let (value, d) := d.access this a
    let (values, d) := accesses this d as
    (value :: values, d)

end Device

/-- The device as the driver `this` sees it. The calls that the driver does not make are answered
with success. -/
def device (this : ExternalComPortDriver) : Machine Host Device where
  answer
    | .registerAccess accesses, d =>
      let (values, d) := d.accesses this accesses
      (⟨.success, accesses.length, values⟩, d)
    | .resetStart, d => (d.resetStart, d)
    | .resetEnd, d => (d.resetEnd, d)
    | .updateProgress _ _, d => ((), d)
    | .presentForm _, d => ((.success, Vector.replicate _ ""), d)
    | .psaAdacInit, d => (0, d)
    | .importPrivateKey _, d => ((0, 0, 0), d)
    | .loadTrustChain _, d => ((0, []), d)
    | .psaAdacSignToken _ _ _, d => ((0, []), d)
    | .splitTlvStatic _, d => ((0, []), d)
    | .uninitialised size, d => (Vector.replicate size 0, d)
    | .newImpl, d => (1, d)

namespace ExternalComPortDriver
variable {this : ExternalComPortDriver} {α β : Type}

/-! ### Single accesses -/

def clean (value : UInt32) : AccessResult := ⟨.success, 1, [value]⟩

theorem answer_statusAccess (this : ExternalComPortDriver) (d : Device) :
    (device this).answer (.registerAccess [this.statusAccess]) d =
      (clean d.status.head, d.skipStatus 1) := by
  have haddr : this.statusAccess.address = this.regAddr regSR := rfl
  have hop : this.statusAccess.op ≠ .write := by
    intro h
    cases h
  simp only [device, Device.accesses, Device.access, if_neg hop, if_pos haddr]
  rfl

theorem answer_readAccess (this : ExternalComPortDriver) (d : Device) :
    (device this).answer (.registerAccess [this.readAccess]) d =
      (clean d.data.head, d.skipData 1) := by
  have haddr : this.readAccess.address = this.regAddr regDR := rfl
  have hother : this.readAccess.address ≠ this.regAddr regSR := by
    rw [haddr, ne_eq, regAddr_inj]
    decide
  have hop : this.readAccess.op ≠ .write := by
    intro h
    cases h
  simp only [device, Device.accesses, Device.access, if_neg hop, if_neg hother, if_pos haddr]
  rfl

theorem answer_writeAccess (this : ExternalComPortDriver) (block : Bool) (byte : UInt8) (d : Device) :
    (device this).answer (.registerAccess [this.writeAccess block byte]) d =
      (clean (this.writeAccess block byte).value, d) := by
  have hop : (this.writeAccess block byte).op = .write := rfl
  simp only [device, Device.accesses, Device.access, if_pos hop]
  rfl

/-! ### Polling -/

/-- The `n`-th status value from here on is the first that is not idle, and it is no fault. -/
structure Ready (level : Status → UInt8) (d : Device) (n : Nat) : Prop where
  idle : ∀ i < n, ¬Faulty (d.status.get i) ∧ level (statusOfSR (d.status.get i)) = 0
  sound : ¬Faulty (d.status.get n)
  ready : level (statusOfSR (d.status.get n)) ≠ 0

variable {level : Status → UInt8} {d : Device} {n : Nat}

theorem pollResult_clean {value : UInt32} (h : ¬Faulty value) :
    pollResult level (clean value) = .ok (decide (level (statusOfSR value) ≠ 0)) := by
  obtain ⟨hlink, htx⟩ := not_or.mp h
  have hstatus : statusResult (clean value) = (.success, statusOfSR value) := rfl
  rw [pollResult, hstatus]
  dsimp only
  rw [if_neg (not_not.mpr rfl), if_neg hlink, if_neg htx]

theorem pollResult_faulty {value : UInt32} (h : Faulty value) :
    pollResult level (clean value) = .error .ioError := by
  have hstatus : statusResult (clean value) = (.success, statusOfSR value) := rfl
  rw [pollResult, hstatus]
  dsimp only
  rw [if_neg (not_not.mpr rfl)]
  by_cases hlink : (statusOfSR value).linkErrs = 0
  · rw [if_neg (not_not.mpr hlink), if_pos (h.resolve_left (not_not.mpr hlink))]
  · rw [if_pos hlink]

theorem pollResult_clean_iff {value : UInt32} {ready : Bool} :
    pollResult level (clean value) = .ok ready ↔
      ¬Faulty value ∧ (level (statusOfSR value) ≠ 0 ↔ ready = true) := by
  by_cases hfault : Faulty value
  · rw [pollResult_faulty hfault]
    exact iff_of_false (fun h => by cases h) fun h => h.1 hfault
  · rw [pollResult_clean hfault, Except.ok.injEq, Bool.eq_iff_iff, decide_eq_true_iff,
      and_iff_right hfault]

theorem ready_zero_iff : Ready level d 0 ↔
    ¬Faulty (d.status.get 0) ∧ level (statusOfSR (d.status.get 0)) ≠ 0 := by
  constructor
  · intro h
    exact ⟨h.sound, h.ready⟩
  · intro h
    exact ⟨fun i hi => absurd hi (Nat.not_lt_zero i), h.1, h.2⟩

theorem ready_succ_iff : Ready level d (n + 1) ↔
    (¬Faulty (d.status.get 0) ∧ level (statusOfSR (d.status.get 0)) = 0) ∧
      Ready level (d.skipStatus 1) n := by
  constructor
  · intro h
    refine ⟨h.idle 0 (Nat.succ_pos n), ⟨fun i hi => ?_, ?_, ?_⟩⟩
    · rw [Device.get_skipStatus, Nat.add_comm]
      exact h.idle (i + 1) (Nat.succ_lt_succ hi)
    · rw [Device.get_skipStatus, Nat.add_comm]
      exact h.sound
    · rw [Device.get_skipStatus, Nat.add_comm]
      exact h.ready
  · intro h
    obtain ⟨hzero, hrest⟩ := h
    refine ⟨fun i hi => ?_, ?_, ?_⟩
    · cases i with
      | zero => exact hzero
      | succ i =>
        have hi' := hrest.idle i (Nat.lt_of_succ_lt_succ hi)
        rwa [Device.get_skipStatus, Nat.add_comm] at hi'
    · have hn := hrest.sound
      rwa [Device.get_skipStatus, Nat.add_comm] at hn
    · have hn := hrest.ready
      rwa [Device.get_skipStatus, Nat.add_comm] at hn

theorem plays_statuses {as : List AccessResult} {l : Trace} {d' : Device} :
    (device this).Plays d (as.map this.statusEvent ++ l) d' ↔
      as = (d.status.take as.length).map clean ∧ (device this).Plays (d.skipStatus as.length) l d' := by
  induction as generalizing d with
  | nil => exact (and_iff_right rfl).symm
  | cons a as ih =>
    rw [List.map_cons, List.cons_append, statusEvent, Machine.plays_cons, answer_statusAccess this d, ih,
      Device.skipStatus_skipStatus, List.length_cons, Stream'.take_succ, List.map_cons, List.cons.injEq,
      Nat.add_comm 1, and_assoc]
    rfl

theorem pollResult_idle
    (h : ∀ i < n, ¬Faulty (d.status.get i) ∧ level (statusOfSR (d.status.get i)) = 0) :
    ∀ c ∈ (d.status.take n).map clean, pollResult level c = .ok false := by
  intro c hc
  obtain ⟨value, hvalue, rfl⟩ := List.mem_map.mp hc
  obtain ⟨i, hi, rfl⟩ := List.getElem_of_mem hvalue
  rw [Stream'.length_take] at hi
  obtain ⟨hsound, hidle⟩ := h i hi
  rw [Stream'.take_get, pollResult_clean hsound, decide_eq_false (not_not.mpr hidle)]

theorem readyFor_device {accesses : List SDMRegisterAccess} {a : AccessResult} {d' : Device} :
    this.ReadyFor (device this) level accesses d a d' ↔ ∃ n < maxRetries, Ready level d n ∧
      (device this).answer (.registerAccess accesses) (d.skipStatus (n + 1)) = (a, d') := by
  have hlast {s : Device} : (device this).Plays s [⟨.registerAccess accesses, a⟩] d' ↔
      (device this).answer (.registerAccess accesses) s = (a, d') := by
    rw [Machine.plays_cons, Machine.plays_nil, Prod.ext_iff]
    exact and_congr eq_comm eq_comm
  constructor
  · intro h
    obtain ⟨as, b, hlen, hidle, hb, hplays⟩ := h
    rw [plays_statuses, List.length_append, List.length_singleton, Stream'.take_succ',
      List.map_append, hlast] at hplays
    obtain ⟨heq, ha⟩ := hplays
    obtain ⟨has, hb'⟩ := List.append_inj heq (by simp)
    rw [(List.cons.inj hb').1, pollResult_clean_iff] at hb
    refine ⟨as.length, hlen, ⟨fun i hi => ?_, hb.1, hb.2.mpr rfl⟩, ha⟩
    have hmem : clean (d.status.get i) ∈ as := by
      rw [has]
      refine List.mem_map_of_mem (List.mem_iff_getElem.mpr ⟨i, ?_, Stream'.take_get _ _ _ _⟩)
      rwa [Stream'.length_take]
    obtain ⟨hsound, hzero⟩ := pollResult_clean_iff.mp (hidle _ hmem)
    exact ⟨hsound, not_not.mp fun hne => Bool.noConfusion (hzero.mp hne)⟩
  · intro h
    obtain ⟨n, hn, hready, ha⟩ := h
    have hlen : ((d.status.take n).map clean).length = n := by
      rw [List.length_map, Stream'.length_take]
    refine ⟨(d.status.take n).map clean, clean (d.status.get n), by rwa [hlen],
      pollResult_idle hready.idle, ?_, ?_⟩
    · rw [pollResult_clean hready.sound, decide_eq_true hready.ready]
    · rw [plays_statuses, List.length_append, List.length_singleton, hlen, Stream'.take_succ',
        List.map_append, hlast]
      exact ⟨rfl, ha⟩

/-! ### Bytes -/

def Takes (d d' : Device) : Prop :=
  ∃ n < maxRetries, Ready Status.txFree d n ∧ d' = d.skipStatus (n + 1)

def Gives (d d' : Device) : Prop :=
  ∃ n < maxRetries, Ready Status.rxData d n ∧ d' = (d.skipStatus (n + 1)).skipData 1

theorem takesByte_device {d' : Device} (byte : UInt8) :
    this.TakesByte (device this) byte d d' ↔ Takes d d' := by
  have hanswer := answer_writeAccess this false byte
  constructor
  · intro h
    obtain ⟨a, -, h⟩ := h
    obtain ⟨n, hn, hready, ha⟩ := readyFor_device.mp h
    exact ⟨n, hn, hready, (Prod.mk.inj ((hanswer _).symm.trans ha)).2.symm⟩
  · intro h
    obtain ⟨n, hn, hready, rfl⟩ := h
    exact ⟨_, rfl, readyFor_device.mpr ⟨n, hn, hready, hanswer _⟩⟩

theorem givesByte_device {d' : Device} {byte : UInt8} :
    this.GivesByte (device this) d byte d' ↔ Gives d d' ∧ d.byte 0 = byte := by
  have hanswer := answer_readAccess this
  constructor
  · intro h
    obtain ⟨a, -, hbyte, h⟩ := h
    obtain ⟨n, hn, hready, ha⟩ := readyFor_device.mp h
    obtain ⟨rfl, rfl⟩ := Prod.mk.inj ((hanswer _).symm.trans ha)
    exact ⟨⟨n, hn, hready, rfl⟩, hbyte⟩
  · intro h
    obtain ⟨⟨n, hn, hready, rfl⟩, hbyte⟩ := h
    refine ⟨clean (d.skipStatus (n + 1)).data.head, ⟨rfl, rfl⟩, hbyte, ?_⟩
    exact readyFor_device.mpr ⟨n, hn, hready, hanswer _⟩

theorem delivers_device (hcb : this.mRegisterAccessCallback = true) (d : Device) (n : Nat) :
    this.Delivers (device this) d ((d.data.take n).map UInt32.toUInt8) (d.skipData n) := by
  refine ⟨hcb, (d.data.take n).map clean, ?_, ?_, ?_⟩
  · intro a ha
    obtain ⟨value, -, rfl⟩ := List.mem_map.mp ha
    exact ⟨rfl, rfl⟩
  · rw [List.map_map]
    rfl
  · induction n generalizing d with
    | zero => exact .nil d
    | succ n ih =>
      have hnext := ih (d.skipData 1)
      rw [Device.skipData_skipData, Nat.add_comm] at hnext
      have hanswer := answer_readAccess this d
      rw [Stream'.take_succ, List.map_cons, List.map_cons, readEvent, Machine.plays_cons, hanswer]
      exact ⟨rfl, hnext⟩

end ExternalComPortDriver
end SecureDebug
