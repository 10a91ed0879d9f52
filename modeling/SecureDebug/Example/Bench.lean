import SecureDebug.Example.Defs
import SecureDebug.Manager.Conduct

/-! What the example does to the target. The reset line is asserted in a target that acknowledged that
it is powered down and released in one that acknowledged power, the COM port is used between the two
and behind, and once something failed nothing is done but to close what is open. -/

namespace SecureDebug.Example
open Interaction Program ExternalComPortDriver SecureDebugManagerImpl

/-- What was done to the target so far: which COM port it has, its status if that is what was read
last, what was read from CTRL/STAT last and what written, the state of the reset line, and whether
anything failed. -/
structure Bench where
  architecture : Option SDMDebugArchitecture := none
  status : Option Status := none
  read : Option UInt32 := none
  written : Option UInt32 := none
  line : Option RddiRstAction := none
  failed : Bool := false
  deriving DecidableEq, Repr

def powerRequests : UInt32 := 0x50000000

def powerAcks : UInt32 := 0xA0000000

abbrev portDriver (architecture : SDMDebugArchitecture) : ExternalComPortDriver :=
  openDriver (sdmOpenParams architecture)

abbrev openPort (architecture : SDMDebugArchitecture) : ExternalComPortDriver :=
  { portDriver architecture with mIsComPortInited := true }

def registerID (architecture : SDMDebugArchitecture) (reg : UInt32) : UInt64 :=
  (portDriver architecture).regAddr reg / 4

def readOp (architecture : SDMDebugArchitecture) (reg : UInt32) : RddiRegAccOp where
  registerID := registerID architecture reg
  registerSize := 1
  rwFlag := 0
  registerValue := 0

def IsWriteOp (architecture : SDMDebugArchitecture) (reg : UInt32) (op : RddiRegAccOp) : Prop :=
  op.registerID = registerID architecture reg ∧ op.registerSize = 1 ∧ op.rwFlag = 1 ∧
    op.registerValue = 0xAFAFAF00 ||| op.registerValue.toUInt8.toUInt32

instance (architecture : SDMDebugArchitecture) (reg : UInt32) (op : RddiRegAccOp) :
    Decidable (IsWriteOp architecture reg op) := inferInstanceAs (Decidable (_ ∧ _))

/-- The status or a byte is read; bytes are written to the blocking register; a single one is to the
other register, when the status was read before it and showed room. -/
def Transfers (status : Option Status) (ops : List RddiRegAccOp)
    (architecture : SDMDebugArchitecture) : Prop :=
  ops = [readOp architecture regSR] ∨ ops = [readOp architecture regDR] ∨
    (ops ≠ [] ∧ ∀ op ∈ ops, IsWriteOp architecture regDBR op) ∨
    (ops.length = 1 ∧ (∀ op ∈ ops, IsWriteOp architecture regDR op) ∧
      status.any Status.hasRoom = true)

instance (status : Option Status) (ops : List RddiRegAccOp) (architecture : SDMDebugArchitecture) :
    Decidable (Transfers status ops architecture) :=
  inferInstanceAs (Decidable (_ ∨ _ ∨ (_ ∧ _) ∨ _ ∧ _ ∧ _))

namespace Bench
variable (dap com : Int)

/-- CTRL/STAT is changed in two ways: power requests are cleared from what was read, and, with the
line asserted, set alone. -/
def Admits (s : Bench) : RddiCall → Prop
  | .debugRegReadBlock _ device registerID =>
    device = dap ∧ registerID = dpCtrlStatRegID ∧ s.line ≠ some .deassert
  | .debugRegWriteBlock _ device registerID value =>
    device = dap ∧ registerID = dpCtrlStatRegID ∧
      (s.line = none ∧ s.read.map (· &&& ~~~powerRequests) = some value ∨
        s.line = some .assert ∧ value = powerRequests)
  | .debugSystemReset _ .assert =>
    s.line = none ∧ s.written.any (· &&& powerRequests = 0) = true ∧
      s.read.any (· &&& powerAcks = 0) = true
  | .debugSystemReset _ .deassert =>
    s.line = some .assert ∧ s.written = some powerRequests ∧
      s.read.any (· &&& powerAcks = powerAcks) = true
  | .debugRegRWList _ device ops =>
    device = com ∧ s.line ≠ none ∧ ∃ architecture ∈ s.architecture, Transfers s.status ops architecture
  | _ => True

instance (s : Bench) : (c : RddiCall) → Decidable (s.Admits dap com c)
  | .debugRegReadBlock _ _ _ => inferInstanceAs (Decidable (_ ∧ _))
  | .debugRegWriteBlock _ _ _ _ => inferInstanceAs (Decidable (_ ∧ _))
  | .debugSystemReset _ .assert => inferInstanceAs (Decidable (_ ∧ _))
  | .debugSystemReset _ .deassert => inferInstanceAs (Decidable (_ ∧ _))
  | .debugRegRWList _ _ _ => inferInstanceAs (Decidable (_ ∧ _ ∧ _))
  | .rddiOpen => inferInstanceAs (Decidable True)
  | .rddiClose _ => inferInstanceAs (Decidable True)
  | .configInfoOpenFileAndRetarget _ _ _ => inferInstanceAs (Decidable True)
  | .debugConnect _ => inferInstanceAs (Decidable True)
  | .debugDisconnect _ => inferInstanceAs (Decidable True)
  | .debugOpenConn _ _ => inferInstanceAs (Decidable True)
  | .debugCloseConn _ _ => inferInstanceAs (Decidable True)
  | .fgets _ => inferInstanceAs (Decidable True)
  | .library _ => inferInstanceAs (Decidable True)

def statusBehind (s : Bench) (ops : List RddiRegAccOp) (values : List UInt32) : Option Status :=
  if s.architecture.any (fun architecture => ops = [readOp architecture regSR]) then
    some (statusOfSR (values.getD 0 0))
  else none

def behind (s : Bench) : Event Rddi → Bench
  | ⟨.debugOpenConn _ _, (out : RddiResult × UInt32)⟩ =>
    { s with architecture := s.architecture.or (architectureOf out.2), status := none }
  | ⟨.debugRegReadBlock _ _ _, (out : RddiResult × UInt32)⟩ =>
    { s with read := some out.2, status := none }
  | ⟨.debugRegWriteBlock _ _ _ value, _⟩ => { s with written := some value, status := none }
  | ⟨.debugSystemReset _ action, _⟩ => { s with line := some action, status := none }
  | ⟨.debugRegRWList _ _ ops, (out : RddiResult × Vector (RddiResult × UInt32) _)⟩ =>
    { s with status := s.statusBehind ops (out.2.toList.map Prod.snd) }
  | _ => { s with status := none }

end Bench

/-- Objects to an access of which no reset was asked for first; whether one was. -/
def afterReset : Monitor Host Bool := fun asked e =>
  match e.call with
  | .resetStart => some true
  | .registerAccess _ => if asked then some true else none
  | _ => some asked

section
variable {fuel : Nat}

theorem abides_closeSession {S : Type} {m : Monitor Host S} {Q : ExitCode → S → Prop} {s : S}
    (gSDMImpl : Option LiveImpl) (handle : SDMHandle) (code : ExitCode) (h : Q code s) :
    Abides m Q (do let _ ← SecureDebug.sdmClose fuel gSDMImpl handle; return code) s := by
  obtain ⟨out, hout⟩ := exists_sdmClose_eq fuel gSDMImpl handle
  rw [hout]
  exact h

theorem abides_session (psa : PsaAdac) (fuel : Nat) (sdmHandle : SDMHandle)
    (debugArchitecture : SDMDebugArchitecture) :
    Abides (portDriver debugArchitecture).conduct
      (fun code t => code = .success → t.failed = false ∧ t.stage = .finished)
      (session psa fuel sdmHandle debugArchitecture) {} := by
  have hbad (t : Conduct) : ExitCode.failure = .success → t.failed = false ∧ t.stage = .finished :=
    fun h => by cases h
  refine ((settles_sdmOpen (some sdmHandle)).and_returns (returns_sdmOpen_live _)).bind
    fun out s hs => ?_
  refine abides_ite (fun _ => hbad s) fun hres => ?_
  obtain ⟨hfine, hstage⟩ := hs.1 (not_not.mp hres)
  obtain ⟨live, hlive, hhandle, hgSDMImpl⟩ := hs.2 (not_not.mp hres)
  rw [hhandle, hgSDMImpl, Option.getD_some]
  refine (behaves_sdmAuthenticate hlive s hfine).bind fun auth t ht => ?_
  refine abides_ite (fun _ => abides_closeSession _ _ _ (hbad t)) fun hres => ?_
  obtain ⟨resumed, hresumed⟩ := exists_sdmResumeBoot_eq auth.2 live.handle
  rw [hresumed, pure_bind]
  refine abides_ite (fun _ => abides_closeSession _ _ _ (hbad t)) fun _ => ?_
  exact abides_closeSession _ _ _ fun _ => ⟨ht.2 (not_not.mp hres), ht.1.trans hstage⟩

end

/-! ### The callbacks -/

/-- How the target stands when the library may go on. -/
def Bench.Stands (s : Bench) : ResetStage → Prop
  | .idle => s.line = none
  | .started => s.line = some .assert ∧ s.written = some powerRequests ∧
      s.read.any (· &&& powerAcks = powerAcks) = true
  | .finished => s.line = some .deassert

structure Bench.Ready (architecture : SDMDebugArchitecture) (stage : ResetStage) (s : Bench) :
    Prop where
  fine : s.failed = false
  architecture : s.architecture = some architecture
  stands : s.Stands stage

section
variable {dap com : Int} {s t : Bench} {architecture : SDMDebugArchitecture} {stage : ResetStage}

namespace Globals
variable {g : Globals} {mask value ctrlStat : UInt32}

def opOf (access : SDMRegisterAccess) : RddiRegAccOp := accessOperation (.ofLibrary access)

theorem registerAccess_eq {accesses : List CallbackAccess} (hne : accesses ≠ [])
    (hpoll : ∀ access ∈ accesses, access.op ≠ .poll) (completed : Nat) :
    g.registerAccess true (some accesses) (some completed) = (do
      let (result, done) ← callRddi
        (.debugRegRWList g.gRDDIHandle g.gCOMPortDeviceIndex (accesses.map accessOperation))
      let values := done.toList.map Prod.snd
      if result ≠ .success then return (.transferError, some 0, values)
      let completed := done.toList.countP (·.1 = .success)
      return (if completed = accesses.length then .success else .transferError, some completed,
        values)) := by
  have hlen : ¬accesses.length < 1 := Nat.not_lt.mpr (List.length_pos_of_ne_nil hne)
  have hany : ¬accesses.any (·.op = .poll) = true := by
    intro h
    obtain ⟨access, hmem, hop⟩ := List.any_eq_true.mp h
    exact hpoll access hmem (of_decide_eq_true hop)
  rw [registerAccess, if_neg (by decide)]
  dsimp only
  rw [if_neg (show ¬(some completed).isNone = true from Bool.false_ne_true), if_neg hlen, if_neg hany]

theorem ofLibrary_op_ne_poll (access : SDMRegisterAccess) :
    (CallbackAccess.ofLibrary access).op ≠ .poll := by
  obtain ⟨address, op, value, pollMask, retries⟩ := access
  cases op with
  | read => exact fun h => by cases h
  | write => exact fun h => by cases h

def accessResult (count : Nat) (result : RddiResult) (done : List (RddiResult × UInt32)) :
    AccessResult :=
  if result ≠ .success then ⟨.transferError, 0, done.map Prod.snd⟩
  else
    let completed := done.countP (·.1 = .success)
    ⟨if completed = count then .success else .transferError, completed, done.map Prod.snd⟩

theorem callbacks_registerAccess {accesses : List SDMRegisterAccess} (hne : accesses ≠ []) :
    g.callbacks (.registerAccess accesses) =
      callRddi (.debugRegRWList g.gRDDIHandle g.gCOMPortDeviceIndex (accesses.map opOf)) >>=
        fun done => pure (accessResult accesses.length done.1 done.2.toList) := by
  have hpoll (access : CallbackAccess) (hmem : access ∈ accesses.map CallbackAccess.ofLibrary) :
      access.op ≠ .poll := by
    obtain ⟨other, -, rfl⟩ := List.mem_map.mp hmem
    exact ofLibrary_op_ne_poll other
  have hcall : g.callbacks (.registerAccess accesses) =
      callRddi (.debugRegRWList g.gRDDIHandle g.gCOMPortDeviceIndex
        ((accesses.map CallbackAccess.ofLibrary).map accessOperation)) >>=
          fun done => pure (accessResult accesses.length done.1 done.2.toList) := by
    rw [callbacks, registerAccess_eq (fun h => hne (List.map_eq_nil_iff.mp h)) hpoll, bind_assoc]
    refine congrArg (_ >>= ·) (funext fun done => ?_)
    unfold accessResult
    by_cases hres : done.1 = .success
    · simp [hres]
    · simp [hres]
  rw [hcall, List.map_map]
  rfl

theorem hostFails_accessResult {accesses : List SDMRegisterAccess} {result : RddiResult}
    {done : List (RddiResult × UInt32)} (hlen : done.length = accesses.length) :
    hostFails ⟨.registerAccess accesses, accessResult accesses.length result done⟩ = false ↔
      result = .success ∧ ∀ d ∈ done, d.1 = .success := by
  have hcount : done.countP (·.1 = .success) = accesses.length ↔ ∀ d ∈ done, d.1 = .success := by
    rw [← hlen, List.countP_eq_length]
    simp
  rw [hostFails_access, accessResult]
  by_cases hres : result = .success
  · simp [hres, hcount]
  · simp [hres]

theorem accessResult_success {count : Nat} {done : List (RddiResult × UInt32)}
    (hlen : done.length = count) (hdone : ∀ d ∈ done, d.1 = .success) :
    accessResult count .success done = ⟨.success, count, done.map Prod.snd⟩ := by
  have hcount : done.countP (·.1 = .success) = count := by
    rw [← hlen, List.countP_eq_length]
    simpa using hdone
  rw [accessResult, hcount]
  simp

end Globals

def library (architecture : SDMDebugArchitecture) : Monitor Host (Conduct × Bool) :=
  (portDriver architecture).conduct.prod afterReset

end

end SecureDebug.Example
