import SecureDebug.Api
import SecureDebug.Interaction.Serving
import SecureDebug.Manager.Verdict

/-! The example debugger, function by function: a program that opens a debug connection through
RDDI, authenticates over it with the SDM API and serves the callbacks of the library meanwhile. What
it prints is left out, and with that the callbacks `updateProgress` and `setErrorMessage`. -/

namespace SecureDebug.Example
open Interaction Program

abbrev RDDIHandle := Int

inductive RddiResult where
  | success
  | wrongDev
  | internalError
  | other (code : Int)
  deriving DecidableEq, Repr

inductive RddiRstAction where
  | assert
  | deassert
  deriving DecidableEq, Repr

/-- `RDDI_REG_ACC_OP`; the error code it starts with is `RDDI_SUCCESS`. -/
structure RddiRegAccOp where
  registerID : UInt64
  registerSize : Nat
  rwFlag : Nat
  registerValue : UInt32
  deriving DecidableEq, Repr

/-- What `fgets` leaves in an array of `size` characters: a C string, each of whose characters is
a byte. -/
structure Line (size : Nat) where
  text : String
  fits : text.length < size
  deriving DecidableEq, Repr

/-- Everything that the example calls and that is not part of it, the library apart. `library`
stands for what the library calls other than the callbacks. -/
inductive RddiCall where
  | rddiOpen
  | rddiClose (handle : RDDIHandle)
  | configInfoOpenFileAndRetarget (handle : RDDIHandle) (sdf address : String)
  | debugConnect (handle : RDDIHandle)
  | debugDisconnect (handle : RDDIHandle)
  | debugOpenConn (handle : RDDIHandle) (device : Int)
  | debugCloseConn (handle : RDDIHandle) (device : Int)
  | debugRegReadBlock (handle : RDDIHandle) (device : Int) (registerID : UInt32)
  | debugRegWriteBlock (handle : RDDIHandle) (device : Int) (registerID value : UInt32)
  | debugRegRWList (handle : RDDIHandle) (device : Int) (ops : List RddiRegAccOp)
  | debugSystemReset (handle : RDDIHandle) (action : RddiRstAction)
  | fgets (size : Nat)
  | library (c : HostCall)

/-- Behind the code comes what is stored through pointers: the handle, the device id, the
register, and for each operation of a list its error code and its value. -/
abbrev RddiCall.Answer : RddiCall → Type
  | rddiOpen => RddiResult × RDDIHandle
  | rddiClose _ => RddiResult
  | configInfoOpenFileAndRetarget _ _ _ => RddiResult
  | debugConnect _ => RddiResult
  | debugDisconnect _ => RddiResult
  | debugOpenConn _ _ => RddiResult × UInt32
  | debugCloseConn _ _ => RddiResult
  | debugRegReadBlock _ _ _ => RddiResult × UInt32
  | debugRegWriteBlock _ _ _ _ => RddiResult
  | debugRegRWList _ _ ops => RddiResult × Vector (RddiResult × UInt32) ops.length
  | debugSystemReset _ _ => RddiResult
  | fgets size => Option (Line size)
  | library c => c.Answer

abbrev Rddi : Interface := ⟨RddiCall, RddiCall.Answer⟩

abbrev Client (α : Type) := Program Rddi Stop α

abbrev callRddi (c : RddiCall) : Client c.Answer := Program.perform (I := Rddi) c

structure Globals where
  gDAPIndex : Int
  gCOMPortDeviceIndex : Int
  gRDDIHandle : RDDIHandle
  deriving DecidableEq, Repr

def dpCtrlStatRegID : UInt32 := 0x2081

/-- `FILENAME_MAX` is that of the library. `MaxDAPPWRACKPolls`: -/
def maxDAPPWRACKPolls : Nat := 100

namespace Globals
variable (g : Globals)

/-! ### Resets -/

def readCtrlStat : Client (RddiResult × UInt32) :=
  callRddi (.debugRegReadBlock g.gRDDIHandle g.gDAPIndex dpCtrlStatRegID)

def writeCtrlStat (ctrlStat : UInt32) : Client RddiResult :=
  callRddi (.debugRegWriteBlock g.gRDDIHandle g.gDAPIndex dpCtrlStatRegID ctrlStat)

def closeDAP : Client RddiResult := callRddi (.debugCloseConn g.gRDDIHandle g.gDAPIndex)

/-- The loop of `WaitForACK`, with `attempts = maxDAPPWRACKPolls - left` on entry; returns
`attempts` and `result` behind it. -/
def ackLoop (mask value : UInt32) (left : Nat) (ctrlStat : UInt32) (result : RddiResult) :
    Client (Nat × RddiResult) :=
  if ctrlStat &&& mask ≠ value ∧ result = .success then
    match left with
    | 0 => return (maxDAPPWRACKPolls, result)
    | left + 1 => do
      let (result, ctrlStat) ← g.readCtrlStat
      ackLoop mask value left ctrlStat result
  else return (maxDAPPWRACKPolls - left, result)

def waitForACK (mask value ctrlStat : UInt32) : Client Bool := do
  let (attempts, result) ← g.ackLoop mask value maxDAPPWRACKPolls ctrlStat .success
  return attempts < maxDAPPWRACKPolls ∧ result = .success

def systemResetStart : Client RddiResult := do
  if g.gDAPIndex < 1 then return .wrongDev
  let (result, _) ← callRddi (.debugOpenConn g.gRDDIHandle g.gDAPIndex)
  if result ≠ .success then return result
  let (result, ctrlStat) ← g.readCtrlStat
  if result ≠ .success then
    let _ ← g.closeDAP
    return result
  -- debug and system power down
  let ctrlStat := ctrlStat &&& ~~~0x50000000
  let result ← g.writeCtrlStat ctrlStat
  if result ≠ .success then
    let _ ← g.closeDAP
    return result
  -- the acknowledgements go low
  let low ← g.waitForACK 0xA0000000 0x0 ctrlStat
  if !low then
    let _ ← g.closeDAP
    return .internalError
  let result ← callRddi (.debugSystemReset g.gRDDIHandle .assert)
  if result ≠ .success then
    let _ ← g.closeDAP
    return result
  -- and power up again, with nothing else of the register kept
  let ctrlStat := 0x50000000
  let result ← g.writeCtrlStat ctrlStat
  if result ≠ .success then
    let _ ← g.closeDAP
    return result
  let high ← g.waitForACK 0xA0000000 0xA0000000 ctrlStat
  if !high then
    let _ ← g.closeDAP
    return .internalError
  g.closeDAP

def systemResetFinish : Client RddiResult := callRddi (.debugSystemReset g.gRDDIHandle .deassert)

end Globals

/-! ### Callbacks -/

inductive SDMResetType where
  | default
  | hardware
  | other (code : UInt32)
  deriving DecidableEq, Repr

/-- The operation of an access as the callback gets it; the library never asks for a `poll`. -/
inductive CallbackOp where
  | read
  | write
  | poll
  deriving DecidableEq, Repr

structure CallbackAccess where
  address : UInt64
  op : CallbackOp
  value : UInt32
  deriving DecidableEq, Repr

namespace Globals
variable (g : Globals)

def resetStart (resetType : SDMResetType) : Client SDMReturnCode := do
  if resetType ≠ .default ∧ resetType ≠ .hardware then return .unsupportedOperation
  let rddiReturnCode ← g.systemResetStart
  if rddiReturnCode ≠ .success then return .internalError
  return .success

def resetFinish (resetType : SDMResetType) : Client SDMReturnCode := do
  if resetType ≠ .default ∧ resetType ≠ .hardware then return .unsupportedOperation
  let rddiReturnCode ← g.systemResetFinish
  if rddiReturnCode ≠ .success then return .internalError
  return .success

def accessOperation (access : CallbackAccess) : RddiRegAccOp where
  registerID := access.address / 4
  registerSize := 1
  rwFlag := if access.op = .read then 0 else 1
  registerValue := access.value

/-- `device` says whether the pointer is set; the other two are pointers as well. Returns the code,
what is behind `accessesCompleted` and the values stored through the accesses. -/
def registerAccess (device : Bool) (accesses : Option (List CallbackAccess))
    (accessesCompleted : Option Nat) : Client (SDMReturnCode × Option Nat × List UInt32) := do
  if !device then return (.invalidArgument, accessesCompleted, [])
  let some accesses := accesses | return (.invalidArgument, accessesCompleted, [])
  if accessesCompleted.isNone then return (.invalidArgument, accessesCompleted, [])
  if accesses.length < 1 then return (.success, accessesCompleted, [])
  if accesses.any (·.op = .poll) then return (.unsupportedOperation, accessesCompleted, [])
  let accessOperations := accesses.map accessOperation
  let (result, done) ← callRddi
    (.debugRegRWList g.gRDDIHandle g.gCOMPortDeviceIndex accessOperations)
  let values := done.toList.map Prod.snd
  -- the error codes of the operations are looked at only when the list as a whole went through
  if result ≠ .success then return (.transferError, some 0, values)
  let completed := done.toList.countP (·.1 = .success)
  return (if completed = accesses.length then .success else .transferError, some completed, values)

end Globals

/-- The loop of `presentForm` over the elements; in the buffers that it does not get to there may be
anything. The `regex_replace` calls are those of the library. -/
def presentElements :
    (elements : List SDMFormElement) → Client (SDMReturnCode × Vector String elements.length)
  | [] => return (.success, #v[])
  | element :: elements => do
    let unfilled := Vector.replicate (element :: elements).length ""
    if element.pathBufferLength = 0 then return (.invalidArgument, unfilled)
    let some userInput ← callRddi (.fgets filenameMax) | return (.internalError, unfilled)
    let userInputString := userInputStringTrim userInput.text
    -- room for the terminating zero
    if userInputString.length + 1 > element.pathBufferLength then return (.internalError, unfilled)
    let (res, paths) ← presentElements elements
    return (res, ⟨(userInputString :: paths.toList).toArray, by simp⟩)

def presentForm (form : SDMForm) :
    Client (SDMReturnCode × Vector String form.elements.length) := presentElements form.elements

def CallbackAccess.ofLibrary (access : SDMRegisterAccess) : CallbackAccess where
  address := access.address
  op := match access.op with
    | .read => .read
    | .write => .write
  value := access.value

/-- How the calls of the library are answered: by the callbacks that `main` sets, the others by the
environment. The library sets `accessesCompleted` to 0 and asks for resets of the default type. -/
def Globals.callbacks (g : Globals) : Server Host Rddi Stop
  | .registerAccess accesses => do
    let (result, accessesCompleted, values) ←
      g.registerAccess true (some (accesses.map .ofLibrary)) (some 0)
    return ⟨result, accessesCompleted.getD 0, values⟩
  | .resetStart => g.resetStart .default
  | .resetEnd => g.resetFinish .default
  | .updateProgress _ _ => return ()
  | .presentForm form => presentForm form
  | .psaAdacInit => callRddi (.library .psaAdacInit)
  | .importPrivateKey path => callRddi (.library (.importPrivateKey path))
  | .loadTrustChain path => callRddi (.library (.loadTrustChain path))
  | .psaAdacSignToken challenge signatureType handle =>
    callRddi (.library (.psaAdacSignToken challenge signatureType handle))
  | .splitTlvStatic chain => callRddi (.library (.splitTlvStatic chain))
  | .uninitialised size => callRddi (.library (.uninitialised size))
  | .newImpl => callRddi (.library .newImpl)

/-! ### The program -/

/-- Overflow, which C leaves undefined, does not happen here. -/
def atoi (s : String) : Int :=
  let digits (cs : List Char) : Nat :=
    (cs.takeWhile Char.isDigit).foldl (fun n c => 10 * n + (c.toNat - 48)) 0
  match s.toList.dropWhile isSpace with
  | '-' :: cs => -(digits cs : Int)
  | '+' :: cs => digits cs
  | cs => digits cs

def rddiInitialize (sdf address : String) : Client (RddiResult × RDDIHandle) := do
  let (result, gRDDIHandle) ← callRddi .rddiOpen
  if result ≠ .success then return (result, gRDDIHandle)
  let result ← callRddi (.configInfoOpenFileAndRetarget gRDDIHandle sdf address)
  if result ≠ .success then
    let _ ← callRddi (.rddiClose gRDDIHandle)
    return (result, gRDDIHandle)
  let result ← callRddi (.debugConnect gRDDIHandle)
  if result ≠ .success then
    let _ ← callRddi (.rddiClose gRDDIHandle)
    return (result, gRDDIHandle)
  return (.success, gRDDIHandle)

def Globals.rddiFinalize (g : Globals) : Client RddiResult := do
  let disconResult ← callRddi (.debugDisconnect g.gRDDIHandle)
  let closeResult ← callRddi (.rddiClose g.gRDDIHandle)
  return if disconResult ≠ .success then disconResult else closeResult

inductive ExitCode where
  | success
  | failure
  deriving DecidableEq, Repr

def comapIDR : UInt32 := 0x04762000
def apmcomPID : UInt32 := 0x9ef

def architectureOf (deviceId : UInt32) : Option SDMDebugArchitecture :=
  if deviceId = comapIDR then some .armADIv5
  else if deviceId = apmcomPID then some .armADIv6
  else none

def sdmOpenParams (debugArchitecture : SDMDebugArchitecture) : SDMOpenParameters where
  debugArchitecture
  callbacks := some ⟨true, true, true, true, true⟩

/-- The end of `main`: `Debug_CloseConn` and `RDDI_Finalize`, whose results are not looked at. -/
def Globals.windDown (g : Globals) (code : ExitCode) : Client ExitCode := do
  let _ ← callRddi (.debugCloseConn g.gRDDIHandle g.gCOMPortDeviceIndex)
  let _ ← g.rddiFinalize
  return code

/-- What `main` does with the SDM API, in between opening the COM port and closing it. `sdmHandle`
is not set before `SDMOpen`. -/
def session (psa : PsaAdac) (fuel : Nat) (sdmHandle : SDMHandle)
    (debugArchitecture : SDMDebugArchitecture) : Sdm ExitCode := do
  let out ← SecureDebug.sdmOpen fuel none (some sdmHandle) (some (sdmOpenParams debugArchitecture))
  if out.res ≠ .success then return .failure
  let sdmHandle := out.handle.getD sdmHandle
  let (sdmRes, gSDMImpl) ← SecureDebug.sdmAuthenticate psa fuel out.gSDMImpl sdmHandle
  if sdmRes ≠ .success then
    let _ ← SecureDebug.sdmClose fuel gSDMImpl sdmHandle
    return .failure
  let (sdmRes, gSDMImpl) ← SecureDebug.sdmResumeBoot gSDMImpl sdmHandle
  if sdmRes ≠ .success then
    let _ ← SecureDebug.sdmClose fuel gSDMImpl sdmHandle
    return .failure
  let _ ← SecureDebug.sdmClose fuel gSDMImpl sdmHandle
  return .success

/-- `argv` holds the `argc` arguments, the name of the program first. -/
def main (psa : PsaAdac) (fuel : Nat) (sdmHandle : SDMHandle) (argv : List String) :
    Client ExitCode := do
  let [_, address, sdf, dapIndex, comIndex] := argv | return .failure
  let (rddiRes, gRDDIHandle) ← rddiInitialize sdf address
  if rddiRes ≠ .success then return .failure
  let g : Globals := ⟨atoi dapIndex, atoi comIndex, gRDDIHandle⟩
  let (rddiRes, deviceId) ← callRddi (.debugOpenConn g.gRDDIHandle g.gCOMPortDeviceIndex)
  if rddiRes ≠ .success then
    let _ ← g.rddiFinalize
    return .failure
  let some debugArchitecture := architectureOf deviceId | g.windDown .failure
  let code ← (session psa fuel sdmHandle debugArchitecture).serve g.callbacks
  g.windDown code

/-! ### A rig -/

/-- A probe with a target that acknowledges each power request, on which the accesses are answered by
a script; an input is empty, and the rest is answered by `library`. -/
def rig (library : Machine Host (List AccessResult)) : Machine Rddi (UInt32 × List AccessResult) where
  answer
    | .rddiOpen, s => ((.success, 7), s)
    | .rddiClose _, s => (.success, s)
    | .configInfoOpenFileAndRetarget _ _ _, s => (.success, s)
    | .debugConnect _, s => (.success, s)
    | .debugDisconnect _, s => (.success, s)
    | .debugOpenConn _ _, s => ((.success, comapIDR), s)
    | .debugCloseConn _ _, s => (.success, s)
    | .debugRegReadBlock _ _ _, s => ((.success, s.1 ||| ((s.1 &&& 0x50000000) <<< 1)), s)
    | .debugRegWriteBlock _ _ _ value, s => (.success, value, s.2)
    | .debugRegRWList _ _ ops, s =>
      let a := s.2.headD ⟨.success, ops.length, []⟩
      let done (i : Fin ops.length) : RddiResult × UInt32 :=
        (if i.1 < a.accessesCompleted then .success else .other 1, a.values.getD i.1 0)
      ((if a.result = .success then .success else .other 1, Vector.ofFn done), s.1, s.2.tail)
    | .debugSystemReset _ _, s => (.success, s)
    | .fgets size, s => (if h : 0 < size then some ⟨"", h⟩ else none, s)
    | .library c, s =>
      let out := library.answer c s.2
      (out.1, s.1, out.2)

def sessionScript : List AccessResult :=
  ExternalComPortDriver.identifyScript ([flagIDA] ++ protocol ++ [flagEND]) ++
    SecureDebugManagerImpl.dialogueScript
      [SecureDebugManagerImpl.startAnswer 0, [0, 0, 0, 0, 0, 0, 0, 0]]

def sampleArgv : List String := ["sdm", "TCP:a", "b.sdf", "1", "2"]

def sampleRun : Except Stop ExitCode × List (Event Rddi) × UInt32 × List AccessResult :=
  (rig scripted).exec (main .standard 60 0 sampleArgv) (0, sessionScript)

theorem run_sampleRun : Run (main .standard 60 0 sampleArgv) sampleRun.2.1 (.ok .success) := by
  have hcode : sampleRun.1 = .ok .success := by decide +kernel
  rw [← hcode]
  exact Machine.exec_run _ _ _

end SecureDebug.Example
