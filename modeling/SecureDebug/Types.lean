import Mathlib.Algebra.Ring.Nat
import SecureDebug.Interaction.Program

/-! The vocabulary shared by the driver and the manager: return codes, register accesses,
and the calls the library makes out of itself, to the debugger's callbacks, to psa-adac and
to the runtime. The device descriptor and the `refcon` pointer are handed to every callback
unchanged and decide nothing here, so they are left out. -/

namespace SecureDebug
open Interaction

inductive SDMReturnCode where
  | success
  | requestFailed
  | unsupportedOperation
  | transferError
  | invalidArgument
  | internalError
  | timeoutError
  | ioError
  | other (code : UInt32)
  deriving DecidableEq, Repr

inductive SDMDebugArchitecture where
  | armADIv5
  | armADIv6
  deriving DecidableEq, Repr

inductive SDMRegisterAccessOp where
  | read
  | write
  deriving DecidableEq, Repr

structure SDMRegisterAccess where
  address : UInt64
  op : SDMRegisterAccessOp
  value : UInt32
  pollMask : UInt32 := 0
  retries : Nat := 0
  deriving DecidableEq, Repr

/-- What one call of the register access callback hands back: its return code, the value
left in `*accessesCompleted`, and the values stored through the access pointers. -/
structure AccessResult where
  result : SDMReturnCode
  accessesCompleted : Nat
  values : List UInt32
  deriving DecidableEq, Repr

/-- `SDMForm_PathSelect` form elements, the only kind in use. -/
structure SDMFormElement where
  id : String
  title : String
  help : String
  pathBufferLength : Nat
  deriving DecidableEq, Repr

structure SDMForm where
  id : String
  title : String
  elements : List SDMFormElement
  deriving DecidableEq, Repr

/-- The callbacks of the debugger; each field says whether the pointer is set. -/
structure SDMCallbacks where
  registerAccess : Bool
  resetStart : Bool
  resetFinish : Bool
  updateProgress : Bool
  presentForm : Bool
  deriving DecidableEq, Repr

/-- `callbacks` is a pointer. Version, resource paths, locales, flags and connect mode are
stored and never used. -/
structure SDMOpenParameters where
  debugArchitecture : SDMDebugArchitecture
  callbacks : Option SDMCallbacks
  deriving DecidableEq, Repr

/-- `sizeof(psa_tlv_t)`, the type and length in front of a value. -/
def sizeofPsaTlv : Nat := 8

/-- An entry that `split_tlv_static` returns: a pointer into the trust chain at which the
whole entry, its header included, can be read. -/
structure PsaTlv where
  typeId : UInt16
  lengthInBytes : UInt32
  bytes : List UInt8
  size_eq : bytes.length = lengthInBytes.toNat + sizeofPsaTlv

abbrev SDMHandle := UInt64

/-- Everything the library calls that is not part of it. `uninitialised` stands for the
content an array on the stack starts with, `newImpl` for the address `new` returns. -/
inductive HostCall where
  | registerAccess (accesses : List SDMRegisterAccess)
  | resetStart
  | resetEnd
  | updateProgress (progressMessage : String) (percentComplete : UInt8)
  | presentForm (form : SDMForm)
  | psaAdacInit
  | importPrivateKey (path : String)
  | loadTrustChain (path : String)
  | psaAdacSignToken (challenge : List UInt8) (signatureType : UInt8) (handle : UInt32)
  | splitTlvStatic (chain : List UInt8)
  | uninitialised (size : Nat)
  | newImpl

abbrev HostCall.Answer : HostCall → Type
  | registerAccess _ => AccessResult
  | resetStart => SDMReturnCode
  | resetEnd => SDMReturnCode
  | updateProgress _ _ => Unit
  | presentForm form => SDMReturnCode × Vector String form.elements.length
  | psaAdacInit => Int
  | importPrivateKey _ => Int × UInt8 × UInt32
  | loadTrustChain _ => Int × List UInt8
  | psaAdacSignToken _ _ _ => Int × List UInt8
  | splitTlvStatic _ => Int × List PsaTlv
  | uninitialised size => Vector UInt8 size
  | newImpl => SDMHandle

abbrev Host : Interface := ⟨HostCall, HostCall.Answer⟩

/-- Why a call of the library does not return: an unbounded loop is still going when the
turns it is given run out, an access falls outside its buffer, an empty `std::function` is
called, or a null pointer is followed. -/
inductive Stop where
  | outOfFuel
  | outOfBounds
  | badFunctionCall
  | nullPointer
  deriving DecidableEq, Repr

abbrev Sdm (α : Type) := Program Host Stop α

abbrev Trace := List (Event Host)

abbrev callHost (c : HostCall) : Sdm c.Answer := Program.perform (I := Host) c

/-- `buffer[index] = byte`, checked against the memory behind `buffer`. -/
def store (buffer : List UInt8) (index : Nat) (byte : UInt8) : Except Stop (List UInt8) :=
  if index < buffer.length then .ok (buffer.set index byte) else .error .outOfBounds

def poke (buffer : List UInt8) (offset : Nat) (bytes : List UInt8) : Except Stop (List UInt8) :=
  if offset + bytes.length ≤ buffer.length then
    .ok (buffer.take offset ++ bytes ++ buffer.drop (offset + bytes.length))
  else .error .outOfBounds

def peek (buffer : List UInt8) (offset size : Nat) : Except Stop (List UInt8) :=
  if offset + size ≤ buffer.length then .ok ((buffer.drop offset).take size) else .error .outOfBounds

def deref {α : Type} : Option α → Sdm α
  | some a => return a
  | none => Program.halt .nullPointer

theorem deref_some {α : Type} (a : α) : deref (some a) = pure a := rfl

def scripted : Machine Host (List AccessResult) where
  answer
    | .registerAccess accesses, script =>
      (script.headD ⟨.success, accesses.length, []⟩, script.tail)
    | .resetStart, script => (.success, script)
    | .resetEnd, script => (.success, script)
    | .updateProgress _ _, script => ((), script)
    | .presentForm _, script => ((.success, Vector.replicate _ ""), script)
    | .psaAdacInit, script => (0, script)
    | .importPrivateKey _, script => ((0, 0, 0), script)
    | .loadTrustChain _, script => ((0, []), script)
    | .psaAdacSignToken _ _ _, script => ((0, []), script)
    | .splitTlvStatic _, script => ((0, []), script)
    | .uninitialised size, script => (Vector.replicate size 0, script)
    | .newImpl, script => (1, script)

theorem exists_run_of_machine {α β σ : Type} (m : Machine Host σ) (p : Sdm (β × α)) (s : σ) (res : β)
    (h : (m.exec p s).1.map Prod.fst = .ok res) :
    ∃ a, Run p (m.exec p s).2.1 (.ok (res, a)) := by
  have hrun := Machine.exec_run m p s
  generalize m.exec p s = out at h hrun ⊢
  obtain ⟨r, l, t⟩ := out
  cases r with
  | error e => cases h
  | ok b => exact ⟨b.2, by rw [← Except.ok.inj h]; exact hrun⟩

theorem exists_run_of_exec {α β : Type} (p : Sdm (β × α)) (script : List AccessResult) (res : β)
    (h : (scripted.exec p script).1.map Prod.fst = .ok res) :
    ∃ a, Run p (scripted.exec p script).2.1 (.ok (res, a)) :=
  exists_run_of_machine scripted p script res h

theorem run_of_exec {α : Type} {p : Sdm α} {r : Except Stop α} (script : List AccessResult)
    (h : (scripted.exec p script).1 = r) : Run p (scripted.exec p script).2.1 r := by
  rw [← h]
  exact Machine.exec_run scripted p script

theorem exec_eq_of_parts {α σ : Type} {m : Machine Host σ} {p : Sdm α} {s t : σ} {a : α}
    (hout : (m.exec p s).1 = .ok a) (hrest : (m.exec p s).2.2 = t) :
    m.exec p s = (.ok a, (m.exec p s).2.1, t) := Prod.ext hout (Prod.ext rfl hrest)

def allCallbacks : SDMOpenParameters := ⟨.armADIv5, some ⟨true, true, true, true, true⟩⟩

end SecureDebug
