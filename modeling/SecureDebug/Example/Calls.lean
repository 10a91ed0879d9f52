import SecureDebug.Example.Defs

/-! What each function of the example calls: connections, registers of the DAP, accesses to the COM
port, resets, the user, or what is not part of the example. -/

namespace SecureDebug.Example
open Interaction Program

inductive CallKind where
  | link
  | register
  | port
  | reset
  | input
  | library
  deriving DecidableEq, Repr

def RddiCall.kind : RddiCall → CallKind
  | rddiOpen => .link
  | rddiClose _ => .link
  | configInfoOpenFileAndRetarget _ _ _ => .link
  | debugConnect _ => .link
  | debugDisconnect _ => .link
  | debugOpenConn _ _ => .link
  | debugCloseConn _ _ => .link
  | debugRegReadBlock _ _ _ => .register
  | debugRegWriteBlock _ _ _ _ => .register
  | debugRegRWList _ _ _ => .port
  | debugSystemReset _ _ => .reset
  | fgets _ => .input
  | library _ => .library

def Uses {α : Type} (kinds : List CallKind) (p : Client α) : Prop := Makes p fun c => c.kind ∈ kinds

section
variable {α β : Type} {kinds kinds' : List CallKind} {p : Client α} {f : α → Client β}

theorem Uses.mono (h : Uses kinds p) (hkinds : kinds ⊆ kinds') : Uses kinds' p :=
  Makes.mono h fun _ hc => hkinds hc

theorem Uses.bind (h : Uses kinds p) (hf : ∀ a, Uses kinds (f a)) : Uses kinds (p >>= f) :=
  Makes.bind h hf

theorem uses_call {c : RddiCall} (h : kinds.contains c.kind = true) : Uses kinds (callRddi c) :=
  makes_perform (List.contains_iff_mem.mp h)

theorem uses_seq {c : RddiCall} {f : c.Answer → Client β} (h : kinds.contains c.kind = true)
    (hf : ∀ ans, Uses kinds (f ans)) : Uses kinds (callRddi c >>= f) := (uses_call h).bind hf

theorem uses_ite {c : Prop} [Decidable c] {q : Client α} (hp : Uses kinds p) (hq : Uses kinds q) :
    Uses kinds (if c then p else q) := makes_ite hp hq

theorem uses_pure {a : α} : Uses kinds (pure a : Client α) := makes_pure

namespace Globals
variable (g : Globals)

theorem uses_ackLoop (mask value : UInt32) (left : Nat) (ctrlStat : UInt32) (result : RddiResult) :
    Uses [.register] (g.ackLoop mask value left ctrlStat result) := by
  induction left generalizing ctrlStat result with
  | zero => exact uses_ite uses_pure uses_pure
  | succ left ih => exact uses_ite (uses_seq rfl fun out => ih _ _) uses_pure

theorem uses_waitForACK (mask value ctrlStat : UInt32) :
    Uses [.register] (g.waitForACK mask value ctrlStat) :=
  (g.uses_ackLoop _ _ _ _ _).bind fun _ => uses_pure

theorem uses_abandon (result : RddiResult) :
    Uses [.link] (do let _ ← g.closeDAP; return result) := uses_seq rfl fun _ => uses_pure

theorem uses_systemResetStart : Uses [.link, .register, .reset] g.systemResetStart := by
  have habandon (result : RddiResult) : Uses [.link, .register, .reset]
      (do let _ ← g.closeDAP; return result) := (g.uses_abandon result).mono (by decide)
  have hwait (mask value ctrlStat : UInt32) : Uses [.link, .register, .reset]
      (g.waitForACK mask value ctrlStat) := (g.uses_waitForACK _ _ _).mono (by decide)
  refine uses_ite uses_pure ?_
  refine uses_seq rfl fun opened => uses_ite uses_pure ?_
  refine uses_seq rfl fun read => uses_ite (habandon _) ?_
  refine uses_seq rfl fun down => uses_ite (habandon _) ?_
  refine (hwait _ _ _).bind fun low => uses_ite (habandon _) ?_
  refine uses_seq rfl fun held => uses_ite (habandon _) ?_
  refine uses_seq rfl fun up => uses_ite (habandon _) ?_
  refine (hwait _ _ _).bind fun high => uses_ite (habandon _) ?_
  exact uses_call rfl

theorem uses_registerAccess (device : Bool) (accesses : Option (List CallbackAccess))
    (accessesCompleted : Option Nat) :
    Uses [.port] (g.registerAccess device accesses accessesCompleted) := by
  refine uses_ite uses_pure ?_
  cases accesses with
  | none => exact uses_pure
  | some accesses =>
    refine uses_ite uses_pure (uses_ite uses_pure (uses_ite uses_pure ?_))
    exact uses_seq rfl fun done => uses_ite uses_pure uses_pure

theorem uses_rddiFinalize : Uses [.link] g.rddiFinalize :=
  uses_seq rfl fun _ => uses_seq rfl fun _ => uses_pure

theorem uses_windDown (code : ExitCode) : Uses [.link] (g.windDown code) :=
  uses_seq rfl fun _ => g.uses_rddiFinalize.bind fun _ => uses_pure

end Globals

theorem uses_rddiInitialize (sdf address : String) : Uses [.link] (rddiInitialize sdf address) := by
  have hclose (handle : RDDIHandle) (out : RddiResult × RDDIHandle) :
      Uses [.link] (do let _ ← callRddi (.rddiClose handle); return out) :=
    uses_seq rfl fun _ => uses_pure
  refine uses_seq rfl fun opened => uses_ite uses_pure ?_
  refine uses_seq rfl fun configured => uses_ite (hclose _ _) ?_
  exact uses_seq rfl fun connected => uses_ite (hclose _ _) uses_pure

theorem uses_presentElements (elements : List SDMFormElement) :
    Uses [.input] (presentElements elements) := by
  induction elements with
  | nil => exact uses_pure
  | cons element elements ih =>
    refine uses_ite uses_pure (uses_seq rfl fun userInput => ?_)
    cases userInput with
    | none => exact uses_pure
    | some userInput => exact uses_ite uses_pure (ih.bind fun _ => uses_pure)

end
end SecureDebug.Example
