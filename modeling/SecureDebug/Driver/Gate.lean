import SecureDebug.Driver.Handshake
import SecureDebug.Driver.Transmit
import SecureDebug.Interaction.Steps

/-! The public operations called in any order. `EComPort_Tx` and `EComPort_Rx` are gated by a flag
that a successful `EComPort_Init` sets and nothing clears. -/

namespace SecureDebug
open Interaction Program

inductive DriverCall where
  | eComPortInit (remoteReset : ECPDRemoteResetType) (idResponseBuffer : List UInt8)
      (idBufferLength : Nat)
  | eComPortFinalize
  | eComPortPower (requiredState : ECPDRequiredState)
  | eComPortRReboot
  | eComPortTx (txBuffer : List UInt8) (actualLength : Nat) (block : Bool)
  | eComPortRx (rxBuffer : List UInt8) (rxBufferLength actualLength : Nat)
  deriving DecidableEq, Repr

def DriverCall.perform (this : ExternalComPortDriver) (fuel : Nat) :
    DriverCall → Sdm (SDMReturnCode × ExternalComPortDriver)
  | .eComPortInit remoteReset idResponseBuffer idBufferLength => do
    let out ← this.eComPortInit fuel remoteReset idResponseBuffer idBufferLength
    return (out.res, out.driver)
  | .eComPortFinalize => do
    let res ← this.eComPortFinalize fuel
    return (res, this)
  | .eComPortPower requiredState => do
    let res ← this.eComPortPower fuel requiredState
    return (res, this)
  | .eComPortRReboot => do
    let res ← this.eComPortRReboot
    return (res, this)
  | .eComPortTx txBuffer actualLength block => do
    let (res, _) ← this.eComPortTx txBuffer actualLength block
    return (res, this)
  | .eComPortRx rxBuffer rxBufferLength actualLength => do
    let out ← this.eComPortRx fuel rxBuffer rxBufferLength actualLength
    return (out.res, this)

structure Called where
  call : DriverCall
  trace : Trace
  res : Except Stop SDMReturnCode

/-- A call on the driver `this`. One that does not return leaves the driver as it is. -/
inductive Calls : ExternalComPortDriver → Called → ExternalComPortDriver → Prop
  | returned {this this' : ExternalComPortDriver} {call : DriverCall} {fuel : Nat} {l : Trace}
      {res : SDMReturnCode} : Run (call.perform this fuel) l (.ok (res, this')) →
      Calls this ⟨call, l, .ok res⟩ this'
  | stopped {this : ExternalComPortDriver} {call : DriverCall} {fuel : Nat} {l : Trace} {e : Stop} :
      Run (call.perform this fuel) l (.error e) → Calls this ⟨call, l, .error e⟩ this

namespace Called

def succeeded (c : Called) : Bool := c.res = .ok .success

def links (c : Called) : Bool := match c.call with
  | .eComPortInit _ _ _ => c.succeeded
  | _ => false

/-- Whether the link is up behind the call, if `up` says so in front of it. -/
def linkAfter (up : Bool) (c : Called) : Bool := match c.call with
  | .eComPortInit _ _ _ => c.succeeded
  | .eComPortFinalize => false
  | _ => up

def transfers (c : Called) : Bool := match c.call with
  | .eComPortTx _ _ _ => true
  | .eComPortRx _ _ _ => true
  | _ => false

/-- The call is turned away without an access. -/
def TurnedAway (c : Called) : Prop := c.trace = [] ∧ c.res = .ok .requestFailed

end Called

/-- The last `EComPort_Init` succeeded and no `EComPort_Finalize` came after it. -/
def linkUp (calls : List Called) : Bool := calls.foldl Called.linkAfter false

/-- Some `EComPort_Init` succeeded. -/
def everLinked (calls : List Called) : Bool := calls.any Called.links

/-- Whenever the link is down, a transfer is turned away. -/
def LinkGated (calls : List Called) : Prop :=
  ∀ pre c post, calls = pre ++ c :: post → c.transfers = true → linkUp pre = false → c.TurnedAway

/-! ### The flag -/

section
variable {this this' : ExternalComPortDriver} {call : DriverCall} {c : Called} {calls : List Called}
  {fuel : Nat} {l : Trace}

variable (l) in
theorem returns_perform : Returns (call.perform this fuel) fun out =>
    out.2 = if (Called.mk call l (.ok out.1)).links then { this with mIsComPortInited := true }
      else this := by
  cases call with
  | eComPortInit remoteReset idResponseBuffer idBufferLength =>
    refine ExternalComPortDriver.eComPortInit_driver.bind fun out hout => ?_
    obtain ⟨hdone, hfailed⟩ := hout
    apply returns_pure
    by_cases hres : out.res = .success
    · have hlinks : (Called.mk (.eComPortInit remoteReset idResponseBuffer idBufferLength) l
          (.ok out.res)).links = true := decide_eq_true (congrArg Except.ok hres)
      rw [if_pos hlinks]
      exact hdone hres
    · have hlinks : (Called.mk (.eComPortInit remoteReset idResponseBuffer idBufferLength) l
          (.ok out.res)).links = false := decide_eq_false fun heq => hres (Except.ok.inj heq)
      rw [hlinks]
      exact hfailed hres
  | eComPortFinalize => exact returns_true.bind fun _ _ => returns_pure rfl
  | eComPortPower requiredState => exact returns_true.bind fun _ _ => returns_pure rfl
  | eComPortRReboot => exact returns_true.bind fun _ _ => returns_pure rfl
  | eComPortTx txBuffer actualLength block => exact returns_true.bind fun _ _ => returns_pure rfl
  | eComPortRx rxBuffer rxBufferLength actualLength =>
    exact returns_true.bind fun _ _ => returns_pure rfl

theorem Calls.inited_eq (h : Calls this c this') :
    this'.mIsComPortInited = (this.mIsComPortInited || c.links) := by
  obtain ⟨call, l, r⟩ := c
  cases h with
  | returned hrun =>
    have hdriver := returns_perform l _ _ hrun
    dsimp only at hdriver
    rw [hdriver]
    split_ifs with hlinks
    · rw [hlinks, Bool.or_true]
    · rw [Bool.not_eq_true] at hlinks
      rw [hlinks, Bool.or_false]
  | stopped _ =>
    have hlinks (e : Stop) : (Called.mk call l (.error e)).links = false := by
      cases call with
      | eComPortInit =>
        show decide ((Except.error e : Except Stop SDMReturnCode) = .ok .success) = false
        apply decide_eq_false
        intro heq
        cases heq
      | _ => rfl
    rw [hlinks, Bool.or_false]

theorem inited_of_steps (h : Steps Calls this calls this') :
    this'.mIsComPortInited = (this.mIsComPortInited || everLinked calls) := by
  induction h with
  | nil s => exact (Bool.or_false _).symm
  | @cons s t u c cs hcall _ ih =>
    rw [ih, hcall.inited_eq, everLinked, everLinked, List.any_cons, Bool.or_assoc]

end

/-! ### The gate -/

namespace ExternalComPortDriver
variable {this : ExternalComPortDriver} {fuel : Nat}

theorem not_run_access {β : Type} {accesses : List SDMRegisterAccess} {f : AccessResult → Sdm β}
    {b : β} : ¬Run (this.registerAccess accesses >>= f) [] (.ok b) := by
  intro h
  cases hcb : this.mRegisterAccessCallback with
  | false =>
    obtain ⟨-, hr⟩ := (run_access_bind_of_null hcb).mp h
    cases hr
  | true =>
    obtain ⟨a, l', hl, -⟩ := (run_access_bind hcb).mp h
    cases hl

theorem run_eComSendBlock_nil {bytes : List UInt8} {block : Bool} {res : SDMReturnCode}
    (h : Run (this.eComSendBlock bytes block) [] (.ok res)) : res ≠ .requestFailed := by
  cases block with
  | true =>
    rw [eComSendBlock_true] at h
    cases bytes with
    | nil =>
      obtain ⟨-, rfl⟩ := run_pure_ok.mp h
      decide
    | cons byte bytes =>
      rw [this.eComTxRaw_eq true (List.cons_ne_nil byte bytes)] at h
      exact absurd h not_run_access
  | false =>
    cases bytes with
    | nil =>
      obtain ⟨-, rfl⟩ := run_pure_ok.mp h
      decide
    | cons byte bytes =>
      obtain ⟨code, hsend, -⟩ := run_bind_nil h
      rw [eComSendByte_eq, polledAccess, pollLoop_eq, bind_assoc] at hsend
      exact absurd hsend not_run_access

theorem ok_of_bind {α β : Type} {x : Except Stop α} {f : α → Except Stop β} {b : β}
    (h : x >>= f = .ok b) : ∃ a, x = .ok a ∧ f a = .ok b := by
  cases x with
  | error e => cases h
  | ok a => exact ⟨a, rfl, h⟩

theorem eComPortPrepareData_res {data outData : List UInt8} {outDataBufferSize : Nat}
    {frame : PrepareResult} (h : eComPortPrepareData data outData outDataBufferSize = .ok frame) :
    frame.res ≠ .requestFailed := by
  rw [eComPortPrepareData] at h
  obtain ⟨started, -, h⟩ := ok_of_bind h
  split_ifs at h with hlong
  · cases h
  · obtain ⟨stuffed, -, h⟩ := ok_of_bind h
    obtain ⟨last, -, h⟩ := ok_of_bind h
    dsimp only at h
    split_ifs at h with hsmall hbounds
    · rw [← Except.ok.inj h]
      intro hres
      cases hres
    · cases h
    · rw [← Except.ok.inj h]
      intro hres
      cases hres

theorem run_eComPortTx_nil {txBuffer : List UInt8} {actualLength : Nat} {block : Bool}
    {out : SDMReturnCode × Nat} (hinit : this.mIsComPortInited = true)
    (h : Run (this.eComPortTx txBuffer actualLength block) [] (.ok out)) :
    out.1 ≠ .requestFailed := by
  rw [eComPortTx, hinit] at h
  obtain ⟨frame, hframe, hrest⟩ := run_bind_nil h
  have hres := eComPortPrepareData_res (run_lift.mp hframe).2.symm
  by_cases hsuccess : frame.res = .success
  · rw [if_neg (not_not.mpr hsuccess)] at hrest
    obtain ⟨res, hsend, hret⟩ := run_bind_nil hrest
    obtain ⟨-, hout⟩ := run_pure.mp hret
    rw [Except.ok.inj hout]
    exact run_eComSendBlock_nil hsend
  · rw [if_pos hsuccess] at hrest
    obtain ⟨-, hout⟩ := run_pure.mp hrest
    rw [Except.ok.inj hout]
    exact hres

theorem run_eComPortRx_nil {rxBuffer : List UInt8} {rxBufferLength actualLength : Nat}
    {out : RxResult} (hinit : this.mIsComPortInited = true) :
    ¬Run (this.eComPortRx fuel rxBuffer rxBufferLength actualLength) [] (.ok out) := by
  intro h
  rw [eComPortRx, hinit] at h
  cases fuel with
  | zero =>
    obtain ⟨-, hr⟩ := run_halt.mp h
    cases hr
  | succ fuel =>
    have hloop : Run (this.rxLoop flagSTART rxBufferLength (fuel + 1)
        (rxStateOf rxBuffer actualLength {})) [] (.ok out) := h
    rw [rxLoop_eq] at hloop
    exact not_run_access hloop

end ExternalComPortDriver

section
variable {this this' : ExternalComPortDriver} {c : Called} {calls : List Called}

theorem Calls.turnedAway_iff (h : Calls this c this') (ht : c.transfers = true) :
    c.TurnedAway ↔ this.mIsComPortInited = false := by
  obtain ⟨call, l, r⟩ := c
  constructor
  · intro haway
    obtain ⟨hl, hr⟩ := haway
    dsimp only at hl hr
    rw [hl, hr] at h
    cases h with
    | returned hrun =>
      by_contra hinit
      rw [Bool.not_eq_false] at hinit
      cases call with
      | eComPortTx txBuffer actualLength block =>
        obtain ⟨out, hsend, hret⟩ := run_bind_nil hrun
        obtain ⟨-, hout⟩ := run_pure.mp hret
        exact ExternalComPortDriver.run_eComPortTx_nil hinit hsend
          (Prod.mk.inj (Except.ok.inj hout)).1.symm
      | eComPortRx rxBuffer rxBufferLength actualLength =>
        obtain ⟨out, hreceive, hret⟩ := run_bind_nil hrun
        exact ExternalComPortDriver.run_eComPortRx_nil hinit hreceive
      | _ => cases ht
  · intro hinit
    have haway {fuel : Nat} {out : Except Stop (SDMReturnCode × ExternalComPortDriver)}
        (hrun : Run (call.perform this fuel) l out) : l = [] ∧ out = .ok (.requestFailed, this) := by
      cases call with
      | eComPortTx txBuffer actualLength block =>
        rw [DriverCall.perform, ExternalComPortDriver.eComPortTx, hinit] at hrun
        exact run_pure.mp hrun
      | eComPortRx rxBuffer rxBufferLength actualLength =>
        rw [DriverCall.perform, ExternalComPortDriver.eComPortRx, hinit] at hrun
        exact run_pure.mp hrun
      | _ => cases ht
    cases h with
    | returned hrun =>
      obtain ⟨hl, hout⟩ := haway hrun
      exact ⟨hl, congrArg Except.ok (Prod.mk.inj (Except.ok.inj hout)).1⟩
    | stopped hrun =>
      obtain ⟨-, hout⟩ := haway hrun
      cases hout

theorem turnedAway_of_steps {fArch : SDMDebugArchitecture}
    {fRegisterAccess fResetStart fResetFinish : Bool} {pre post : List Called}
    (h : Steps Calls (.new fArch fRegisterAccess fResetStart fResetFinish) (pre ++ c :: post) this')
    (ht : c.transfers = true) : c.TurnedAway ↔ everLinked pre = false := by
  obtain ⟨before, hpre, hrest⟩ := steps_append.mp h
  obtain ⟨after, hcall, -⟩ := steps_cons.mp hrest
  have hflag : before.mIsComPortInited = everLinked pre := by
    rw [inited_of_steps hpre]
    exact Bool.false_or _
  rw [hcall.turnedAway_iff ht, hflag]

end

def unlinkScript : List AccessResult :=
  ExternalComPortDriver.returning flagLPH2RL ++ ExternalComPortDriver.returning flagLPH1RL

def brokenScript : List AccessResult := [⟨.ioError, 0, []⟩]

def DriverCall.on (call : DriverCall) (this : ExternalComPortDriver) (script : List AccessResult)
    (res : SDMReturnCode) : Called :=
  ⟨call, (scripted.exec (call.perform this 9) script).2.1, .ok res⟩

theorem DriverCall.calls_on {call : DriverCall} {this this' : ExternalComPortDriver}
    (script : List AccessResult) {res : SDMReturnCode}
    (h : (scripted.exec (call.perform this 9) script).1 = .ok (res, this')) :
    Calls this (call.on this script res) this' := .returned (run_of_exec script h)

def unlinked : ExternalComPortDriver := .new .armADIv5 true true true

def linked : ExternalComPortDriver := { unlinked with mIsComPortInited := true }

def linkCall : Called := DriverCall.on (.eComPortInit .none [0] 1) unlinked
  (ExternalComPortDriver.identifyScript [flagIDA, 0x50, flagEND]) .success

def unlinkCall : Called := DriverCall.on .eComPortFinalize linked unlinkScript .success

def brokenRx : Called := DriverCall.on (.eComPortRx [0] 1 0) linked brokenScript .ioError

theorem calls_linkCall : Calls unlinked linkCall linked :=
  DriverCall.calls_on _ (by decide +kernel)

theorem calls_unlinkCall : Calls linked unlinkCall linked :=
  DriverCall.calls_on unlinkScript (by decide +kernel)

theorem calls_brokenRx : Calls linked brokenRx linked :=
  DriverCall.calls_on brokenScript (by decide +kernel)

section
variable {this' : ExternalComPortDriver} {calls : List Called}

/-- `EComPort_Tx` and `EComPort_Rx` are gated by the link just in the histories that do not transfer
over a link that was set up and is down again. -/
theorem driverCalls_linkGate {fArch : SDMDebugArchitecture}
    {fRegisterAccess fResetStart fResetFinish : Bool}
    (h : Steps Calls (.new fArch fRegisterAccess fResetStart fResetFinish) calls this') :
    LinkGated calls ↔ ∀ pre c post, calls = pre ++ c :: post → c.transfers = true →
      everLinked pre = true → linkUp pre = true := by
  constructor
  · intro hgate pre c post hcalls ht hever
    by_contra hdown
    rw [Bool.not_eq_true] at hdown
    have haway := hgate pre c post hcalls ht hdown
    rw [hcalls] at h
    rw [turnedAway_of_steps h ht, hever] at haway
    cases haway
  · intro hlast pre c post hcalls ht hdown
    rw [hcalls] at h
    rw [turnedAway_of_steps h ht]
    by_contra hever
    rw [Bool.not_eq_false] at hever
    have hup := hlast pre c post hcalls ht hever
    rw [hdown] at hup
    cases hup

end

theorem driverCalls_linkGate_live : LinkGated [linkCall, brokenRx] := by
  have h : Steps Calls unlinked [linkCall, brokenRx] linked :=
    .cons calls_linkCall (.cons calls_brokenRx (.nil linked))
  apply (driverCalls_linkGate h).mpr
  intro pre c post hcalls ht hever
  cases pre with
  | nil => cases hever
  | cons first pre =>
    obtain ⟨rfl, hrest⟩ := List.cons.inj hcalls
    cases pre with
    | nil => rfl
    | cons second pre =>
      have hnil := (List.cons.inj hrest).2
      cases pre <;> cases hnil

theorem driverCalls_linkGate_finalized : ¬∀ (fArch : SDMDebugArchitecture)
    (fRegisterAccess fResetStart fResetFinish : Bool) (calls : List Called)
    (this' : ExternalComPortDriver),
    Steps Calls (.new fArch fRegisterAccess fResetStart fResetFinish) calls this' →
    LinkGated calls := by
  intro hgate
  have h : Steps Calls unlinked [linkCall, unlinkCall, brokenRx] linked :=
    .cons calls_linkCall (.cons calls_unlinkCall (.cons calls_brokenRx (.nil linked)))
  have haway := hgate _ _ _ _ _ _ h [linkCall, unlinkCall] brokenRx [] rfl rfl rfl
  have htrace := haway.1
  exact absurd htrace (by decide +kernel)

end SecureDebug
