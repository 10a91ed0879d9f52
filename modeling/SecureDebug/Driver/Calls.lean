import SecureDebug.Driver.Conduct

/-! What the driver calls: the callbacks for accesses and resets, and nothing else. -/

namespace SecureDebug
open Interaction Program

/-- Neither an access nor a reset. -/
def HostCall.isPlain : HostCall → Bool
  | registerAccess _ => false
  | resetStart => false
  | resetEnd => false
  | _ => true

namespace ExternalComPortDriver
variable {this : ExternalComPortDriver} {α β : Type}

def Touches (p : Sdm α) : Prop := Makes p fun c => c.isPlain = false

theorem touches_registerAccess (accesses : List SDMRegisterAccess) :
    Touches (this.registerAccess accesses) := makes_ite (makes_perform rfl) makes_halt

theorem touches_pollLoop (level : Status → UInt8) (left : Nat) :
    Touches (this.pollLoop level left) := by
  induction left with
  | zero =>
    rw [pollLoop_eq]
    refine (touches_registerAccess _).bind fun a => ?_
    cases pollResult level a with
    | error code => exact makes_pure
    | ok ready =>
      cases ready with
      | false => exact makes_pure
      | true => exact makes_pure
  | succ left ih =>
    rw [pollLoop_eq]
    refine (touches_registerAccess _).bind fun a => ?_
    cases pollResult level a with
    | error code => exact makes_pure
    | ok ready =>
      cases ready with
      | false => exact ih
      | true => exact makes_pure

theorem touches_polledAccess (level : Status → UInt8) (fail : SDMReturnCode → β)
    (accesses : List SDMRegisterAccess) (finish : AccessResult → β) :
    Touches (this.polledAccess level fail accesses finish) := by
  rw [polledAccess]
  refine (touches_pollLoop level maxRetries).bind fun x => ?_
  cases x with
  | error code => exact makes_pure
  | ok n => exact makes_ite makes_pure ((touches_registerAccess _).bind fun _ => makes_pure)

theorem touches_eComSendByte (byte : UInt8) : Touches (this.eComSendByte byte) := by
  rw [eComSendByte_eq]
  exact touches_polledAccess _ _ _ _

theorem touches_eComReadByte (byte : UInt8) : Touches (this.eComReadByte byte) := by
  rw [eComReadByte_eq]
  exact touches_polledAccess _ _ _ _

theorem touches_waitLoop (flag : UInt8) (fuel : Nat) (byte : UInt8) :
    Touches (this.waitLoop flag fuel byte) := by
  induction fuel generalizing byte with
  | zero => exact makes_halt
  | succ fuel ih =>
    rw [waitLoop]
    refine (touches_eComReadByte byte).bind fun read => ?_
    exact makes_ite makes_pure (makes_ite (ih read.2) makes_pure)

theorem touches_assert {bail : SDMReturnCode → β} {call : Sdm SDMReturnCode} {rest : Sdm β}
    (hcall : Touches call) (hrest : Touches rest) : Touches (psaAdacAssert bail call rest) :=
  hcall.bind fun _ => makes_ite hrest makes_pure

theorem touches_eComPortPower (fuel : Nat) (requiredState : ECPDRequiredState) :
    Touches (this.eComPortPower fuel requiredState) := by
  cases requiredState with
  | powerOff =>
    exact touches_assert (touches_eComSendByte _) <|
      touches_assert (touches_waitLoop _ fuel _) makes_pure
  | powerOn =>
    exact touches_assert (touches_eComSendByte _) <|
      touches_assert (touches_waitLoop _ fuel _) <|
      touches_assert (touches_eComSendByte _) <|
      touches_assert (touches_waitLoop _ fuel _) makes_pure

theorem touches_initResetStart {bail : SDMReturnCode → β} {rest : Sdm β}
    (remoteReset : ECPDRemoteResetType) (hrest : Touches rest) :
    Touches (this.initResetStart bail remoteReset rest) := by
  refine makes_ite ?_ hrest
  refine makes_ite ?_ makes_pure
  exact makes_ite (touches_assert (makes_perform rfl) hrest) makes_pure

theorem touches_initResetEnd {bail : SDMReturnCode → β} {rest : Sdm β}
    (remoteReset : ECPDRemoteResetType) (hrest : Touches rest) :
    Touches (this.initResetEnd bail remoteReset rest) := by
  cases remoteReset with
  | none => exact hrest
  | com =>
    exact touches_assert (touches_assert (touches_eComSendByte flagLPH2RR) makes_pure) hrest
  | system => exact touches_assert (makes_perform rfl) hrest

theorem makes_rxLoop_read (startFlag : UInt8) (rxBufferLength fuel : Nat) (s : RxState) :
    Makes (this.rxLoop startFlag rxBufferLength fuel s) (· = .registerAccess [this.readAccess]) := by
  induction fuel generalizing s with
  | zero => exact makes_halt
  | succ fuel ih =>
    rw [rxLoop_eq]
    refine Makes.bind (makes_ite (makes_perform rfl) makes_halt) fun a => ?_
    refine makes_ite makes_pure ?_
    refine makes_lift.bind fun step => ?_
    cases step with
    | done out => exact makes_pure
    | more s' => exact ih s'

theorem makes_eComPortRx_read (fuel : Nat) (rxBuffer : List UInt8)
    (rxBufferLength actualLength : Nat) :
    Makes (this.eComPortRx fuel rxBuffer rxBufferLength actualLength)
      (· = .registerAccess [this.readAccess]) :=
  makes_ite makes_pure (makes_rxLoop_read _ _ fuel _)

theorem makes_eComPortTx_writes (txBuffer : List UInt8) (actualLength : Nat) :
    Makes (this.eComPortTx txBuffer actualLength true)
      fun c => ∃ accesses, c = .registerAccess accesses ∧ this.Writes true accesses := by
  rw [eComPortTx]
  refine makes_ite makes_pure ?_
  refine makes_lift.bind fun frame => ?_
  refine makes_ite makes_pure ?_
  rw [eComSendBlock_true]
  refine Makes.bind ?_ fun _ => makes_pure
  by_cases hne : frame.outData.take frame.outSize = []
  · rw [hne]
    exact makes_pure
  · rw [eComTxRaw_eq this true hne]
    refine Makes.bind (makes_ite (makes_perform ?_) makes_halt) fun _ => makes_pure
    exact ⟨_, rfl, writes_writeAccess true hne⟩

theorem touches_eComPortInit (fuel : Nat) (remoteReset : ECPDRemoteResetType)
    (idResponseBuffer : List UInt8) (idBufferLength : Nat) :
    Touches (this.eComPortInit fuel remoteReset idResponseBuffer idBufferLength) := by
  refine touches_initResetStart remoteReset ?_
  refine touches_assert (touches_eComPortPower fuel .powerOn) ?_
  refine touches_assert (touches_eComSendByte _) ?_
  refine touches_initResetEnd remoteReset ?_
  refine touches_assert (touches_waitLoop _ fuel _) ?_
  refine touches_assert (touches_eComSendByte _) ?_
  refine Makes.bind ?_ fun rx => makes_ite makes_pure (makes_ite makes_pure makes_pure)
  intro l r hrun e he
  rw [makes_rxLoop_read _ _ _ _ l r hrun e he]
  rfl

end ExternalComPortDriver
end SecureDebug
