import SecureDebug.Driver.Handshake
import SecureDebug.Manager.Defs

/-! What a member function leaves alone. Between opening and closing only the content of the
message buffer changes, and an object is open exactly when its driver came up and the
protocol matched. -/

namespace SecureDebug
open Interaction Program

theorem length_of_store {buffer buffer' : List UInt8} {index : Nat} {byte : UInt8}
    (h : store buffer index byte = .ok buffer') : buffer'.length = buffer.length := by
  unfold store at h
  split_ifs at h
  cases h
  exact List.length_set

theorem length_of_poke {buffer buffer' bytes : List UInt8} {offset : Nat}
    (h : poke buffer offset bytes = .ok buffer') : buffer'.length = buffer.length := by
  unfold poke at h
  split_ifs at h with hle
  cases h
  simp only [List.length_append, List.length_take, List.length_drop]
  omega

theorem length_leBytes (size n : Nat) : (leBytes size n).length = size := by
  induction size generalizing n with
  | zero => rfl
  | succ size ih => rw [leBytes, List.length_cons, ih]

theorem slice_of_poke {buffer buffer' bytes : List UInt8} {offset : Nat}
    (h : poke buffer offset bytes = .ok buffer') :
    (buffer'.drop offset).take bytes.length = bytes := by
  unfold poke at h
  split_ifs at h with hle
  cases h
  have hlen : (buffer.take offset).length = offset := by
    rw [List.length_take]
    omega
  rw [List.append_assoc, List.drop_left' hlen, List.take_left' rfl]

theorem slice_of_poke_of_le {buffer buffer' bytes : List UInt8} {offset i n : Nat}
    (h : poke buffer offset bytes = .ok buffer') (hin : i + n ≤ offset) :
    (buffer'.drop i).take n = (buffer.drop i).take n := by
  unfold poke at h
  split_ifs at h with hle
  cases h
  rw [List.take_drop, List.take_drop, List.append_assoc, List.take_append_of_le_length,
    List.take_take, Nat.min_eq_left hin]
  rw [List.length_take]
  omega

theorem length_of_peek {buffer bytes : List UInt8} {offset size : Nat}
    (h : peek buffer offset size = .ok bytes) : bytes.length ≤ buffer.length := by
  unfold peek at h
  split_ifs at h
  cases h
  rw [List.length_take, List.length_drop]
  omega

def RxStep.memory : RxStep → List UInt8
  | .more s => s.rxBuffer
  | .done out => out.rxBuffer

theorem length_memory {startFlag : UInt8} {rxBufferLength : Nat} {s : RxState} {byte : UInt8}
    {step : RxStep} (h : rxStep startFlag rxBufferLength s byte = .ok step) :
    step.memory.length = s.rxBuffer.length := by
  unfold rxStep at h
  dsimp only at h
  split_ifs at h
  all_goals first
    | (cases h; rfl)
    | (cases hb : store s.rxBuffer s.bufferIdx _ with
        | error e => rw [hb] at h; cases h
        | ok rxBuffer => rw [hb] at h; cases h; exact length_of_store hb)

namespace ExternalComPortDriver
variable {this : ExternalComPortDriver} {startFlag : UInt8} {rxBufferLength fuel : Nat}

theorem returns_rxLoop {s : RxState} : Returns (this.rxLoop startFlag rxBufferLength fuel s)
    fun out => out.rxBuffer.length = s.rxBuffer.length := by
  induction fuel generalizing s with
  | zero => exact returns_halt
  | succ fuel ih =>
    rw [rxLoop_eq]
    refine returns_true.bind fun a _ => ?_
    split_ifs with hres
    · exact returns_pure rfl
    refine (returns_lift fun step hstep => length_memory hstep).bind fun step hlen => ?_
    cases step with
    | done out => exact returns_pure hlen
    | more s' => exact ih.mono fun out hout => hout.trans hlen

theorem returns_eComPortRx {rxBuffer : List UInt8} {actualLength : Nat} :
    Returns (this.eComPortRx fuel rxBuffer rxBufferLength actualLength)
      fun out => out.rxBuffer.length = rxBuffer.length := by
  unfold eComPortRx
  split_ifs
  · exact returns_pure rfl
  · exact returns_rxLoop

theorem returns_eComPortInit {remoteReset : ECPDRemoteResetType} {idResponseBuffer : List UInt8}
    {idBufferLength : Nat} :
    Returns (this.eComPortInit fuel remoteReset idResponseBuffer idBufferLength)
      fun out => out.idResponseBuffer.length = idResponseBuffer.length := by
  refine returns_initResetStart remoteReset (fun _ _ => rfl) <| returns_assert (fun _ _ => rfl) <|
    returns_assert (fun _ _ => rfl) <| returns_initResetEnd remoteReset (fun _ _ => rfl) <|
    returns_assert (fun _ _ => rfl) <| returns_assert (fun _ _ => rfl) ?_
  refine returns_rxLoop.bind fun rx hrx => ?_
  exact returns_ite (fun _ => returns_pure hrx) fun _ =>
    returns_ite (fun _ => returns_pure hrx) fun _ => returns_pure hrx

end ExternalComPortDriver

namespace SecureDebugManagerImpl
variable {this : SecureDebugManagerImpl} {psa : PsaAdac} {fuel : Nat}

/-- Only the content of the message buffer may differ. -/
structure Keeps (this this' : SecureDebugManagerImpl) : Prop where
  params : this'.mSdmOpenParams = this.mSdmOpenParams
  driver : this'.mExtComPortDriver = this.mExtComPortDriver
  isOpen : this'.mOpen = this.mOpen
  size : this'.mMsgBuffer.length = this.mMsgBuffer.length

theorem Keeps.refl : this.Keeps this := ⟨rfl, rfl, rfl, rfl⟩

theorem Keeps.trans {this' this'' : SecureDebugManagerImpl} (h : this.Keeps this')
    (h' : this'.Keeps this'') : this.Keeps this'' :=
  ⟨h'.params.trans h.params, h'.driver.trans h.driver, h'.isOpen.trans h.isOpen,
    h'.size.trans h.size⟩

theorem keeps_buffer {buffer : List UInt8} (h : buffer.length = this.mMsgBuffer.length) :
    this.Keeps { this with mMsgBuffer := buffer } := ⟨rfl, rfl, rfl, h⟩

theorem returns_responsePacketReceive {packet : List UInt8} {max : Nat} :
    Returns (this.responsePacketReceive fuel packet max) fun out => out.2.length = packet.length := by
  unfold responsePacketReceive
  split_ifs
  · exact returns_pure rfl
  · refine returns_true.bind fun driver _ => ?_
    exact driver.returns_eComPortRx.bind fun rx hrx => returns_pure hrx

theorem returns_receiveAuthStartCmdResponse :
    Returns (this.receiveAuthStartCmdResponse psa fuel) fun out => this.Keeps out.2.2 := by
  unfold receiveAuthStartCmdResponse
  refine returns_responsePacketReceive.bind fun out hout => ?_
  have hkeeps := keeps_buffer hout
  dsimp only
  split_ifs
  · exact returns_pure hkeeps
  · exact returns_pure hkeeps
  · exact returns_true.bind fun challenge _ => returns_pure hkeeps

theorem returns_sendAuthResponseCmdRequest {cert : List UInt8} :
    Returns (this.sendAuthResponseCmdRequest psa cert) fun out => this.Keeps out.2 := by
  unfold sendAuthResponseCmdRequest
  refine (returns_lift fun _ => length_of_poke).bind fun b₁ h₁ => ?_
  refine (returns_lift fun _ => length_of_poke).bind fun b₂ h₂ => ?_
  refine (returns_lift fun _ => length_of_poke).bind fun b₃ h₃ => ?_
  exact returns_true.bind fun res _ => returns_pure (keeps_buffer (h₃.trans (h₂.trans h₁)))

theorem returns_receiveAuthResponseCmdResponse :
    Returns (this.receiveAuthResponseCmdResponse psa fuel) fun out => this.Keeps out.2 := by
  unfold receiveAuthResponseCmdResponse
  refine returns_responsePacketReceive.bind fun out hout => ?_
  have hkeeps := keeps_buffer hout
  dsimp only
  split_ifs
  · exact returns_pure hkeeps
  · exact returns_pure hkeeps
  · exact returns_pure hkeeps

theorem returns_sendCertificates {exts : List PsaTlv} :
    Returns (sendCertificates psa fuel exts this) fun out => this.Keeps out.2 := by
  induction exts generalizing this with
  | nil => exact returns_pure .refl
  | cons ext exts ih =>
    unfold sendCertificates
    split_ifs
    · refine returns_sendAuthResponseCmdRequest.bind fun out₁ h₁ => ?_
      dsimp only
      refine returns_ite (fun _ => returns_pure h₁) fun _ => ?_
      refine returns_receiveAuthResponseCmdResponse.bind fun out₂ h₂ => ?_
      split_ifs
      · exact returns_pure (h₁.trans h₂)
      · exact ih.mono fun out hout => (h₁.trans h₂).trans hout
    · exact ih

theorem returns_sdmAuthenticate :
    Returns (this.sdmAuthenticate psa fuel) fun out => this.Keeps out.2 := by
  unfold sdmAuthenticate
  refine returns_ite (fun _ => returns_pure .refl) fun _ => ?_
  refine returns_true.bind fun _ _ => returns_true.bind fun credentials _ => ?_
  dsimp only
  refine returns_ite (fun _ => returns_pure .refl) fun _ => ?_
  refine returns_true.bind fun _ _ => returns_true.bind fun res _ => ?_
  refine returns_ite (fun _ => returns_pure .refl) fun _ => ?_
  refine returns_true.bind fun _ _ => returns_receiveAuthStartCmdResponse.bind fun start h => ?_
  refine returns_ite (fun _ => returns_pure h) fun _ => ?_
  refine returns_true.bind fun _ _ => returns_true.bind fun signed _ => ?_
  refine returns_ite (fun _ => returns_pure h) fun _ => ?_
  refine returns_true.bind fun _ _ => returns_true.bind fun split _ => ?_
  refine returns_ite (fun _ => returns_pure h) fun _ => ?_
  refine returns_true.bind fun _ _ => returns_sendCertificates.bind fun certs h₁ => ?_
  have h₁' := h.trans h₁
  refine returns_ite (fun _ => returns_pure h₁') fun _ => ?_
  refine returns_true.bind fun _ _ => returns_sendAuthResponseCmdRequest.bind fun sent h₂ => ?_
  have h₂' := h₁'.trans h₂
  refine returns_ite (fun _ => returns_pure h₂') fun _ => ?_
  refine returns_receiveAuthResponseCmdResponse.bind fun received h₃ => ?_
  have h₃' := h₂'.trans h₃
  split_ifs
  · exact returns_pure h₃'
  · exact returns_true.bind fun _ _ => returns_pure h₃'

/-- An open object with the driver it talks through. -/
structure IsOpen (this : SecureDebugManagerImpl) (driver : ExternalComPortDriver) : Prop where
  isOpen : this.mOpen = true
  attached : this.mExtComPortDriver = some driver
  inited : driver.mIsComPortInited = true
  size : this.mMsgBuffer.length = bufferSize

theorem Keeps.isOpen_of {this' : SecureDebugManagerImpl} {driver : ExternalComPortDriver}
    (h : this.Keeps this') (ho : this.IsOpen driver) : this'.IsOpen driver :=
  ⟨h.isOpen.trans ho.isOpen, h.driver.trans ho.attached, ho.inited, h.size.trans ho.size⟩

theorem returns_sdmOpen {params : Option SDMOpenParameters} :
    Returns (new.sdmOpen fuel params) fun out => out.1 = .success → ∃ driver, out.2.IsOpen driver := by
  unfold sdmOpen
  rw [if_neg (show ¬new.mOpen = true from Bool.false_ne_true)]
  cases params with
  | none => exact returns_pure fun h => nomatch h
  | some params =>
    refine returns_true.bind fun callbacks _ => returns_true.bind fun adacRes _ => ?_
    refine returns_ite (fun _ => returns_pure fun h => nomatch h) fun _ => ?_
    refine returns_true.bind fun idResBuff _ => ?_
    refine ExternalComPortDriver.eComPortInit_driver.bind fun out hout => ?_
    dsimp only
    split_ifs with hres hprotocol
    · exact returns_pure fun h => absurd h hres
    · exact returns_pure fun h => absurd h hprotocol
    · refine returns_pure fun _ => ⟨out.driver, rfl, rfl, ?_, List.length_replicate⟩
      rw [hout.1 (not_not.mp hres)]

end SecureDebugManagerImpl
end SecureDebug
