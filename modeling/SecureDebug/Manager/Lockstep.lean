import SecureDebug.Interaction.Related
import SecureDebug.Manager.Challenge

/-! The manager on two message buffers that agree in their first cells. As long as what is
received covers what is interpreted, the two runs make the same calls and return the same. -/

namespace SecureDebug
open Interaction Program Framing

section
variable {buffer buffer' bytes : List UInt8} {n offset size : Nat}

theorem alike_store (h : Agree n buffer buffer') (index : Nat) (byte : UInt8) :
    Alike (Agree n) (store buffer index byte) (store buffer' index byte) := by
  unfold store
  rw [← h.length_eq]
  split_ifs
  · exact .ok (h.set index byte)
  · exact .error _

theorem alike_poke (h : Agree n buffer buffer') (hn : offset ≤ n) :
    Alike (Agree (offset + bytes.length)) (poke buffer offset bytes) (poke buffer' offset bytes) := by
  unfold poke
  rw [← h.length_eq]
  split_ifs with hfits
  · exact .ok (h.write hn hfits)
  · exact .error _

theorem peek_eq_of_agree (h : Agree n buffer buffer') (hin : offset + size ≤ n) :
    peek buffer offset size = peek buffer' offset size := by
  unfold peek
  rw [h.length_eq, h.slice hin]

theorem packetStatus_eq_of_agree (h : Agree n buffer buffer') (hn : 4 ≤ n) :
    packetStatus buffer = packetStatus buffer' := by
  rw [packetStatus, packetStatus, h.slice hn]

theorem packetDataCount_eq_of_agree (h : Agree n buffer buffer') (hn : 8 ≤ n) :
    packetDataCount buffer = packetDataCount buffer' := by
  rw [packetDataCount, packetDataCount, h.slice hn]

theorem leNat_leBytes_le (size n : Nat) : leNat (leBytes size n) ≤ n := by
  induction size generalizing n with
  | zero => exact Nat.zero_le n
  | succ size ih =>
    have hrest := ih (n / 256)
    have hlow : (UInt8.ofNat n).toNat = n % 256 := UInt8.toNat_ofNat
    rw [leBytes, leNat, hlow]
    omega

end

/-! ### Receiving -/

inductive SameStep (n : Nat) : RxStep → RxStep → Prop
  | more (s : RxState) {buffer : List UInt8} : Agree n s.rxBuffer buffer →
      SameStep n (.more s) (.more { s with rxBuffer := buffer })
  | done (out : RxResult) {buffer : List UInt8} : Agree n out.rxBuffer buffer →
      SameStep n (.done out) (.done { out with rxBuffer := buffer })

def SameRx (n : Nat) (out out' : RxResult) : Prop :=
  out.res = out'.res ∧ Agree n out.rxBuffer out'.rxBuffer

theorem alike_rxStep {n rxBufferLength : Nat} {startFlag : UInt8} {s : RxState}
    {buffer : List UInt8} (h : Agree n s.rxBuffer buffer) (byte : UInt8) :
    Alike (SameStep n) (rxStep startFlag rxBufferLength s byte)
      (rxStep startFlag rxBufferLength { s with rxBuffer := buffer } byte) := by
  unfold rxStep
  by_cases hend : byte = flagEND
  · rw [if_pos hend, if_pos hend]
    exact .ok (.done _ h)
  rw [if_neg hend, if_neg hend]
  by_cases hnull : byte = flagNULL
  · rw [if_pos hnull, if_pos hnull]
    obtain ⟨preNullFlags, bufferIdx, isStartRecv, isEscRecv, rxBuffer, actualLength⟩ := s
    dsimp only
    split_ifs
    all_goals first
      | exact .ok (.done _ h)
      | exact .ok (.more ⟨_, _, _, _, rxBuffer, _⟩ h)
  rw [if_neg hnull, if_neg hnull]
  by_cases hesc : byte = flagESC
  · rw [if_pos hesc, if_pos hesc]
    exact .ok (.more _ h)
  rw [if_neg hesc, if_neg hesc]
  by_cases hstart : byte = startFlag
  · rw [if_pos hstart, if_pos hstart]
    exact .ok (.more _ h)
  rw [if_neg hstart, if_neg hstart]
  dsimp only
  by_cases hfull : s.bufferIdx ≥ rxBufferLength
  · rw [if_pos hfull, if_pos hfull]
    exact .ok (.done _ h)
  rw [if_neg hfull, if_neg hfull]
  have hstore := alike_store h s.bufferIdx (if s.isEscRecv = true then byte ||| 0x80 else byte)
  generalize store s.rxBuffer s.bufferIdx _ = x, store buffer s.bufferIdx _ = y at hstore ⊢
  cases hstore with
  | ok hstored => exact .ok (.more ⟨_, _, _, _, _, _⟩ hstored)
  | error e => exact .error e

namespace ExternalComPortDriver
variable {this : ExternalComPortDriver} {n fuel rxBufferLength : Nat} {startFlag : UInt8}

theorem related_rxLoop {s : RxState} {buffer : List UInt8} (h : Agree n s.rxBuffer buffer) :
    Related (SameRx n) (this.rxLoop startFlag rxBufferLength fuel s)
      (this.rxLoop startFlag rxBufferLength fuel { s with rxBuffer := buffer }) := by
  induction fuel generalizing s buffer with
  | zero => exact .halt _
  | succ fuel ih =>
    rw [rxLoop_eq, rxLoop_eq]
    apply Related.bind_refl
    intro a
    apply related_ite
    · intro _
      exact related_pure ⟨rfl, h⟩
    · intro _
      apply (related_lift (alike_rxStep h _)).bind
      intro step step' hstep
      cases hstep with
      | more s hs => exact ih hs
      | done out hout => exact related_pure ⟨rfl, hout⟩

theorem related_eComPortRx {rxBuffer rxBuffer' : List UInt8} {actualLength : Nat}
    (h : Agree n rxBuffer rxBuffer') :
    Related (SameRx n) (this.eComPortRx fuel rxBuffer rxBufferLength actualLength)
      (this.eComPortRx fuel rxBuffer' rxBufferLength actualLength) := by
  unfold eComPortRx
  apply related_ite
  · intro _
    exact related_pure ⟨rfl, h⟩
  · intro _
    exact related_rxLoop (s := ⟨0, 0, false, false, rxBuffer, actualLength⟩) h

end ExternalComPortDriver

namespace SecureDebugManagerImpl
variable {this this' : SecureDebugManagerImpl} {psa : PsaAdac} {fuel n : Nat}

/-! ### Two objects in lockstep -/

/-- Two objects that differ at most in what their buffers hold from cell `n` on. -/
structure Matches (n : Nat) (this this' : SecureDebugManagerImpl) : Prop where
  params : this.mSdmOpenParams = this'.mSdmOpenParams
  driver : this.mExtComPortDriver = this'.mExtComPortDriver
  isOpen : this.mOpen = this'.mOpen
  buffer : Agree n this.mMsgBuffer this'.mMsgBuffer

theorem Matches.mono {k : Nat} (h : Matches n this this') (hk : k ≤ n) : Matches k this this' :=
  ⟨h.params, h.driver, h.isOpen, h.buffer.mono hk⟩

theorem Matches.store {k : Nat} {buffer buffer' : List UInt8} (h : Matches n this this')
    (hb : Agree k buffer buffer') :
    Matches k { this with mMsgBuffer := buffer } { this' with mMsgBuffer := buffer' } :=
  ⟨h.params, h.driver, h.isOpen, hb⟩

theorem Matches.updateProgress_eq (h : Matches n this this') (progressMessage : String)
    (percentComplete : UInt8) : this.updateProgress progressMessage percentComplete =
      this'.updateProgress progressMessage percentComplete := by
  rw [updateProgress, updateProgress, h.params]

def SameResult (n : Nat) (out out' : SDMReturnCode × SecureDebugManagerImpl) : Prop :=
  out.1 = out'.1 ∧ Matches n out.2 out'.2

theorem related_responsePacketReceive {packet packet' : List UInt8} {max : Nat}
    (h : Matches n this this') (hp : Agree n packet packet') :
    Related (fun out out' => out.1 = out'.1 ∧ Agree n out.2 out'.2)
      (this.responsePacketReceive fuel packet max) (this'.responsePacketReceive fuel packet' max) := by
  unfold responsePacketReceive
  rw [← h.driver]
  apply related_ite
  · intro _
    exact related_pure ⟨rfl, hp⟩
  · intro _
    apply Related.bind_refl
    intro driver
    apply (driver.related_eComPortRx hp).bind
    intro rx rx' hrx
    exact related_pure hrx

theorem requestPacketSend_eq_of_matches {packet packet' : List UInt8} (h : Matches n this this')
    (hp : Agree n packet packet') (hn : 8 ≤ n)
    (hsize : sizeofPacket + 4 * packetDataCount packet ≤ n) :
    this.requestPacketSend packet = this'.requestPacketSend packet' := by
  have hcount := packetDataCount_eq_of_agree hp hn
  have hpeek : peek packet 0 (sizeofPacket + 4 * packetDataCount packet) =
      peek packet' 0 (sizeofPacket + 4 * packetDataCount packet) :=
    peek_eq_of_agree hp (by rwa [Nat.zero_add])
  rw [requestPacketSend, requestPacketSend, ← h.driver, ← hcount, hpeek]

/-- A request built on matching buffers is the same one: it is written over from its command
on, and no more than what was written is sent. -/
theorem related_sendAuthResponseCmdRequest {cert : List UInt8} (h : Matches 8 this this') :
    Related (SameResult 8) (this.sendAuthResponseCmdRequest psa cert)
      (this'.sendAuthResponseCmdRequest psa cert) := by
  unfold sendAuthResponseCmdRequest
  apply (related_lift (alike_poke h.buffer (show 2 ≤ 8 by decide))).bind
  intro b₁ b₁' h₁
  rw [length_leBytes] at h₁
  apply (related_lift (alike_poke h₁ (Nat.le_refl 4)).returned).bind
  rintro b₂ b₂' ⟨h₂, hb₂, -⟩
  rw [length_leBytes] at h₂
  apply (related_lift (alike_poke h₂ (Nat.le_refl 8)).returned).bind
  rintro b₃ b₃' ⟨h₃, hb₃, -⟩
  have hmatch := h.store h₃
  have hcount : packetDataCount b₃ ≤ cert.length / 4 := by
    have hslice : (b₂.drop 4).take 4 = leBytes 4 (cert.length / 4) := slice_of_poke hb₂
    rw [packetDataCount, slice_of_poke_of_le hb₃ (show 4 + 4 ≤ sizeofPacket by decide), hslice]
    exact leNat_leBytes_le 4 (cert.length / 4)
  have hsize : sizeofPacket + 4 * packetDataCount b₃ ≤ sizeofPacket + cert.length := by omega
  have hsend := requestPacketSend_eq_of_matches hmatch h₃ (Nat.le_add_right _ _) hsize
  dsimp only
  rw [hsend]
  apply Related.bind_refl
  intro res
  exact related_pure ⟨rfl, hmatch.mono (Nat.le_add_right _ _)⟩

theorem related_receiveAuthResponseCmdResponse (h : Matches 8 this this') :
    Related (SameResult 8) (this.receiveAuthResponseCmdResponse psa fuel)
      (this'.receiveAuthResponseCmdResponse psa fuel) := by
  unfold receiveAuthResponseCmdResponse
  rw [h.buffer.length_eq]
  apply (related_responsePacketReceive h h.buffer).bind
  rintro ⟨res, response⟩ ⟨res', response'⟩ ⟨rfl, hresponse⟩
  have hstatus := packetStatus_eq_of_agree hresponse (by decide)
  dsimp only
  rw [← hstatus]
  apply related_ite
  · intro _
    exact related_pure ⟨rfl, h.store hresponse⟩
  · intro _
    apply related_ite
    · intro _
      exact related_pure ⟨rfl, h.store hresponse⟩
    · intro _
      exact related_pure ⟨rfl, h.store hresponse⟩

theorem related_exchange {cert : List UInt8}
    (rest : SecureDebugManagerImpl → Sdm (SDMReturnCode × SecureDebugManagerImpl))
    (h : Matches 8 this this')
    (hrest : ∀ this₁ this₁', Matches 8 this₁ this₁' →
      Related (SameResult 8) (rest this₁) (rest this₁')) :
    Related (SameResult 8)
      (do
        let (res, this) ← this.sendAuthResponseCmdRequest psa cert
        if res ≠ .success then return (.internalError, this)
        let (res, this) ← this.receiveAuthResponseCmdResponse psa fuel
        if res ≠ .success then return (.internalError, this)
        rest this)
      (do
        let (res, this) ← this'.sendAuthResponseCmdRequest psa cert
        if res ≠ .success then return (.internalError, this)
        let (res, this) ← this.receiveAuthResponseCmdResponse psa fuel
        if res ≠ .success then return (.internalError, this)
        rest this) := by
  apply (related_sendAuthResponseCmdRequest h).bind
  rintro ⟨sent, this₁⟩ ⟨sent', this₁'⟩ ⟨rfl, h₁⟩
  apply related_ite
  · intro _
    exact related_pure ⟨rfl, h₁⟩
  · intro _
    apply (related_receiveAuthResponseCmdResponse h₁).bind
    rintro ⟨received, this₂⟩ ⟨received', this₂'⟩ ⟨rfl, h₂⟩
    apply related_ite
    · intro _
      exact related_pure ⟨rfl, h₂⟩
    · intro _
      exact hrest this₂ this₂' h₂

theorem related_sendCertificates {exts : List PsaTlv} (h : Matches 8 this this') :
    Related (SameResult 8) (sendCertificates psa fuel exts this)
      (sendCertificates psa fuel exts this') := by
  induction exts generalizing this this' with
  | nil => exact related_pure ⟨rfl, h⟩
  | cons ext exts ih =>
    unfold sendCertificates
    apply related_ite
    · intro _
      apply related_exchange (sendCertificates psa fuel exts) h
      intro _ _ h₁
      exact ih h₁
    · intro _
      exact ih h

theorem related_respond {exts : List PsaTlv} {token : List UInt8} (h : Matches 8 this this') :
    Related (SameResult 8) (respond psa fuel exts token this) (respond psa fuel exts token this') := by
  unfold respond
  rw [h.updateProgress_eq]
  apply Related.bind_refl
  intro _
  apply (related_sendCertificates h).bind
  rintro ⟨certified, this₁⟩ ⟨certified', this₁'⟩ ⟨rfl, h₁⟩
  refine related_ite (fun _ => related_pure ⟨rfl, h₁⟩) fun _ => ?_
  dsimp only
  rw [h₁.updateProgress_eq]
  apply Related.bind_refl
  intro _
  apply related_exchange (fun this => do
    this.updateProgress "Finished authentication" 100
    return (.success, this)) h₁
  intro this₂ this₂' h₂
  rw [h₂.updateProgress_eq]
  exact .bind_refl _ fun _ => related_pure ⟨rfl, h₂⟩

theorem related_signAndRespond {credentials : Credentials} {challenge challenge' : List UInt8}
    (h : Matches 8 this this')
    (hc : (challenge.drop psa.offsetChallengeVector).take psa.sizeofChallengeVector =
      (challenge'.drop psa.offsetChallengeVector).take psa.sizeofChallengeVector) :
    Related (SameResult 8) (signAndRespond psa fuel credentials challenge this)
      (signAndRespond psa fuel credentials challenge' this') := by
  rw [signAndRespond_eq, signAndRespond_eq, h.updateProgress_eq, h.updateProgress_eq, hc]
  refine .bind_refl _ fun _ => .bind_refl _ fun signed => ?_
  refine related_ite (fun _ => related_pure ⟨rfl, h⟩) fun _ => ?_
  refine .bind_refl _ fun _ => .bind_refl _ fun split => ?_
  exact related_ite (fun _ => related_pure ⟨rfl, h⟩) fun _ => related_respond h

theorem related_awaitChallenge (psa : PsaAdac) (fuel : Nat) (h : Matches n this this') :
    Related (fun out out' => out.1 = out'.1 ∧ out.2.1 = out'.2.1 ∧ Agree n out.2.2 out'.2.2)
      (this.awaitChallenge psa fuel) (this'.awaitChallenge psa fuel) := by
  have hrequest : this.requestChallenge psa = this'.requestChallenge psa := by
    unfold requestChallenge loadCredentials sendAuthStartCmdRequest requestPacketSend
    simp only [h.updateProgress_eq, h.params, h.driver]
  unfold awaitChallenge
  rw [hrequest, h.buffer.length_eq]
  apply Related.bind_refl
  rintro ⟨sent, credentials⟩
  refine related_ite (fun _ => related_pure ⟨rfl, rfl, h.buffer⟩) fun _ => ?_
  apply (related_responsePacketReceive h h.buffer).bind
  rintro ⟨received, response⟩ ⟨received', response'⟩ ⟨rfl, hresponse⟩
  exact related_pure ⟨rfl, rfl, hresponse⟩

/-- An answer that reaches to the end of the challenge vector leaves nothing else to read. -/
theorem related_takeChallenge (psa : PsaAdac) (fuel : Nat) (res : SDMReturnCode)
    (credentials : Credentials) (h : Matches n this this')
    (hn : sizeofPacket + psa.offsetChallengeVector + psa.sizeofChallengeVector ≤ n) :
    Related (SameResult 8) (takeChallenge psa fuel res credentials this)
      (takeChallenge psa fuel res credentials this') := by
  have hpacket : sizeofPacket = 8 := rfl
  have h8 : Matches 8 this this' := h.mono (by omega)
  have hcount := packetDataCount_eq_of_agree h8.buffer (Nat.le_refl 8)
  unfold takeChallenge
  rw [hcount]
  refine related_ite (fun _ => related_pure ⟨rfl, h8⟩) fun _ => ?_
  refine related_ite (fun _ => related_pure ⟨rfl, h8⟩) fun _ => ?_
  have hvector : Alike (fun challenge challenge' =>
      (challenge.drop psa.offsetChallengeVector).take psa.sizeofChallengeVector =
        (challenge'.drop psa.offsetChallengeVector).take psa.sizeofChallengeVector)
      (peek this.mMsgBuffer sizeofPacket psa.sizeofPsaAuthChallenge)
      (peek this'.mMsgBuffer sizeofPacket psa.sizeofPsaAuthChallenge) := by
    have hin := psa.vector_le
    unfold peek
    rw [← h.buffer.length_eq]
    split_ifs
    · refine .ok ?_
      rw [List.drop_take, List.drop_take, List.take_take, List.take_take, List.drop_drop,
        List.drop_drop, Nat.min_eq_left (by omega)]
      exact h.buffer.slice hn
    · exact .error _
  apply (related_lift hvector).bind
  intro challenge challenge' hc
  exact related_signAndRespond h8 hc

end SecureDebugManagerImpl
end SecureDebug
