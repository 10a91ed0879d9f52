import SecureDebug.Manager.Packets

/-! What of a certificate its request carries. The length of the certificate is a number of bytes where
it is copied into the buffer, and a number of words where the packet is sent. -/

namespace SecureDebug
open Interaction Program Framing

/-- Behind its two reserved bytes the packet holds the header of an `AUTH_RESPONSE` and the
certificate, padded to a word. -/
def CarriesWhole (psa : PsaAdac) (cert packet : List UInt8) : Prop :=
  ∃ pad : List UInt8, pad.length < 4 ∧ 4 ∣ (cert ++ pad).length ∧ packet.drop 2 =
    leBytes 2 psa.adacAuthResponseCmd ++ leBytes 4 ((cert ++ pad).length / 4) ++ (cert ++ pad)

section
variable {psa : PsaAdac} {buffer bytes cert packet packet' : List UInt8} {offset : Nat}

theorem exists_poke (h : offset + bytes.length ≤ buffer.length) :
    ∃ buffer', poke buffer offset bytes = .ok buffer' := ⟨_, if_pos h⟩

theorem sentPacket_injective : Function.Injective sentPacket := by
  intro packet packet' h
  have hwrote : Function.Injective (Observation.wrote · true) := by
    intro byte byte' heq
    cases heq
    rfl
  exact (sdc600_lawful (.inl rfl)).frame_injective (List.map_injective_iff.mpr hwrote h)

theorem sentPacket_ne_nil (packet : List UInt8) : sentPacket packet ≠ [] := List.cons_ne_nil _ _

theorem length_content (psa : PsaAdac) (cert : List UInt8) :
    ((Exchange.response cert).content psa).length = 6 + 4 * (cert.length / 4) := by
  rw [Exchange.content, List.length_append, List.length_append, length_leBytes, length_leBytes,
    List.length_take, Nat.min_eq_left (Nat.mul_div_le cert.length 4)]

/-- A packet with the whole words of the certificate holds all of it just if these are all. -/
theorem carriesWhole_iff (hpacket : packet.drop 2 = (Exchange.response cert).content psa) :
    CarriesWhole psa cert packet ↔ 4 ∣ cert.length := by
  constructor
  · intro h
    obtain ⟨pad, -, hwords, hwhole⟩ := h
    -- the packet is too short for a certificate of a broken number of words
    have hlen := congrArg List.length (hpacket.symm.trans hwhole)
    rw [length_content, List.length_append, List.length_append, length_leBytes, length_leBytes] at hlen
    have hcert : cert.length = 4 * (cert.length / 4) := by
      rw [List.length_append] at hlen
      have hle := Nat.mul_div_le cert.length 4
      omega
    exact ⟨_, hcert⟩
  · intro h
    refine ⟨[], by decide, ?_, ?_⟩
    · rwa [List.append_nil]
    · rw [hpacket, List.append_nil, Exchange.content, Nat.mul_div_cancel' h, List.take_length]

end

namespace SecureDebugManagerImpl
open ExternalComPortDriver (writeResult writeResult_eq_success run_access_bind
  run_access_bind_of_null)
variable {this : SecureDebugManagerImpl} {driver : ExternalComPortDriver} {psa : PsaAdac}
  {cert : List UInt8} {l : Trace}

variable (psa) in
/-- The header is written first, which always fits; then the certificate is copied. -/
theorem sendAuthResponseCmdRequest_eq_copy (cert : List UInt8) (ho : this.IsOpen driver) :
    ∃ commanded counted,
      poke this.mMsgBuffer 2 (leBytes 2 psa.adacAuthResponseCmd) = .ok commanded ∧
      poke commanded 4 (leBytes 4 (cert.length / 4)) = .ok counted ∧ counted.length = bufferSize ∧
      this.sendAuthResponseCmdRequest psa cert =
        lift (poke counted sizeofPacket cert) >>= fun request =>
          { this with mMsgBuffer := request }.requestPacketSend request >>= fun res =>
            pure (res, { this with mMsgBuffer := request }) := by
  obtain ⟨commanded, h₁⟩ : ∃ buffer,
      poke this.mMsgBuffer 2 (leBytes 2 psa.adacAuthResponseCmd) = .ok buffer := by
    apply exists_poke
    rw [length_leBytes, ho.size]
    decide
  obtain ⟨counted, h₂⟩ : ∃ buffer, poke commanded 4 (leBytes 4 (cert.length / 4)) = .ok buffer := by
    apply exists_poke
    rw [length_leBytes, length_of_poke h₁, ho.size]
    decide
  have hsize : counted.length = bufferSize := by
    rw [length_of_poke h₂, length_of_poke h₁, ho.size]
  refine ⟨commanded, counted, h₁, h₂, hsize, ?_⟩
  rw [sendAuthResponseCmdRequest, h₁]
  show (lift (poke commanded 4 _) >>= _) = _
  rw [h₂]
  rfl

variable (psa) in
/-- A certificate that fits is sent in one access, which holds its whole words. -/
theorem sendAuthResponseCmdRequest_eq (ho : this.IsOpen driver)
    (hfits : sizeofPacket + cert.length ≤ bufferSize) :
    ∃ packet this', packet.drop 2 = (Exchange.response cert).content psa ∧
      this.sendAuthResponseCmdRequest psa cert = driver.registerAccess
        (((sdc600 flagSTART).frame packet).map (driver.writeAccess true)) >>= fun a =>
          pure (writeResult ((sdc600 flagSTART).frame packet).length a, this') := by
  have hmax : bufferSize = 4096 := rfl
  obtain ⟨commanded, counted, h₁, h₂, hcounted, heq⟩ := sendAuthResponseCmdRequest_eq_copy psa cert ho
  obtain ⟨request, h₃⟩ : ∃ buffer, poke counted sizeofPacket cert = .ok buffer := by
    apply exists_poke
    rwa [hcounted]
  obtain ⟨hsize, hcount, hcontent⟩ := request_of_pokes ho.size h₁ h₂ h₃
  have hpeek : 0 + (sizeofPacket + 4 * packetDataCount request) ≤ request.length := by
    have hle := Nat.mul_div_le cert.length 4
    rw [hcount, hsize]
    omega
  have hlen : (request.take (sizeofPacket + 4 * packetDataCount request)).length ≤ bufferSize :=
    (List.length_take_le' _ _).trans hsize.le
  refine ⟨_, { this with mMsgBuffer := request }, hcontent, ?_⟩
  rw [heq, h₃]
  show (requestPacketSend _ request >>= _) = _
  rw [requestPacketSend, ho.attached, deref_some, pure_bind, peek, if_pos hpeek, List.drop_zero]
  show ((driver.eComPortTx _ 0 true >>= _) >>= _) = _
  rw [ExternalComPortDriver.eComPortTx_packet ho.inited hlen, bind_assoc, bind_assoc]
  rfl

theorem sendAuthResponseCmdRequest_overlong (ho : this.IsOpen driver)
    (hlong : bufferSize < sizeofPacket + cert.length) :
    this.sendAuthResponseCmdRequest psa cert = halt .outOfBounds := by
  obtain ⟨commanded, counted, -, -, hcounted, heq⟩ := sendAuthResponseCmdRequest_eq_copy psa cert ho
  have hover : poke counted sizeofPacket cert = .error .outOfBounds := by
    apply if_neg
    rw [hcounted]
    exact Nat.not_le.mpr hlong
  rw [heq, hover]
  rfl

theorem exists_sent (hcb : driver.mRegisterAccessCallback = true) (packet : List UInt8)
    (this' : SecureDebugManagerImpl) : ∃ l, driver.traffic l = sentPacket packet ∧
      Run (driver.registerAccess (((sdc600 flagSTART).frame packet).map (driver.writeAccess true)) >>=
        fun a => pure (writeResult ((sdc600 flagSTART).frame packet).length a, this')) l
        (.ok (.success, this')) := by
  have hresult : writeResult ((sdc600 flagSTART).frame packet).length
      ⟨.success, ((sdc600 flagSTART).frame packet).length, []⟩ = .success :=
    writeResult_eq_success.mpr ⟨rfl, rfl⟩
  refine ⟨[driver.writeEvent true ((sdc600 flagSTART).frame packet)
    ⟨.success, ((sdc600 flagSTART).frame packet).length, []⟩], ?_, ?_⟩
  · rw [driver.traffic_writeEvent, hresult, List.take_length, List.drop_length,
      List.map_nil, List.append_nil]
    rfl
  · refine (run_access_bind hcb).mpr ⟨_, [], rfl, ?_⟩
    rw [hresult]
    exact .ret _

theorem dvd_of_carried (ho : this.IsOpen driver) (hfits : sizeofPacket + cert.length ≤ bufferSize)
    (hcb : driver.mRegisterAccessCallback = true)
    (h : ∀ l r, Run (this.sendAuthResponseCmdRequest psa cert) l r →
      (∃ out, r = .ok out ∧ out.1 ≠ .success) ∨
        ∃ packet, CarriesWhole psa cert packet ∧ driver.traffic l = sentPacket packet) :
    4 ∣ cert.length := by
  obtain ⟨packet, this', hpacket, heq⟩ := sendAuthResponseCmdRequest_eq psa ho hfits
  obtain ⟨l, ht, hrun⟩ := exists_sent hcb packet this'
  rw [← heq] at hrun
  rcases h l _ hrun with ⟨out, hout, hfailed⟩ | ⟨packet', hwhole, ht'⟩
  · rw [← Except.ok.inj hout] at hfailed
    exact absurd rfl hfailed
  · rw [← sentPacket_injective (ht.symm.trans ht')] at hwhole
    exact (carriesWhole_iff hpacket).mp hwhole

/-- No byte of a certificate is lost, in any run that does not report an error, just if its length is
a multiple of four: the bytes behind the last whole word are copied and never sent. -/
theorem sendAuthResponseCmdRequest_whole_iff (ho : this.IsOpen driver)
    (hfits : sizeofPacket + cert.length ≤ bufferSize) :
    (∀ l r, Run (this.sendAuthResponseCmdRequest psa cert) l r →
      (∃ out, r = .ok out ∧ out.1 ≠ .success) ∨
        ∃ packet, CarriesWhole psa cert packet ∧ driver.traffic l = sentPacket packet) ↔
      4 ∣ cert.length ∧ driver.mRegisterAccessCallback = true := by
  obtain ⟨packet, this', hpacket, heq⟩ := sendAuthResponseCmdRequest_eq psa ho hfits
  constructor
  · intro h
    -- without a callback the run ends where it is called: no error, and no packet
    have hcb : driver.mRegisterAccessCallback = true := by
      by_contra hnull
      rw [Bool.not_eq_true] at hnull
      rw [heq] at h
      rcases h [] _ ((run_access_bind_of_null hnull).mpr ⟨rfl, rfl⟩) with ⟨out, hout, -⟩ |
        ⟨packet', -, ht⟩
      · cases hout
      · exact sentPacket_ne_nil packet' ht.symm
    exact ⟨dvd_of_carried ho hfits hcb h, hcb⟩
  · intro h l r hrun
    obtain ⟨hwords, hcb⟩ := h
    rw [heq] at hrun
    obtain ⟨a, l', rfl, hpure⟩ := (run_access_bind hcb).mp hrun
    obtain ⟨rfl, rfl⟩ := run_pure.mp hpure
    by_cases hresult : writeResult ((sdc600 flagSTART).frame packet).length a = .success
    · refine .inr ⟨packet, (carriesWhole_iff hpacket).mpr hwords, ?_⟩
      have ht := driver.traffic_writeEvent true ((sdc600 flagSTART).frame packet) a
      rw [(writeResult_eq_success.mp hresult).2, List.take_length, List.drop_length, hresult,
        List.map_nil, List.append_nil] at ht
      exact ht
    · exact .inl ⟨_, rfl, hresult⟩

theorem sendAuthResponseCmdRequest_whole_iff_word :
    4 ∣ [(0xA5 : UInt8), 1, 2, 3].length ∧
    ∀ l r, Run (opened.sendAuthResponseCmdRequest .standard [0xA5, 1, 2, 3]) l r →
      (∃ out, r = .ok out ∧ out.1 ≠ .success) ∨
        ∃ packet, CarriesWhole .standard [0xA5, 1, 2, 3] packet ∧
          ExternalComPortDriver.inited.traffic l = sentPacket packet :=
  ⟨by decide, (sendAuthResponseCmdRequest_whole_iff isOpen_opened (by decide)).mpr ⟨by decide, rfl⟩⟩

theorem sendAuthResponseCmdRequest_whole_iff_tail :
    ¬∀ (this : SecureDebugManagerImpl) (driver : ExternalComPortDriver) (psa : PsaAdac)
      (cert : List UInt8), this.IsOpen driver → driver.mRegisterAccessCallback = true →
      sizeofPacket + cert.length ≤ bufferSize →
      ∀ l r, Run (this.sendAuthResponseCmdRequest psa cert) l r →
        (∃ out, r = .ok out ∧ out.1 ≠ .success) ∨
          ∃ packet, CarriesWhole psa cert packet ∧ driver.traffic l = sentPacket packet := by
  intro h
  have hwhole := h opened .inited .standard [1, 2, 3, 4, 5] isOpen_opened rfl (by decide)
  have hwords := dvd_of_carried isOpen_opened (by decide) rfl hwhole
  exact absurd hwords (by decide)

end SecureDebugManagerImpl
end SecureDebug
