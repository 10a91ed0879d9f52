import SecureDebug.Interaction.Carrying
import SecureDebug.Manager.Verdict

/-! The packets of an authentication on the link: how a request shows that was sent or was not, and
what its receive routine makes of the bytes that are read behind it. -/

namespace SecureDebug
open Interaction Program Framing

theorem internalError_ne_success : SDMReturnCode.internalError ≠ .success := by decide

def sentPacket (packet : List UInt8) : List Observation :=
  ((sdc600 flagSTART).frame packet).map (.wrote · true)

/-- How a packet shows that was not: the callback took `n` bytes of its frame. -/
def brokenPacket (packet : List UInt8) (n : Nat) : List Observation :=
  (((sdc600 flagSTART).frame packet).take n).map (.wrote · false) ++
    (((sdc600 flagSTART).frame packet).drop n).map .offered

namespace ExternalComPortDriver
variable {driver : ExternalComPortDriver}

theorem run_eComPortTx_packet {packet : List UInt8} {n : Nat} {l : Trace}
    {r : Except Stop (SDMReturnCode × Nat)} (hinit : driver.mIsComPortInited = true)
    (hsize : packet.length ≤ bufferSize) (h : Run (driver.eComPortTx packet n true) l r) :
    (driver.traffic l = sentPacket packet ∧ ∃ out, r = .ok out ∧ out.1 = .success) ∨
      ((driver.traffic l = [] ∨ ∃ k, driver.traffic l = brokenPacket packet k) ∧
        ¬∃ out, r = .ok out ∧ out.1 = .success) := by
  rw [eComPortTx_packet hinit hsize] at h
  cases hcb : driver.mRegisterAccessCallback with
  | false =>
    obtain ⟨hl, hr⟩ := (run_access_bind_of_null hcb).mp h
    rw [hl, hr]
    refine .inr ⟨.inl rfl, ?_⟩
    intro hout
    obtain ⟨out, hout, -⟩ := hout
    cases hout
  | true =>
    obtain ⟨a, l', hl, h'⟩ := (run_access_bind hcb).mp h
    obtain ⟨hnil, hr⟩ := run_pure.mp h'
    have ht := driver.traffic_writeEvent true ((sdc600 flagSTART).frame packet) a
    rw [writeEvent] at ht
    rw [hl, hnil, ht, hr]
    by_cases hres : writeResult ((sdc600 flagSTART).frame packet).length a = .success
    · have hdone := (writeResult_eq_success.mp hres).2
      left
      rw [hdone, List.take_length, List.drop_length, List.map_nil, List.append_nil, hres]
      exact ⟨rfl, _, rfl, rfl⟩
    · right
      constructor
      · right
        use a.accessesCompleted
        rw [brokenPacket, decide_eq_false hres]
      · intro hout
        obtain ⟨out, hout, hsuccess⟩ := hout
        rw [← Except.ok.inj hout] at hsuccess
        exact hres hsuccess

end ExternalComPortDriver

/-! ### Requests -/

/-- One exchange with the target: the request for a challenge, or an `AUTH_RESPONSE` that carries a
certificate or the token. -/
inductive Exchange where
  | start
  | response (cert : List UInt8)
  deriving DecidableEq, Repr

/-- What the request says behind its two reserved bytes: command, number of words and words. -/
def Exchange.content (psa : PsaAdac) : Exchange → List UInt8
  | .start => leBytes 2 psa.adacAuthStartCmd ++ leBytes 4 0
  | .response cert => leBytes 2 psa.adacAuthResponseCmd ++ leBytes 4 (cert.length / 4) ++
      cert.take (4 * (cert.length / 4))

/-- The answers that the receive routine of an exchange lets through; a short answer to the first
one leaves the rest of the header as it was in the buffer. -/
def Exchange.Accepts (psa : PsaAdac) (buffer : List UInt8) : Exchange → List UInt8 → Prop
  | .start, bytes => Framed bytes ∧ packetDataCount (overlay buffer (reception bytes).image) * 4 %
      2 ^ 32 = psa.sizeofPsaAuthChallenge
  | .response _, bytes => Accepted psa bytes

inductive AuthStep where
  | send (e : Exchange)
  | receive (e : Exchange)
  deriving DecidableEq, Repr

/-- How sending and receiving show when they are done and when they fail. -/
def authSteps (psa : PsaAdac) (buffer : List UInt8) : Plan AuthStep Observation where
  Done
    | .send e, t => ∃ packet, packet.drop 2 = e.content psa ∧ t = sentPacket packet
    | .receive e, t => ∃ bytes, e.Accepts psa buffer bytes ∧ t = bytes.map .read
  Cut
    | .send e, t => t = [] ∨ ∃ packet n, packet.drop 2 = e.content psa ∧ t = brokenPacket packet n
    | .receive e, t => ∃ bytes, ¬e.Accepts psa buffer bytes ∧ t = bytes.map .read

def lockstep (es : List Exchange) : List AuthStep := es.flatMap fun e => [.send e, .receive e]

theorem leNat_leBytes {size n : Nat} (h : n < 256 ^ size) : leNat (leBytes size n) = n := by
  induction size generalizing n with
  | zero =>
    have hzero : n = 0 := Nat.lt_one_iff.mp h
    rw [hzero]
    rfl
  | succ size ih =>
    have hrest : n / 256 < 256 ^ size := by
      rw [Nat.pow_succ] at h
      exact Nat.div_lt_of_lt_mul (by rwa [Nat.mul_comm] at h)
    have hlow : (UInt8.ofNat n).toNat = n % 256 := UInt8.toNat_ofNat
    rw [leBytes, leNat, ih hrest, hlow, Nat.mod_add_div]

theorem drop_take_request {request cert : List UInt8} {command : Nat}
    (hcommand : (request.drop 2).take 2 = leBytes 2 command)
    (hcount : (request.drop 4).take 4 = leBytes 4 (cert.length / 4))
    (hcert : (request.drop 8).take cert.length = cert) :
    (request.take (sizeofPacket + 4 * (cert.length / 4))).drop 2 =
      leBytes 2 command ++ leBytes 4 (cert.length / 4) ++ cert.take (4 * (cert.length / 4)) := by
  have hsize : sizeofPacket + 4 * (cert.length / 4) - 2 = 2 + (4 + 4 * (cert.length / 4)) := by
    rw [sizeofPacket]
    omega
  have hwords : (request.drop 8).take (4 * (cert.length / 4)) =
      cert.take (4 * (cert.length / 4)) := by
    have htake : ((request.drop 8).take cert.length).take (4 * (cert.length / 4)) =
        (request.drop 8).take (4 * (cert.length / 4)) := by
      rw [List.take_take, Nat.min_eq_left (Nat.mul_div_le cert.length 4)]
    rw [← htake, hcert]
  rw [List.drop_take, hsize, List.take_add, hcommand, List.drop_drop, List.take_add, hcount,
    List.drop_drop, hwords, List.append_assoc]

theorem request_of_pokes {psa : PsaAdac} {buffer commanded counted request cert : List UInt8}
    (hsize : buffer.length = bufferSize)
    (hcommand : poke buffer 2 (leBytes 2 psa.adacAuthResponseCmd) = .ok commanded)
    (hcount : poke commanded 4 (leBytes 4 (cert.length / 4)) = .ok counted)
    (hcert : poke counted sizeofPacket cert = .ok request) :
    request.length = bufferSize ∧ packetDataCount request = cert.length / 4 ∧
      (request.take (sizeofPacket + 4 * packetDataCount request)).drop 2 =
        (Exchange.response cert).content psa := by
  have hlen : request.length = bufferSize := by
    rw [length_of_poke hcert, length_of_poke hcount, length_of_poke hcommand, hsize]
  have hbody : (request.drop 8).take cert.length = cert := slice_of_poke hcert
  have hwords : (request.drop 4).take 4 = leBytes 4 (cert.length / 4) := by
    rw [slice_of_poke_of_le hcert (by decide)]
    exact slice_of_poke hcount
  have hcmd : (request.drop 2).take 2 = leBytes 2 psa.adacAuthResponseCmd := by
    rw [slice_of_poke_of_le hcert (by decide), slice_of_poke_of_le hcount (by decide)]
    exact slice_of_poke hcommand
  have hdata : packetDataCount request = cert.length / 4 := by
    have hfits : cert.length ≤ request.length := by
      rw [← hbody]
      exact (List.length_take_le' _ _).trans ((List.length_drop ..).le.trans (Nat.sub_le _ _))
    have hmax : bufferSize = 4096 := rfl
    rw [packetDataCount, hwords]
    apply leNat_leBytes
    omega
  refine ⟨hlen, hdata, ?_⟩
  rw [hdata]
  exact drop_take_request hcmd hwords hbody

theorem cut_send_nil {psa : PsaAdac} {buffer : List UInt8} {e : Exchange} :
    (authSteps psa buffer).Cut (.send e) [] := .inl rfl

namespace SecureDebugManagerImpl
variable {this this' : SecureDebugManagerImpl} {driver : ExternalComPortDriver} {psa : PsaAdac}
  {fuel : Nat} {l : Trace} {buffer : List UInt8}

theorem carries_requestPacketSend {packet : List UInt8} {e : Exchange} (ho : this.IsOpen driver)
    (hsize : packet.length ≤ bufferSize)
    (hpacket : (packet.take (sizeofPacket + 4 * packetDataCount packet)).drop 2 = e.content psa) :
    Carries (authSteps psa buffer) driver.traffic (this.requestPacketSend packet) (· = .success)
      [.send e] := by
  rw [requestPacketSend, ho.attached, deref_some, pure_bind]
  apply Carries.silent_bind driver.traffic_append (silent_lift driver) cut_send_nil
  intro _ txBuffer hrun
  have hpeek := (run_lift.mp hrun).2.symm
  have hshort : txBuffer.length ≤ bufferSize := (length_of_peek hpeek).trans hsize
  have htx : txBuffer = packet.take (sizeofPacket + 4 * packetDataCount packet) := by
    rw [peek] at hpeek
    split_ifs at hpeek
    rw [← Except.ok.inj hpeek, List.drop_zero]
  rw [← htx] at hpacket
  have hnil : driver.traffic [] = [] := driver.traffic_nil
  have htransmit : Carries (authSteps psa buffer) driver.traffic
      (driver.eComPortTx txBuffer 0 sdmConfigComHwTxBlocking) (·.1 = .success) [.send e] := by
    apply carries_single
    intro l r h
    rcases ExternalComPortDriver.run_eComPortTx_packet ho.inited hshort h with
      ⟨ht, hgood⟩ | ⟨ht | ⟨k, ht⟩, hbad⟩
    · exact .inl ⟨⟨txBuffer, hpacket, ht⟩, hgood⟩
    · exact .inr ⟨.inl ht, hbad⟩
    · exact .inr ⟨.inr ⟨txBuffer, k, hpacket, ht⟩, hbad⟩
  show Carries _ _ _ _ ([AuthStep.send e] ++ [])
  apply htransmit.bind driver.traffic_append
  · intro l out _ hres
    exact carries_pure hnil hres
  · intro out hres
    exact ⟨out.1, hres, rfl⟩

theorem carries_sendAuthStartCmdRequest (ho : this.IsOpen driver) :
    Carries (authSteps psa buffer) driver.traffic (this.sendAuthStartCmdRequest psa) (· = .success)
      [.send .start] := by
  intro l r h
  obtain ⟨reserved, l', rfl, h'⟩ := run_call.mp h
  have hreserved : reserved.toList.length = 2 := reserved.length_toList
  have hlen : (reserved.toList ++ leBytes 2 psa.adacAuthStartCmd ++ leBytes 4 0).length = 8 := by
    rw [List.length_append, List.length_append, length_leBytes, length_leBytes, hreserved]
  have hcount : packetDataCount (reserved.toList ++ leBytes 2 psa.adacAuthStartCmd ++ leBytes 4 0) =
      0 := by
    have hfront : (reserved.toList ++ leBytes 2 psa.adacAuthStartCmd).length = 4 := by
      rw [List.length_append, length_leBytes, hreserved]
    rw [packetDataCount, List.drop_left' hfront]
    rfl
  refine carries_requestPacketSend ho (by rw [hlen]; decide) ?_ l' r h'
  rw [hcount, Nat.mul_zero, Nat.add_zero, sizeofPacket, ← hlen, List.take_length, List.append_assoc,
    List.drop_left' hreserved]
  rfl

theorem carries_sendAuthResponseCmdRequest (cert : List UInt8) (ho : this.IsOpen driver) :
    Carries (authSteps psa buffer) driver.traffic (this.sendAuthResponseCmdRequest psa cert)
      (·.1 = .success) [.send (.response cert)] := by
  rw [sendAuthResponseCmdRequest]
  apply Carries.silent_bind driver.traffic_append (silent_lift driver) cut_send_nil
  intro _ commanded h₁
  apply Carries.silent_bind driver.traffic_append (silent_lift driver) cut_send_nil
  intro _ counted h₂
  apply Carries.silent_bind driver.traffic_append (silent_lift driver) cut_send_nil
  intro _ request h₃
  obtain ⟨hsize, -, hcontent⟩ := request_of_pokes ho.size (run_lift.mp h₁).2.symm
    (run_lift.mp h₂).2.symm (run_lift.mp h₃).2.symm
  have ho' : { this with mMsgBuffer := request }.IsOpen driver :=
    ⟨ho.isOpen, ho.attached, ho.inited, hsize⟩
  have hnil : driver.traffic [] = [] := driver.traffic_nil
  show Carries _ _ _ _ ([AuthStep.send (.response cert)] ++ [])
  apply (carries_requestPacketSend ho' hsize.le hcontent).bind driver.traffic_append
  · intro l res _ hres
    exact carries_pure hnil hres
  · intro res hres
    exact ⟨_, hres, rfl⟩

/-! ### Answers -/

/-- A receive routine that looks at the packet once it arrived: what it lets through are frames on
which it comes to a good end. -/
theorem carries_responsePacketReceive {β : Type} {e : Exchange} {good : β → Prop}
    {f : SDMReturnCode × List UInt8 → Sdm β} (ho : this.IsOpen driver)
    (hframed : ∀ bytes, e.Accepts psa buffer bytes → Framed bytes)
    (hrefused : ∀ out, out.1 ≠ .success → ∃ b, f out = pure b ∧ ¬good b)
    (hlooked : ∀ bytes, Framed bytes → ∃ b,
      f (.success, overlay this.mMsgBuffer (reception bytes).image) = pure b ∧
        (good b ↔ e.Accepts psa buffer bytes)) :
    Carries (authSteps psa buffer) driver.traffic
      (this.responsePacketReceive fuel this.mMsgBuffer maxPacket >>= f) good [.receive e] := by
  apply carries_single
  intro l r h
  rcases run_bind.mp h with ⟨out, l₁, l₂, rfl, h₁, h₂⟩ | ⟨stop, rfl, he⟩
  · obtain ⟨bytes, ht, hsuccess, hframe⟩ := run_responsePacketReceive ho ho.size h₁
    rw [ExternalComPortDriver.traffic_append, ht]
    by_cases hbytes : Framed bytes
    · obtain ⟨b, hf, hgood⟩ := hlooked bytes hbytes
      rw [Except.ok.inj (hsuccess hbytes), hf] at h₂
      obtain ⟨hl, hr⟩ := run_pure.mp h₂
      rw [hl, hr, ExternalComPortDriver.traffic_nil, List.append_nil]
      by_cases haccepts : e.Accepts psa buffer bytes
      · exact .inl ⟨⟨bytes, haccepts, rfl⟩, b, rfl, hgood.mpr haccepts⟩
      · refine .inr ⟨⟨bytes, haccepts, rfl⟩, ?_⟩
        intro hout
        obtain ⟨b', hb', hgood'⟩ := hout
        rw [← Except.ok.inj hb'] at hgood'
        exact haccepts (hgood.mp hgood')
    · have hcode : out.1 ≠ .success := by
        intro hcode
        exact hbytes (hframe out.2 (congrArg Except.ok (Prod.ext hcode rfl)))
      obtain ⟨b, hf, hbad⟩ := hrefused out hcode
      rw [hf] at h₂
      obtain ⟨hl, hr⟩ := run_pure.mp h₂
      rw [hl, hr, ExternalComPortDriver.traffic_nil, List.append_nil]
      refine .inr ⟨⟨bytes, fun haccepts => hbytes (hframed bytes haccepts), rfl⟩, ?_⟩
      intro hout
      obtain ⟨b', hb', hgood⟩ := hout
      rw [← Except.ok.inj hb'] at hgood
      exact hbad hgood
  · obtain ⟨bytes, ht, hsuccess, -⟩ := run_responsePacketReceive ho ho.size he
    rw [ht]
    have hbytes : ¬Framed bytes := by
      intro hbytes
      cases hsuccess hbytes
    refine .inr ⟨⟨bytes, fun haccepts => hbytes (hframed bytes haccepts), rfl⟩, ?_⟩
    intro hout
    obtain ⟨b, hb, -⟩ := hout
    cases hb

theorem carries_receiveAuthStartCmdResponse (ho : this.IsOpen driver) :
    Carries (authSteps psa this.mMsgBuffer) driver.traffic
      (this.receiveAuthStartCmdResponse psa fuel) (·.1 = .success) [.receive .start] := by
  rw [receiveAuthStartCmdResponse, ho.size]
  apply carries_responsePacketReceive ho
  · intro bytes haccepts
    exact haccepts.1
  · intro out hcode
    dsimp only
    rw [if_pos hcode]
    exact ⟨_, rfl, hcode⟩
  · intro bytes hbytes
    dsimp only
    rw [if_neg (not_not.mpr rfl)]
    by_cases hcount : packetDataCount (overlay this.mMsgBuffer (reception bytes).image) * 4 %
        2 ^ 32 = psa.sizeofPsaAuthChallenge
    · have hlen : sizeofPacket + psa.sizeofPsaAuthChallenge ≤
          (overlay this.mMsgBuffer (reception bytes).image).length := by
        have hmax : bufferSize = 4096 := rfl
        have hchallenge := psa.challenge_le
        rw [length_overlay, ho.size, sizeofPacket]
        omega
      rw [if_neg (not_not.mpr hcount), peek, if_pos hlen]
      exact ⟨_, rfl, iff_of_true rfl ⟨hbytes, hcount⟩⟩
    · rw [if_pos hcount]
      refine ⟨_, rfl, iff_of_false internalError_ne_success ?_⟩
      intro haccepts
      exact hcount haccepts.2

theorem carries_receiveAuthResponseCmdResponse (cert : List UInt8) (ho : this.IsOpen driver)
    (hcmd : (this.mMsgBuffer.drop 2).take 2 = leBytes 2 psa.adacAuthResponseCmd) :
    Carries (authSteps psa buffer) driver.traffic (this.receiveAuthResponseCmdResponse psa fuel)
      (·.1 = .success) [.receive (.response cert)] := by
  rw [receiveAuthResponseCmdResponse, ho.size]
  apply carries_responsePacketReceive ho
  · intro bytes haccepts
    exact haccepts.framed
  · intro out hcode
    dsimp only
    rw [if_pos hcode]
    exact ⟨_, rfl, hcode⟩
  · intro bytes hbytes
    dsimp only
    rw [if_neg (not_not.mpr rfl), packetStatus_overlay psa hcmd]
    by_cases hstatus : answerStatus psa bytes = psa.adacSuccess ∨
        answerStatus psa bytes = psa.adacNeedMoreData
    · rw [if_neg (fun hne => hstatus.elim hne.1 hne.2)]
      exact ⟨_, rfl, iff_of_true rfl ⟨hbytes, hstatus⟩⟩
    · rw [if_pos (not_or.mp hstatus)]
      refine ⟨_, rfl, iff_of_false internalError_ne_success ?_⟩
      intro haccepts
      exact hstatus haccepts.status

end SecureDebugManagerImpl
end SecureDebug
