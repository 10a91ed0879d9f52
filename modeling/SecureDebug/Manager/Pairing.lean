import SecureDebug.Manager.Challenge
import SecureDebug.Manager.Conversation
import SecureDebug.Manager.Exchanges

/-! Whose answer a call of `SDMAuthenticate` interprets, against a target that takes requests in
order and answers each with one frame. Nothing in a packet says which request it answers, and
nothing is thrown away before a request is sent. -/

namespace SecureDebug
open Interaction Program Framing

/-! ### Packets laid over the buffer -/

section
variable {buffer answer : List UInt8}

theorem Whole.header (h : Whole answer) : 8 ≤ answer.length := by
  unfold Whole sizeofPacket at h
  omega

theorem packetDataCount_overlay_whole (h : Whole answer) :
    packetDataCount (overlay buffer answer) = packetDataCount answer := by
  rw [packetDataCount, slice_overlay h.header, packetDataCount]

theorem packetStatus_overlay_whole (h : Whole answer) :
    packetStatus (overlay buffer answer) = packetStatus answer := by
  have hheader := h.header
  rw [packetStatus, slice_overlay (by omega), packetStatus]

/-- Data of the size that a whole packet declares is read out of the packet alone. -/
theorem peek_overlay_whole {data : List UInt8} {size : Nat} (h : Whole answer)
    (hsize : packetDataCount answer * 4 % 2 ^ 32 = size)
    (hpeek : peek (overlay buffer answer) sizeofPacket size = .ok data) :
    data = (answer.drop sizeofPacket).take size := by
  have hle : size ≤ packetDataCount answer * 4 := hsize ▸ Nat.mod_le _ _
  have hfits : sizeofPacket + size ≤ answer.length := by
    unfold Whole at h
    omega
  unfold peek at hpeek
  split_ifs at hpeek
  rw [← slice_overlay hfits]
  exact (Except.ok.inj hpeek).symm

end

/-! ### What the host reads -/

/-- Against a timely target the program keeps to the conversation. -/
abbrev Converses {α β : Type} (driver : ExternalComPortDriver) (R : α → β → Target → Prop) (p : Sdm α)
    (q : Talk β) (w : Target) : Prop := Refines (Target.world driver timely) R p q w

/-- Calls that are neither part of an exchange nor of the library's own memory. -/
def HostCall.Aside : HostCall → Prop
  | .registerAccess _ => False
  | .resetStart => False
  | .resetEnd => False
  | .uninitialised _ => False
  | _ => True

section
variable {driver : ExternalComPortDriver} {w w' : Target}

theorem serves_silent {e : Event Host} (ht : driver.traffic [e] = [])
    (h : Target.Serves driver timely w e w') : Paired driver e w' ∧ w' = w := by
  have hsteps := h.2
  rw [ht, steps_nil] at hsteps
  refine ⟨fun byte hread => ?_, hsteps⟩
  rw [ht] at hread
  cases hread

theorem serves_aside {c : HostCall} {a : c.Answer} (hc : c.Aside)
    (h : Target.Serves driver timely w ⟨c, a⟩ w') :
    Paired driver ⟨c, a⟩ w' ∧ driver.shown ⟨c, a⟩ w' = [⟨.host c, a⟩] ∧ w' = w := by
  have ht : driver.traffic [⟨c, a⟩] = [] ∧ driver.shown ⟨c, a⟩ w' = [⟨.host c, a⟩] := by
    cases c with
    | registerAccess accesses => cases hc
    | resetStart => cases hc
    | resetEnd => cases hc
    | uninitialised size => cases hc
    | _ => exact ⟨rfl, rfl⟩
  obtain ⟨hpaired, hw⟩ := serves_silent ht.1 h
  exact ⟨hpaired, ht.2, hw⟩

theorem converses_callHost {c : HostCall} (hc : c.Aside) :
    Converses driver (fun a b w' => a = b ∧ w' = w) (callHost c) (Talk.callHost c) w := by
  apply refines_perform
  intro a w' hserves
  obtain ⟨hpaired, hshown, hw⟩ := serves_aside hc hserves
  refine ⟨hpaired, a, ?_, rfl, hw⟩
  have hreaches : Reaches (Talk.callHost c) [⟨.host c, a⟩] (pure a) := reaches_perform
  rwa [← hshown] at hreaches

theorem converses_asking {α : Type} {p : Sdm α} (hp : Makes p HostCall.Aside) :
    Converses driver (fun a b w' => a = b ∧ w' = w) p (Talk.asking p) w := by
  apply refines_serve scripted [] hp
  intro c a w' hc hserves
  obtain ⟨hpaired, hshown, hw⟩ := serves_aside hc hserves
  have hreaches : Reaches (Talk.callHost c) [⟨.host c, a⟩] (pure a) := reaches_perform
  rw [← hshown] at hreaches
  exact ⟨hpaired, hreaches, hw⟩

theorem converses_uninitialised {size : Nat} : Converses driver (fun _ _ w' => w' = w)
    (callHost (.uninitialised size)) (pure () : Talk Unit) w := by
  apply refines_perform
  intro a w' hserves
  obtain ⟨hpaired, hw⟩ := serves_silent rfl hserves
  exact ⟨hpaired, (), .refl _, hw⟩

end

/-- How a receive leaves things: the answer lies over the buffer, and nothing is outstanding. -/
structure Received (buffer : List UInt8) (res : SDMReturnCode) (memory answer : List UInt8)
    (w : Target) : Prop where
  res : res = .success
  memory : memory = overlay buffer answer
  whole : Whole answer
  idle : w.Idle

namespace ExternalComPortDriver
variable {driver : ExternalComPortDriver} {w : Target}

theorem converses_access {α β : Type} {R : α → β → Target → Prop} {q : Talk β}
    {accesses : List SDMRegisterAccess} {f : AccessResult → Sdm α}
    (h : ∀ (a : AccessResult) w', Target.Serves driver timely w ⟨.registerAccess accesses, a⟩ w' →
      Paired driver ⟨.registerAccess accesses, a⟩ w' ∧
      ∃ q', Reaches q ((driver.traffic [⟨.registerAccess accesses, a⟩]).flatMap w'.shown) q' ∧
        Converses driver R (f a) q' w') :
    Converses driver R (driver.registerAccess accesses >>= f) q w := by
  unfold registerAccess
  cases driver.mRegisterAccessCallback with
  | false => exact trivial
  | true => exact h

theorem converses_rxLoop (driver : ExternalComPortDriver) (fuel : Nat) {rxBuffer : List UInt8}
    (room : Room maxPacket rxBuffer) (h : w.Answering) :
    Converses driver (fun out answer w' => Received rxBuffer out.res out.rxBuffer answer w')
      (driver.rxLoop flagSTART maxPacket fuel
        (rxStateOf rxBuffer 0 (({} : Receiver UInt8).run (sdc600 flagSTART) w.heard)))
      Talk.response w := by
  have hflag : IsStartFlag flagSTART := .inl rfl
  induction fuel generalizing w with
  | zero => exact refines_halt
  | succ fuel ih =>
    rw [rxLoop_eq]
    apply converses_access
    intro a w' hserves
    obtain ⟨⟨hres, hdone, -⟩, hsteps⟩ := hserves
    have hclean : a.result = .success ∧ a.accessesCompleted = 1 := ⟨hres, hdone⟩
    have ht : driver.traffic [⟨.registerAccess [driver.readAccess], a⟩] = [.read (dataByte a)] := by
      have hread := driver.traffic_readEvent a
      rwa [if_pos hclean] at hread
    rw [ht, steps_singleton] at hsteps
    obtain ⟨hheard, hcounts, hphase⟩ := h.read hsteps
    have hpaired : Paired driver ⟨.registerAccess [driver.readAccess], a⟩ w' := by
      intro byte hbyte hnull
      rw [ht] at hbyte
      cases hbyte
      exact hcounts hnull
    rw [readResult_of_clean hclean, if_neg (not_not.mpr rfl), ht]
    refine ⟨hpaired, ?_⟩
    rcases hphase with ⟨hend, hanswering⟩ | ⟨hend, hidle, hwhole, hframe⟩
    · -- nothing of the conversation before the end flag
      have hshown : [Observation.read (dataByte a)].flatMap w'.shown = [] := by
        simp [Target.shown, hend]
      rw [hshown]
      refine ⟨Talk.response, .refl _, ?_⟩
      have hok := hanswering.fits.ok Receiver.ok_nil
      have hrun : ({} : Receiver UInt8).run (sdc600 flagSTART) w'.heard =
          (({} : Receiver UInt8).run (sdc600 flagSTART) w.heard).step (sdc600 flagSTART)
            (dataByte a) := by
        rw [hheard, Receiver.run_append]
        rfl
      rw [hrun] at hok
      rw [rxStep_of_ok hflag room hend hok, ← hrun]
      exact ih hanswering
    · have hshown : [Observation.read (dataByte a)].flatMap w'.shown = [⟨.response, w'.answer⟩] := by
        simp [Target.shown, hend]
      rw [hshown]
      refine ⟨pure w'.answer, reaches_perform, ?_⟩
      obtain ⟨hstarted, hdone, hcur, -⟩ := Receiver.run_frame lawful_start hframe
      rw [hend, rxStep_flagEND, rxResultOf, hstarted, if_pos rfl, Receiver.image, hdone, hcur,
        nil_overlay]
      exact refines_pure ⟨rfl, rfl, hwhole, hidle⟩

theorem flatMap_shown_frame (payload : List UInt8) :
    (((sdc600 flagSTART).frame payload).map (Observation.wrote · true)).flatMap w.shown =
      [⟨.request, ()⟩] := by
  have hbody : (((sdc600 flagSTART).stuff payload).map (Observation.wrote · true)).flatMap w.shown =
      [] := by
    rw [List.flatMap_eq_nil_iff]
    intro o ho
    obtain ⟨byte, hbyte, rfl⟩ := List.mem_map.mp ho
    have hne : byte ≠ flagEND := by
      intro heq
      rw [heq] at hbyte
      exact lawful_start.stop_not_mem_stuff payload hbyte
    simp [Target.shown, hne]
  rw [Alphabet.frame, List.map_append, List.flatMap_append, List.map_cons, List.flatMap_cons, hbody]
  rfl

theorem converses_eComPortTx {txBuffer : List UInt8} {n : Nat}
    (hinit : driver.mIsComPortInited = true) (hsize : txBuffer.length ≤ bufferSize) :
    Converses driver (fun out _ w' => out.1 = .success ∧
      w' = { w with requests := w.requests + 1, heard := [] })
      (driver.eComPortTx txBuffer n true) Talk.request w := by
  rw [eComPortTx_packet hinit hsize]
  apply converses_access
  intro a w' hserves
  obtain ⟨⟨hres, hdone, -⟩, hsteps⟩ := hserves
  rw [List.length_map] at hdone
  have hresult : writeResult ((sdc600 flagSTART).frame txBuffer).length a = .success :=
    writeResult_eq_success.mpr ⟨hres, hdone⟩
  have ht : driver.traffic [⟨.registerAccess
      (((sdc600 flagSTART).frame txBuffer).map (driver.writeAccess true)), a⟩] =
      ((sdc600 flagSTART).frame txBuffer).map (.wrote · true) := by
    have hwrite := driver.traffic_writeEvent true ((sdc600 flagSTART).frame txBuffer) a
    rw [writeEvent, hdone, List.take_length, List.drop_length, hresult] at hwrite
    simpa only [List.map_nil, List.append_nil, decide_true] using hwrite
  rw [ht] at hsteps
  refine ⟨fun byte hread => ?_, pure (), ?_, ?_⟩
  · rw [ht] at hread
    cases hread
  · rw [ht, flatMap_shown_frame]
    exact reaches_perform
  · rw [hresult]
    exact refines_pure ⟨rfl, Target.steps_frame.mp hsteps⟩

end ExternalComPortDriver

namespace SecureDebugManagerImpl
variable {this this' : SecureDebugManagerImpl} {driver : ExternalComPortDriver} {psa : PsaAdac}
  {fuel : Nat} {w : Target}

/-! ### What only concerns the host -/

theorem Keeps.updateProgress_eq (h : this.Keeps this') :
    this'.updateProgress = this.updateProgress := by
  funext progressMessage percentComplete
  rw [updateProgress, updateProgress, h.params]

theorem Keeps.loadCredentials_eq (h : this.Keeps this') :
    this'.loadCredentials = this.loadCredentials := by
  rw [loadCredentials, loadCredentials, h.params]

theorem converses_updateProgress (h : this.Keeps this') (progressMessage : String)
    (percentComplete : UInt8) : Converses driver (fun _ _ w' => w' = w)
      (this'.updateProgress progressMessage percentComplete)
      (Talk.asking (this.updateProgress progressMessage percentComplete)) w := by
  rw [h.updateProgress_eq]
  refine (converses_asking (makes_updateProgress trivial)).mono fun _ _ t ht => ?_
  exact ht.2

theorem converses_loadCredentials (h : this.Keeps this') :
    Converses driver (fun a b w' => a = b ∧ w' = w) this'.loadCredentials
      (Talk.asking this.loadCredentials) w := by
  rw [h.loadCredentials_eq]
  exact converses_asking (makes_loadCredentials trivial (fun _ => trivial) fun _ => trivial)

/-! ### One exchange -/

/-- What a request leaves behind, if nothing is outstanding before it. -/
def Asked (res : SDMReturnCode) (w : Target) : Prop := res = .success ∧ w.Waiting ∧ w.heard = []

theorem converses_requestPacketSend {packet : List UInt8} (ho : this.IsOpen driver)
    (hsize : packet.length ≤ bufferSize) (hw : w.Idle) :
    Converses driver (fun res _ w' => Asked res w') (this.requestPacketSend packet) Talk.request w := by
  unfold requestPacketSend
  rw [ho.attached, deref_some, pure_bind]
  have hpeeked : Converses driver (fun txBuffer _ w' => w' = w ∧ txBuffer.length ≤ bufferSize)
      (lift (peek packet 0 (sizeofPacket + 4 * packetDataCount packet))) (pure () : Talk Unit) w := by
    apply refines_lift
    intro txBuffer hpeek
    exact ⟨rfl, (length_of_peek hpeek).trans hsize⟩
  refine hpeeked.bind_left fun txBuffer t ht => ?_
  obtain ⟨rfl, htx⟩ := ht
  rw [← bind_pure Talk.request]
  refine (ExternalComPortDriver.converses_eComPortTx ho.inited htx).bind fun out _ t' ht' => ?_
  obtain ⟨hres, rfl⟩ := ht'
  have hnulls := hw.nulls
  refine refines_pure ⟨hres, ⟨hw.rest, congrArg (· + 1) hw.counts, ?_, ?_⟩, rfl⟩
  · dsimp only
    rw [hnulls]
    rfl
  · dsimp only
    rw [hnulls]
    exact Nat.zero_le _

theorem converses_responsePacketReceive {packet : List UInt8} (ho : this.IsOpen driver)
    (hsize : packet.length = bufferSize) (hw : w.Waiting) (hheard : w.heard = []) :
    Converses driver (fun out answer w' => Received packet out.1 out.2 answer w')
      (this.responsePacketReceive fuel packet maxPacket) Talk.response w := by
  have room : Room maxPacket packet := ⟨by decide, by rw [hsize]; decide⟩
  unfold responsePacketReceive
  rw [if_neg (by decide), ho.attached, deref_some, pure_bind, ExternalComPortDriver.eComPortRx,
    ho.inited]
  have hloop := ExternalComPortDriver.converses_rxLoop driver fuel room (.waiting hw)
  rw [hheard] at hloop
  rw [← bind_pure Talk.response]
  refine Refines.bind hloop fun out answer t ht => ?_
  exact refines_pure ht

theorem converses_sendAuthStartCmdRequest (ho : this.IsOpen driver) (hw : w.Idle) :
    Converses driver (fun res _ w' => Asked res w') (this.sendAuthStartCmdRequest psa) Talk.request
      w := by
  unfold sendAuthStartCmdRequest
  refine converses_uninitialised.bind_left fun reserved t ht => ?_
  rw [ht]
  apply converses_requestPacketSend ho _ hw
  rw [List.length_append, List.length_append, length_leBytes, length_leBytes,
    show reserved.toList.length = 2 from reserved.length_toList]
  decide

theorem converses_sendAuthResponseCmdRequest {cert : List UInt8} (ho : this.IsOpen driver)
    (hw : w.Idle) : Converses driver (fun out _ w' => Asked out.1 w' ∧ this.Keeps out.2)
      (this.sendAuthResponseCmdRequest psa cert) Talk.request w := by
  refine Refines.and_returns ?_ returns_sendAuthResponseCmdRequest
  have hpoke {buffer bytes : List UInt8} {offset : Nat} (hb : buffer.length = bufferSize) :
      Converses driver (fun buffer' _ w' => w' = w ∧ buffer'.length = bufferSize)
        (lift (poke buffer offset bytes)) (pure () : Talk Unit) w := by
    apply refines_lift
    intro buffer' hpoke
    exact ⟨rfl, (length_of_poke hpoke).trans hb⟩
  unfold sendAuthResponseCmdRequest
  refine (hpoke ho.size).bind_left fun b₁ t₁ h₁ => ?_
  rw [h₁.1]
  refine (hpoke h₁.2).bind_left fun b₂ t₂ h₂ => ?_
  rw [h₂.1]
  refine (hpoke h₂.2).bind_left fun b₃ t₃ h₃ => ?_
  rw [h₃.1]
  have ho' : { this with mMsgBuffer := b₃ }.IsOpen driver := ⟨ho.isOpen, ho.attached, ho.inited, h₃.2⟩
  rw [← bind_pure Talk.request]
  refine (converses_requestPacketSend ho' (Nat.le_of_eq h₃.2) hw).bind fun res _ t ht => ?_
  exact refines_pure ht

/-- The data count and the challenge that are looked at are those of the answer. -/
theorem converses_receiveAuthStartCmdResponse (ho : this.IsOpen driver) (hw : w.Waiting)
    (hheard : w.heard = []) :
    Converses driver (fun out b w' => (out.1 = b.1 ∧ out.2.1 = b.2 ∧ w'.Idle) ∧ this.Keeps out.2.2)
      (this.receiveAuthStartCmdResponse psa fuel) (Talk.receiveAuthStartCmdResponse psa) w := by
  refine Refines.and_returns ?_ returns_receiveAuthStartCmdResponse
  unfold receiveAuthStartCmdResponse Talk.receiveAuthStartCmdResponse
  rw [ho.size]
  refine (converses_responsePacketReceive ho ho.size hw hheard).bind fun out answer t ht => ?_
  have hcount : packetDataCount out.2 = packetDataCount answer := by
    rw [ht.memory, packetDataCount_overlay_whole ht.whole]
  refine refines_ite_left (fun hne => absurd ht.res hne) fun _ => ?_
  refine refines_ite (by rw [hcount]) (fun _ => refines_pure ⟨rfl, rfl, ht.idle⟩) fun hsize => ?_
  have hpeeked : Converses driver (fun challenge _ t' => t' = t ∧
      challenge = (answer.drop sizeofPacket).take psa.sizeofPsaAuthChallenge)
      (lift (peek out.2 sizeofPacket psa.sizeofPsaAuthChallenge)) (pure () : Talk Unit) t := by
    apply refines_lift
    intro challenge hpeek
    rw [hcount] at hsize
    rw [ht.memory] at hpeek
    exact ⟨rfl, peek_overlay_whole ht.whole (not_not.mp hsize) hpeek⟩
  refine hpeeked.bind_left fun challenge t' ht' => ?_
  obtain ⟨rfl, hchallenge⟩ := ht'
  exact refines_pure ⟨rfl, hchallenge, ht.idle⟩

/-- The status that is looked at is that of the answer. -/
theorem converses_receiveAuthResponseCmdResponse (ho : this.IsOpen driver) (hw : w.Waiting)
    (hheard : w.heard = []) :
    Converses driver (fun out res w' => (out.1 = res ∧ w'.Idle) ∧ this.Keeps out.2)
      (this.receiveAuthResponseCmdResponse psa fuel) (Talk.receiveAuthResponseCmdResponse psa) w := by
  refine Refines.and_returns ?_ returns_receiveAuthResponseCmdResponse
  unfold receiveAuthResponseCmdResponse Talk.receiveAuthResponseCmdResponse
  rw [ho.size]
  refine (converses_responsePacketReceive ho ho.size hw hheard).bind fun out answer t ht => ?_
  have hstatus : packetStatus out.2 = packetStatus answer := by
    rw [ht.memory, packetStatus_overlay_whole ht.whole]
  refine refines_ite_left (fun hne => absurd ht.res hne) fun _ => ?_
  refine refines_ite (by rw [hstatus]) (fun _ => refines_pure ⟨rfl, ht.idle⟩) fun _ => ?_
  exact refines_pure ⟨rfl, ht.idle⟩

/-! ### One call -/

/-- How a call leaves things: its code is that of the conversation, nothing is outstanding, and only
the message buffer has changed since the session began. -/
structure Quiet (this : SecureDebugManagerImpl) (out : SDMReturnCode × SecureDebugManagerImpl)
    (res : SDMReturnCode) (w : Target) : Prop where
  code : out.1 = res
  idle : w.Idle
  keeps : this.Keeps out.2

theorem converses_exchange {cert : List UInt8} {q : Talk SDMReturnCode}
    (rest : SecureDebugManagerImpl → Sdm (SDMReturnCode × SecureDebugManagerImpl))
    (ho : this.IsOpen driver) (hk : this.Keeps this') (hw : w.Idle)
    (hrest : ∀ this' w', this.Keeps this' → w'.Idle →
      Converses driver this.Quiet (rest this') q w') :
    Converses driver this.Quiet (do
      let (res, this') ← this'.sendAuthResponseCmdRequest psa cert
      if res ≠ .success then return (.internalError, this')
      let (res, this') ← this'.receiveAuthResponseCmdResponse psa fuel
      if res ≠ .success then return (.internalError, this')
      rest this') (do
      Talk.request
      let res ← Talk.receiveAuthResponseCmdResponse psa
      if res ≠ .success then return .internalError
      q) w := by
  have ho' := hk.isOpen_of ho
  refine (converses_sendAuthResponseCmdRequest ho' hw).bind fun sent _ t hsent => ?_
  obtain ⟨⟨hres, hwaiting, hheard⟩, hkeeps⟩ := hsent
  have ho₁ := hkeeps.isOpen_of ho'
  refine refines_ite_left (fun hne => absurd hres hne) fun _ => ?_
  refine (converses_receiveAuthResponseCmdResponse ho₁ hwaiting hheard).bind
    fun received res t' hreceived => ?_
  obtain ⟨⟨hcode, hidle⟩, hkeeps₁⟩ := hreceived
  have hk₁ := (hk.trans hkeeps).trans hkeeps₁
  refine refines_ite (by rw [hcode]) (fun _ => refines_pure ⟨rfl, hidle, hk₁⟩) fun _ => ?_
  exact hrest received.2 t' hk₁ hidle

theorem converses_sendCertificates {exts : List PsaTlv} (ho : this.IsOpen driver)
    (hk : this.Keeps this') (hw : w.Idle) :
    Converses driver this.Quiet (sendCertificates psa fuel exts this') (Talk.sendCertificates psa exts)
      w := by
  induction exts generalizing this' w with
  | nil => exact refines_pure ⟨rfl, hw, hk⟩
  | cons ext exts ih =>
    unfold sendCertificates Talk.sendCertificates
    refine refines_ite Iff.rfl (fun _ => ?_) fun _ => ih hk hw
    exact converses_exchange (sendCertificates psa fuel exts) ho hk hw fun _ _ hk' hw' => ih hk' hw'

theorem converses_respond {exts : List PsaTlv} {token : List UInt8} (ho : this.IsOpen driver)
    (hk : this.Keeps this') (hw : w.Idle) :
    Converses driver this.Quiet (respond psa fuel exts token this') (Talk.respond this psa exts) w := by
  unfold respond Talk.respond
  refine (converses_updateProgress hk _ _).bind fun _ _ t ht => ?_
  rw [ht]
  refine (converses_sendCertificates ho hk hw).bind fun certified res t hquiet => ?_
  obtain ⟨hcode, hidle, hk₁⟩ := hquiet
  refine refines_ite (by rw [hcode]) (fun _ => refines_pure ⟨rfl, hidle, hk₁⟩) fun _ => ?_
  refine (converses_updateProgress hk₁ _ _).bind fun _ _ t' ht' => ?_
  rw [ht']
  refine converses_exchange (fun this => do
    this.updateProgress "Finished authentication" 100
    return (.success, this)) ho hk₁ hidle fun this' w' hk' hw' => ?_
  refine (converses_updateProgress hk' _ _).bind fun _ _ t'' ht'' => ?_
  rw [ht'']
  exact refines_pure ⟨rfl, hw', hk'⟩

theorem converses_signAndRespond {credentials : Credentials} {challenge : List UInt8}
    (ho : this.IsOpen driver) (hk : this.Keeps this') (hw : w.Idle) :
    Converses driver this.Quiet (signAndRespond psa fuel credentials challenge this')
      (Talk.signAndRespond this psa credentials challenge) w := by
  rw [signAndRespond_eq, Talk.signAndRespond]
  refine (converses_updateProgress hk _ _).bind fun _ _ t ht => ?_
  rw [ht]
  refine (converses_callHost (show HostCall.Aside (.psaAdacSignToken _ _ _) from trivial)).bind
    fun signed _ t ht => ?_
  obtain ⟨rfl, rfl⟩ := ht
  refine refines_ite Iff.rfl (fun _ => refines_pure ⟨rfl, hw, hk⟩) fun _ => ?_
  refine (converses_updateProgress hk _ _).bind fun _ _ t ht => ?_
  rw [ht]
  refine (converses_callHost (show HostCall.Aside (.splitTlvStatic _) from trivial)).bind
    fun split _ t ht => ?_
  obtain ⟨rfl, rfl⟩ := ht
  refine refines_ite Iff.rfl (fun _ => refines_pure ⟨rfl, hw, hk⟩) fun _ => ?_
  exact converses_respond ho hk hw

/-- Whatever its outcome, a call that starts with nothing outstanding ends so. -/
theorem converses_sdmAuthenticate (ho : this.IsOpen driver) (hk : this.Keeps this') (hw : w.Idle) :
    Converses driver this.Quiet (this'.sdmAuthenticate psa fuel) (Talk.sdmAuthenticate this psa) w := by
  have ho' := hk.isOpen_of ho
  rw [sdmAuthenticate_eq ho'.isOpen, Talk.sdmAuthenticate]
  refine (converses_updateProgress hk _ _).bind fun _ _ t ht => ?_
  rw [ht]
  refine (converses_loadCredentials hk).bind fun loaded _ t ht => ?_
  obtain ⟨rfl, rfl⟩ := ht
  refine refines_ite Iff.rfl (fun _ => refines_pure ⟨rfl, hw, hk⟩) fun _ => ?_
  refine (converses_updateProgress hk _ _).bind fun _ _ t ht => ?_
  rw [ht]
  refine (converses_sendAuthStartCmdRequest ho' hw).bind fun sent _ t hsent => ?_
  obtain ⟨hres, hwaiting, hheard⟩ := hsent
  refine refines_ite_left (fun hne => absurd hres hne) fun _ => ?_
  refine (converses_updateProgress hk _ _).bind fun _ _ t' ht' => ?_
  rw [ht']
  refine (converses_receiveAuthStartCmdResponse ho' hwaiting hheard).bind
    fun received b t'' hreceived => ?_
  obtain ⟨⟨hcode, hchallenge, hidle⟩, hkeeps⟩ := hreceived
  have hk₁ := hk.trans hkeeps
  refine refines_ite (by rw [hcode]) (fun _ => refines_pure ⟨rfl, hidle, hk₁⟩) fun _ => ?_
  rw [hchallenge]
  exact converses_signAndRespond ho hk₁ hidle

/-! ### Sessions -/

/-- Calls of `SDMAuthenticate` one after the other, whatever each returns, and their codes; `fuels`
has the turns of the receive loop looked at in each. -/
def session (psa : PsaAdac) :
    List Nat → SecureDebugManagerImpl → Sdm (List SDMReturnCode × SecureDebugManagerImpl)
  | [], this => return ([], this)
  | fuel :: fuels, this => do
    let (res, this) ← this.sdmAuthenticate psa fuel
    let (codes, this) ← session psa fuels this
    return (res :: codes, this)

theorem converses_session (psa : PsaAdac) (fuels : List Nat) (ho : this.IsOpen driver)
    (hk : this.Keeps this') (hw : w.Idle) :
    Converses driver (fun out codes w' => out.1 = codes ∧ w'.Idle) (session psa fuels this')
      (Talk.session this psa fuels.length) w := by
  induction fuels generalizing this' w with
  | nil => exact refines_pure ⟨rfl, hw⟩
  | cons fuel fuels ih =>
    rw [session, List.length_cons, Talk.session]
    refine (converses_sdmAuthenticate ho hk hw).bind fun out res t hquiet => ?_
    refine (ih hquiet.keeps hquiet.idle).bind fun rest codes t' hrest => ?_
    refine refines_pure ⟨?_, hrest.2⟩
    rw [hquiet.code, hrest.1]

/-! ### Runs of a session -/

def cleanReads (driver : ExternalComPortDriver) (bytes : List UInt8) : Trace :=
  (bytes.map ExternalComPortDriver.cleanRead).map driver.readEvent

theorem cleanReads_clean {bytes : List UInt8} {a : AccessResult}
    (h : a ∈ bytes.map ExternalComPortDriver.cleanRead) :
    a.result = .success ∧ a.accessesCompleted = 1 := by
  obtain ⟨byte, -, rfl⟩ := List.mem_map.mp h
  exact ⟨rfl, rfl⟩

theorem map_dataByte_cleanRead (bytes : List UInt8) :
    (bytes.map ExternalComPortDriver.cleanRead).map dataByte = bytes := by
  have hbyte : dataByte ∘ ExternalComPortDriver.cleanRead = id :=
    funext UInt8.toUInt8_toUInt32
  rw [List.map_map, hbyte, List.map_id]

theorem traffic_cleanReads (bytes : List UInt8) :
    driver.traffic (cleanReads driver bytes) = bytes.map .read := by
  have hclean (a : AccessResult) (ha : a ∈ bytes.map ExternalComPortDriver.cleanRead) :
      a.result = .success ∧ a.accessesCompleted = 1 := cleanReads_clean ha
  rw [cleanReads, driver.traffic_readEvents hclean, map_dataByte_cleanRead]

theorem neverErrs_cleanReads (bytes : List UInt8) : driver.NeverErrs (cleanReads driver bytes) := by
  intro e he
  obtain ⟨a, ha, rfl⟩ := List.mem_map.mp he
  obtain ⟨hres, hdone⟩ := cleanReads_clean ha
  refine ⟨hres, hdone, fun heq => ?_⟩
  have hop := congrArg SDMRegisterAccess.address (List.singleton_inj.mp heq)
  exact absurd (driver.regAddr_inj.mp hop) (by decide)

theorem run_awaitChallenge_of_receives {credentials : Credentials} {l : Trace}
    {bytes : List UInt8} {out : RxResult} (ho : this.IsOpen driver)
    (hcb : driver.mRegisterAccessCallback = true)
    (hrequest : Run (this.requestChallenge psa) l (.ok (.success, credentials)))
    (hrec : Receives flagSTART maxPacket (rxStateOf this.mMsgBuffer 0 {}) bytes out)
    (hfuel : bytes.length ≤ fuel) :
    Run (this.awaitChallenge psa fuel) (l ++ cleanReads driver bytes)
      (.ok (out.res, credentials, out.rxBuffer)) := by
  have hclean (a : AccessResult) (ha : a ∈ bytes.map ExternalComPortDriver.cleanRead) :
      a.result = .success ∧ a.accessesCompleted = 1 := cleanReads_clean ha
  have hloop := ExternalComPortDriver.run_of_receives hrec hcb hclean
    (map_dataByte_cleanRead bytes) hfuel
  have hreceive : Run (this.responsePacketReceive fuel this.mMsgBuffer
      (this.mMsgBuffer.length - sizeofPacket)) (cleanReads driver bytes)
      (.ok (out.res, out.rxBuffer)) := by
    unfold responsePacketReceive
    rw [ho.size, if_neg (by decide), ho.attached, deref_some, pure_bind,
      ExternalComPortDriver.eComPortRx, ho.inited, ← List.append_nil (cleanReads driver bytes)]
    exact Run.bind_ok hloop (.ret _)
  unfold awaitChallenge
  refine hrequest.bind_ok ?_
  dsimp only
  rw [if_neg (not_not.mpr rfl), ← List.append_nil (cleanReads driver bytes)]
  exact hreceive.bind_ok (.ret _)

theorem run_sdmAuthenticate_of_late {credentials : Credentials} {l : Trace} {bytes : List UInt8}
    {out : RxResult} (ho : this.IsOpen driver) (hcb : driver.mRegisterAccessCallback = true)
    (hrequest : Run (this.requestChallenge psa) l (.ok (.success, credentials)))
    (hrec : Receives flagSTART maxPacket (rxStateOf this.mMsgBuffer 0 {}) bytes out)
    (hfuel : bytes.length ≤ fuel) (hres : out.res ≠ .success) :
    Run (this.sdmAuthenticate psa fuel) (l ++ cleanReads driver bytes)
      (.ok (.internalError, { this with mMsgBuffer := out.rxBuffer })) := by
  have hawait := run_awaitChallenge_of_receives ho hcb hrequest hrec hfuel
  rw [sdmAuthenticate_eq_await ho.isOpen, ← List.append_nil (l ++ cleanReads driver bytes)]
  refine hawait.bind_ok ?_
  dsimp only
  rw [takeChallenge, if_pos hres]
  exact .ret _

theorem exists_run_session {β : Type} (fuels : List Nat) {credentials : Credentials} {l : Trace}
    {bytes : List UInt8} {out : RxResult} {f : List SDMReturnCode × SecureDebugManagerImpl → Sdm β}
    (ho : this.IsOpen driver) (hcb : driver.mRegisterAccessCallback = true)
    (hrequest : Run (this.requestChallenge psa) l (.ok (.success, credentials)))
    (hrec : Receives flagSTART maxPacket (rxStateOf this.mMsgBuffer 0 {}) bytes out)
    (hfuel : bytes.length ≤ fuel) :
    ∃ l' r, Run (session psa (fuel :: fuels) this >>= f) (l ++ cleanReads driver bytes ++ l') r := by
  have hawait := run_awaitChallenge_of_receives ho hcb hrequest hrec hfuel
  rw [session, sdmAuthenticate_eq_await ho.isOpen, bind_assoc, bind_assoc]
  exact Machine.exists_run_bind scripted [] hawait

def requestTrace : Trace := (scripted.exec (opened.requestChallenge .standard) [⟨.success, 10, []⟩]).2.1

theorem run_requestTrace (buffer : List UInt8) :
    Run ({ opened with mMsgBuffer := buffer }.requestChallenge .standard) requestTrace
      (.ok (.success, {})) := by
  have hres : (scripted.exec (opened.requestChallenge .standard) [⟨.success, 10, []⟩]).1 =
      .ok (.success, {}) := by decide +kernel
  have hrun := Machine.exec_run scripted (opened.requestChallenge .standard) [⟨.success, 10, []⟩]
  rw [hres] at hrun
  exact hrun

theorem traffic_requestTrace : ExternalComPortDriver.inited.traffic requestTrace =
    ((sdc600 flagSTART).frame [0, 0, 2, 0, 0, 0, 0, 0]).map (.wrote · true) := by decide +kernel

theorem neverErrs_requestTrace : ExternalComPortDriver.inited.NeverErrs requestTrace := by
  show ∀ e ∈ requestTrace, ExternalComPortDriver.inited.FineAnswer e
  decide +kernel

theorem room_buffer {buffer : List UInt8} (h : buffer.length = bufferSize) :
    Room maxPacket buffer := ⟨by decide, by rw [h]; decide⟩

theorem flag_not_mem_nulls {flag : UInt8} (h : flag ≠ flagNULL) (n : Nat) :
    flag ∉ List.replicate n flagNULL := fun hmem => h (List.eq_of_mem_replicate hmem)

theorem not_fits_nulls {n : Nat} (h : maxPreNullFlags < n) :
    ¬Receiver.Fits (sdc600 flagSTART) maxPreNullFlags maxPacket {} (List.replicate n flagNULL) := by
  have hlawful := lawful_start
  have hsplit := List.splitOn_eq_singleton (flag_not_mem_nulls (show flagSTART ≠ flagNULL by decide) n)
  have hcount := Receiver.leadingNulls_replicate (A := sdc600 flagSTART) hlawful.start_ne_null n
  intro hfits
  have hiff := Receiver.fits_iff (A := sdc600 flagSTART) hlawful.start_ne_null hlawful.start_ne_esc
    hlawful.esc_ne_null (Receiver.ok_nil : Receiver.Ok maxPreNullFlags maxPacket {}) hsplit
  have hle := (hiff.mp hfits).1
  have hwait : 0 + Receiver.leadingNulls (sdc600 flagSTART) (List.replicate n flagNULL) ≤
      maxPreNullFlags := hle
  rw [Nat.zero_add] at hwait
  exact absurd (hcount.symm.trans_le hwait) (Nat.not_le.mpr h)

/-- The shortest answer that is whole, a header that declares no data. -/
def bareAnswer : List UInt8 := List.replicate 8 0

/-- Two calls: the first is given no challenge, the second succeeds. -/
def toldTrace : Trace :=
  (scripted.exec (session .standard [60, 60] opened)
    (dialogueScript [bareAnswer, startAnswer 0, bareAnswer])).2.1

def told : Target where
  requests := 3
  answers := 3
  answer := bareAnswer
  heard := (sdc600 flagSTART).frame bareAnswer

theorem traffic_toldTrace : ExternalComPortDriver.inited.traffic toldTrace =
    (((sdc600 flagSTART).frame [0, 0, 2, 0, 0, 0, 0, 0]).map (.wrote · true) ++
        ((sdc600 flagSTART).frame bareAnswer).map .read) ++
      (((sdc600 flagSTART).frame [0, 0, 2, 0, 0, 0, 0, 0]).map (.wrote · true) ++
        ((sdc600 flagSTART).frame (startAnswer 0)).map .read) ++
      (((sdc600 flagSTART).frame [0, 0, 3, 0, 0, 0, 0, 0]).map (.wrote · true) ++
        ((sdc600 flagSTART).frame bareAnswer).map .read) := by decide +kernel

theorem neverErrs_toldTrace : ExternalComPortDriver.inited.NeverErrs toldTrace := by
  show ∀ e ∈ toldTrace, ExternalComPortDriver.inited.FineAnswer e
  decide +kernel

/-- As long as the target keeps the pace of the receive routine with answers that are whole and no
access fails, the session has come as far as the conversation in which each response is the target's
answer as it is, and every flag that is read belongs to the answer to the request sent last. -/
theorem session_paired {fuels : List Nat} {l₁ l₂ : Trace} {es : List (Event Conversation)}
    {r : Except Stop (List SDMReturnCode × SecureDebugManagerImpl)} (ho : this.IsOpen driver)
    (hrun : Run (session psa fuels this) (l₁ ++ l₂) r)
    (hshows : (Target.world driver timely).Shows {} l₁ es w) :
    (∃ q, Reaches (Talk.session this psa fuels.length) es q ∧
      (l₂ = [] → ∀ out, r = .ok out → q = pure out.1)) ∧
    ∀ l e byte, l₁ = l ++ [e] → driver.traffic [e] = [.read byte] → byte ≠ flagNULL →
      w.answers = w.requests := by
  have hsession : Converses driver _ (session psa fuels this) _ {} :=
    converses_session psa fuels ho .refl ⟨rfl, rfl, rfl⟩
  constructor
  · obtain ⟨q, hreaches, hend⟩ := hsession.reaches hrun hshows
    refine ⟨q, hreaches, fun hl₂ out hout => ?_⟩
    obtain ⟨codes, hq, hcodes, -⟩ := hend hl₂ out hout
    rw [hq, hcodes]
  · intro l e byte hl hread hnull
    subst hl
    rw [List.append_assoc, List.singleton_append] at hrun
    exact hsession.good_of_run hrun hshows byte hread hnull

theorem session_paired_told : ∃ es, (Target.world .inited timely).Shows {} toldTrace es told ∧
    Reaches (Talk.session opened .standard 2) es (pure [.internalError, .success]) := by
  obtain ⟨this', hrun⟩ := exists_run_of_exec (session .standard [60, 60] opened)
    (dialogueScript [bareAnswer, startAnswer 0, bareAnswer]) [.internalError, .success]
    (by decide +kernel)
  have hrun : Run (session .standard [60, 60] opened) (toldTrace ++ [])
      (.ok ([.internalError, .success], this')) := by
    rw [List.append_nil]
    exact hrun
  have hbare : timely.answer bareAnswer := ⟨by decide, by decide⟩
  have hstart : timely.answer (startAnswer 0) := ⟨by decide, by decide⟩
  have hidle (n : Nat) (answer heard : List UInt8) :
      Target.Idle { requests := n, answers := n, answer, heard } := ⟨rfl, rfl, rfl⟩
  have hsteps : Steps (Target.Step timely) {} (ExternalComPortDriver.inited.traffic toldTrace) told := by
    rw [traffic_toldTrace]
    exact steps_append.mpr ⟨_, steps_append.mpr ⟨_, (hidle 0 [] []).steps_exchange hbare,
      (hidle 1 _ _).steps_exchange hstart⟩, (hidle 2 _ _).steps_exchange hbare⟩
  obtain ⟨es, hshows⟩ := exists_shows (W := Target.world .inited timely)
    (Target.steps_serves.mpr ⟨neverErrs_toldTrace, hsteps⟩)
  obtain ⟨q, hreaches, hend⟩ := (session_paired isOpen_opened hrun hshows).1
  rw [hend rfl _ rfl] at hreaches
  exact ⟨es, hshows, hreaches⟩

/-! ### A late answer -/

/-- A request, `n` idle flags, another request, and an answer. -/
def lateTrace (n : Nat) : Trace :=
  (requestTrace ++ cleanReads .inited (List.replicate n flagNULL)) ++
    (requestTrace ++ cleanReads .inited ((sdc600 flagSTART).frame bareAnswer))

/-- The first call reads nothing but idle flags and gives up, and the second one reads a frame. -/
theorem exists_run_lateTrace : ∃ n l r, Run (session .standard [10001, 10] opened)
    (lateTrace n ++ l) r := by
  have hflag : IsStartFlag flagSTART := .inl rfl
  obtain ⟨bytes, out, hprefix, hres, -, hrec⟩ := exists_receives_of_not_fits 0 hflag
    (room_buffer isOpen_opened.size) (flag_not_mem_nulls (by decide) 10001) Receiver.ok_nil
    (not_fits_nulls (by decide))
  obtain ⟨hlen, hbytes⟩ := List.prefix_replicate_iff.mp hprefix
  have hfirst := run_sdmAuthenticate_of_late isOpen_opened rfl (run_requestTrace opened.mMsgBuffer)
    hrec hlen hres
  have ho : { opened with mMsgBuffer := out.rxBuffer }.IsOpen .inited :=
    (returns_sdmAuthenticate _ _ hfirst).isOpen_of isOpen_opened
  have hframe : Receives flagSTART maxPacket (rxStateOf out.rxBuffer 0 {})
      ((sdc600 flagSTART).frame bareAnswer) ⟨.success, overlay out.rxBuffer bareAnswer, 8⟩ :=
    receives_frame (room_buffer ho.size) (by decide) rfl (by decide)
  obtain ⟨l, r, hsecond⟩ := exists_run_session [] ho rfl (run_requestTrace out.rxBuffer) hframe
    (Nat.le_refl 10)
  refine ⟨bytes.length, l, r, ?_⟩
  rw [lateTrace, ← hbytes, List.append_assoc]
  exact Run.bind_ok hfirst hsecond

/-- The target takes a request, waits, takes another one and then answers the first. -/
theorem exists_shows_lateTrace (n : Nat) : ∃ es w,
    (Target.world .inited anyPace).Shows {} (lateTrace n) es w ∧ w.answers = 1 ∧ w.requests = 2 := by
  obtain ⟨w, hwait, hrest, hrequests, hanswers⟩ :=
    Target.exists_steps_wait (w := { requests := 1 }) ⟨rfl, Nat.one_pos⟩ n
  have htaken (w : Target) : Steps (Target.Step anyPace) w
      (((sdc600 flagSTART).frame [0, 0, 2, 0, 0, 0, 0, 0]).map (.wrote · true))
      { w with requests := w.requests + 1, heard := [] } := Target.steps_frame.mpr rfl
  have hdue : Target.Due { w with requests := w.requests + 1, heard := [] } :=
    ⟨hrest, by dsimp only; rw [hanswers]; exact Nat.succ_pos _⟩
  have hanswer := Target.steps_answer hdue (show anyPace.answer bareAnswer from trivial)
  have hsteps := steps_append.mpr ⟨_, steps_append.mpr ⟨_, htaken {}, hwait⟩,
    steps_append.mpr ⟨_, htaken w, hanswer⟩⟩
  rw [← traffic_requestTrace, ← traffic_cleanReads, ← traffic_cleanReads,
    ← ExternalComPortDriver.traffic_append, ← ExternalComPortDriver.traffic_append,
    ← ExternalComPortDriver.traffic_append] at hsteps
  have hfine : ExternalComPortDriver.inited.NeverErrs (lateTrace n) := by
    simp only [lateTrace, ExternalComPortDriver.neverErrs_append]
    exact ⟨⟨neverErrs_requestTrace, neverErrs_cleanReads _⟩, neverErrs_requestTrace,
      neverErrs_cleanReads _⟩
  obtain ⟨es, hshows⟩ := exists_shows (W := Target.world .inited anyPace)
    (Target.steps_serves.mpr ⟨hfine, hsteps⟩)
  refine ⟨es, _, hshows, ?_, ?_⟩
  · dsimp only
    rw [hanswers]
  · dsimp only
    rw [hrequests]

/-- A target that does not answer in time: the call that waited gives up, and the next one takes the
answer to its request. -/
theorem session_paired_late :
    ¬∀ (psa : PsaAdac) (this : SecureDebugManagerImpl) (driver : ExternalComPortDriver)
      (fuels : List Nat) (l₁ l₂ : Trace) (es : List (Event Conversation))
      (r : Except Stop (List SDMReturnCode × SecureDebugManagerImpl)) (w : Target),
      this.IsOpen driver → Run (session psa fuels this) (l₁ ++ l₂) r →
      (Target.world driver anyPace).Shows {} l₁ es w →
      (∃ q, Reaches (Talk.session this psa fuels.length) es q ∧
        (l₂ = [] → ∀ out, r = .ok out → q = pure out.1)) ∧
      ∀ l e byte, l₁ = l ++ [e] → driver.traffic [e] = [.read byte] → byte ≠ flagNULL →
        w.answers = w.requests := by
  intro h
  obtain ⟨n, l, r, hrun⟩ := exists_run_lateTrace
  obtain ⟨es, w, hshows, hanswers, hrequests⟩ := exists_shows_lateTrace n
  -- the last byte is the end flag of the answer to the first request
  have hlast : lateTrace n = (requestTrace ++ cleanReads .inited (List.replicate n flagNULL) ++
        (requestTrace ++ cleanReads .inited (flagSTART :: bareAnswer))) ++
      [ExternalComPortDriver.inited.readEvent (ExternalComPortDriver.cleanRead flagEND)] := by
    rw [lateTrace, List.append_assoc, List.append_assoc, List.append_assoc, List.append_assoc]
    rfl
  have hpaired := (h _ _ _ _ _ _ _ _ _ isOpen_opened hrun hshows).2 _ _ flagEND hlast
    (traffic_cleanReads [flagEND]) (by decide)
  rw [hanswers, hrequests] at hpaired
  exact absurd hpaired (by decide)

end SecureDebugManagerImpl
end SecureDebug
