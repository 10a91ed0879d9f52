import SecureDebug.Driver.Passage
import SecureDebug.Manager.Exchanges
import SecureDebug.Manager.Requests

/-! The message buffer and what is written into it. The receives pass its size on; a certificate is
copied whatever its length. -/

namespace SecureDebug
open Interaction Program Framing

/-! ### What stays inside -/

section
variable {startFlag : UInt8} {rxBufferLength : Nat}

theorem Turn.within {s s' : RxState} {byte : UInt8} (h : Turn startFlag rxBufferLength s byte s') :
    s'.rxBuffer.drop rxBufferLength = s.rxBuffer.drop rxBufferLength := by
  cases h with
  | null => rfl
  | esc => rfl
  | start => rfl
  | data _ hroom => exact List.drop_set_of_lt hroom

theorem memory_within {s : RxState} {byte : UInt8} {step : RxStep} (hflag : IsStartFlag startFlag)
    (h : rxStep startFlag rxBufferLength s byte = .ok step) :
    step.memory.drop rxBufferLength = s.rxBuffer.drop rxBufferLength := by
  cases step with
  | done out =>
    have hout := (rxStep_done hflag h).2
    rw [hout]
    rfl
  | more s' => exact ((rxStep_more_iff hflag).mp h).within

theorem rxStep_ne_outOfBounds {s : RxState} {byte : UInt8} (hflag : IsStartFlag startFlag)
    (hmem : rxBufferLength ≤ s.rxBuffer.length) :
    rxStep startFlag rxBufferLength s byte ≠ .error .outOfBounds := by
  have hturns : (∃ s', Turn startFlag rxBufferLength s byte s') ∨ _ :=
    turn_or_leaves byte fun hroom => Nat.lt_of_lt_of_le hroom hmem
  rcases hturns with ⟨s', hturn⟩ | ⟨res, hdone⟩
  · rw [(rxStep_more_iff hflag).mpr hturn]
    intro h
    cases h
  · rw [hdone]
    intro h
    cases h

end

namespace ExternalComPortDriver
variable {driver : ExternalComPortDriver} {startFlag : UInt8} {rxBufferLength fuel : Nat}

theorem avoids_registerAccess {accesses : List SDMRegisterAccess} :
    Avoids (driver.registerAccess accesses) .outOfBounds :=
  avoids_ite (fun _ => avoids_perform) fun _ => avoids_halt (by decide)

theorem returns_rxLoop_within {s : RxState} (hflag : IsStartFlag startFlag) :
    Returns (driver.rxLoop startFlag rxBufferLength fuel s) fun out =>
      out.rxBuffer.drop rxBufferLength = s.rxBuffer.drop rxBufferLength := by
  induction fuel generalizing s with
  | zero => exact returns_halt
  | succ fuel ih =>
    rw [rxLoop_eq]
    refine returns_true.bind fun a _ => ?_
    refine returns_ite (fun _ => returns_pure rfl) fun _ => ?_
    refine (returns_lift fun step hstep => memory_within hflag hstep).bind fun step hwithin => ?_
    cases step with
    | done out => exact returns_pure hwithin
    | more s' => exact ih.mono fun out hout => hout.trans hwithin

theorem avoids_rxLoop {s : RxState} (hflag : IsStartFlag startFlag)
    (hmem : rxBufferLength ≤ s.rxBuffer.length) :
    Avoids (driver.rxLoop startFlag rxBufferLength fuel s) .outOfBounds := by
  induction fuel generalizing s with
  | zero => exact avoids_halt (by decide)
  | succ fuel ih =>
    rw [rxLoop_eq]
    refine avoids_registerAccess.bind fun _ a _ => avoids_ite (fun _ => avoids_pure) fun _ => ?_
    refine (avoids_lift (rxStep_ne_outOfBounds hflag hmem)).bind fun _ step hstep => ?_
    cases step with
    | done out => exact avoids_pure
    | more s' =>
      have hlen : s'.rxBuffer.length = s.rxBuffer.length := length_memory (run_lift.mp hstep).2.symm
      exact ih (hlen ▸ hmem)

theorem returns_eComPortRx_within {rxBuffer : List UInt8} {actualLength : Nat} :
    Returns (driver.eComPortRx fuel rxBuffer rxBufferLength actualLength) fun out =>
      out.rxBuffer.drop rxBufferLength = rxBuffer.drop rxBufferLength :=
  returns_ite (fun _ => returns_pure rfl) fun _ => returns_rxLoop_within (.inl rfl)

theorem avoids_eComPortRx {rxBuffer : List UInt8} {actualLength : Nat}
    (hmem : rxBufferLength ≤ rxBuffer.length) :
    Avoids (driver.eComPortRx fuel rxBuffer rxBufferLength actualLength) .outOfBounds :=
  avoids_ite (fun _ => avoids_pure) fun _ => avoids_rxLoop (.inl rfl) hmem

end ExternalComPortDriver

namespace SecureDebugManagerImpl
variable {this this' : SecureDebugManagerImpl} {driver : ExternalComPortDriver} {psa : PsaAdac}
  {fuel : Nat} {l : Trace} {buffer cert : List UInt8}

theorem avoids_deref {β : Type} {a : Option β} : Avoids (deref a) .outOfBounds := by
  cases a with
  | none => exact avoids_halt (by decide)
  | some a => exact avoids_pure

theorem avoids_updateProgress {progressMessage : String} {percentComplete : UInt8} :
    Avoids (this.updateProgress progressMessage percentComplete) .outOfBounds :=
  avoids_deref.bind fun _ _ _ => avoids_ite (fun _ => avoids_perform) fun _ => avoids_pure

theorem avoids_loadCredentials : Avoids this.loadCredentials .outOfBounds := by
  refine avoids_deref.bind fun _ _ _ => avoids_ite (fun _ => avoids_pure) fun _ => ?_
  refine avoids_perform.bind fun _ _ _ => avoids_ite (fun _ => avoids_pure) fun _ => ?_
  refine avoids_perform.bind fun _ _ _ => avoids_ite (fun _ => avoids_pure) fun _ => ?_
  exact avoids_perform.bind fun _ _ _ => avoids_ite (fun _ => avoids_pure) fun _ => avoids_pure

theorem avoids_responsePacketReceive {packet : List UInt8} {max : Nat}
    (hmem : max ≤ packet.length) : Avoids (this.responsePacketReceive fuel packet max) .outOfBounds :=
  avoids_ite (fun _ => avoids_pure) fun _ => avoids_deref.bind fun _ _ _ =>
    (ExternalComPortDriver.avoids_eComPortRx hmem).bind fun _ _ _ => avoids_pure

theorem returns_responsePacketReceive_within {packet : List UInt8} {max : Nat} :
    Returns (this.responsePacketReceive fuel packet max) fun out =>
      out.2.drop max = packet.drop max := by
  refine returns_ite (fun _ => returns_pure rfl) fun _ => returns_true.bind fun _ _ => ?_
  exact ExternalComPortDriver.returns_eComPortRx_within.bind fun _ hwithin => returns_pure hwithin

theorem avoids_receiveAuthStartCmdResponse (ho : this.IsOpen driver) :
    Avoids (this.receiveAuthStartCmdResponse psa fuel) .outOfBounds := by
  refine (avoids_responsePacketReceive (Nat.sub_le _ _)).bind fun _ out hrun => ?_
  have hlen : out.2.length = bufferSize := (returns_responsePacketReceive _ _ hrun).trans ho.size
  refine avoids_ite (fun _ => avoids_pure) fun _ => avoids_ite (fun _ => avoids_pure) fun _ => ?_
  refine Avoids.bind (avoids_lift ?_) fun _ _ _ => avoids_pure
  have hchallenge := psa.challenge_le
  have hmax : bufferSize = 4096 := rfl
  rw [peek, if_pos]
  · intro h
    cases h
  · rw [hlen, sizeofPacket]
    omega

theorem avoids_receiveAuthResponseCmdResponse :
    Avoids (this.receiveAuthResponseCmdResponse psa fuel) .outOfBounds :=
  (avoids_responsePacketReceive (Nat.sub_le _ _)).bind fun _ _ _ =>
    avoids_ite (fun _ => avoids_pure) fun _ => avoids_ite (fun _ => avoids_pure) fun _ => avoids_pure

theorem avoids_requestPacketSend {packet : List UInt8} (ho : this.IsOpen driver)
    (hsize : packet.length ≤ bufferSize)
    (hcount : sizeofPacket + 4 * packetDataCount packet ≤ packet.length) :
    Avoids (this.requestPacketSend packet) .outOfBounds := by
  have hlen : (packet.take (sizeofPacket + 4 * packetDataCount packet)).length ≤ bufferSize :=
    (List.length_take_le' _ _).trans hsize
  rw [requestPacketSend, ho.attached, deref_some, pure_bind, peek, Nat.zero_add, if_pos hcount,
    List.drop_zero]
  show Avoids (driver.eComPortTx _ 0 true >>= _) _
  rw [ExternalComPortDriver.eComPortTx_packet ho.inited hlen, bind_assoc]
  exact ExternalComPortDriver.avoids_registerAccess.bind fun _ _ _ => avoids_pure

theorem avoids_sendAuthStartCmdRequest (ho : this.IsOpen driver) :
    Avoids (this.sendAuthStartCmdRequest psa) .outOfBounds := by
  refine avoids_perform.bind fun _ reserved _ => ?_
  have hreserved : reserved.toList.length = 2 := reserved.length_toList
  have hfront : (reserved.toList ++ leBytes 2 psa.adacAuthStartCmd).length = 4 := by
    rw [List.length_append, length_leBytes, hreserved]
  have hlen : (reserved.toList ++ leBytes 2 psa.adacAuthStartCmd ++ leBytes 4 0).length = 8 := by
    rw [List.length_append, hfront, length_leBytes]
  apply avoids_requestPacketSend ho
  · rw [hlen]
    decide
  · rw [packetDataCount, List.drop_left' hfront, hlen]
    decide

theorem avoids_exchangeChallenge (ho : this.IsOpen driver) :
    Avoids (exchangeChallenge psa fuel this) .outOfBounds := by
  rw [exchangeChallenge, requestChallenge]
  apply Avoids.bind
  · refine avoids_updateProgress.bind fun _ _ _ => ?_
    refine avoids_loadCredentials.bind fun _ _ _ => avoids_ite (fun _ => avoids_pure) fun _ => ?_
    refine avoids_updateProgress.bind fun _ _ _ => ?_
    refine (avoids_sendAuthStartCmdRequest ho).bind fun _ _ _ => ?_
    refine avoids_ite (fun _ => avoids_pure) fun _ => ?_
    exact avoids_updateProgress.bind fun _ _ _ => avoids_pure
  · intro _ requested _
    refine avoids_ite (fun _ => avoids_pure) fun _ => ?_
    exact (avoids_receiveAuthStartCmdResponse ho).bind fun _ _ _ => avoids_pure

theorem avoids_sendAuthResponseCmdRequest (ho : this.IsOpen driver)
    (hfits : sizeofPacket + cert.length ≤ bufferSize) :
    Avoids (this.sendAuthResponseCmdRequest psa cert) .outOfBounds := by
  obtain ⟨packet, this', -, heq⟩ := sendAuthResponseCmdRequest_eq psa ho hfits
  rw [heq]
  exact ExternalComPortDriver.avoids_registerAccess.bind fun _ _ _ => avoids_pure

/-! ### Exchanges with a certificate that does not fit -/

/-- It is the turn of a certificate for which the buffer is too small. -/
def Overlong (psa : PsaAdac) (buffer : List UInt8) (es : List Exchange) (rs : List (List UInt8)) :
    Prop :=
  ∃ es₁ cert es₂, es = es₁ ++ .response cert :: es₂ ∧ bufferSize < sizeofPacket + cert.length ∧
    List.Forall₂ (Exchange.Accepts psa buffer) es₁ rs

section
variable {es es' : List Exchange} {rs rs' : List (List UInt8)} {t : List Observation}

theorem not_overlong_nil : ¬Overlong psa buffer [] rs := by
  intro h
  obtain ⟨es₁, cert, es₂, hes, -⟩ := h
  cases es₁ <;> cases hes

theorem not_overlong_start : ¬Overlong psa buffer [.start] rs := by
  intro h
  obtain ⟨es₁, cert, es₂, hes, -⟩ := h
  cases es₁ with
  | nil => cases hes
  | cons e es₁ => cases es₁ <;> cases hes

theorem overlong_response (hlong : bufferSize < sizeofPacket + cert.length) :
    Overlong psa buffer [.response cert] [] := ⟨[], cert, [], rfl, hlong, .nil⟩

theorem not_overlong_response (hfits : sizeofPacket + cert.length ≤ bufferSize) :
    ¬Overlong psa buffer [.response cert] rs := by
  intro h
  obtain ⟨es₁, cert', es₂, hes, hlong, -⟩ := h
  cases es₁ with
  | nil =>
    cases hes
    exact absurd hfits (Nat.not_le.mpr hlong)
  | cons e es₁ => cases es₁ <;> cases hes

theorem overlong_append_of_done (h : List.Forall₂ (Exchange.Accepts psa buffer) es rs) :
    Overlong psa buffer (es ++ es') (rs ++ rs') ↔ Overlong psa buffer es' rs' := by
  induction h with
  | nil => exact Iff.rfl
  | @cons e bytes es rs haccepts _ ih =>
    rw [← ih]
    constructor
    · intro hover
      obtain ⟨es₁, cert, es₂, hes, hlong, hall⟩ := hover
      cases es₁ with
      | nil => cases hall
      | cons e' es₁ =>
        obtain ⟨rfl, htail⟩ := List.cons.inj hes
        exact ⟨es₁, cert, es₂, htail, hlong, (List.forall₂_cons.mp hall).2⟩
    · intro hover
      obtain ⟨es₁, cert, es₂, hes, hlong, hall⟩ := hover
      refine ⟨e :: es₁, cert, es₂, ?_, hlong, .cons haccepts hall⟩
      rw [List.cons_append, hes, List.cons_append]

/-- Where the exchanges are cut short it is never the turn of what would come behind them. -/
theorem overlong_append_of_cut (h : (authSteps psa buffer).Follows (lockstep es) t false) :
    Overlong psa buffer (es ++ es') (replies t) ↔ Overlong psa buffer es (replies t) := by
  constructor
  · intro hover
    obtain ⟨es₁, cert, es₂, hes, hlong, hall⟩ := hover
    rcases List.append_eq_append_iff.mp hes with ⟨as, rfl, -⟩ | ⟨as, rfl, has⟩
    · -- then all of `es` would have been answered
      have hcut : (authSteps psa buffer).Follows (lockstep (es ++ as)) t false := by
        rw [lockstep_append]
        exact h.append_cut
      cases (completed_iff hcut).mpr hall
    · cases as with
      | nil =>
        rw [List.append_nil] at h
        cases (completed_iff h).mpr hall
      | cons e as =>
        obtain ⟨rfl, -⟩ := List.cons.inj has
        exact ⟨es₁, cert, as, rfl, hlong, hall⟩
  · intro hover
    obtain ⟨es₁, cert, es₂, rfl, hlong, hall⟩ := hover
    refine ⟨es₁, cert, es₂ ++ es', ?_, hlong, hall⟩
    rw [List.append_assoc, List.cons_append]

end

/-- A program that goes through these exchanges, and leaves its buffer just if it is the turn of a
certificate that does not fit. -/
structure Conducts {β : Type} (psa : PsaAdac) (buffer : List UInt8) (driver : ExternalComPortDriver)
    (p : Sdm β) (good : β → Prop) (es : List Exchange) : Prop where
  carries : Carries (authSteps psa buffer) driver.traffic p good (lockstep es)
  overruns : ∀ l r, Run p l r →
    (r = .error .outOfBounds ↔ Overlong psa buffer es (replies (driver.traffic l)))

section
variable {β γ : Type} {p : Sdm β} {f : β → Sdm γ} {good : β → Prop} {fine : γ → Prop}
  {es es' : List Exchange}

theorem conducts_pure {b : β} (h : good b) : Conducts psa buffer driver (pure b) good [] where
  carries := carries_pure driver.traffic_nil h
  overruns l r hrun := by
    rw [(run_pure.mp hrun).2]
    exact iff_of_false (fun hr => by cases hr) not_overlong_nil

/-- Whether it is the turn of an overlong certificate is decided where the first part fails, and else
by the rest. -/
theorem Conducts.overruns_bind {l : Trace} {r : Except Stop γ} (hp : Conducts psa buffer driver p good es)
    (hrest : ∀ l₁ b l₂, l = l₁ ++ l₂ → Run p l₁ (.ok b) → good b → Run (f b) l₂ r →
      ∃ c, (authSteps psa buffer).Follows (lockstep es') (driver.traffic l₂) c ∧
        (r = .error .outOfBounds ↔ Overlong psa buffer es' (replies (driver.traffic l₂))))
    (hstop : ∀ b, ¬good b → ∃ c, f b = pure c) (hrun : Run (p >>= f) l r) :
    r = .error .outOfBounds ↔ Overlong psa buffer (es ++ es') (replies (driver.traffic l)) := by
  rcases run_bind.mp hrun with ⟨b, l₁, l₂, hl, h₁, h₂⟩ | ⟨e, rfl, he⟩
  · obtain ⟨c, hfollows, hc⟩ := hp.carries _ _ h₁
    cases c with
    | true =>
      obtain ⟨b', hb', hgood⟩ := hc.mp rfl
      obtain rfl := Except.ok.inj hb'
      obtain ⟨c', hfollows', hover⟩ := hrest l₁ b l₂ hl h₁ hgood h₂
      rw [hl, ExternalComPortDriver.traffic_append, replies_append (begins_of_follows hfollows'),
        overlong_append_of_done ((completed_iff hfollows).mp rfl)]
      exact hover
    | false =>
      -- the program returns with what has failed, inside its buffer
      have hbad : ¬good b := fun hgood => Bool.false_ne_true (hc.mpr ⟨b, rfl, hgood⟩)
      obtain ⟨c, hf⟩ := hstop b hbad
      rw [hf] at h₂
      obtain ⟨rfl, rfl⟩ := run_pure.mp h₂
      rw [hl, List.append_nil, overlong_append_of_cut hfollows, ← hp.overruns _ _ h₁]
      exact iff_of_false (fun hr => by cases hr) (fun hr => by cases hr)
  · obtain ⟨c, hfollows, hc⟩ := hp.carries _ _ he
    cases c with
    | true =>
      obtain ⟨b, hb, -⟩ := hc.mp rfl
      cases hb
    | false =>
      rw [overlong_append_of_cut hfollows, ← hp.overruns _ _ he, Except.error.injEq,
        Except.error.injEq]

theorem Conducts.bind (hp : Conducts psa buffer driver p good es)
    (hrest : ∀ l b, Run p l (.ok b) → good b → Conducts psa buffer driver (f b) fine es')
    (hstop : ∀ b, ¬good b → ∃ c, ¬fine c ∧ f b = pure c) :
    Conducts psa buffer driver (p >>= f) fine (es ++ es') where
  carries := by
    rw [lockstep_append]
    exact hp.carries.bind driver.traffic_append (fun l b h hb => (hrest l b h hb).carries) hstop
  overruns l r hrun := by
    apply hp.overruns_bind _ _ hrun
    · intro l₁ b l₂ _ h₁ hgood h₂
      obtain ⟨c, hfollows, -⟩ := (hrest l₁ b h₁ hgood).carries _ _ h₂
      exact ⟨c, hfollows, (hrest l₁ b h₁ hgood).overruns _ _ h₂⟩
    · intro b hbad
      obtain ⟨c, -, hf⟩ := hstop b hbad
      exact ⟨c, hf⟩

theorem conducts_progress {progressMessage : String} {percentComplete : UInt8} {f : Unit → Sdm γ}
    (hcb : this.mSdmOpenParams.callbacks ≠ none)
    (h : Conducts psa buffer driver (f ()) fine es) :
    Conducts psa buffer driver (this.updateProgress progressMessage percentComplete >>= f) fine es where
  carries := carries_progress hcb h.carries
  overruns l r hrun := by
    obtain ⟨l₁, l₂, rfl, ht, -, h₂⟩ := run_progress_bind driver hcb hrun
    rw [ExternalComPortDriver.traffic_append, ht, List.nil_append]
    exact h.overruns _ _ h₂

end

/-! ### The runs of `SDMAuthenticate` -/

def exchange (psa : PsaAdac) (fuel : Nat) (cert : List UInt8) (this : SecureDebugManagerImpl) :
    Sdm (SDMReturnCode × SecureDebugManagerImpl) := do
  let (res, this) ← this.sendAuthResponseCmdRequest psa cert
  if res ≠ .success then return (.internalError, this)
  let (res, this) ← this.receiveAuthResponseCmdResponse psa fuel
  if res ≠ .success then return (.internalError, this)
  return (.success, this)

theorem exchange_bind
    {rest : SecureDebugManagerImpl → Sdm (SDMReturnCode × SecureDebugManagerImpl)} :
    (do
      let (res, this) ← this.sendAuthResponseCmdRequest psa cert
      if res ≠ .success then return (.internalError, this)
      let (res, this) ← this.receiveAuthResponseCmdResponse psa fuel
      if res ≠ .success then return (.internalError, this)
      rest this) =
    exchange psa fuel cert this >>= fun out =>
      if out.1 ≠ .success then pure (.internalError, out.2) else rest out.2 := by
  rw [exchange, bind_assoc]
  apply bind_congr
  intro sent
  by_cases hsent : sent.1 = .success
  · dsimp only
    rw [if_neg (not_not.mpr hsent), if_neg (not_not.mpr hsent), bind_assoc]
    apply bind_congr
    intro received
    by_cases hreceived : received.1 = .success
    · rw [if_neg (not_not.mpr hreceived), if_neg (not_not.mpr hreceived), pure_bind,
        if_neg (not_not.mpr rfl)]
    · rw [if_pos hreceived, if_pos hreceived, pure_bind, if_pos internalError_ne_success]
  · dsimp only
    rw [if_pos hsent, if_pos hsent, pure_bind, if_pos internalError_ne_success]

theorem returns_exchange : Returns (exchange psa fuel cert this) fun out => this.Keeps out.2 := by
  rw [exchange]
  refine returns_sendAuthResponseCmdRequest.bind fun sent hsent => ?_
  refine returns_ite (fun _ => returns_pure hsent) fun _ => ?_
  refine returns_receiveAuthResponseCmdResponse.bind fun received hreceived => ?_
  exact returns_ite (fun _ => returns_pure (hsent.trans hreceived)) fun _ =>
    returns_pure (hsent.trans hreceived)

theorem conducts_exchange (ho : this.IsOpen driver) : Conducts psa buffer driver
    (exchange psa fuel cert this) (·.1 = .success) [.response cert] where
  carries := by
    apply carries_exchange (fun this => pure (.success, this)) ho
    intro this₁ _
    exact carries_pure driver.traffic_nil rfl
  overruns l r hrun := by
    by_cases hfits : sizeofPacket + cert.length ≤ bufferSize
    · have hinside : Avoids (exchange psa fuel cert this) .outOfBounds := by
        refine (avoids_sendAuthResponseCmdRequest ho hfits).bind fun _ _ _ => ?_
        refine avoids_ite (fun _ => avoids_pure) fun _ => ?_
        refine avoids_receiveAuthResponseCmdResponse.bind fun _ _ _ => ?_
        exact avoids_ite (fun _ => avoids_pure) fun _ => avoids_pure
      refine iff_of_false ?_ (not_overlong_response hfits)
      intro hr
      rw [hr] at hrun
      exact hinside l hrun
    · -- it is copied before anything is sent
      have hlong := Nat.lt_of_not_le hfits
      rw [exchange, sendAuthResponseCmdRequest_overlong ho hlong] at hrun
      obtain ⟨rfl, rfl⟩ := run_halt.mp hrun
      exact iff_of_true rfl (overlong_response hlong)

theorem conducts_exchange_bind {es : List Exchange}
    (rest : SecureDebugManagerImpl → Sdm (SDMReturnCode × SecureDebugManagerImpl))
    (ho : this.IsOpen driver)
    (hrest : ∀ this₁, this.Keeps this₁ →
      Conducts psa buffer driver (rest this₁) (·.1 = .success) es) :
    Conducts psa buffer driver (do
      let (res, this) ← this.sendAuthResponseCmdRequest psa cert
      if res ≠ .success then return (.internalError, this)
      let (res, this) ← this.receiveAuthResponseCmdResponse psa fuel
      if res ≠ .success then return (.internalError, this)
      rest this) (·.1 = .success) (.response cert :: es) := by
  rw [exchange_bind]
  show Conducts _ _ _ _ _ ([.response cert] ++ es)
  apply (conducts_exchange ho).bind
  · intro l out hrun hres
    rw [if_neg (not_not.mpr hres)]
    exact hrest out.2 (returns_exchange _ _ hrun)
  · intro out hres
    rw [if_pos hres]
    exact ⟨_, internalError_ne_success, rfl⟩

theorem conducts_sendCertificates {exts : List PsaTlv} (ho : this.IsOpen driver) :
    Conducts psa buffer driver (sendCertificates psa fuel exts this) (·.1 = .success)
      (certificates psa exts) := by
  induction exts generalizing this with
  | nil => exact conducts_pure rfl
  | cons ext exts ih =>
    rw [sendCertificates, certificates_cons]
    by_cases hcrt : ext.typeId = psa.psaBinaryCrt
    · rw [if_pos hcrt, if_pos hcrt]
      apply conducts_exchange_bind _ ho
      intro this₁ hkeeps
      exact ih (hkeeps.isOpen_of ho)
    · rw [if_neg hcrt, if_neg hcrt]
      exact ih ho

theorem conducts_respond {exts : List PsaTlv} {token : List UInt8} (ho : this.IsOpen driver)
    (hcb : this.mSdmOpenParams.callbacks ≠ none) :
    Conducts psa buffer driver (respond psa fuel exts token this) (·.1 = .success)
      (certificates psa exts ++ [.response token]) := by
  rw [respond]
  apply conducts_progress hcb
  apply (conducts_sendCertificates ho).bind
  · intro l out hrun hres
    have hkeeps := returns_sendCertificates _ _ hrun
    have hcb₁ : out.2.mSdmOpenParams.callbacks ≠ none := by
      rw [hkeeps.params]
      exact hcb
    dsimp only
    rw [if_neg (not_not.mpr hres)]
    apply conducts_progress hcb₁
    apply conducts_exchange_bind (fun this => do
      this.updateProgress "Finished authentication" 100
      return (.success, this)) (hkeeps.isOpen_of ho)
    intro this₂ hkeeps₂
    have hcb₂ : this₂.mSdmOpenParams.callbacks ≠ none := by
      rw [hkeeps₂.params]
      exact hcb₁
    exact conducts_progress hcb₂ (conducts_pure rfl)
  · intro out hres
    dsimp only
    rw [if_pos hres]
    exact ⟨_, internalError_ne_success, rfl⟩

theorem conducts_exchangeChallenge (ho : this.IsOpen driver)
    (hcb : this.mSdmOpenParams.callbacks ≠ none) : Conducts psa this.mMsgBuffer driver
      (exchangeChallenge psa fuel this) (·.1 = .success) [.start] where
  carries := carries_exchangeChallenge ho hcb
  overruns l r hrun := by
    refine iff_of_false ?_ not_overlong_start
    intro hr
    rw [hr] at hrun
    exact avoids_exchangeChallenge ho l hrun

theorem run_signAndRespond_overruns {credentials : Credentials} {challenge : List UInt8}
    {r : Except Stop (SDMReturnCode × SecureDebugManagerImpl)} (ho : this.IsOpen driver)
    (hcb : this.mSdmOpenParams.callbacks ≠ none)
    (h : Run (signAndRespond psa fuel credentials challenge this) l r) :
    r = .error .outOfBounds ↔
      Overlong psa buffer ((responses psa l).getD []) (replies (driver.traffic l)) := by
  rcases run_signAndRespond_cases driver hcb h with ⟨hnone, -, rfl⟩ | ⟨exts, token, l', hsome, ht, h'⟩
  · rw [hnone]
    exact iff_of_false (fun hr => by cases hr) not_overlong_nil
  · rw [hsome, ht]
    exact (conducts_respond ho hcb).overruns _ _ h'

/-- A run leaves the buffer just if it comes to be the turn of a certificate, or of the token, that
does not fit. -/
theorem run_sdmAuthenticate_overruns {r : Except Stop (SDMReturnCode × SecureDebugManagerImpl)}
    (ho : this.IsOpen driver) (h : Run (this.sdmAuthenticate psa fuel) l r) :
    r = .error .outOfBounds ↔
      Overlong psa this.mMsgBuffer (exchanges psa l) (replies (driver.traffic l)) := by
  by_cases hcb : this.mSdmOpenParams.callbacks = none
  · obtain ⟨rfl, rfl⟩ := run_sdmAuthenticate_of_null ho hcb h
    exact iff_of_false (fun hr => by cases hr) not_overlong_start
  rw [sdmAuthenticate_eq_exchange ho.isOpen] at h
  show _ ↔ Overlong psa this.mMsgBuffer ([.start] ++ (responses psa l).getD []) _
  apply (conducts_exchangeChallenge ho hcb).overruns_bind _ _ h
  · intro l₁ exchanged l₂ hl h₁ hres h₂
    rw [if_neg (not_not.mpr hres)] at h₂
    have hkeeps := returns_exchangeChallenge _ _ h₁
    have hcb' : exchanged.2.2.2.mSdmOpenParams.callbacks ≠ none := by
      rw [hkeeps.params]
      exact hcb
    rw [hl, responses_of_plain (makes_exchangeChallenge _ _ h₁)]
    obtain ⟨c, hfollows, -⟩ := run_signAndRespond_exchanges (hkeeps.isOpen_of ho) hcb' h₂
    exact ⟨c, hfollows, run_signAndRespond_overruns (hkeeps.isOpen_of ho) hcb' h₂⟩
  · intro exchanged hres
    exact ⟨_, if_pos hres⟩

/-- `SDMAuthenticate` stays inside the message buffer just if every certificate whose turn comes, and
the token when its turn comes, fits behind the header. A receive always keeps to its length. -/
theorem sdmAuthenticate_within_iff {r : Except Stop (SDMReturnCode × SecureDebugManagerImpl)}
    (ho : this.IsOpen driver) (h : Run (this.sdmAuthenticate psa fuel) l r) :
    (r ≠ .error .outOfBounds ∧ ∀ packet max,
      Returns (this.responsePacketReceive fuel packet max) fun out =>
        out.2.drop max = packet.drop max) ↔
      ∀ es₁ cert es₂, exchanges psa l = es₁ ++ .response cert :: es₂ →
        List.Forall₂ (Exchange.Accepts psa this.mMsgBuffer) es₁ (replies (driver.traffic l)) →
        sizeofPacket + cert.length ≤ bufferSize := by
  rw [and_iff_left fun _ _ => returns_responsePacketReceive_within, Ne,
    run_sdmAuthenticate_overruns ho h]
  constructor
  · intro hover es₁ cert es₂ hes hall
    by_contra hlong
    exact hover ⟨es₁, cert, es₂, hes, Nat.lt_of_not_le hlong, hall⟩
  · intro hfits hover
    obtain ⟨es₁, cert, es₂, hes, hlong, hall⟩ := hover
    exact absurd (hfits es₁ cert es₂ hes hall) (Nat.not_le.mpr hlong)

theorem sdmAuthenticate_within_iff_chain : ∃ r,
    Run (opened.sdmAuthenticate .standard 60) chainTrace r ∧ r ≠ .error .outOfBounds := by
  obtain ⟨this', hrun⟩ := exists_run_chainTrace
  have hfits : ∀ cert, .response cert ∈ exchanges .standard chainTrace →
      sizeofPacket + cert.length ≤ bufferSize := by
    rw [exchanges_chainTrace]
    intro cert hcert
    simp only [List.mem_cons, reduceCtorEq, Exchange.response.injEq, false_or, List.not_mem_nil,
      or_false] at hcert
    rcases hcert with rfl | rfl <;> decide
  refine ⟨_, hrun, ((sdmAuthenticate_within_iff isOpen_opened hrun).mpr ?_).1⟩
  intro es₁ cert es₂ hes _
  apply hfits
  rw [hes]
  exact List.mem_append_right es₁ List.mem_cons_self

/-- A certificate of 4081 bytes, 4089 with the header of its entry. -/
def longEntry : PsaTlv where
  typeId := 0x0201
  lengthInBytes := 4081
  bytes := [0, 0, 1, 2, 0xF1, 0x0F, 0, 0] ++ List.replicate 4081 0
  size_eq := by rw [List.length_append, List.length_replicate]; rfl

theorem sdmAuthenticate_within_iff_entry :
    ¬∀ (this : SecureDebugManagerImpl) (driver : ExternalComPortDriver) (psa : PsaAdac) (fuel : Nat)
      (l : Trace) (r : Except Stop (SDMReturnCode × SecureDebugManagerImpl)), this.IsOpen driver →
      Run (this.sdmAuthenticate psa fuel) l r → r ≠ .error .outOfBounds := by
  intro h
  have hover : ((scriptedChain [1, 2, 3, 4] [longEntry]).exec
      (opened.sdmAuthenticate .standard 60) chainScript).1.map Prod.fst = .error .outOfBounds := by
    decide +kernel
  have hrun := Machine.exec_run (scriptedChain [1, 2, 3, 4] [longEntry])
    (opened.sdmAuthenticate .standard 60) chainScript
  apply h opened .inited .standard 60 _ _ isOpen_opened hrun
  cases hout : ((scriptedChain [1, 2, 3, 4] [longEntry]).exec
      (opened.sdmAuthenticate .standard 60) chainScript).1 with
  | error e =>
    rw [hout] at hover
    exact congrArg Except.error (Except.error.inj hover)
  | ok out =>
    rw [hout] at hover
    cases hover

end SecureDebugManagerImpl
end SecureDebug
