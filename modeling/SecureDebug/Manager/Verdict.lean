import SecureDebug.Manager.Dialogue

/-! Whose verdict `SDMAuthenticate` returns: success is the target's word as long as its
answers are long enough to hold one and neither of the two checks is the wrong one. -/

namespace SecureDebug
open Interaction Program Framing

theorem run_silent_bind {β γ : Type} {p : Sdm β} {f : β → Sdm γ} {l : Trace} {c : γ}
    (driver : ExternalComPortDriver) (hp : Silent p) (h : Run (p >>= f) l (.ok c)) :
    ∃ b l', Run (f b) l' (.ok c) ∧ driver.traffic l = driver.traffic l' := by
  obtain ⟨b, l₁, l₂, rfl, h₁, h₂⟩ := run_bind_ok.mp h
  exact ⟨b, l₂, h₂, by rw [ExternalComPortDriver.traffic_append, hp driver _ _ h₁, List.nil_append]⟩

def Writes {β : Type} (driver : ExternalComPortDriver) (p : Sdm β) : Prop :=
  ∀ l r, Run p l r → ∀ o ∈ driver.traffic l, ∀ byte, o ≠ .read byte

section
variable {β γ : Type} {driver : ExternalComPortDriver} {p : Sdm β} {f : β → Sdm γ}

variable (driver) in
theorem Silent.writes (hp : Silent p) : Writes driver p := by
  intro l r h o ho
  rw [hp driver l r h] at ho
  cases ho

theorem Writes.bind (hp : Writes driver p) (hf : ∀ b, Writes driver (f b)) :
    Writes driver (p >>= f) := by
  intro l r h o ho
  rcases run_bind.mp h with ⟨b, l₁, l₂, rfl, h₁, h₂⟩ | ⟨e, -, he⟩
  · rw [ExternalComPortDriver.traffic_append, List.mem_append] at ho
    exact ho.elim (hp l₁ _ h₁ o) (hf b l₂ r h₂ o)
  · exact hp l _ he o ho

theorem writes_ite {c : Prop} [Decidable c] {q : Sdm β} (hp : Writes driver p)
    (hq : Writes driver q) : Writes driver (if c then p else q) := by
  split_ifs
  · exact hp
  · exact hq

end

namespace SecureDebugManagerImpl
variable {this this' : SecureDebugManagerImpl} {driver : ExternalComPortDriver} {psa : PsaAdac}
  {fuel : Nat} {l : Trace} {res : SDMReturnCode}

/-- One exchange of the response phase and what comes after it: either it fails and nothing
comes after it, or it is settled. -/
theorem run_exchange {cert : List UInt8}
    (rest : SecureDebugManagerImpl → Sdm (SDMReturnCode × SecureDebugManagerImpl))
    (ho : this.IsOpen driver)
    (h : Run (do
      let (res, this) ← this.sendAuthResponseCmdRequest psa cert
      if res ≠ .success then return (.internalError, this)
      let (res, this) ← this.receiveAuthResponseCmdResponse psa fuel
      if res ≠ .success then return (.internalError, this)
      rest this) l (.ok (res, this'))) :
    (driver.traffic l ≠ [] ∧ res ≠ .success ∧ Responds psa (driver.traffic l) res) ∨
      ∃ this₁ l₁ l₂, driver.traffic l = driver.traffic l₁ ++ driver.traffic l₂ ∧
        driver.traffic l₁ ≠ [] ∧ Responds psa (driver.traffic l₁) .success ∧
        this₁.IsOpen driver ∧ Run (rest this₁) l₂ (.ok (res, this')) := by
  obtain ⟨⟨sent, this₁⟩, l₁, l₂, rfl, h₁, h₂⟩ := run_bind_ok.mp h
  obtain ⟨hne, hws, ho₁, hcmd⟩ := run_sendAuthResponseCmdRequest ho h₁
  have hne' (t : List Observation) : driver.traffic l₁ ++ t ≠ [] := fun hnil =>
    hne (List.append_eq_nil_iff.mp hnil).1
  rw [ExternalComPortDriver.traffic_append]
  dsimp only at h₂
  by_cases hsent : sent = .success
  · rw [if_neg (not_not.mpr hsent)] at h₂
    obtain ⟨⟨received, this₂⟩, l₃, l₄, rfl, h₃, h₄⟩ := run_bind_ok.mp h₂
    obtain ⟨bytes, ht, haccepted⟩ := run_receiveAuthResponseCmdResponse ho₁ hcmd h₃
    have hresponds := responds_exchange hne hws haccepted
    rw [← ht] at hresponds
    rw [ExternalComPortDriver.traffic_append, ← List.append_assoc]
    dsimp only at h₄
    by_cases hreceived : received = .success
    · rw [if_neg (not_not.mpr hreceived)] at h₄
      subst hreceived
      refine .inr ⟨this₂, l₁ ++ l₃, l₄, ?_, ?_, ?_, ?_, h₄⟩
      · rw [ExternalComPortDriver.traffic_append]
      · rw [ExternalComPortDriver.traffic_append]
        exact hne' _
      · rw [ExternalComPortDriver.traffic_append]
        exact hresponds
      · exact (returns_receiveAuthResponseCmdResponse _ _ h₃).isOpen_of ho₁
    · rw [if_pos hreceived] at h₄
      obtain ⟨rfl, rfl, -⟩ := run_pure_pair.mp h₄
      rw [ExternalComPortDriver.traffic_nil, List.append_nil]
      exact .inl ⟨hne' _, by decide, hresponds.fail hreceived (by decide)⟩
  · rw [if_pos hsent] at h₂
    obtain ⟨rfl, rfl, -⟩ := run_pure_pair.mp h₂
    have hfailed : SDMReturnCode.internalError = .success ↔ Accepted psa [] :=
      iff_of_false (by decide) not_accepted_nil
    exact .inl ⟨hne' _, by decide, responds_exchange hne hws hfailed⟩

theorem run_sendCertificates {exts : List PsaTlv} (ho : this.IsOpen driver)
    (h : Run (sendCertificates psa fuel exts this) l (.ok (res, this'))) :
    Responds psa (driver.traffic l) res := by
  induction exts generalizing this l with
  | nil =>
    obtain ⟨rfl, rfl, -⟩ := run_pure_pair.mp h
    exact responds_nil
  | cons ext exts ih =>
    unfold sendCertificates at h
    by_cases hcrt : ext.typeId = psa.psaBinaryCrt
    · rw [if_pos hcrt] at h
      rcases run_exchange (sendCertificates psa fuel exts) ho h with
        ⟨-, -, hfailed⟩ | ⟨this₁, l₁, l₂, ht, -, h₁, ho₁, h₂⟩
      · exact hfailed
      · rw [ht]
        exact h₁.append (ih ho₁ h₂)
    · rw [if_neg hcrt] at h
      exact ih ho h

theorem run_sendAuthStartCmdRequest {r : Except Stop SDMReturnCode} (ho : this.IsOpen driver)
    (h : Run (this.sendAuthStartCmdRequest psa) l r) :
    (∀ res, r = .ok res → driver.traffic l ≠ []) ∧ ∀ o ∈ driver.traffic l, ∀ byte, o ≠ .read byte := by
  obtain ⟨reserved, l', rfl, h'⟩ := run_call.mp h
  rw [← List.singleton_append, ExternalComPortDriver.traffic_append]
  show _ ∧ ∀ o ∈ driver.traffic l', _
  refine run_requestPacketSend ho ?_ h'
  rw [List.length_append, List.length_append, length_leBytes, length_leBytes,
    show reserved.toList.length = 2 from reserved.length_toList]
  decide

theorem run_receiveAuthStartCmdResponse {challenge : List UInt8} (ho : this.IsOpen driver)
    (h : Run (this.receiveAuthStartCmdResponse psa fuel) l (.ok (res, challenge, this'))) :
    ∃ bytes : List UInt8, driver.traffic l = bytes.map .read ∧ (res = .success → Framed bytes ∧
      packetDataCount (overlay this.mMsgBuffer (reception bytes).image) * 4 % 2 ^ 32 =
        psa.sizeofPsaAuthChallenge) := by
  unfold receiveAuthStartCmdResponse at h
  obtain ⟨⟨code, response⟩, l₁, l₂, rfl, h₁, h₂⟩ := run_bind_ok.mp h
  rw [ho.size] at h₁
  obtain ⟨bytes, ht, hframed, hresponse⟩ := run_responsePacketReceive_ok ho ho.size h₁
  dsimp only at h₂
  obtain ⟨rfl, hres⟩ : l₂ = [] ∧ (res = .success → code = .success ∧
      packetDataCount response * 4 % 2 ^ 32 = psa.sizeofPsaAuthChallenge) := by
    split_ifs at h₂ with hcode hcount
    · obtain ⟨rfl, rfl, -⟩ := run_pure_pair.mp h₂
      exact ⟨rfl, fun hres => absurd hres hcode⟩
    · obtain ⟨rfl, rfl, -⟩ := run_pure_pair.mp h₂
      exact ⟨rfl, fun hres => nomatch hres⟩
    · obtain ⟨_, l₃, l₄, rfl, h₃, h₄⟩ := run_bind_ok.mp h₂
      obtain ⟨rfl, -⟩ := run_lift.mp h₃
      obtain ⟨rfl, -⟩ := run_pure.mp h₄
      exact ⟨rfl, fun _ => ⟨not_not.mp hcode, not_not.mp hcount⟩⟩
  rw [List.append_nil]
  refine ⟨bytes, ht, fun hsuccess => ?_⟩
  obtain ⟨hcode, hcount⟩ := hres hsuccess
  exact ⟨hframed.mp hcode, hresponse hcode ▸ hcount⟩

/-- `SDMAuthenticate` once the token is signed and the trust chain is split. -/
def respond (psa : PsaAdac) (fuel : Nat) (exts : List PsaTlv) (token : List UInt8)
    (this : SecureDebugManagerImpl) : Sdm (SDMReturnCode × SecureDebugManagerImpl) := do
  this.updateProgress "Sending challenge response" 60
  let (res, this) ← sendCertificates psa fuel exts this
  if res ≠ .success then return (.internalError, this)
  this.updateProgress "Receiving token authentication status" 90
  let (res, this) ← this.sendAuthResponseCmdRequest psa token
  if res ≠ .success then return (.internalError, this)
  let (res, this) ← this.receiveAuthResponseCmdResponse psa fuel
  if res ≠ .success then return (.internalError, this)
  this.updateProgress "Finished authentication" 100
  return (.success, this)

/-- `SDMAuthenticate` once the challenge is there. -/
def signAndRespond (psa : PsaAdac) (fuel : Nat) (credentials : Credentials)
    (challenge : List UInt8) (this : SecureDebugManagerImpl) :
    Sdm (SDMReturnCode × SecureDebugManagerImpl) := do
  this.updateProgress "Signing token" 40
  let challengeVector := (challenge.drop psa.offsetChallengeVector).take psa.sizeofChallengeVector
  let (adacRes, token) ← callHost
    (.psaAdacSignToken challengeVector credentials.signatureType credentials.handle)
  if adacRes < 0 then return (.internalError, this)
  this.updateProgress "Parsing trust chain" 50
  let (adacRes, exts) ← callHost (.splitTlvStatic credentials.chain)
  if adacRes < 0 then return (.internalError, this)
  this.updateProgress "Sending challenge response" 60
  let (res, this) ← sendCertificates psa fuel exts this
  if res ≠ .success then return (.internalError, this)
  this.updateProgress "Receiving token authentication status" 90
  let (res, this) ← this.sendAuthResponseCmdRequest psa token
  if res ≠ .success then return (.internalError, this)
  let (res, this) ← this.receiveAuthResponseCmdResponse psa fuel
  if res ≠ .success then return (.internalError, this)
  this.updateProgress "Finished authentication" 100
  return (.success, this)

theorem sdmAuthenticate_eq (hopen : this.mOpen = true) : this.sdmAuthenticate psa fuel = (do
    this.updateProgress "Loading credentials" 0
    let (res, credentials) ← this.loadCredentials
    if res ≠ .success then return (.internalError, this)
    this.updateProgress "Sending challenge request" 20
    let res ← this.sendAuthStartCmdRequest psa
    if res ≠ .success then return (.internalError, this)
    this.updateProgress "Receiving challenge" 30
    let (res, challenge, this) ← this.receiveAuthStartCmdResponse psa fuel
    if res ≠ .success then return (.internalError, this)
    signAndRespond psa fuel credentials challenge this) := by
  rw [sdmAuthenticate, if_neg (by simp [hopen])]
  rfl

theorem signAndRespond_eq {credentials : Credentials} {challenge : List UInt8} :
    signAndRespond psa fuel credentials challenge this =
      this.updateProgress "Signing token" 40 >>= fun _ =>
      callHost (.psaAdacSignToken
        ((challenge.drop psa.offsetChallengeVector).take psa.sizeofChallengeVector)
        credentials.signatureType credentials.handle) >>= fun signed =>
      if signed.1 < 0 then pure (.internalError, this)
      else this.updateProgress "Parsing trust chain" 50 >>= fun _ =>
        callHost (.splitTlvStatic credentials.chain) >>= fun split =>
        if split.1 < 0 then pure (.internalError, this)
        else respond psa fuel split.2 signed.2 this := rfl

/-- `SDMAuthenticate` until the request for a challenge is sent; the buffer is not used. -/
def requestChallenge (this : SecureDebugManagerImpl) (psa : PsaAdac) :
    Sdm (SDMReturnCode × Credentials) := do
  this.updateProgress "Loading credentials" 0
  let (res, credentials) ← this.loadCredentials
  if res ≠ .success then return (res, credentials)
  this.updateProgress "Sending challenge request" 20
  let res ← this.sendAuthStartCmdRequest psa
  if res ≠ .success then return (res, credentials)
  this.updateProgress "Receiving challenge" 30
  return (.success, credentials)

theorem sdmAuthenticate_eq_request (hopen : this.mOpen = true) :
    this.sdmAuthenticate psa fuel = this.requestChallenge psa >>= fun requested =>
      if requested.1 ≠ .success then pure (.internalError, this)
      else this.receiveAuthStartCmdResponse psa fuel >>= fun received =>
        if received.1 ≠ .success then pure (.internalError, received.2.2)
        else signAndRespond psa fuel requested.2 received.2.1 received.2.2 := by
  rw [sdmAuthenticate_eq hopen, requestChallenge]
  simp only [bind_assoc]
  apply bind_congr
  intro _
  apply bind_congr
  intro loaded
  by_cases hloaded : loaded.1 = .success
  · rw [if_neg (not_not.mpr hloaded), if_neg (not_not.mpr hloaded)]
    simp only [bind_assoc]
    apply bind_congr
    intro _
    apply bind_congr
    intro sent
    by_cases hsent : sent = .success
    · rw [if_neg (not_not.mpr hsent), if_neg (not_not.mpr hsent), bind_assoc]
      apply bind_congr
      intro _
      rw [pure_bind, if_neg (not_not.mpr rfl)]
    · rw [if_pos hsent, if_pos hsent, pure_bind, if_pos hsent]
  · rw [if_pos hloaded, if_pos hloaded, pure_bind, if_pos hloaded]

theorem run_refused {this₁ : SecureDebugManagerImpl}
    (h : Run (pure (.internalError, this₁) : Sdm (SDMReturnCode × SecureDebugManagerImpl)) l
      (.ok (res, this'))) : res ≠ .success ∧ l = [] := by
  obtain ⟨rfl, rfl, -⟩ := run_pure_pair.mp h
  exact ⟨by decide, rfl⟩

theorem run_respond {exts : List PsaTlv} {token : List UInt8} (ho : this.IsOpen driver)
    (h : Run (respond psa fuel exts token this) l (.ok (res, this'))) :
    driver.traffic l ≠ [] ∧ Responds psa (driver.traffic l) res := by
  unfold respond at h
  obtain ⟨_, l₁, h₁, ht₁⟩ := run_silent_bind driver (silent_updateProgress _ _) h
  obtain ⟨⟨certified, this₁⟩, l₂, l₃, rfl, h₂, h₃⟩ := run_bind_ok.mp h₁
  have hcerts := run_sendCertificates ho h₂
  have ho₁ : this₁.IsOpen driver := (returns_sendCertificates _ _ h₂).isOpen_of ho
  rw [ht₁, ExternalComPortDriver.traffic_append]
  dsimp only at h₃
  by_cases hcertified : certified = .success
  · subst hcertified
    rw [if_neg (not_not.mpr rfl)] at h₃
    obtain ⟨_, l₄, h₄, ht₄⟩ := run_silent_bind driver (silent_updateProgress _ _) h₃
    rw [ht₄]
    rcases run_exchange (fun this => do
      this.updateProgress "Finished authentication" 100
      return (.success, this)) ho₁ h₄ with ⟨hne, -, hfailed⟩ | ⟨this₂, l₅, l₆, ht, hne, htoken, -, h₅⟩
    · exact ⟨fun hnil => hne (List.append_eq_nil_iff.mp hnil).2, hcerts.append hfailed⟩
    · obtain ⟨_, l₇, h₇, ht₇⟩ := run_silent_bind driver (silent_updateProgress _ _) h₅
      obtain ⟨rfl, rfl, -⟩ := run_pure_pair.mp h₇
      rw [ht, ht₇, ExternalComPortDriver.traffic_nil, List.append_nil]
      exact ⟨fun hnil => hne (List.append_eq_nil_iff.mp hnil).2, hcerts.append htoken⟩
  · rw [if_pos hcertified] at h₃
    obtain ⟨hres, rfl⟩ := run_refused h₃
    rw [ExternalComPortDriver.traffic_nil, List.append_nil]
    exact ⟨fun hnil => hcertified (hcerts.quiet hnil), hcerts.fail hcertified hres⟩

theorem run_signAndRespond {credentials : Credentials} {challenge : List UInt8}
    (ho : this.IsOpen driver)
    (h : Run (signAndRespond psa fuel credentials challenge this) l (.ok (res, this'))) :
    (res ≠ .success ∧ driver.traffic l = []) ∨
      driver.traffic l ≠ [] ∧ Responds psa (driver.traffic l) res := by
  rw [signAndRespond_eq] at h
  obtain ⟨_, l₁, h₁, ht₁⟩ := run_silent_bind driver (silent_updateProgress _ _) h
  obtain ⟨signed, l₂, h₂, ht₂⟩ := run_silent_bind driver (silent_callHost fun _ _ => rfl) h₁
  rw [ht₁, ht₂]
  by_cases hsigned : signed.1 < 0
  · rw [if_pos hsigned] at h₂
    obtain ⟨hres, rfl⟩ := run_refused h₂
    exact .inl ⟨hres, rfl⟩
  rw [if_neg hsigned] at h₂
  obtain ⟨_, l₃, h₃, ht₃⟩ := run_silent_bind driver (silent_updateProgress _ _) h₂
  obtain ⟨split, l₄, h₄, ht₄⟩ := run_silent_bind driver (silent_callHost fun _ _ => rfl) h₃
  rw [ht₃, ht₄]
  by_cases hsplit : split.1 < 0
  · rw [if_pos hsplit] at h₄
    obtain ⟨hres, rfl⟩ := run_refused h₄
    exact .inl ⟨hres, rfl⟩
  rw [if_neg hsplit] at h₄
  exact .inr (run_respond ho h₄)

theorem writes_requestChallenge (ho : this.IsOpen driver) :
    Writes driver (this.requestChallenge psa) := by
  refine ((silent_updateProgress _ _).writes driver).bind fun _ => ?_
  refine (silent_loadCredentials.writes driver).bind fun _ => ?_
  refine writes_ite (silent_pure.writes driver) ?_
  refine ((silent_updateProgress _ _).writes driver).bind fun _ => ?_
  apply Writes.bind
  · intro l r h
    exact (run_sendAuthStartCmdRequest ho h).2
  · intro _
    refine writes_ite (silent_pure.writes driver) ?_
    exact ((silent_updateProgress _ _).writes driver).bind fun _ => silent_pure.writes driver

/-- A run of the whole: either it ends with the first answer at the latest, or that answer is
let through and the rest is the response phase. -/
theorem run_sdmAuthenticate (ho : this.IsOpen driver)
    (h : Run (this.sdmAuthenticate psa fuel) l (.ok (res, this'))) :
    (res ≠ .success ∧ (replies (driver.traffic l)).length ≤ 1) ∨
      ∃ start rs, replies (driver.traffic l) = start :: rs ∧ Framed start ∧
        packetDataCount (overlay this.mMsgBuffer (reception start).image) * 4 % 2 ^ 32 =
          psa.sizeofPsaAuthChallenge ∧
        (res = .success ↔ Settled psa (driver.traffic l)) ∧
        (res = .success → rs ≠ [] ∧ ∀ bytes ∈ rs, Accepted psa bytes) := by
  rw [sdmAuthenticate_eq_request ho.isOpen] at h
  obtain ⟨requested, l₁, l₂, rfl, h₁, h₂⟩ := run_bind_ok.mp h
  have hws := writes_requestChallenge ho _ _ h₁
  rw [ExternalComPortDriver.traffic_append]
  by_cases hrequested : requested.1 = .success
  swap
  · rw [if_pos hrequested] at h₂
    obtain ⟨hres, rfl⟩ := run_refused h₂
    have hreplies := replies_writes (t := []) hws
    rw [ExternalComPortDriver.traffic_nil, hreplies]
    exact .inl ⟨hres, Nat.zero_le _⟩
  rw [if_neg (not_not.mpr hrequested)] at h₂
  obtain ⟨⟨received, challenge, this₁⟩, l₃, l₄, rfl, h₃, h₄⟩ := run_bind_ok.mp h₂
  obtain ⟨start, ht₃, hstart⟩ := run_receiveAuthStartCmdResponse ho h₃
  have ho₁ : this₁.IsOpen driver := (returns_receiveAuthStartCmdResponse _ _ h₃).isOpen_of ho
  rw [ExternalComPortDriver.traffic_append, ht₃, replies_writes hws]
  have hone : (replies (start.map .read ++ [])).length ≤ 1 := by
    rw [List.append_nil]
    cases start with
    | nil => exact Nat.zero_le _
    | cons byte start => rw [replies_reads (List.cons_ne_nil _ _)]; exact Nat.le_refl _
  dsimp only at h₄
  by_cases hreceived : received = .success
  swap
  · rw [if_pos hreceived] at h₄
    obtain ⟨hres, rfl⟩ := run_refused h₄
    exact .inl ⟨hres, hone⟩
  rw [if_neg (not_not.mpr hreceived)] at h₄
  obtain ⟨hframed, hcount⟩ := hstart hreceived
  -- what was said in the first answer is not looked at again
  rcases run_signAndRespond ho₁ h₄ with ⟨hres, hnil⟩ | ⟨hne₄, hresponds⟩
  · rw [hnil]
    exact .inl ⟨hres, hone⟩
  have hstartne : start ≠ [] := by
    rintro rfl
    obtain ⟨pre, hpre, -⟩ := hframed.stop
    simp at hpre
  refine .inr ⟨start, _, ?_, hframed, hcount, ?_, fun hres => ⟨?_, hresponds.accepted hres⟩⟩
  · rw [replies_append hresponds.begins, replies_reads hstartne]
    rfl
  · rw [← List.append_assoc, settled_append hresponds.begins hne₄]
    exact hresponds.settled hne₄
  · obtain ⟨token, htoken, -⟩ := ((hresponds.settled hne₄).mp hres).answer
    intro hnil
    rw [hnil] at htoken
    cases htoken

/-- The target itself reported success: its answer to `AUTH_START` says so and declares a
whole challenge, each answer to a certificate asks to go on, and the last one says so. -/
def Reported (psa : PsaAdac) (rs : List (List UInt8)) : Prop :=
  ∃ start certs token, rs = start :: (certs ++ [token]) ∧
    (8 ≤ (message start).length ∧ packetStatus (message start) = psa.adacSuccess ∧
      packetDataCount (message start) = psa.sizeofPsaAuthChallenge / 4) ∧
    (∀ cert ∈ certs, 4 ≤ (message cert).length ∧ (packetStatus (message cert) = psa.adacSuccess ∨
      packetStatus (message cert) = psa.adacNeedMoreData)) ∧
    4 ≤ (message token).length ∧ packetStatus (message token) = psa.adacSuccess

/-- A conversation that ends in an answer which was let through, after a first one, holds no
answer on which a check is missing: the first is as long as a header, says success and does
not count beyond 32 bits, the others are long enough for a status, and the last one does not
ask for more. -/
def Trustworthy (psa : PsaAdac) (t : List Observation) : Prop :=
  ∀ start certs token, Settled psa t → replies t = start :: (certs ++ [token]) →
    (8 ≤ (message start).length ∧ packetStatus (message start) = psa.adacSuccess ∧
      packetDataCount (message start) < 2 ^ 30) ∧
    (∀ cert ∈ certs, 4 ≤ (message cert).length) ∧
    4 ≤ (message token).length ∧ packetStatus (message token) ≠ psa.adacNeedMoreData

def opened : SecureDebugManagerImpl where
  mMsgBuffer := List.replicate bufferSize 0
  mSdmOpenParams := allCallbacks
  mExtComPortDriver := some .inited
  mOpen := true

theorem isOpen_opened : opened.IsOpen .inited := ⟨rfl, rfl, rfl, List.length_replicate⟩

/-- A target that takes a request of eight plain bytes before each of its answers. -/
def dialogueScript (answers : List (List UInt8)) : List AccessResult :=
  answers.flatMap fun answer => ⟨.success, 10, []⟩ ::
    ([flagSTART] ++ answer ++ [flagEND]).map ExternalComPortDriver.cleanRead

def startAnswer (status : UInt8) : List UInt8 :=
  [0, 0, status, 0, 9, 0, 0, 0] ++ List.replicate 36 7

/-- `SDMAuthenticate` returns success only on the target's word, just if the conversation is
trustworthy. -/
theorem sdmAuthenticate_reported (ho : this.IsOpen driver)
    (h : Run (this.sdmAuthenticate psa fuel) l (.ok (res, this'))) :
    (res = .success → Reported psa (replies (driver.traffic l))) ↔
      Trustworthy psa (driver.traffic l) := by
  obtain ⟨k, hk⟩ := psa.challenge_dvd
  have hmax := psa.challenge_le
  rcases run_sdmAuthenticate ho h with ⟨hres, hlen⟩ |
    ⟨start, rs, hreplies, hframed, hcount, hsettled, haccepted⟩
  · refine iff_of_true (fun hsuccess => absurd hsuccess hres) fun start certs token _ hrs => ?_
    rw [hrs] at hlen
    simp at hlen
  constructor
  · intro hreported start' certs token hs hrs
    obtain ⟨start₁, certs₁, token₁, hrs₁, ⟨hlen, hstatus, hdata⟩, hcerts, htlen, htoken⟩ :=
      hreported (hsettled.mpr hs)
    obtain ⟨rfl, htail⟩ := List.cons.inj (hrs.symm.trans hrs₁)
    obtain ⟨rfl, hlast⟩ := List.append_inj' htail rfl
    obtain rfl := List.singleton_inj.mp hlast
    refine ⟨⟨hlen, hstatus, by rw [hdata]; omega⟩, fun cert hcert => (hcerts cert hcert).1, htlen, ?_⟩
    rw [htoken]
    exact psa.success_ne_needMoreData
  · intro htrust hres
    obtain ⟨hne, hall⟩ := haccepted hres
    obtain ⟨certs, token, rfl⟩ := (List.eq_nil_or_concat' rs).resolve_left hne
    obtain ⟨⟨hlen, hstatus, hdata⟩, hcerts, htlen, htoken⟩ :=
      htrust start certs token (hsettled.mp hres) hreplies
    -- the statuses that were let through are those of the messages
    have hmessage (bytes : List UInt8) (hmem : bytes ∈ certs ++ [token])
        (hbytes : 4 ≤ (message bytes).length) : packetStatus (message bytes) = psa.adacSuccess ∨
          packetStatus (message bytes) = psa.adacNeedMoreData := by
      have ha := hall bytes hmem
      rw [← answerStatus_eq psa ha.framed hbytes]
      exact ha.status
    refine ⟨start, certs, token, hreplies, ⟨hlen, hstatus, ?_⟩, fun cert hcert => ?_, htlen, ?_⟩
    · rw [packetDataCount_overlay hframed hlen] at hcount
      omega
    · have hcertlen := hcerts cert hcert
      exact ⟨hcertlen, hmessage cert (List.mem_append_left _ hcert) hcertlen⟩
    · exact (hmessage token (by simp) htlen).resolve_right htoken

theorem sdmAuthenticate_reported_plain : Reported .standard (replies (ExternalComPortDriver.inited.traffic
    (scripted.exec (opened.sdmAuthenticate .standard 60)
      (dialogueScript [startAnswer 0, [0, 0, 0, 0, 0, 0, 0, 0]])).2.1)) := by
  obtain ⟨this', hrun⟩ := exists_run_of_exec (opened.sdmAuthenticate .standard 60)
    (dialogueScript [startAnswer 0, [0, 0, 0, 0, 0, 0, 0, 0]]) .success (by decide +kernel)
  have hreplies : replies (ExternalComPortDriver.inited.traffic (scripted.exec
      (opened.sdmAuthenticate .standard 60)
        (dialogueScript [startAnswer 0, [0, 0, 0, 0, 0, 0, 0, 0]])).2.1) =
      [[flagSTART] ++ startAnswer 0 ++ [flagEND],
        [flagSTART] ++ [0, 0, 0, 0, 0, 0, 0, 0] ++ [flagEND]] := by decide +kernel
  refine (sdmAuthenticate_reported isOpen_opened hrun).mpr (fun start certs token _ hrs => ?_) rfl
  obtain ⟨rfl, htail⟩ := List.cons.inj (hreplies.symm.trans hrs)
  obtain ⟨rfl, hlast⟩ := List.append_inj' (show [] ++ [_] = certs ++ [token] from htail) rfl
  obtain rfl := List.singleton_inj.mp hlast
  decide

/-- A target that refuses the request for a challenge but sends one, and then takes the token. -/
theorem sdmAuthenticate_reported_refused :
    ¬∀ (psa : PsaAdac) (this this' : SecureDebugManagerImpl) (driver : ExternalComPortDriver)
      (fuel : Nat) (l : Trace) (res : SDMReturnCode), this.IsOpen driver →
      Run (this.sdmAuthenticate psa fuel) l (.ok (res, this')) →
      res = .success → Reported psa (replies (driver.traffic l)) := by
  intro h
  obtain ⟨this', hrun⟩ := exists_run_of_exec (opened.sdmAuthenticate .standard 60)
    (dialogueScript [startAnswer 1, [0, 0, 0, 0, 0, 0, 0, 0]]) .success (by decide +kernel)
  have hreplies : replies (ExternalComPortDriver.inited.traffic (scripted.exec
      (opened.sdmAuthenticate .standard 60)
        (dialogueScript [startAnswer 1, [0, 0, 0, 0, 0, 0, 0, 0]])).2.1) =
      [[flagSTART] ++ startAnswer 1 ++ [flagEND],
        [flagSTART] ++ [0, 0, 0, 0, 0, 0, 0, 0] ++ [flagEND]] := by decide +kernel
  obtain ⟨start, certs, token, hrs, ⟨-, hstatus, -⟩, -⟩ := h _ _ _ _ _ _ _ isOpen_opened hrun rfl
  obtain ⟨rfl, -⟩ := List.cons.inj (hreplies.symm.trans hrs)
  exact absurd hstatus (by decide)

end SecureDebugManagerImpl
end SecureDebug
