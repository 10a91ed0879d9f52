import SecureDebug.Driver.Calls
import SecureDebug.Manager.Exchanges

/-! The script of an authentication: which step is reported when, what is called in between, and where
the arguments come from. -/

namespace SecureDebug
open Interaction Program

def progressSteps : List (String × UInt8) :=
  [("Loading credentials", 0), ("Sending challenge request", 20), ("Receiving challenge", 30),
    ("Signing token", 40), ("Parsing trust chain", 50), ("Sending challenge response", 60),
    ("Receiving token authentication status", 90), ("Finished authentication", 100)]

/-- How many steps were reported, what the form, the key file and the trust chain file gave, and
whether the token was signed and the chain split. -/
structure Script where
  step : Nat := 0
  paths : Option (String × String) := none
  key : Option (UInt8 × UInt32) := none
  chain : Option (List UInt8) := none
  signed : Bool := false
  split : Bool := false
  deriving DecidableEq, Repr

namespace Script
variable (psa : PsaAdac) (driver : ExternalComPortDriver)

/-- What the step reported last is to achieve is done. -/
def Done (s : Script) : Prop :=
  (s.step = 1 → s.chain ≠ none) ∧ (s.step = 4 → s.signed = true) ∧ (s.step = 5 → s.split = true)

/-- Before the first report there is the opening; behind it the link is used only to send the request
for a challenge, to receive the challenge, and for the responses. -/
def Admits (s : Script) : HostCall → Prop
  | .updateProgress progressMessage percentComplete =>
    progressSteps[s.step]? = some (progressMessage, percentComplete) ∧ s.Done
  | .presentForm form => s.step = 1 ∧ s.paths = none ∧ form = SecureDebugManagerImpl.credentialsForm
  | .importPrivateKey path =>
    s.step = 1 ∧ s.key = none ∧ s.paths.map (fun paths => userInputStringTrim paths.1) = some path
  | .loadTrustChain path => s.step = 1 ∧ s.key ≠ none ∧ s.chain = none ∧
      s.paths.map (fun paths => userInputStringTrim paths.2) = some path
  | .psaAdacSignToken challenge signatureType handle => s.step = 4 ∧ s.signed = false ∧
      s.key = some (signatureType, handle) ∧ challenge.length = psa.sizeofChallengeVector
  | .splitTlvStatic chain => s.step = 5 ∧ s.split = false ∧ s.chain = some chain
  | .registerAccess accesses => s.step = 0 ∨ s.step ∈ [2, 6, 7] ∧ driver.Writes true accesses ∨
      s.step ∈ [3, 6, 7] ∧ accesses = [driver.readAccess]
  | .uninitialised _ => s.step = 0 ∨ s.step = 2
  | _ => s.step = 0

instance (s : Script) : Decidable s.Done := inferInstanceAs (Decidable (_ ∧ _ ∧ _))

instance (s : Script) : (c : HostCall) → Decidable (s.Admits psa driver c)
  | .registerAccess _ => inferInstanceAs (Decidable (_ ∨ _ ∧ _ ∨ _ ∧ _))
  | .resetStart => inferInstanceAs (Decidable (s.step = 0))
  | .resetEnd => inferInstanceAs (Decidable (s.step = 0))
  | .updateProgress _ _ => inferInstanceAs (Decidable (_ ∧ _))
  | .presentForm _ => inferInstanceAs (Decidable (_ ∧ _ ∧ _))
  | .psaAdacInit => inferInstanceAs (Decidable (s.step = 0))
  | .importPrivateKey _ => inferInstanceAs (Decidable (_ ∧ _ ∧ _))
  | .loadTrustChain _ => inferInstanceAs (Decidable (_ ∧ _ ∧ _ ∧ _))
  | .psaAdacSignToken _ _ _ => inferInstanceAs (Decidable (_ ∧ _ ∧ _ ∧ _))
  | .splitTlvStatic _ => inferInstanceAs (Decidable (_ ∧ _ ∧ _))
  | .uninitialised _ => inferInstanceAs (Decidable (_ ∨ _))
  | .newImpl => inferInstanceAs (Decidable (s.step = 0))

def behind (s : Script) : Event Host → Script
  | ⟨.updateProgress _ _, _⟩ => { s with step := s.step + 1 }
  | ⟨.presentForm _, (out : SDMReturnCode × Vector String _)⟩ =>
    { s with paths := some (out.2.getD 0 "", out.2.getD 1 "") }
  | ⟨.importPrivateKey _, (out : Int × UInt8 × UInt32)⟩ => { s with key := some out.2 }
  | ⟨.loadTrustChain _, (out : Int × List UInt8)⟩ => { s with chain := some out.2 }
  | ⟨.psaAdacSignToken _ _ _, _⟩ => { s with signed := true }
  | ⟨.splitTlvStatic _, _⟩ => { s with split := true }
  | _ => s

end Script

def script (psa : PsaAdac) (driver : ExternalComPortDriver) : Monitor Host Script := fun s e =>
  if s.Admits psa driver e.call then some (s.behind e) else none

namespace SecureDebugManagerImpl
open ExternalComPortDriver
variable {this : SecureDebugManagerImpl} {driver : ExternalComPortDriver} {psa : PsaAdac} {fuel : Nat}
  {s : Script} {α : Type}

/-- An object with a driver that reports its progress. -/
structure Reporting (driver : ExternalComPortDriver) (this : SecureDebugManagerImpl) : Prop where
  attached : this.mExtComPortDriver = some driver
  reports : this.mSdmOpenParams.callbacks.any (·.updateProgress) = true

theorem Reporting.keeps {this' : SecureDebugManagerImpl} (h : Reporting driver this)
    (hkeeps : this.Keeps this') : Reporting driver this' := by
  obtain ⟨hattached, hreports⟩ := h
  exact ⟨by rw [hkeeps.driver, hattached], by rw [hkeeps.params, hreports]⟩

theorem script_call {c : HostCall} {f : c.Answer → Sdm α} {Q : α → Script → Prop}
    (hadmits : s.Admits psa driver c)
    (hf : ∀ ans, Abides (script psa driver) Q (f ans) (s.behind ⟨c, ans⟩)) :
    Abides (script psa driver) Q (callHost c >>= f) s :=
  fun ans => ⟨_, if_pos hadmits, hf ans⟩

theorem script_updateProgress (h : Reporting driver this) {progressMessage : String}
    {percentComplete : UInt8} (hnext : progressSteps[s.step]? = some (progressMessage, percentComplete))
    (hdone : s.Done) : Abides (script psa driver) (fun _ t => t = { s with step := s.step + 1 })
      (this.updateProgress progressMessage percentComplete) s := by
  obtain ⟨callbacks, hcb, hreports⟩ := (Option.any_eq_true _ _).mp h.reports
  rw [updateProgress, hcb, deref_some, pure_bind, if_pos hreports]
  have hadmits : s.Admits psa driver (.updateProgress progressMessage percentComplete) := ⟨hnext, hdone⟩
  exact abides_perform fun _ => ⟨_, if_pos hadmits, rfl⟩

theorem script_of_makes {p : Sdm α} {R : HostCall → Prop} (hp : Makes p R)
    (hadmits : ∀ c, R c → s.Admits psa driver c ∧ ∀ ans, s.behind ⟨c, ans⟩ = s) :
    Abides (script psa driver) (fun _ t => t = s) p s := by
  refine abides_of_makes scripted [] hp fun c ans hc => ?_
  obtain ⟨hadmits, hstays⟩ := hadmits c hc
  rw [script, if_pos hadmits, hstays]

theorem script_requestPacketSend (h : Reporting driver this) (hstep : s.step ∈ [2, 6, 7])
    (packet : List UInt8) :
    Abides (script psa driver) (fun _ t => t = s) (this.requestPacketSend packet) s := by
  have hmakes : Makes (this.requestPacketSend packet)
      fun c => ∃ accesses, c = .registerAccess accesses ∧ driver.Writes true accesses := by
    rw [requestPacketSend, h.attached, deref_some, pure_bind]
    refine makes_lift.bind fun txBuffer => ?_
    exact (makes_eComPortTx_writes txBuffer 0).bind fun _ => makes_pure
  refine script_of_makes hmakes fun c hc => ?_
  obtain ⟨accesses, rfl, hwrites⟩ := hc
  exact ⟨.inr (.inl ⟨hstep, hwrites⟩), fun _ => rfl⟩

theorem script_responsePacketReceive (h : Reporting driver this) (hstep : s.step ∈ [3, 6, 7])
    (packet : List UInt8) (max : Nat) :
    Abides (script psa driver) (fun _ t => t = s) (this.responsePacketReceive fuel packet max) s := by
  have hmakes : Makes (this.responsePacketReceive fuel packet max)
      (· = .registerAccess [driver.readAccess]) := by
    rw [responsePacketReceive, h.attached, deref_some, pure_bind]
    refine makes_ite makes_pure ?_
    exact (makes_eComPortRx_read fuel packet max 0).bind fun _ => makes_pure
  refine script_of_makes hmakes fun c hc => ?_
  subst hc
  exact ⟨.inr (.inr ⟨hstep, rfl⟩), fun _ => rfl⟩

theorem script_sendAuthStartCmdRequest (h : Reporting driver this) (hstep : s.step = 2) :
    Abides (script psa driver) (fun _ t => t = s) (this.sendAuthStartCmdRequest psa) s := by
  have hadmits : s.Admits psa driver (.uninitialised 2) := .inr hstep
  refine script_call hadmits fun reserved => ?_
  exact script_requestPacketSend h (by rw [hstep]; decide) _

theorem returns_challenge : Returns (this.receiveAuthStartCmdResponse psa fuel) fun out =>
    this.Keeps out.2.2 ∧ (out.1 = .success → out.2.1.length = psa.sizeofPsaAuthChallenge) := by
  rw [receiveAuthStartCmdResponse]
  refine returns_responsePacketReceive.bind fun out hout => ?_
  have hkeeps := keeps_buffer hout
  refine returns_ite (fun hne => returns_pure ⟨hkeeps, fun h => absurd h hne⟩) fun _ => ?_
  refine returns_ite (fun _ => returns_pure ⟨hkeeps, fun h => by cases h⟩) fun _ => ?_
  refine (returns_lift fun challenge hchallenge => ?_).bind fun challenge hlen =>
    returns_pure ⟨hkeeps, fun _ => hlen⟩
  rw [peek] at hchallenge
  split_ifs at hchallenge with hfits
  rw [← Except.ok.inj hchallenge, List.length_take, List.length_drop]
  omega

theorem script_receiveAuthStartCmdResponse (h : Reporting driver this) (hstep : s.step = 3) :
    Abides (script psa driver) (fun _ t => t = s) (this.receiveAuthStartCmdResponse psa fuel) s := by
  refine (script_responsePacketReceive h (by rw [hstep]; decide) _ _).bind fun out t ht => ?_
  refine abides_ite (fun _ => ht) fun _ => ?_
  refine abides_ite (fun _ => ht) fun _ => ?_
  refine Abides.bind (abides_lift fun challenge _ => ht) fun challenge t ht => ht

theorem script_sendAuthResponseCmdRequest (h : Reporting driver this) (hstep : s.step ∈ [6, 7])
    (cert : List UInt8) :
    Abides (script psa driver) (fun _ t => t = s) (this.sendAuthResponseCmdRequest psa cert) s := by
  have hlift {x : Except Stop (List UInt8)}
      {f : List UInt8 → Sdm (SDMReturnCode × SecureDebugManagerImpl)}
      (hf : ∀ request, Abides (script psa driver) (fun _ t => t = s) (f request) s) :
      Abides (script psa driver) (fun _ t => t = s) (lift x >>= f) s :=
    Abides.bind (Q := fun _ t => t = s) (abides_lift fun _ _ => rfl) fun request t ht => ht ▸ hf request
  refine hlift fun _ => hlift fun _ => hlift fun request => ?_
  -- the packet is put together in the buffer of the object
  have hsend : Reporting driver { this with mMsgBuffer := request } := ⟨h.attached, h.reports⟩
  exact (script_requestPacketSend hsend (List.mem_cons_of_mem _ hstep) request).bind fun _ _ ht => ht

theorem script_receiveAuthResponseCmdResponse (h : Reporting driver this) (hstep : s.step ∈ [6, 7]) :
    Abides (script psa driver) (fun _ t => t = s) (this.receiveAuthResponseCmdResponse psa fuel) s := by
  refine (script_responsePacketReceive h (List.mem_cons_of_mem _ hstep) _ _).bind fun out t ht => ?_
  refine abides_ite (fun _ => ht) fun _ => ?_
  exact abides_ite (fun _ => ht) fun _ => ht

theorem script_exchange {cert : List UInt8} {Q : SDMReturnCode × SecureDebugManagerImpl → Script → Prop}
    (rest : SecureDebugManagerImpl → Sdm (SDMReturnCode × SecureDebugManagerImpl))
    (h : Reporting driver this) (hstep : s.step ∈ [6, 7])
    (hbad : ∀ this' : SecureDebugManagerImpl, Q (.internalError, this') s)
    (hrest : ∀ this' : SecureDebugManagerImpl, Reporting driver this' →
      Abides (script psa driver) Q (rest this') s) :
    Abides (script psa driver) Q (do
      let (res, this) ← this.sendAuthResponseCmdRequest psa cert
      if res ≠ .success then return (.internalError, this)
      let (res, this) ← this.receiveAuthResponseCmdResponse psa fuel
      if res ≠ .success then return (.internalError, this)
      rest this) s := by
  refine ((script_sendAuthResponseCmdRequest h hstep cert).and_returns
    returns_sendAuthResponseCmdRequest).bind fun sent t ht => ?_
  obtain ⟨rfl, hkeeps⟩ := ht
  refine abides_ite (fun _ => hbad _) fun _ => ?_
  have h' := h.keeps hkeeps
  refine ((script_receiveAuthResponseCmdResponse h' hstep).and_returns
    returns_receiveAuthResponseCmdResponse).bind fun received t ht => ?_
  obtain ⟨rfl, hkeeps'⟩ := ht
  exact abides_ite (fun _ => hbad _) fun _ => hrest _ (h'.keeps hkeeps')

theorem script_sendCertificates (exts : List PsaTlv) (h : Reporting driver this) (hstep : s.step = 6) :
    Abides (script psa driver) (fun _ t => t = s) (sendCertificates psa fuel exts this) s := by
  induction exts generalizing this with
  | nil => exact abides_pure rfl
  | cons ext exts ih =>
    rw [sendCertificates]
    refine abides_ite (fun _ => ?_) fun _ => ih h
    exact script_exchange _ h (by rw [hstep]; decide) (fun _ => rfl) fun this' h' => ih h'

/-! ### Authentication -/

/-- A good code comes with the last report, and with no other. -/
def Finished (out : SDMReturnCode × SecureDebugManagerImpl) (s : Script) : Prop :=
  out.1 = .success ↔ s.step = progressSteps.length

theorem not_finished {this' : SecureDebugManagerImpl} (hstep : s.step < 8) :
    Finished (.internalError, this') s :=
  iff_of_false internalError_ne_success (Nat.ne_of_lt hstep)

theorem script_respond (exts : List PsaTlv) (token : List UInt8) (h : Reporting driver this)
    (hstep : s.step = 5) (hsplit : s.split = true) :
    Abides (script psa driver) Finished (respond psa fuel exts token this) s := by
  have hdone : s.Done := ⟨fun h1 => by omega, fun h4 => by omega, fun _ => hsplit⟩
  refine (script_updateProgress h (by rw [hstep]; rfl) hdone).bind fun _ t ht => ?_
  have ht6 : t.step = 6 := by rw [ht, hstep]
  refine ((script_sendCertificates exts h ht6).and_returns returns_sendCertificates).bind
    fun out u hu => ?_
  obtain ⟨rfl, hkeeps⟩ := hu
  refine abides_ite (fun _ => not_finished (by omega)) fun _ => ?_
  have hdone : u.Done := ⟨fun h1 => by omega, fun h4 => by omega, fun h5 => by omega⟩
  refine (script_updateProgress (h.keeps hkeeps) (by rw [ht6]; rfl) hdone).bind fun _ v hv => ?_
  have hv7 : v.step = 7 := by rw [hv, ht6]
  refine script_exchange (fun this => do
    this.updateProgress "Finished authentication" 100
    return (.success, this)) (h.keeps hkeeps) (by rw [hv7]; decide)
    (fun _ => not_finished (by omega)) fun this' h' => ?_
  have hdone : v.Done := ⟨fun h1 => by omega, fun h4 => by omega, fun h5 => by omega⟩
  refine (script_updateProgress h' (by rw [hv7]; rfl) hdone).bind fun _ w hw => ?_
  exact iff_of_true rfl (by rw [hw, hv7]; rfl)

theorem script_signAndRespond (credentials : Credentials) (challenge : List UInt8)
    (h : Reporting driver this) (hstep : s.step = 3)
    (hkey : s.key = some (credentials.signatureType, credentials.handle))
    (hchain : s.chain = some credentials.chain) (hsigned : s.signed = false) (hsplit : s.split = false)
    (hlen : challenge.length = psa.sizeofPsaAuthChallenge) :
    Abides (script psa driver) Finished (signAndRespond psa fuel credentials challenge this) s := by
  -- the vector lies within a challenge of this length
  have hvector : ((challenge.drop psa.offsetChallengeVector).take psa.sizeofChallengeVector).length =
      psa.sizeofChallengeVector := by
    have hle := psa.vector_le
    rw [List.length_take, List.length_drop]
    omega
  rw [signAndRespond_eq]
  have hdone : s.Done := ⟨fun h1 => by omega, fun h4 => by omega, fun h5 => by omega⟩
  refine (script_updateProgress h (by rw [hstep]; rfl) hdone).bind fun _ t ht => ?_
  have ht4 : t.step = 4 := by rw [ht, hstep]
  have hsign : t.Admits psa driver (.psaAdacSignToken
      ((challenge.drop psa.offsetChallengeVector).take psa.sizeofChallengeVector)
      credentials.signatureType credentials.handle) :=
    ⟨ht4, by rw [ht, hsigned], by rw [ht, hkey], hvector⟩
  refine script_call hsign fun signed => ?_
  refine abides_ite (fun _ => not_finished (show t.step < 8 by omega)) fun _ => ?_
  have hdone : Script.Done { t with signed := true } :=
    ⟨fun (h1 : t.step = 1) => by omega, fun _ => rfl, fun (h5 : t.step = 5) => by omega⟩
  refine (script_updateProgress h (by rw [ht4]; rfl) hdone).bind fun _ u hu => ?_
  have hu5 : u.step = 5 := by rw [hu, ht4]
  have hparse : u.Admits psa driver (.splitTlvStatic credentials.chain) :=
    ⟨hu5, by rw [hu, ht, hsplit], by rw [hu, ht, hchain]⟩
  refine script_call hparse fun split => ?_
  refine abides_ite (fun _ => not_finished (show u.step < 8 by omega)) fun _ => ?_
  exact script_respond _ _ h hu5 rfl

structure Loaded (credentials : Credentials) (s : Script) : Prop where
  step : s.step = 1
  key : s.key = some (credentials.signatureType, credentials.handle)
  chain : s.chain = some credentials.chain
  signed : s.signed = false
  split : s.split = false

theorem script_loadCredentials (hs : s = { step := 1 }) :
    Abides (script psa driver) (fun out t => t.step = 1 ∧ (out.1 = .success → Loaded out.2 t))
      this.loadCredentials s := by
  subst hs
  have hbad (res : SDMReturnCode) (credentials : Credentials) (t : Script) (ht : t.step = 1)
      (hres : res ≠ .success) : t.step = 1 ∧ (res = .success → Loaded credentials t) :=
    ⟨ht, fun h => absurd h hres⟩
  rw [loadCredentials]
  cases this.mSdmOpenParams.callbacks with
  | none => exact abides_halt
  | some callbacks =>
    rw [deref_some, pure_bind]
    refine abides_ite (fun _ => hbad _ _ _ rfl internalError_ne_success) fun _ => ?_
    have hpresent : Script.Admits psa driver { step := 1 } (.presentForm credentialsForm) :=
      ⟨rfl, rfl, rfl⟩
    refine script_call hpresent fun presented => ?_
    refine abides_ite (fun hne => hbad _ _ _ rfl hne) fun _ => ?_
    have himport : Script.Admits psa driver
        { step := 1, paths := some (presented.2.getD 0 "", presented.2.getD 1 "") }
        (.importPrivateKey (userInputStringTrim (presented.2.getD 0 ""))) := ⟨rfl, rfl, rfl⟩
    refine script_call himport fun key => ?_
    refine abides_ite (fun _ => hbad _ _ _ rfl internalError_ne_success) fun _ => ?_
    have hload : Script.Admits psa driver
        { step := 1, paths := some (presented.2.getD 0 "", presented.2.getD 1 ""), key := some key.2 }
        (.loadTrustChain (userInputStringTrim (presented.2.getD 1 ""))) :=
      ⟨rfl, Option.some_ne_none _, rfl, rfl⟩
    refine script_call hload fun chain => ?_
    refine abides_ite (fun _ => hbad _ _ _ rfl internalError_ne_success) fun _ => ?_
    exact ⟨rfl, fun _ => ⟨rfl, rfl, rfl, rfl, rfl⟩⟩

theorem script_sdmAuthenticate (hopen : this.mOpen = true) (h : Reporting driver this) :
    Abides (script psa driver) Finished (this.sdmAuthenticate psa fuel) {} := by
  rw [sdmAuthenticate_eq hopen]
  have hdone : Script.Done {} := by decide
  refine (script_updateProgress h rfl hdone).bind fun _ s hs => ?_
  refine (script_loadCredentials hs).bind fun loaded t ht => ?_
  obtain ⟨ht1, hloaded⟩ := ht
  refine abides_ite (fun _ => not_finished (by omega)) fun hres => ?_
  obtain ⟨-, hkey, hchain, hsigned, hsplit⟩ := hloaded (not_not.mp hres)
  have hsome : t.chain ≠ none := by
    rw [hchain]
    exact Option.some_ne_none _
  have hdone : t.Done := ⟨fun _ => hsome, fun h4 => by omega, fun h5 => by omega⟩
  refine (script_updateProgress h (by rw [ht1]; rfl) hdone).bind fun _ u hu => ?_
  have hu2 : u.step = 2 := by rw [hu, ht1]
  refine (script_sendAuthStartCmdRequest h hu2).bind fun sent v hv => ?_
  subst hv
  refine abides_ite (fun _ => not_finished (by omega)) fun _ => ?_
  have hdone : v.Done := ⟨fun h1 => by omega, fun h4 => by omega, fun h5 => by omega⟩
  refine (script_updateProgress h (by rw [hu2]; rfl) hdone).bind fun _ w hw => ?_
  have hw3 : w.step = 3 := by rw [hw, hu2]
  refine ((script_receiveAuthStartCmdResponse h hw3).and_returns returns_challenge).bind
    fun received x hx => ?_
  obtain ⟨rfl, hkeeps, hlen⟩ := hx
  refine abides_ite (fun _ => not_finished (by omega)) fun hres => ?_
  refine script_signAndRespond loaded.2 received.2.1 (h.keeps hkeeps) hw3 ?_ ?_ ?_ ?_
    (hlen (not_not.mp hres))
  · rw [hw, hu, hkey]
  · rw [hw, hu, hchain]
  · rw [hw, hu, hsigned]
  · rw [hw, hu, hsplit]

end SecureDebugManagerImpl
end SecureDebug
