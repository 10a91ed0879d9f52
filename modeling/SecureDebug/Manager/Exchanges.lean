import SecureDebug.Manager.Challenge
import SecureDebug.Manager.Packets

/-! `SDMAuthenticate` in lock-step with the target: a request for a challenge, one `AUTH_RESPONSE`
for each certificate of the chain and one for the token, each behind an accepted answer to the one
before. -/

namespace SecureDebug
open Interaction Program Framing

def certificates (psa : PsaAdac) (exts : List PsaTlv) : List Exchange :=
  (exts.filter (·.typeId = psa.psaBinaryCrt)).map fun ext => .response ext.bytes

def signedToken : Event Host → Option (List UInt8)
  | ⟨.psaAdacSignToken _ _ _, (signed : Int × List UInt8)⟩ =>
    if signed.1 < 0 then none else some signed.2
  | _ => none

def splitChain : Event Host → Option (List PsaTlv)
  | ⟨.splitTlvStatic _, (split : Int × List PsaTlv)⟩ => if split.1 < 0 then none else some split.2
  | _ => none

section
variable {challenge chain : List UInt8} {signatureType : UInt8} {handle : UInt32}
  {signed : Int × List UInt8} {split : Int × List PsaTlv}

theorem signedToken_of_failed (h : signed.1 < 0) :
    signedToken ⟨.psaAdacSignToken challenge signatureType handle, signed⟩ = none := if_pos h

theorem signedToken_of_signed (h : ¬signed.1 < 0) :
    signedToken ⟨.psaAdacSignToken challenge signatureType handle, signed⟩ = some signed.2 :=
  if_neg h

theorem splitChain_of_failed (h : split.1 < 0) :
    splitChain ⟨.splitTlvStatic chain, split⟩ = none := if_pos h

theorem splitChain_of_split (h : ¬split.1 < 0) :
    splitChain ⟨.splitTlvStatic chain, split⟩ = some split.2 := if_neg h

end

def responses (psa : PsaAdac) (l : Trace) : Option (List Exchange) :=
  (l.findSome? signedToken).bind fun token =>
    (l.findSome? splitChain).map fun exts => certificates psa exts ++ [.response token]

def exchanges (psa : PsaAdac) (l : Trace) : List Exchange := .start :: (responses psa l).getD []

/-! ### Answers in lock-step -/

theorem lockstep_cons (e : Exchange) (es : List Exchange) :
    lockstep (e :: es) = .send e :: .receive e :: lockstep es := rfl

theorem lockstep_append (es es' : List Exchange) :
    lockstep (es ++ es') = lockstep es ++ lockstep es' := List.flatMap_append

theorem Exchange.Accepts.framed {psa : PsaAdac} {buffer bytes : List UInt8} {e : Exchange}
    (h : e.Accepts psa buffer bytes) : Framed bytes := by
  cases e with
  | start => exact h.1
  | response cert => exact Accepted.framed h

theorem sentPacket_writes {packet : List UInt8} :
    ∀ o ∈ sentPacket packet, ∀ byte, o ≠ .read byte := by
  intro o ho byte heq
  obtain ⟨b, -, hb⟩ := List.mem_map.mp ho
  rw [heq] at hb
  cases hb

theorem brokenPacket_writes {packet : List UInt8} {n : Nat} :
    ∀ o ∈ brokenPacket packet n, ∀ byte, o ≠ .read byte := by
  intro o ho byte heq
  rcases List.mem_append.mp ho with ho | ho
  · obtain ⟨b, -, hb⟩ := List.mem_map.mp ho
    rw [heq] at hb
    cases hb
  · obtain ⟨b, -, hb⟩ := List.mem_map.mp ho
    rw [heq] at hb
    cases hb

section
variable {psa : PsaAdac} {buffer : List UInt8} {es : List Exchange} {t : List Observation} {c : Bool}

theorem begins_of_writes {ws : List Observation} (h : ∀ o ∈ ws, ∀ byte, o ≠ .read byte) :
    Begins ws := by
  intro byte hhead
  exact h _ (List.mem_of_head? hhead) byte rfl

theorem begins_of_follows (h : (authSteps psa buffer).Follows (lockstep es) t c) : Begins t := by
  cases es with
  | nil =>
    rw [(Plan.follows_nil.mp h).1]
    exact begins_of_writes fun _ ho => by cases ho
  | cons e es =>
    rw [lockstep_cons] at h
    cases h with
    | cut hcut =>
      rcases hcut with rfl | ⟨packet, n, -, rfl⟩
      · exact begins_of_writes fun _ ho => by cases ho
      · exact begins_of_writes brokenPacket_writes
    | step hsent hrest =>
      obtain ⟨packet, -, rfl⟩ := hsent
      intro byte hhead
      cases Option.some.inj hhead

theorem completed_iff (h : (authSteps psa buffer).Follows (lockstep es) t c) :
    c = true ↔ List.Forall₂ (Exchange.Accepts psa buffer) es (replies t) := by
  induction es generalizing t with
  | nil =>
    obtain ⟨rfl, hc⟩ := Plan.follows_nil.mp h
    exact iff_of_true hc .nil
  | cons e es ih =>
    rw [lockstep_cons] at h
    cases h with
    | cut hcut =>
      have hnil : replies t = [] := by
        have hwrites : ∀ o ∈ t, ∀ byte, o ≠ .read byte := by
          rcases hcut with rfl | ⟨packet, n, -, rfl⟩
          · exact fun _ ho => by cases ho
          · exact brokenPacket_writes
        have hreplies := replies_writes (t := []) hwrites
        rwa [List.append_nil] at hreplies
      rw [hnil]
      refine iff_of_false Bool.false_ne_true fun hall => ?_
      cases hall
    | step hsent hrest =>
      obtain ⟨packet, -, rfl⟩ := hsent
      rw [replies_writes sentPacket_writes]
      cases hrest with
      | cut hcut =>
        obtain ⟨bytes, hrefused, rfl⟩ := hcut
        refine iff_of_false Bool.false_ne_true fun hall => ?_
        cases bytes with
        | nil => cases hall
        | cons byte bytes =>
          rw [replies_reads (List.cons_ne_nil byte bytes)] at hall
          exact hrefused (List.forall₂_cons.mp hall).1
      | step hreceived hrest =>
        obtain ⟨bytes, haccepts, rfl⟩ := hreceived
        have hne : bytes ≠ [] := fun hnil => not_framed_nil (hnil ▸ haccepts.framed)
        rw [replies_append (begins_of_follows hrest), replies_reads hne, List.singleton_append,
          List.forall₂_cons, ← ih hrest]
        exact (and_iff_right haccepts).symm

theorem follows_unique {c' : Bool} (h : (authSteps psa buffer).Follows (lockstep es) t c)
    (h' : (authSteps psa buffer).Follows (lockstep es) t c') : c = c' := by
  rw [Bool.eq_iff_iff, completed_iff h, completed_iff h']

end

theorem certificates_cons (psa : PsaAdac) (ext : PsaTlv) (exts : List PsaTlv) :
    certificates psa (ext :: exts) = if ext.typeId = psa.psaBinaryCrt
      then .response ext.bytes :: certificates psa exts else certificates psa exts := by
  rw [certificates, List.filter_cons]
  simp only [decide_eq_true_eq]
  split_ifs <;> rfl

/-! ### Where nothing is signed or split -/

def HostCall.Plain : HostCall → Prop
  | .psaAdacSignToken _ _ _ => False
  | .splitTlvStatic _ => False
  | _ => True

theorem findSome_of_plain {l : Trace} (l' : Trace) (h : ∀ e ∈ l, HostCall.Plain e.call) :
    (l ++ l').findSome? signedToken = l'.findSome? signedToken ∧
      (l ++ l').findSome? splitChain = l'.findSome? splitChain := by
  induction l with
  | nil => exact ⟨rfl, rfl⟩
  | cons e l ih =>
    obtain ⟨hfirst, hrest⟩ := List.forall_mem_cons.mp h
    obtain ⟨hsigned, hsplit⟩ := ih hrest
    obtain ⟨call, answer⟩ := e
    cases call with
    | psaAdacSignToken => cases hfirst
    | splitTlvStatic => cases hfirst
    | _ => exact ⟨hsigned, hsplit⟩

theorem responses_of_plain {psa : PsaAdac} {l l' : Trace} (h : ∀ e ∈ l, HostCall.Plain e.call) :
    responses psa (l ++ l') = responses psa l' := by
  obtain ⟨hsigned, hsplit⟩ := findSome_of_plain l' h
  rw [responses, responses, hsigned, hsplit]

theorem responses_of_not_signed {psa : PsaAdac} {e : Event Host} (h : signedToken e = none) :
    responses psa [e] = none := by
  rw [responses, List.findSome?_cons_of_isNone (by rw [h]; rfl)]
  rfl

theorem responses_of_signed {psa : PsaAdac} {e : Event Host} {l : Trace} {token : List UInt8}
    (hsigned : signedToken e = some token) (hsplit : splitChain e = none) :
    responses psa (e :: l) =
      (l.findSome? splitChain).map fun exts => certificates psa exts ++ [.response token] := by
  rw [responses, List.findSome?_cons_of_isSome (by rw [hsigned]; rfl), hsigned,
    List.findSome?_cons_of_isNone (by rw [hsplit]; rfl)]
  rfl

namespace ExternalComPortDriver
variable {driver : ExternalComPortDriver}

theorem makes_registerAccess {accesses : List SDMRegisterAccess} :
    Makes (driver.registerAccess accesses) HostCall.Plain :=
  makes_ite (makes_perform trivial) makes_halt

theorem makes_rxLoop {fuel rxBufferLength : Nat} {startFlag : UInt8} {s : RxState} :
    Makes (driver.rxLoop startFlag rxBufferLength fuel s) HostCall.Plain := by
  induction fuel generalizing s with
  | zero => exact makes_halt
  | succ fuel ih =>
    rw [rxLoop_eq]
    refine makes_registerAccess.bind fun a => ?_
    refine makes_ite makes_pure ?_
    refine makes_lift.bind fun step => ?_
    cases step with
    | done out => exact makes_pure
    | more s' => exact ih

theorem makes_eComPortRx {fuel rxBufferLength actualLength : Nat} {rxBuffer : List UInt8} :
    Makes (driver.eComPortRx fuel rxBuffer rxBufferLength actualLength) HostCall.Plain :=
  makes_ite makes_pure makes_rxLoop

theorem makes_eComPortTx {txBuffer : List UInt8} {actualLength : Nat} :
    Makes (driver.eComPortTx txBuffer actualLength true) HostCall.Plain := by
  rw [eComPortTx]
  refine makes_ite makes_pure ?_
  refine makes_lift.bind fun frame => ?_
  refine makes_ite makes_pure ?_
  rw [eComSendBlock_true, eComTxRaw]
  apply Makes.bind
  · refine makes_ite makes_pure ?_
    refine makes_registerAccess.bind fun a => ?_
    exact makes_ite makes_pure makes_pure
  · intro res
    exact makes_pure

end ExternalComPortDriver

namespace SecureDebugManagerImpl
variable {this this' : SecureDebugManagerImpl} {driver : ExternalComPortDriver} {psa : PsaAdac}
  {fuel : Nat} {l : Trace} {buffer : List UInt8}

theorem makes_deref {β : Type} {C : HostCall → Prop} {a : Option β} : Makes (deref a) C := by
  cases a with
  | none => exact makes_halt
  | some a => exact makes_pure

theorem makes_updateProgress {C : HostCall → Prop} {progressMessage : String} {percentComplete : UInt8}
    (h : C (.updateProgress progressMessage percentComplete)) :
    Makes (this.updateProgress progressMessage percentComplete) C :=
  makes_deref.bind fun _ => makes_ite (makes_perform h) makes_pure

theorem makes_loadCredentials {C : HostCall → Prop} (hform : C (.presentForm credentialsForm))
    (hkey : ∀ path, C (.importPrivateKey path)) (hchain : ∀ path, C (.loadTrustChain path)) :
    Makes this.loadCredentials C := by
  refine makes_deref.bind fun callbacks => ?_
  refine makes_ite makes_pure ?_
  refine (makes_perform hform).bind fun paths => ?_
  refine makes_ite makes_pure ?_
  refine (makes_perform (hkey _)).bind fun key => ?_
  refine makes_ite makes_pure ?_
  refine (makes_perform (hchain _)).bind fun chain => ?_
  exact makes_ite makes_pure makes_pure

theorem makes_requestPacketSend {packet : List UInt8} :
    Makes (this.requestPacketSend packet) HostCall.Plain :=
  makes_deref.bind fun _ => makes_lift.bind fun _ =>
    ExternalComPortDriver.makes_eComPortTx.bind fun _ => makes_pure

theorem makes_requestChallenge : Makes (this.requestChallenge psa) HostCall.Plain := by
  rw [requestChallenge]
  refine (makes_updateProgress trivial).bind fun _ => ?_
  refine (makes_loadCredentials trivial (fun _ => trivial) fun _ => trivial).bind fun credentials => ?_
  refine makes_ite makes_pure ?_
  refine (makes_updateProgress trivial).bind fun _ => ?_
  apply ((makes_perform trivial).bind fun _ => makes_requestPacketSend).bind
  intro res
  refine makes_ite makes_pure ?_
  refine (makes_updateProgress trivial).bind fun _ => ?_
  exact makes_pure

theorem makes_receiveAuthStartCmdResponse :
    Makes (this.receiveAuthStartCmdResponse psa fuel) HostCall.Plain := by
  rw [receiveAuthStartCmdResponse, responsePacketReceive]
  apply Makes.bind
  · refine makes_ite makes_pure ?_
    refine makes_deref.bind fun driver => ?_
    refine ExternalComPortDriver.makes_eComPortRx.bind fun rx => ?_
    exact makes_pure
  · intro out
    refine makes_ite makes_pure ?_
    refine makes_ite makes_pure ?_
    refine makes_lift.bind fun challenge => ?_
    exact makes_pure

/-! ### Runs -/

variable (driver) in
theorem run_updateProgress {progressMessage : String} {percentComplete : UInt8} {r : Except Stop Unit}
    (hcb : this.mSdmOpenParams.callbacks ≠ none)
    (h : Run (this.updateProgress progressMessage percentComplete) l r) :
    driver.traffic l = [] ∧ r = .ok () := by
  obtain ⟨callbacks, hcallbacks⟩ := Option.ne_none_iff_exists'.mp hcb
  have hsilent : driver.traffic l = [] := silent_updateProgress _ _ driver l r h
  rw [updateProgress, hcallbacks, deref_some, pure_bind] at h
  refine ⟨hsilent, ?_⟩
  split_ifs at h
  · obtain ⟨_, -, hr⟩ := run_perform.mp h
    exact hr
  · exact (run_pure.mp h).2

theorem carries_progress {β : Type} {progressMessage : String} {percentComplete : UInt8}
    {f : Unit → Sdm β} {good : β → Prop} {ss : List AuthStep}
    (hcb : this.mSdmOpenParams.callbacks ≠ none)
    (h : Carries (authSteps psa buffer) driver.traffic (f ()) good ss) :
    Carries (authSteps psa buffer) driver.traffic
      (this.updateProgress progressMessage percentComplete >>= f) good ss := by
  rw [← List.nil_append ss]
  have hnothing : Carries (authSteps psa buffer) driver.traffic
      (this.updateProgress progressMessage percentComplete) (fun _ => True) [] := by
    apply carries_nil
    intro l r hrun
    obtain ⟨ht, hr⟩ := run_updateProgress driver hcb hrun
    exact ⟨ht, (), hr⟩
  apply hnothing.bind driver.traffic_append
  · intro _ _ _ _
    exact h
  · intro _ hfalse
    exact absurd trivial hfalse

theorem carries_exchange {cert : List UInt8} {ss : List AuthStep}
    (rest : SecureDebugManagerImpl → Sdm (SDMReturnCode × SecureDebugManagerImpl))
    (ho : this.IsOpen driver)
    (hrest : ∀ this₁, this.Keeps this₁ →
      Carries (authSteps psa buffer) driver.traffic (rest this₁) (·.1 = .success) ss) :
    Carries (authSteps psa buffer) driver.traffic (do
      let (res, this) ← this.sendAuthResponseCmdRequest psa cert
      if res ≠ .success then return (.internalError, this)
      let (res, this) ← this.receiveAuthResponseCmdResponse psa fuel
      if res ≠ .success then return (.internalError, this)
      rest this) (·.1 = .success) (.send (.response cert) :: .receive (.response cert) :: ss) := by
  show Carries _ _ _ _ ([AuthStep.send (.response cert)] ++
    ([AuthStep.receive (.response cert)] ++ ss))
  apply (carries_sendAuthResponseCmdRequest cert ho).bind driver.traffic_append
  · intro l sent hsent hres
    obtain ⟨code, this₁⟩ := sent
    obtain rfl : code = .success := hres
    obtain ⟨-, -, ho₁, hcmd⟩ := run_sendAuthResponseCmdRequest ho hsent
    have hkeeps := returns_sendAuthResponseCmdRequest _ _ hsent
    dsimp only
    rw [if_neg (not_not.mpr rfl)]
    apply (carries_receiveAuthResponseCmdResponse cert ho₁ hcmd).bind driver.traffic_append
    · intro l received hreceived hres
      obtain ⟨code, this₂⟩ := received
      obtain rfl : code = .success := hres
      rw [if_neg (not_not.mpr rfl)]
      exact hrest this₂ (hkeeps.trans (returns_receiveAuthResponseCmdResponse _ _ hreceived))
    · intro received hres
      rw [if_pos hres]
      exact ⟨_, internalError_ne_success, rfl⟩
  · intro sent hres
    dsimp only
    rw [if_pos hres]
    exact ⟨_, internalError_ne_success, rfl⟩

theorem carries_sendCertificates {exts : List PsaTlv} (ho : this.IsOpen driver) :
    Carries (authSteps psa buffer) driver.traffic (sendCertificates psa fuel exts this)
      (·.1 = .success) (lockstep (certificates psa exts)) := by
  induction exts generalizing this with
  | nil => exact carries_pure driver.traffic_nil rfl
  | cons ext exts ih =>
    rw [sendCertificates, certificates_cons]
    by_cases hcrt : ext.typeId = psa.psaBinaryCrt
    · rw [if_pos hcrt, if_pos hcrt, lockstep_cons]
      apply carries_exchange _ ho
      intro this₁ hkeeps
      exact ih (hkeeps.isOpen_of ho)
    · rw [if_neg hcrt, if_neg hcrt]
      exact ih ho

theorem carries_respond {exts : List PsaTlv} {token : List UInt8} (ho : this.IsOpen driver)
    (hcb : this.mSdmOpenParams.callbacks ≠ none) :
    Carries (authSteps psa buffer) driver.traffic (respond psa fuel exts token this) (·.1 = .success)
      (lockstep (certificates psa exts ++ [.response token])) := by
  rw [respond]
  apply carries_progress hcb
  rw [lockstep_append]
  apply (carries_sendCertificates ho).bind driver.traffic_append
  · intro l out hrun hres
    obtain ⟨code, this₁⟩ := out
    obtain rfl : code = .success := hres
    have hkeeps := returns_sendCertificates _ _ hrun
    have hcb₁ : this₁.mSdmOpenParams.callbacks ≠ none := by
      rw [hkeeps.params]
      exact hcb
    dsimp only
    rw [if_neg (not_not.mpr rfl)]
    apply carries_progress hcb₁
    apply carries_exchange (fun this => do
      this.updateProgress "Finished authentication" 100
      return (.success, this)) (hkeeps.isOpen_of ho)
    intro this₂ hkeeps₂
    have hcb₂ : this₂.mSdmOpenParams.callbacks ≠ none := by
      rw [hkeeps₂.params]
      exact hcb₁
    apply carries_progress hcb₂
    exact carries_pure driver.traffic_nil rfl
  · intro out hres
    dsimp only
    rw [if_pos hres]
    exact ⟨_, internalError_ne_success, rfl⟩

variable (driver) in
theorem run_progress_bind {β : Type} {progressMessage : String} {percentComplete : UInt8}
    {f : Unit → Sdm β} {r : Except Stop β} (hcb : this.mSdmOpenParams.callbacks ≠ none)
    (h : Run (this.updateProgress progressMessage percentComplete >>= f) l r) :
    ∃ l₁ l₂, l = l₁ ++ l₂ ∧ driver.traffic l₁ = [] ∧ (∀ e ∈ l₁, HostCall.Plain e.call) ∧
      Run (f ()) l₂ r := by
  rcases run_bind.mp h with ⟨_, l₁, l₂, hl, h₁, h₂⟩ | ⟨e, -, he⟩
  · exact ⟨l₁, l₂, hl, (run_updateProgress driver hcb h₁).1, makes_updateProgress trivial _ _ h₁, h₂⟩
  · cases (run_updateProgress driver hcb he).2

theorem run_callHost_bind {β : Type} {call : HostCall} {f : call.Answer → Sdm β}
    {r : Except Stop β} : Run (callHost call >>= f) l r ↔
      ∃ (answer : call.Answer) (l' : Trace), l = ⟨call, answer⟩ :: l' ∧ Run (f answer) l' r :=
  run_call

variable (driver) in
theorem run_signAndRespond_cases {credentials : Credentials} {challenge : List UInt8}
    {r : Except Stop (SDMReturnCode × SecureDebugManagerImpl)}
    (hcb : this.mSdmOpenParams.callbacks ≠ none)
    (h : Run (signAndRespond psa fuel credentials challenge this) l r) :
    (responses psa l = none ∧ driver.traffic l = [] ∧ r = .ok (.internalError, this)) ∨
      ∃ exts token l', responses psa l = some (certificates psa exts ++ [.response token]) ∧
        driver.traffic l = driver.traffic l' ∧ Run (respond psa fuel exts token this) l' r := by
  have hsilent (e : Event Host) (he : driver.traffic [e] = []) (l : Trace) :
      driver.traffic (e :: l) = driver.traffic l := by
    rw [← List.singleton_append, ExternalComPortDriver.traffic_append, he, List.nil_append]
  rw [signAndRespond_eq] at h
  obtain ⟨l₁, l₂, rfl, ht₁, hplain₁, h₂⟩ := run_progress_bind driver hcb h
  obtain ⟨signed, l₃, rfl, h₃⟩ := run_callHost_bind.mp h₂
  rw [responses_of_plain hplain₁, ExternalComPortDriver.traffic_append, ht₁, List.nil_append,
    hsilent _ rfl]
  by_cases hsigned : signed.1 < 0
  · rw [if_pos hsigned] at h₃
    obtain ⟨hl, hr⟩ := run_pure.mp h₃
    rw [hl]
    exact .inl ⟨responses_of_not_signed (signedToken_of_failed hsigned), rfl, hr⟩
  · rw [if_neg hsigned] at h₃
    obtain ⟨l₄, l₅, rfl, ht₄, hplain₄, h₅⟩ := run_progress_bind driver hcb h₃
    obtain ⟨split, l₆, rfl, h₆⟩ := run_callHost_bind.mp h₅
    rw [responses_of_signed (signedToken_of_signed hsigned) rfl, (findSome_of_plain _ hplain₄).2,
      ExternalComPortDriver.traffic_append, ht₄, List.nil_append, hsilent _ rfl]
    by_cases hsplit : split.1 < 0
    · rw [if_pos hsplit] at h₆
      obtain ⟨hl, hr⟩ := run_pure.mp h₆
      rw [hl, List.findSome?_cons, splitChain_of_failed hsplit]
      exact .inl ⟨rfl, rfl, hr⟩
    · rw [if_neg hsplit] at h₆
      rw [List.findSome?_cons, splitChain_of_split hsplit]
      exact .inr ⟨split.2, signed.2, l₆, rfl, rfl, h₆⟩

theorem run_signAndRespond_exchanges {credentials : Credentials} {challenge : List UInt8}
    {r : Except Stop (SDMReturnCode × SecureDebugManagerImpl)} (ho : this.IsOpen driver)
    (hcb : this.mSdmOpenParams.callbacks ≠ none)
    (h : Run (signAndRespond psa fuel credentials challenge this) l r) :
    ∃ c, (authSteps psa buffer).Follows (lockstep ((responses psa l).getD [])) (driver.traffic l) c ∧
      ((responses psa l).isSome = true ∧ c = true ↔ ∃ out, r = .ok out ∧ out.1 = .success) := by
  rcases run_signAndRespond_cases driver hcb h with ⟨hnone, ht, rfl⟩ | ⟨exts, token, l', hsome, ht, h'⟩
  · rw [hnone, ht]
    refine ⟨true, .nil, iff_of_false (fun hsome => by cases hsome.1) ?_⟩
    intro hout
    obtain ⟨out, hout, hsuccess⟩ := hout
    rw [← Except.ok.inj hout] at hsuccess
    exact internalError_ne_success hsuccess
  · rw [hsome, ht]
    obtain ⟨c, hfollows, hc⟩ := carries_respond ho hcb _ _ h'
    exact ⟨c, hfollows, (and_iff_right rfl).trans hc⟩

theorem carries_requestChallenge (ho : this.IsOpen driver)
    (hcb : this.mSdmOpenParams.callbacks ≠ none) :
    Carries (authSteps psa buffer) driver.traffic (this.requestChallenge psa) (·.1 = .success)
      [.send .start] := by
  rw [requestChallenge]
  apply carries_progress hcb
  apply Carries.silent_bind driver.traffic_append (silent_loadCredentials driver) cut_send_nil
  intro _ loaded _
  dsimp only
  by_cases hloaded : loaded.1 = .success
  · rw [if_neg (not_not.mpr hloaded)]
    apply carries_progress hcb
    show Carries _ _ _ _ ([AuthStep.send .start] ++ [])
    apply (carries_sendAuthStartCmdRequest ho).bind driver.traffic_append
    · intro _ sent _ hsent
      rw [if_neg (not_not.mpr hsent)]
      apply carries_progress hcb
      exact carries_pure driver.traffic_nil rfl
    · intro sent hsent
      rw [if_pos hsent]
      exact ⟨_, hsent, rfl⟩
  · rw [if_pos hloaded]
    exact carries_stop cut_send_nil hloaded

def exchangeChallenge (psa : PsaAdac) (fuel : Nat) (this : SecureDebugManagerImpl) :
    Sdm (SDMReturnCode × Credentials × List UInt8 × SecureDebugManagerImpl) := do
  let (res, credentials) ← this.requestChallenge psa
  if res ≠ .success then return (.internalError, credentials, [], this)
  let (res, challenge, this) ← this.receiveAuthStartCmdResponse psa fuel
  return (res, credentials, challenge, this)

theorem sdmAuthenticate_eq_exchange (hopen : this.mOpen = true) :
    this.sdmAuthenticate psa fuel = exchangeChallenge psa fuel this >>= fun exchanged =>
      if exchanged.1 ≠ .success then pure (.internalError, exchanged.2.2.2)
      else signAndRespond psa fuel exchanged.2.1 exchanged.2.2.1 exchanged.2.2.2 := by
  rw [sdmAuthenticate_eq_request hopen, exchangeChallenge, bind_assoc]
  apply bind_congr
  intro requested
  by_cases hrequested : requested.1 = .success
  · dsimp only
    rw [if_neg (not_not.mpr hrequested), if_neg (not_not.mpr hrequested), bind_assoc]
    rfl
  · dsimp only
    rw [if_pos hrequested, if_pos hrequested, pure_bind, if_pos internalError_ne_success]

theorem carries_exchangeChallenge (ho : this.IsOpen driver)
    (hcb : this.mSdmOpenParams.callbacks ≠ none) :
    Carries (authSteps psa this.mMsgBuffer) driver.traffic (exchangeChallenge psa fuel this)
      (·.1 = .success) (lockstep [.start]) := by
  rw [exchangeChallenge]
  show Carries _ _ _ _ ([AuthStep.send .start] ++ [.receive .start])
  apply (carries_requestChallenge ho hcb).bind driver.traffic_append
  · intro _ requested _ hrequested
    dsimp only
    rw [if_neg (not_not.mpr hrequested)]
    show Carries _ _ _ _ ([AuthStep.receive .start] ++ [])
    apply (carries_receiveAuthStartCmdResponse ho).bind driver.traffic_append
    · intro _ received _ hreceived
      exact carries_pure driver.traffic_nil hreceived
    · intro received hreceived
      exact ⟨_, hreceived, rfl⟩
  · intro requested hrequested
    dsimp only
    rw [if_pos hrequested]
    exact ⟨_, internalError_ne_success, rfl⟩

theorem returns_exchangeChallenge :
    Returns (exchangeChallenge psa fuel this) fun out => this.Keeps out.2.2.2 := by
  rw [exchangeChallenge]
  refine returns_true.bind fun requested _ => ?_
  refine returns_ite (fun _ => returns_pure .refl) fun _ => ?_
  exact returns_receiveAuthStartCmdResponse.bind fun _ hkeeps => returns_pure hkeeps

theorem makes_exchangeChallenge : Makes (exchangeChallenge psa fuel this) HostCall.Plain := by
  rw [exchangeChallenge]
  refine makes_requestChallenge.bind fun requested => ?_
  exact makes_ite makes_pure (makes_receiveAuthStartCmdResponse.bind fun _ => makes_pure)

theorem run_sdmAuthenticate_of_null {r : Except Stop (SDMReturnCode × SecureDebugManagerImpl)}
    (ho : this.IsOpen driver) (hcb : this.mSdmOpenParams.callbacks = none)
    (h : Run (this.sdmAuthenticate psa fuel) l r) : l = [] ∧ r = .error .nullPointer := by
  rw [sdmAuthenticate_eq ho.isOpen, updateProgress, hcb] at h
  exact run_halt.mp h

/-- Every run follows the exchanges in lock-step, and returns success just if there was something to
send behind the challenge and all exchanges were completed. -/
theorem run_sdmAuthenticate_exchanges {r : Except Stop (SDMReturnCode × SecureDebugManagerImpl)}
    (ho : this.IsOpen driver) (h : Run (this.sdmAuthenticate psa fuel) l r) :
    ∃ c, (authSteps psa this.mMsgBuffer).Follows (lockstep (exchanges psa l)) (driver.traffic l) c ∧
      ((responses psa l).isSome = true ∧ c = true ↔ ∃ out, r = .ok out ∧ out.1 = .success) := by
  rw [exchanges, lockstep_cons]
  by_cases hcb : this.mSdmOpenParams.callbacks = none
  · obtain ⟨hl, hr⟩ := run_sdmAuthenticate_of_null ho hcb h
    rw [hl, hr]
    refine ⟨false, .cut cut_send_nil, iff_of_false (fun hc => by cases hc.2) ?_⟩
    intro hout
    obtain ⟨out, hout, -⟩ := hout
    cases hout
  rw [sdmAuthenticate_eq_exchange ho.isOpen] at h
  have hexchange : Carries (authSteps psa this.mMsgBuffer) driver.traffic
      (exchangeChallenge psa fuel this) (·.1 = .success) (lockstep [.start]) :=
    carries_exchangeChallenge ho hcb
  rcases hexchange.run_bind (·.1 = .success) driver.traffic_append
    (fun exchanged hres => ⟨(.internalError, exchanged.2.2.2), internalError_ne_success, if_pos hres⟩)
    h with ⟨hcut, hbad⟩ | ⟨exchanged, l₁, l₂, rfl, h₁, hres, hdone, h₂⟩
  · exact ⟨false, hcut.append_cut, iff_of_false (fun hc => by cases hc.2) hbad⟩
  rw [if_neg (not_not.mpr hres)] at h₂
  have hkeeps := returns_exchangeChallenge _ _ h₁
  have hcb' : exchanged.2.2.2.mSdmOpenParams.callbacks ≠ none := by
    rw [hkeeps.params]
    exact hcb
  rw [responses_of_plain (makes_exchangeChallenge _ _ h₁), ExternalComPortDriver.traffic_append]
  obtain ⟨c, hfollows, hc⟩ := run_signAndRespond_exchanges (hkeeps.isOpen_of ho) hcb' h₂
  exact ⟨c, hdone.append hfollows, hc⟩

def scriptedChain (token : List UInt8) (exts : List PsaTlv) : Machine Host (List AccessResult) where
  answer
    | .psaAdacSignToken _ _ _, script => ((0, token), script)
    | .splitTlvStatic _, script => ((0, exts), script)
    | c, script => scripted.answer c script

def emptyEntry (typeId : UInt16) : PsaTlv where
  typeId := typeId
  lengthInBytes := 0
  bytes := [0, 0, 1, 2, 0, 0, 0, 0]
  size_eq := rfl

/-- A target that takes three packets and lets the first answer be followed by two accepting ones. -/
def chainScript : List AccessResult :=
  ⟨.success, 10, []⟩ :: ([flagSTART] ++ startAnswer 0 ++ [flagEND]).map ExternalComPortDriver.cleanRead ++
  ⟨.success, 18, []⟩ :: ([flagSTART] ++ [0, 0, 2, 0, 0, 0, 0, 0] ++ [flagEND]).map
    ExternalComPortDriver.cleanRead ++
  ⟨.success, 14, []⟩ :: ([flagSTART] ++ [0, 0, 0, 0, 0, 0, 0, 0] ++ [flagEND]).map
    ExternalComPortDriver.cleanRead

def chainTrace : Trace :=
  ((scriptedChain [1, 2, 3, 4] [emptyEntry 7, emptyEntry 0x0201, emptyEntry 8]).exec
    (opened.sdmAuthenticate .standard 60) chainScript).2.1

theorem exchanges_chainTrace : exchanges .standard chainTrace =
    [.start, .response [0, 0, 1, 2, 0, 0, 0, 0], .response [1, 2, 3, 4]] := by decide +kernel

theorem exists_run_chainTrace :
    ∃ this', Run (opened.sdmAuthenticate .standard 60) chainTrace (.ok (.success, this')) :=
  exists_run_of_machine (scriptedChain [1, 2, 3, 4] [emptyEntry 7, emptyEntry 0x0201, emptyEntry 8])
    (opened.sdmAuthenticate .standard 60) chainScript .success (by decide +kernel)

/-- `SDMAuthenticate` is in lock-step with the target. What shows of a run on the link is the exchanges
in order, the last one reached possibly cut short: each packet is sent behind an accepted answer to
the one before, and nothing behind the first failure. Where the token is signed and the chain is
split, it returns success just if all packets were sent and all answers let through. -/
theorem sdmAuthenticate_lockstep {r : Except Stop (SDMReturnCode × SecureDebugManagerImpl)}
    (ho : this.IsOpen driver) (h : Run (this.sdmAuthenticate psa fuel) l r) :
    (∃ c, (authSteps psa this.mMsgBuffer).Follows (lockstep (exchanges psa l))
      (driver.traffic l) c) ∧
    ((∃ out, r = .ok out ∧ out.1 = .success) ↔ (responses psa l).isSome = true ∧
      (authSteps psa this.mMsgBuffer).Follows (lockstep (exchanges psa l))
        (driver.traffic l) true) := by
  obtain ⟨c, hfollows, hc⟩ := run_sdmAuthenticate_exchanges ho h
  refine ⟨⟨c, hfollows⟩, ?_⟩
  rw [← hc]
  constructor
  · intro hsome
    obtain ⟨hsome, rfl⟩ := hsome
    exact ⟨hsome, hfollows⟩
  · intro hsome
    obtain ⟨hsome, hall⟩ := hsome
    exact ⟨hsome, follows_unique hfollows hall⟩

theorem sdmAuthenticate_lockstep_chain :
    (authSteps .standard opened.mMsgBuffer).Follows
      (lockstep [.start, .response [0, 0, 1, 2, 0, 0, 0, 0], .response [1, 2, 3, 4]])
      (ExternalComPortDriver.inited.traffic chainTrace) true := by
  obtain ⟨this', hrun⟩ := exists_run_chainTrace
  have hlockstep := (sdmAuthenticate_lockstep isOpen_opened hrun).2.mp ⟨_, rfl, rfl⟩
  rw [← exchanges_chainTrace]
  exact hlockstep.2

end SecureDebugManagerImpl
end SecureDebug
