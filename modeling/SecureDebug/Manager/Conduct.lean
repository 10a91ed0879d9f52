import SecureDebug.Api
import SecureDebug.Driver.Calls
import SecureDebug.Manager.Packets

/-! The manager treats the device as the driver does: what it makes of a failure is the last thing that
is done. -/

namespace SecureDebug
open Interaction Program

namespace ExternalComPortDriver
variable {this : ExternalComPortDriver} {α : Type} {code : α → SDMReturnCode}

theorem behaves_hostCall {c : HostCall} {f : c.Answer → Sdm α} (hplain : c.isPlain = true)
    (hbad : ∀ ans, hostFails ⟨c, ans⟩ = true → ∃ a, f ans = pure a ∧ code a ≠ .success)
    (hgood : ∀ ans, hostFails ⟨c, ans⟩ = false → this.Behaves code (f ans)) :
    this.Behaves code (callHost c >>= f) := by
  intro s hs ans
  have hadmits : this.Admits s c := by
    cases c with
    | registerAccess => cases hplain
    | resetStart => cases hplain
    | resetEnd => cases hplain
    | _ => exact trivial
  have hstage : (this.behind s ⟨c, ans⟩).stage = s.stage := by
    cases c with
    | registerAccess => cases hplain
    | resetStart => cases hplain
    | resetEnd => cases hplain
    | _ => rfl
  refine ⟨_, if_pos ⟨hs, hadmits⟩, ?_⟩
  show Abides _ _ (f ans) _
  cases hfails : hostFails ⟨c, ans⟩ with
  | true =>
    obtain ⟨a, ha, ha'⟩ := hbad ans hfails
    rw [ha]
    exact ⟨hstage, fun h => absurd h ha'⟩
  | false =>
    refine (hgood ans hfails { this.behind s ⟨c, ans⟩ with failed := false } rfl).mono fun a t ht => ?_
    exact ⟨ht.1.trans hstage, ht.2⟩

theorem behaves_callHost {c : HostCall} (hplain : c.isPlain = true)
    (hfails : ∀ ans, hostFails ⟨c, ans⟩ = false) :
    this.Behaves (fun _ => .success) (callHost c) := by
  rw [← bind_pure (callHost c)]
  refine behaves_hostCall hplain (fun ans h => ?_) fun ans _ => behaves_pure ans
  rw [hfails ans] at h
  cases h

theorem behaves_deref (a : Option α) : this.Behaves (fun _ => .success) (deref a) := by
  cases a with
  | none => exact behaves_halt _
  | some a => exact behaves_pure a

end ExternalComPortDriver

namespace SecureDebugManagerImpl
open ExternalComPortDriver
variable {this : SecureDebugManagerImpl} {driver : ExternalComPortDriver} {psa : PsaAdac} {fuel : Nat}

theorem behaves_updateProgress (progressMessage : String) (percentComplete : UInt8) :
    driver.Behaves (fun _ => .success) (this.updateProgress progressMessage percentComplete) := by
  refine (behaves_deref _).seq fun callbacks => ?_
  refine behaves_ite (fun _ => ?_) fun _ => behaves_pure _
  exact behaves_callHost rfl fun _ => rfl

theorem behaves_loadCredentials : driver.Behaves Prod.fst this.loadCredentials := by
  refine (behaves_deref _).seq fun callbacks => ?_
  refine behaves_ite (fun _ => behaves_pure _) fun _ => ?_
  refine behaves_hostCall rfl (fun presented hfails => ?_) fun presented _ => ?_
  · have hres : presented.1 ≠ .success := of_decide_eq_true hfails
    exact ⟨_, if_pos hres, hres⟩
  refine behaves_ite (fun _ => behaves_pure _) fun _ => ?_
  refine behaves_hostCall rfl (fun key hfails => ?_) fun key _ => ?_
  · exact ⟨_, if_pos (of_decide_eq_true hfails), internalError_ne_success⟩
  refine behaves_ite (fun _ => behaves_pure _) fun _ => ?_
  refine behaves_hostCall rfl (fun chain hfails => ?_) fun chain _ => ?_
  · exact ⟨_, if_pos (of_decide_eq_true hfails), internalError_ne_success⟩
  exact behaves_ite (fun _ => behaves_pure _) fun _ => behaves_pure _

/-! ### Packets -/

theorem behaves_requestPacketSend (packet : List UInt8) (hd : this.mExtComPortDriver = some driver) :
    driver.Behaves id (this.requestPacketSend packet) := by
  rw [requestPacketSend, hd, deref_some, pure_bind]
  refine (behaves_lift _).seq fun txBuffer => ?_
  exact (behaves_eComPortTx txBuffer 0 _).map fun _ => rfl

theorem behaves_responsePacketReceive (packet : List UInt8) (max : Nat)
    (hd : this.mExtComPortDriver = some driver) :
    driver.Behaves Prod.fst (this.responsePacketReceive fuel packet max) := by
  rw [responsePacketReceive, hd, deref_some, pure_bind]
  refine behaves_ite (fun _ => behaves_pure _) fun _ => ?_
  exact (behaves_eComPortRx fuel packet max 0).map fun _ => rfl

theorem behaves_sendAuthStartCmdRequest (hd : this.mExtComPortDriver = some driver) :
    driver.Behaves id (this.sendAuthStartCmdRequest psa) := by
  refine Behaves.seq ?_ fun reserved => behaves_requestPacketSend _ hd
  exact behaves_callHost rfl fun _ => rfl

theorem behaves_receiveAuthStartCmdResponse (hd : this.mExtComPortDriver = some driver) :
    driver.Behaves Prod.fst (this.receiveAuthStartCmdResponse psa fuel) := by
  refine (behaves_responsePacketReceive _ _ hd).bind (fun out hres => ⟨_, if_pos hres, hres⟩)
    fun out hres => ?_
  refine behaves_ite (fun hne => absurd hres hne) fun _ => ?_
  refine behaves_ite (fun _ => behaves_pure _) fun _ => ?_
  exact (behaves_lift _).seq fun challenge => behaves_pure _

theorem behaves_sendAuthResponseCmdRequest (cert : List UInt8)
    (hd : this.mExtComPortDriver = some driver) :
    driver.Behaves Prod.fst (this.sendAuthResponseCmdRequest psa cert) := by
  refine (behaves_lift _).seq fun request => ?_
  refine (behaves_lift _).seq fun request => ?_
  refine (behaves_lift _).seq fun request => ?_
  exact (behaves_requestPacketSend request hd).map fun _ => rfl

theorem behaves_receiveAuthResponseCmdResponse (hd : this.mExtComPortDriver = some driver) :
    driver.Behaves Prod.fst (this.receiveAuthResponseCmdResponse psa fuel) := by
  refine (behaves_responsePacketReceive _ _ hd).bind (fun out hres => ⟨_, if_pos hres, hres⟩)
    fun out hres => ?_
  refine behaves_ite (fun hne => absurd hres hne) fun _ => ?_
  exact behaves_ite (fun _ => behaves_pure _) fun _ => behaves_pure _

/-! ### Authentication -/

theorem behaves_exchange {cert : List UInt8}
    (rest : SecureDebugManagerImpl → Sdm (SDMReturnCode × SecureDebugManagerImpl))
    (hd : this.mExtComPortDriver = some driver)
    (hrest : ∀ this' : SecureDebugManagerImpl, this'.mExtComPortDriver = some driver →
      driver.Behaves Prod.fst (rest this')) :
    driver.Behaves Prod.fst (do
      let (res, this) ← this.sendAuthResponseCmdRequest psa cert
      if res ≠ .success then return (.internalError, this)
      let (res, this) ← this.receiveAuthResponseCmdResponse psa fuel
      if res ≠ .success then return (.internalError, this)
      rest this) := by
  refine (behaves_sendAuthResponseCmdRequest cert hd).bind_returns returns_sendAuthResponseCmdRequest
    (fun out hres => ⟨_, if_pos hres, internalError_ne_success⟩) fun out hkeeps hres => ?_
  refine behaves_ite (fun hne => absurd hres hne) fun _ => ?_
  -- sending leaves the driver where it was
  have hd' : out.2.mExtComPortDriver = some driver := by rw [hkeeps.driver, hd]
  refine (behaves_receiveAuthResponseCmdResponse hd').bind_returns
    returns_receiveAuthResponseCmdResponse
    (fun out hres => ⟨_, if_pos hres, internalError_ne_success⟩) fun out' hkeeps' hres' => ?_
  refine behaves_ite (fun hne => absurd hres' hne) fun _ => ?_
  exact hrest out'.2 (by rw [hkeeps'.driver, hd'])

theorem behaves_sendCertificates (exts : List PsaTlv) (hd : this.mExtComPortDriver = some driver) :
    driver.Behaves Prod.fst (sendCertificates psa fuel exts this) := by
  induction exts generalizing this with
  | nil => exact behaves_pure _
  | cons ext exts ih =>
    rw [sendCertificates]
    exact behaves_ite (fun _ => behaves_exchange _ hd fun this' hd' => ih hd') fun _ => ih hd

theorem behaves_respond (exts : List PsaTlv) (token : List UInt8)
    (hd : this.mExtComPortDriver = some driver) :
    driver.Behaves Prod.fst (respond psa fuel exts token this) := by
  refine (behaves_updateProgress _ _).seq fun _ => ?_
  refine (behaves_sendCertificates exts hd).bind_returns returns_sendCertificates
    (fun out hres => ⟨_, if_pos hres, internalError_ne_success⟩) fun out hkeeps hres => ?_
  refine behaves_ite (fun hne => absurd hres hne) fun _ => ?_
  refine (behaves_updateProgress _ _).seq fun _ => ?_
  refine behaves_exchange (fun this => do
    this.updateProgress "Finished authentication" 100
    return (.success, this)) (by rw [hkeeps.driver, hd]) fun this' _ => ?_
  exact (behaves_updateProgress _ _).seq fun _ => behaves_pure _

theorem behaves_signAndRespond (credentials : Credentials) (challenge : List UInt8)
    (hd : this.mExtComPortDriver = some driver) :
    driver.Behaves Prod.fst (signAndRespond psa fuel credentials challenge this) := by
  rw [signAndRespond_eq]
  refine (behaves_updateProgress _ _).seq fun _ => ?_
  refine behaves_hostCall rfl (fun signed hfails => ?_) fun signed _ => ?_
  · exact ⟨_, if_pos (of_decide_eq_true hfails), internalError_ne_success⟩
  refine behaves_ite (fun _ => behaves_pure _) fun _ => ?_
  refine (behaves_updateProgress _ _).seq fun _ => ?_
  refine behaves_hostCall rfl (fun split hfails => ?_) fun split _ => ?_
  · exact ⟨_, if_pos (of_decide_eq_true hfails), internalError_ne_success⟩
  exact behaves_ite (fun _ => behaves_pure _) fun _ => behaves_respond _ _ hd

theorem behaves_sdmAuthenticate (hopen : this.mOpen = true)
    (hd : this.mExtComPortDriver = some driver) :
    driver.Behaves Prod.fst (this.sdmAuthenticate psa fuel) := by
  rw [sdmAuthenticate_eq hopen]
  refine (behaves_updateProgress _ _).seq fun _ => ?_
  refine behaves_loadCredentials.bind (fun loaded hres => ⟨_, if_pos hres, internalError_ne_success⟩)
    fun loaded hres => ?_
  refine behaves_ite (fun hne => absurd hres hne) fun _ => ?_
  refine (behaves_updateProgress _ _).seq fun _ => ?_
  refine (behaves_sendAuthStartCmdRequest hd).bind
    (fun sent hres => ⟨_, if_pos hres, internalError_ne_success⟩) fun sent hres => ?_
  refine behaves_ite (fun hne => absurd hres hne) fun _ => ?_
  refine (behaves_updateProgress _ _).seq fun _ => ?_
  refine (behaves_receiveAuthStartCmdResponse hd).bind_returns returns_receiveAuthStartCmdResponse
    (fun out hres => ⟨_, if_pos hres, internalError_ne_success⟩) fun out hkeeps hres => ?_
  refine behaves_ite (fun hne => absurd hres hne) fun _ => ?_
  exact behaves_signAndRespond _ _ (by rw [hkeeps.driver, hd])

/-! ### Opening and closing -/

theorem settles_sdmOpen {params : SDMOpenParameters} {s : Conduct} (hopen : this.mOpen = false)
    (hs : s.failed = false) (hidle : s.stage = .idle) :
    Abides (openDriver params).conduct
      (fun out t => out.1 = .success → t.failed = false ∧ t.stage = .finished)
      (this.sdmOpen fuel (some params)) s := by
  rw [sdmOpen, if_neg (by rw [hopen]; exact Bool.false_ne_true)]
  dsimp only
  cases hcb : params.callbacks with
  | none => exact abides_halt
  | some callbacks =>
    rw [deref_some, pure_bind]
    have hdriver : openDriver params = .new params.debugArchitecture callbacks.registerAccess
        callbacks.resetStart callbacks.resetFinish := by rw [openDriver, hcb]
    rw [← hdriver]
    intro adacRes
    refine ⟨_, if_pos ⟨hs, trivial⟩, ?_⟩
    refine abides_ite (fun _ h => absurd h internalError_ne_success) fun hinit => ?_
    intro idResBuff
    -- where psa-adac did not come up nothing more is asked for
    refine ⟨_, if_pos ⟨decide_eq_false hinit, trivial⟩, ?_⟩
    refine (settles_eComPortInit fuel _ _ _ (by rfl) (by exact hidle)).bind fun out t ht => ?_
    refine abides_ite (fun hne h => absurd h hne) fun hres => ?_
    exact abides_ite (fun hne h => absurd h hne) fun _ _ => ht (not_not.mp hres)

structure OpenedFor (params : SDMOpenParameters) (this : SecureDebugManagerImpl) : Prop where
  isOpen : this.IsOpen { openDriver params with mIsComPortInited := true }
  params : this.mSdmOpenParams = params
  buffer : this.mMsgBuffer = new.mMsgBuffer

theorem returns_openedFor {params : SDMOpenParameters} :
    Returns (new.sdmOpen fuel (some params)) fun out => out.1 = .success → OpenedFor params out.2 := by
  rw [sdmOpen, if_neg (show ¬new.mOpen = true from Bool.false_ne_true)]
  dsimp only
  cases hcb : params.callbacks with
  | none => exact returns_halt
  | some callbacks =>
    rw [deref_some, pure_bind]
    have hdriver : openDriver params = .new params.debugArchitecture callbacks.registerAccess
        callbacks.resetStart callbacks.resetFinish := by rw [openDriver, hcb]
    rw [← hdriver]
    refine returns_true.bind fun adacRes _ => ?_
    refine returns_ite (fun _ => returns_pure fun h => absurd h internalError_ne_success) fun _ => ?_
    refine returns_true.bind fun idResBuff _ => ?_
    refine eComPortInit_driver.bind fun out hout => ?_
    refine returns_ite (fun hne => returns_pure fun h => absurd h hne) fun hres => ?_
    refine returns_ite (fun hne => returns_pure fun h => absurd h hne) fun _ => ?_
    have hinited := congrArg some (hout.1 (not_not.mp hres))
    exact returns_pure fun _ => ⟨⟨rfl, hinited, rfl, List.length_replicate⟩, rfl, rfl⟩

end SecureDebugManagerImpl

/-! ### The API -/

section
variable {params : SDMOpenParameters} {psa : PsaAdac} {fuel : Nat}
open ExternalComPortDriver SecureDebugManagerImpl

theorem sdmOpen_eq (fuel : Nat) (handle : Option SDMHandle) (params : SDMOpenParameters) :
    sdmOpen fuel none handle (some params) = callHost .newImpl >>= fun address =>
      SecureDebugManagerImpl.new.sdmOpen fuel (some params) >>= fun out =>
      if out.1 ≠ .success then pure ⟨out.1, handle, none⟩
      else deref handle >>= fun _ => pure ⟨out.1, some address, some ⟨address, out.2⟩⟩ := rfl

theorem settles_sdmOpen (handle : Option SDMHandle) :
    Abides (openDriver params).conduct
      (fun out t => out.res = .success → t.failed = false ∧ t.stage = .finished)
      (sdmOpen fuel none handle (some params)) {} := by
  rw [sdmOpen_eq]
  intro address
  refine ⟨_, if_pos ⟨rfl, trivial⟩, ?_⟩
  refine (SecureDebugManagerImpl.settles_sdmOpen rfl rfl rfl).bind fun out t ht => ?_
  refine abides_ite (fun hne h => absurd h hne) fun hres => ?_
  cases handle with
  | none => exact abides_halt
  | some _ => exact fun _ => ht (not_not.mp hres)

theorem returns_sdmOpen_live (handle : Option SDMHandle) :
    Returns (sdmOpen fuel none handle (some params)) fun out => out.res = .success →
      ∃ live : LiveImpl, OpenedFor params live.impl ∧ out.handle = some live.handle ∧
        out.gSDMImpl = some live := by
  rw [sdmOpen_eq]
  refine returns_true.bind fun address _ => ?_
  refine returns_openedFor.bind fun out hout => ?_
  refine returns_ite (fun hne => returns_pure fun h => absurd h hne) fun hres => ?_
  refine returns_true.bind fun _ _ => returns_pure fun _ => ?_
  exact ⟨⟨address, out.2⟩, hout (not_not.mp hres), rfl, rfl⟩

theorem behaves_sdmAuthenticate {live : LiveImpl} (hlive : OpenedFor params live.impl) :
    (openDriver params).Behaves Prod.fst (sdmAuthenticate psa fuel (some live) live.handle) := by
  refine behaves_ite (fun hne => absurd rfl hne) fun _ => ?_
  have hauth : ExternalComPortDriver.Behaves { openDriver params with mIsComPortInited := true }
      Prod.fst (live.impl.sdmAuthenticate psa fuel) :=
    SecureDebugManagerImpl.behaves_sdmAuthenticate hlive.isOpen.isOpen hlive.isOpen.attached
  exact hauth.map fun _ => rfl

/-- The driver through which a call can reach the device. -/
def ApiCall.driver (gSDMImpl : Option LiveImpl) : ApiCall → Option ExternalComPortDriver
  | .sdmOpen _ params => params.map openDriver
  | _ => gSDMImpl.bind fun live => live.impl.mExtComPortDriver

variable {gSDMImpl : Option LiveImpl} {call : ApiCall} {driver : ExternalComPortDriver} {l : Trace}

theorem exists_sdmResumeBoot_eq (gSDMImpl : Option LiveImpl) (handle : SDMHandle) :
    ∃ out, sdmResumeBoot gSDMImpl handle = pure out := by
  cases gSDMImpl with
  | none => exact ⟨_, rfl⟩
  | some live =>
    rw [sdmResumeBoot]
    split_ifs
    · exact ⟨_, rfl⟩
    · exact ⟨_, rfl⟩

/-- As it is configured, closing asks for nothing. -/
theorem exists_sdmClose_eq (fuel : Nat) (gSDMImpl : Option LiveImpl) (handle : SDMHandle) :
    ∃ out, sdmClose fuel gSDMImpl handle = pure out := by
  cases gSDMImpl with
  | none => exact ⟨_, rfl⟩
  | some live =>
    rw [sdmClose]
    split_ifs
    · exact ⟨_, rfl⟩
    · cases hopen : live.impl.mOpen with
      | false =>
        rw [SecureDebugManagerImpl.sdmClose, hopen]
        exact ⟨_, rfl⟩
      | true =>
        rw [SecureDebugManagerImpl.sdmClose, hopen]
        exact ⟨_, rfl⟩

theorem abides_apiCall (hok : SessionOk gSDMImpl) (hdriver : driver ∈ call.driver gSDMImpl) :
    Abides driver.conduct (fun out t => out.1 = .success → t.failed = false)
      (call.perform psa fuel gSDMImpl) {} := by
  cases call with
  | sdmOpen handle params =>
    cases params with
    | none => cases hdriver
    | some params =>
      obtain rfl := Option.some.inj hdriver
      cases gSDMImpl with
      | some live => exact fun h => absurd h internalError_ne_success
      | none => exact (settles_sdmOpen handle).bind fun out t ht hres => (ht hres).1
  | sdmAuthenticate handle =>
    cases gSDMImpl with
    | none => cases hdriver
    | some live =>
      obtain ⟨driver', ho⟩ := hok live rfl
      obtain rfl := Option.some.inj (ho.attached.symm.trans hdriver)
      refine abides_ite (fun _ h => by cases h) fun _ => ?_
      refine (SecureDebugManagerImpl.behaves_sdmAuthenticate ho.isOpen ho.attached {} rfl).bind
        fun out t ht => ?_
      exact ht.2
  | sdmResumeBoot handle =>
    cases gSDMImpl with
    | none => cases hdriver
    | some live => exact abides_ite (fun _ _ => rfl) fun _ _ => rfl
  | sdmClose handle =>
    obtain ⟨out, hout⟩ := exists_sdmClose_eq fuel gSDMImpl handle
    rw [ApiCall.perform, hout]
    exact fun _ => rfl

/-- Every call of the API, from every state that a history of calls leads to: what the driver does in
one operation holds of all that the call does, from the first access to the last call of a callback or
of psa-adac. -/
theorem apiCall_disciplined {r : Except Stop (SDMReturnCode × Option LiveImpl)}
    (h : Reachable psa gSDMImpl) (hrun : Run (call.perform psa fuel gSDMImpl) l r) :
    (call.driver gSDMImpl = none → l = []) ∧ ∀ driver ∈ call.driver gSDMImpl,
      driver.Disciplined l ∧ ∀ out, r = .ok out → out.1 = .success → ∀ e ∈ l, hostFails e = false := by
  refine ⟨fun hnone => ?_, fun driver hdriver => ?_⟩
  · have hclosed (hbind : (gSDMImpl.bind fun live => live.impl.mExtComPortDriver) = none) :
        gSDMImpl = none := by
      cases gSDMImpl with
      | none => rfl
      | some live =>
        obtain ⟨driver, ho⟩ := h.sessionOk live rfl
        cases ho.attached.symm.trans hbind
    cases call with
    | sdmOpen handle params =>
      obtain rfl := Option.map_eq_none_iff.mp hnone
      exact (run_pure.mp hrun).1
    | sdmAuthenticate handle =>
      obtain rfl := hclosed hnone
      exact (run_pure.mp hrun).1
    | sdmResumeBoot handle =>
      obtain rfl := hclosed hnone
      exact (run_pure.mp hrun).1
    | sdmClose handle =>
      obtain ⟨out, hout⟩ := exists_sdmClose_eq fuel gSDMImpl handle
      rw [ApiCall.perform, hout] at hrun
      exact (run_pure.mp hrun).1
  · obtain ⟨s, hfollow, hgood⟩ := (abides_apiCall h.sessionOk hdriver).follow hrun
    refine ⟨disciplined_of_follow hfollow, fun out hout hres e he => ?_⟩
    exact fine_of_follow hfollow (hgood out hout hres) he

theorem apiCall_disciplined_opened : ∃ l, (openDriver allCallbacks).Disciplined l ∧
    resetCalls l = [.started, .finished] := by
  obtain ⟨out, hrun⟩ := exists_run_of_exec
    ((ApiCall.sdmOpen (some 0) (some allCallbacks)).perform .standard 9 none)
    (ExternalComPortDriver.identifyScript ([flagIDA] ++ protocol ++ [flagEND])) .success
    (by decide +kernel)
  obtain ⟨-, hdriver⟩ := apiCall_disciplined .init hrun
  exact ⟨_, (hdriver _ rfl).1, by decide +kernel⟩

end
end SecureDebug
