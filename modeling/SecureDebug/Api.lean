import SecureDebug.Manager.Identify

/-! The four functions of the SDM API over their global `gSDMImpl`. Whatever is called in
whatever order, the global holds nothing or an open object, and only the call that opens a
session and the close with its handle change which. -/

namespace SecureDebug
open Interaction Program

/-- What `gSDMImpl` points to: the object and its address, which is the handle given out. -/
structure LiveImpl where
  handle : SDMHandle
  impl : SecureDebugManagerImpl
  deriving DecidableEq, Repr

structure OpenResult where
  res : SDMReturnCode
  handle : Option SDMHandle
  gSDMImpl : Option LiveImpl
  deriving DecidableEq, Repr

/-- `handle` is the memory behind the pointer, `none` for a null pointer. -/
def sdmOpen (fuel : Nat) (gSDMImpl : Option LiveImpl) (handle : Option SDMHandle)
    (params : Option SDMOpenParameters) : Sdm OpenResult := do
  if params.isNone then return ⟨.invalidArgument, handle, gSDMImpl⟩
  if gSDMImpl.isSome then return ⟨.internalError, handle, gSDMImpl⟩
  let address ← callHost .newImpl
  let (res, impl) ← SecureDebugManagerImpl.new.sdmOpen fuel params
  if res ≠ .success then return ⟨res, handle, none⟩
  let _ ← deref handle
  return ⟨res, some address, some ⟨address, impl⟩⟩

def sdmAuthenticate (psa : PsaAdac) (fuel : Nat) (gSDMImpl : Option LiveImpl)
    (handle : SDMHandle) : Sdm (SDMReturnCode × Option LiveImpl) := do
  let some live := gSDMImpl | return (.internalError, gSDMImpl)
  if handle ≠ live.handle then return (.invalidArgument, gSDMImpl)
  let (res, impl) ← live.impl.sdmAuthenticate psa fuel
  return (res, some { live with impl })

def sdmResumeBoot (gSDMImpl : Option LiveImpl) (handle : SDMHandle) :
    Sdm (SDMReturnCode × Option LiveImpl) := do
  let some live := gSDMImpl | return (.internalError, gSDMImpl)
  if handle ≠ live.handle then return (.invalidArgument, gSDMImpl)
  let res ← live.impl.sdmResumeBoot
  return (res, gSDMImpl)

def sdmClose (fuel : Nat) (gSDMImpl : Option LiveImpl) (handle : SDMHandle) :
    Sdm (SDMReturnCode × Option LiveImpl) := do
  let some live := gSDMImpl | return (.internalError, gSDMImpl)
  if handle ≠ live.handle then return (.invalidArgument, gSDMImpl)
  let (res, _) ← live.impl.sdmClose fuel
  return (res, none)

/-! ### Histories -/

inductive ApiCall where
  | sdmOpen (handle : Option SDMHandle) (params : Option SDMOpenParameters)
  | sdmAuthenticate (handle : SDMHandle)
  | sdmResumeBoot (handle : SDMHandle)
  | sdmClose (handle : SDMHandle)
  deriving DecidableEq, Repr

def ApiCall.perform (psa : PsaAdac) (fuel : Nat) (gSDMImpl : Option LiveImpl) :
    ApiCall → Sdm (SDMReturnCode × Option LiveImpl)
  | .sdmOpen handle params => do
    let out ← SecureDebug.sdmOpen fuel gSDMImpl handle params
    return (out.res, out.gSDMImpl)
  | .sdmAuthenticate handle => SecureDebug.sdmAuthenticate psa fuel gSDMImpl handle
  | .sdmResumeBoot handle => SecureDebug.sdmResumeBoot gSDMImpl handle
  | .sdmClose handle => SecureDebug.sdmClose fuel gSDMImpl handle

/-- The values `gSDMImpl` can have between two calls, whatever was called with whatever arguments and
whatever target and callbacks did. A call that an exception leaves ends the history: out of `SDMOpen`
it would leave `gSDMImpl` at an object that is not open, and nothing here catches it. -/
inductive Reachable (psa : PsaAdac) : Option LiveImpl → Prop
  | init : Reachable psa none
  | call {gSDMImpl gSDMImpl' : Option LiveImpl} {call : ApiCall} {fuel : Nat} {l : Trace}
      {res : SDMReturnCode} (h : Reachable psa gSDMImpl)
      (hrun : Run (call.perform psa fuel gSDMImpl) l (.ok (res, gSDMImpl'))) :
      Reachable psa gSDMImpl'

/-- The objects that the member functions hand on to each other inside `SDMAuthenticate`. -/
inductive Handed (psa : PsaAdac) (this : SecureDebugManagerImpl) : SecureDebugManagerImpl → Prop
  | refl : Handed psa this this
  | receiveStart {this₁ this₂ : SecureDebugManagerImpl} {fuel : Nat} {l : Trace}
      {res : SDMReturnCode} {challenge : List UInt8} (h : Handed psa this this₁)
      (hrun : Run (this₁.receiveAuthStartCmdResponse psa fuel) l (.ok (res, challenge, this₂))) :
      Handed psa this this₂
  | sendResponse {this₁ this₂ : SecureDebugManagerImpl} {cert : List UInt8} {l : Trace}
      {res : SDMReturnCode} (h : Handed psa this this₁)
      (hrun : Run (this₁.sendAuthResponseCmdRequest psa cert) l (.ok (res, this₂))) :
      Handed psa this this₂
  | receiveResponse {this₁ this₂ : SecureDebugManagerImpl} {fuel : Nat} {l : Trace}
      {res : SDMReturnCode} (h : Handed psa this this₁)
      (hrun : Run (this₁.receiveAuthResponseCmdResponse psa fuel) l (.ok (res, this₂))) :
      Handed psa this this₂

theorem Handed.keeps {psa : PsaAdac} {this this' : SecureDebugManagerImpl}
    (h : Handed psa this this') : this.Keeps this' := by
  induction h with
  | refl => exact .refl
  | receiveStart _ hrun ih =>
    exact ih.trans (SecureDebugManagerImpl.returns_receiveAuthStartCmdResponse _ _ hrun)
  | sendResponse _ hrun ih =>
    exact ih.trans (SecureDebugManagerImpl.returns_sendAuthResponseCmdRequest _ _ hrun)
  | receiveResponse _ hrun ih =>
    exact ih.trans (SecureDebugManagerImpl.returns_receiveAuthResponseCmdResponse _ _ hrun)

/-! ### Whose driver is used -/

/-- The transfers of a program go through drivers that `P` holds of, whatever is answered. Bringing a
port up is not a transfer. -/
inductive Transfers (P : ExternalComPortDriver → Prop) : {α : Type} → Sdm α → Prop
  | pure {α : Type} (a : α) : Transfers P (pure a)
  | halt {α : Type} (e : Stop) : Transfers P (Program.halt e : Sdm α)
  | callHost {c : HostCall} (hc : ∀ accesses, c ≠ .registerAccess accesses) : Transfers P (callHost c)
  | bind {α β : Type} {p : Sdm α} {f : α → Sdm β} (hp : Transfers P p)
      (hf : ∀ l a, Run p l (.ok a) → Transfers P (f a)) : Transfers P (p >>= f)
  | eComPortInit {driver : ExternalComPortDriver} {fuel idBufferLength : Nat}
      {remoteReset : ECPDRemoteResetType} {idResponseBuffer : List UInt8} :
      Transfers P (driver.eComPortInit fuel remoteReset idResponseBuffer idBufferLength)
  | eComPortTx {driver : ExternalComPortDriver} {txBuffer : List UInt8} {actualLength : Nat}
      {block : Bool} (h : P driver) : Transfers P (driver.eComPortTx txBuffer actualLength block)
  | eComPortRx {driver : ExternalComPortDriver} {fuel rxBufferLength actualLength : Nat}
      {rxBuffer : List UInt8} (h : P driver) :
      Transfers P (driver.eComPortRx fuel rxBuffer rxBufferLength actualLength)

section
variable {P Q : ExternalComPortDriver → Prop} {α β : Type} {p q : Sdm α} {f : α → Sdm β}

theorem Transfers.seq (hp : Transfers P p) (hf : ∀ a, Transfers P (f a)) : Transfers P (p >>= f) :=
  .bind hp fun _ a _ => hf a

theorem transfers_ite {c : Prop} [Decidable c] (hp : Transfers P p) (hq : Transfers P q) :
    Transfers P (if c then p else q) := by
  split_ifs
  · exact hp
  · exact hq

theorem transfers_lift (x : Except Stop α) : Transfers P (lift x) := by
  cases x with
  | ok a => exact .pure a
  | error e => exact .halt e

theorem transfers_deref (a : Option α) : Transfers P (deref a) := by
  cases a with
  | some a => exact .pure a
  | none => exact .halt _

theorem Transfers.mono (h : Transfers P p) (hPQ : ∀ driver, P driver → Q driver) : Transfers Q p := by
  induction h with
  | pure a => exact .pure a
  | halt e => exact .halt e
  | callHost hc => exact .callHost hc
  | bind _ _ ihp ihf => exact .bind ihp ihf
  | eComPortInit => exact .eComPortInit
  | eComPortTx h => exact .eComPortTx (hPQ _ h)
  | eComPortRx h => exact .eComPortRx (hPQ _ h)

end

namespace SecureDebugManagerImpl
variable {P : ExternalComPortDriver → Prop} {this this' : SecureDebugManagerImpl} {psa : PsaAdac}
  {fuel : Nat}

theorem transfers_requestPacketSend {packet : List UInt8}
    (h : ∀ driver, this.mExtComPortDriver = some driver → P driver) :
    Transfers P (this.requestPacketSend packet) := by
  rw [requestPacketSend]
  cases hdriver : this.mExtComPortDriver with
  | none => exact .halt _
  | some driver =>
    rw [deref_some, pure_bind]
    refine (transfers_lift _).seq fun txBuffer => ?_
    exact (Transfers.eComPortTx (h driver hdriver)).seq fun _ => .pure _

theorem transfers_responsePacketReceive {packet : List UInt8} {max : Nat}
    (h : ∀ driver, this.mExtComPortDriver = some driver → P driver) :
    Transfers P (this.responsePacketReceive fuel packet max) := by
  rw [responsePacketReceive]
  refine transfers_ite (.pure _) ?_
  cases hdriver : this.mExtComPortDriver with
  | none => exact .halt _
  | some driver =>
    rw [deref_some, pure_bind]
    exact (Transfers.eComPortRx (h driver hdriver)).seq fun _ => .pure _

theorem transfers_updateProgress (progressMessage : String) (percentComplete : UInt8) :
    Transfers P (this.updateProgress progressMessage percentComplete) :=
  (transfers_deref _).seq fun _ => transfers_ite (.callHost (by nofun)) (.pure _)

theorem transfers_loadCredentials : Transfers P this.loadCredentials := by
  refine (transfers_deref _).seq fun _ => transfers_ite (.pure _) ?_
  refine (Transfers.callHost (by nofun)).seq fun _ => transfers_ite (.pure _) ?_
  refine (Transfers.callHost (by nofun)).seq fun _ => transfers_ite (.pure _) ?_
  exact (Transfers.callHost (by nofun)).seq fun _ => transfers_ite (.pure _) (.pure _)

theorem transfers_sendAuthStartCmdRequest
    (h : ∀ driver, this.mExtComPortDriver = some driver → P driver) :
    Transfers P (this.sendAuthStartCmdRequest psa) :=
  (Transfers.callHost (by nofun)).seq fun _ => transfers_requestPacketSend h

theorem transfers_receiveAuthStartCmdResponse
    (h : ∀ driver, this.mExtComPortDriver = some driver → P driver) :
    Transfers P (this.receiveAuthStartCmdResponse psa fuel) := by
  refine (transfers_responsePacketReceive h).seq fun _ => ?_
  refine transfers_ite (.pure _) <| transfers_ite (.pure _) ?_
  exact (transfers_lift _).seq fun _ => .pure _

theorem transfers_sendAuthResponseCmdRequest {cert : List UInt8}
    (h : ∀ driver, this.mExtComPortDriver = some driver → P driver) :
    Transfers P (this.sendAuthResponseCmdRequest psa cert) := by
  refine (transfers_lift _).seq fun _ => (transfers_lift _).seq fun _ => ?_
  refine (transfers_lift _).seq fun _ => ?_
  exact (transfers_requestPacketSend h).seq fun _ => .pure _

theorem transfers_receiveAuthResponseCmdResponse
    (h : ∀ driver, this.mExtComPortDriver = some driver → P driver) :
    Transfers P (this.receiveAuthResponseCmdResponse psa fuel) :=
  (transfers_responsePacketReceive h).seq fun _ =>
    transfers_ite (.pure _) <| transfers_ite (.pure _) (.pure _)

def HandedDriver (psa : PsaAdac) (this : SecureDebugManagerImpl) (driver : ExternalComPortDriver) :
    Prop :=
  ∃ this', Handed psa this this' ∧ this'.mExtComPortDriver = some driver

theorem transfers_sendCertificates {exts : List PsaTlv} (h : Handed psa this this') :
    Transfers (HandedDriver psa this) (sendCertificates psa fuel exts this') := by
  induction exts generalizing this' with
  | nil => exact .pure _
  | cons ext exts ih =>
    rw [sendCertificates]
    refine transfers_ite ?_ (ih h)
    refine .bind (transfers_sendAuthResponseCmdRequest fun _ hd => ⟨_, h, hd⟩) fun l₁ sent h₁ => ?_
    have hsent := Handed.sendResponse h h₁
    refine transfers_ite (.pure _) ?_
    refine .bind (transfers_receiveAuthResponseCmdResponse fun _ hd => ⟨_, hsent, hd⟩)
      fun l₂ received h₂ => ?_
    exact transfers_ite (.pure _) (ih (.receiveResponse hsent h₂))

theorem handed_sendCertificates {exts : List PsaTlv} {l : Trace}
    {out : SDMReturnCode × SecureDebugManagerImpl} (h : Handed psa this this')
    (hrun : Run (sendCertificates psa fuel exts this') l (.ok out)) : Handed psa this out.2 := by
  induction exts generalizing this' l with
  | nil =>
    obtain ⟨-, rfl⟩ := run_pure_ok.mp hrun
    exact h
  | cons ext exts ih =>
    rw [sendCertificates] at hrun
    split_ifs at hrun
    · obtain ⟨⟨code, sent⟩, l₁, l₂, -, h₁, h₂⟩ := run_bind_ok.mp hrun
      have hsent := Handed.sendResponse h h₁
      dsimp only at h₂
      split_ifs at h₂
      · obtain ⟨-, rfl⟩ := run_pure_ok.mp h₂
        exact hsent
      obtain ⟨⟨code, received⟩, l₃, l₄, -, h₃, h₄⟩ := run_bind_ok.mp h₂
      have hreceived := Handed.receiveResponse hsent h₃
      split_ifs at h₄
      · obtain ⟨-, rfl⟩ := run_pure_ok.mp h₄
        exact hreceived
      · exact ih hreceived h₄
    · exact ih h hrun

theorem transfers_sdmAuthenticate :
    Transfers (HandedDriver psa this) (this.sdmAuthenticate psa fuel) := by
  rw [sdmAuthenticate]
  have hthis (driver : ExternalComPortDriver) (hd : this.mExtComPortDriver = some driver) :
      HandedDriver psa this driver := ⟨this, .refl, hd⟩
  refine transfers_ite (.pure _) ?_
  refine (transfers_updateProgress _ _).seq fun _ => transfers_loadCredentials.seq fun _ => ?_
  refine transfers_ite (.pure _) <| (transfers_updateProgress _ _).seq fun _ => ?_
  refine (transfers_sendAuthStartCmdRequest hthis).seq fun _ => transfers_ite (.pure _) ?_
  refine (transfers_updateProgress _ _).seq fun _ => ?_
  refine .bind (transfers_receiveAuthStartCmdResponse hthis) fun l₁ start h₁ => ?_
  have hstart := Handed.receiveStart .refl h₁
  refine transfers_ite (.pure _) <| (transfers_updateProgress _ _).seq fun _ => ?_
  refine (Transfers.callHost (by nofun)).seq fun _ => transfers_ite (.pure _) ?_
  refine (transfers_updateProgress _ _).seq fun _ => ?_
  refine (Transfers.callHost (by nofun)).seq fun _ => transfers_ite (.pure _) ?_
  refine (transfers_updateProgress _ _).seq fun _ => ?_
  refine .bind (transfers_sendCertificates hstart) fun l₂ certs h₂ => ?_
  have hcerts := handed_sendCertificates hstart h₂
  refine transfers_ite (.pure _) <| (transfers_updateProgress _ _).seq fun _ => ?_
  refine .bind (transfers_sendAuthResponseCmdRequest fun _ hd => ⟨_, hcerts, hd⟩) fun l₃ sent h₃ => ?_
  have hsent := Handed.sendResponse hcerts h₃
  refine transfers_ite (.pure _) ?_
  refine (transfers_receiveAuthResponseCmdResponse fun _ hd => ⟨_, hsent, hd⟩).seq fun _ => ?_
  exact transfers_ite (.pure _) <| (transfers_updateProgress _ _).seq fun _ => .pure _

end SecureDebugManagerImpl

/-! ### Effects -/

def ApiCall.handle : ApiCall → Option SDMHandle
  | .sdmOpen _ _ => none
  | .sdmAuthenticate handle => some handle
  | .sdmResumeBoot handle => some handle
  | .sdmClose handle => some handle

def ApiCall.isOpen : ApiCall → Bool
  | .sdmOpen _ _ => true
  | _ => false

theorem isOpen_of_handle {call : ApiCall} {handle : SDMHandle} (h : call.handle = some handle) :
    call.isOpen = false := by
  cases call with
  | sdmOpen => cases h
  | _ => rfl

def SessionOk (gSDMImpl : Option LiveImpl) : Prop :=
  ∀ live, gSDMImpl = some live → ∃ driver, live.impl.IsOpen driver

section
variable {psa : PsaAdac} {fuel : Nat} {gSDMImpl gSDMImpl' : Option LiveImpl} {l : Trace}
  {res : SDMReturnCode} {call : ApiCall} {live : LiveImpl}

/-- What a call does to `gSDMImpl`: nothing at all, open a session, go on with the open one,
or close it. -/
inductive Effect (call : ApiCall) (l : Trace) (res : SDMReturnCode) :
    Option LiveImpl → Option LiveImpl → Prop
  | ignored {gSDMImpl : Option LiveImpl} (hl : l = [])
      (hopen : call.isOpen = true → res ≠ .success)
      (hclose : ∀ live, gSDMImpl = some live → call ≠ .sdmClose live.handle) :
      Effect call l res gSDMImpl gSDMImpl
  | refused (hopen : call.isOpen = true) (hres : res ≠ .success) : Effect call l res none none
  | opened {live : LiveImpl} (hopen : call.isOpen = true) (hres : res = .success)
      (hlive : ∃ driver, live.impl.IsOpen driver) : Effect call l res none (some live)
  | used {live : LiveImpl} {impl : SecureDebugManagerImpl} (hhandle : call.handle = some live.handle)
      (hclose : call ≠ .sdmClose live.handle) (hkeeps : live.impl.Keeps impl) :
      Effect call l res (some live) (some { live with impl })
  | closed {live : LiveImpl} (hcall : call = .sdmClose live.handle) :
      Effect call l res (some live) none

theorem effect_sdmOpen {handle : Option SDMHandle} {params : Option SDMOpenParameters}
    (h : Run ((ApiCall.sdmOpen handle params).perform psa fuel gSDMImpl) l (.ok (res, gSDMImpl'))) :
    Effect (.sdmOpen handle params) l res gSDMImpl gSDMImpl' := by
  obtain ⟨out, l₁, l₂, rfl, h₁, h₂⟩ := run_bind_ok.mp h
  obtain ⟨rfl, rfl, rfl⟩ := run_pure_pair.mp h₂
  rw [List.append_nil]
  unfold sdmOpen at h₁
  cases hp : params.isNone with
  | true =>
    rw [if_pos hp] at h₁
    obtain ⟨rfl, rfl⟩ := run_pure_ok.mp h₁
    exact .ignored rfl (fun _ h => nomatch h) fun _ _ h => nomatch h
  | false =>
    rw [if_neg (by simp [hp])] at h₁
    cases hg : gSDMImpl with
    | some live =>
      rw [hg] at h₁
      obtain ⟨rfl, rfl⟩ := run_pure_ok.mp h₁
      exact .ignored rfl (fun _ h => nomatch h) fun _ _ h => nomatch h
    | none =>
      rw [hg, if_neg (show ¬(none : Option LiveImpl).isSome = true from Bool.false_ne_true)] at h₁
      obtain ⟨address, l₃, l₄, rfl, -, h₄⟩ := run_bind_ok.mp h₁
      obtain ⟨⟨res, impl⟩, l₅, l₆, rfl, h₅, h₆⟩ := run_bind_ok.mp h₄
      dsimp only at h₆
      by_cases hres : res = .success
      · rw [if_neg (not_not.mpr hres)] at h₆
        obtain ⟨_, l₇, l₈, rfl, -, h₈⟩ := run_bind_ok.mp h₆
        obtain ⟨rfl, rfl⟩ := run_pure_ok.mp h₈
        exact .opened rfl hres (SecureDebugManagerImpl.returns_sdmOpen _ _ h₅ hres)
      · rw [if_pos hres] at h₆
        obtain ⟨rfl, rfl⟩ := run_pure_ok.mp h₆
        exact .refused rfl hres

theorem effect_sdmAuthenticate {handle : SDMHandle}
    (h : Run ((ApiCall.sdmAuthenticate handle).perform psa fuel gSDMImpl) l (.ok (res, gSDMImpl'))) :
    Effect (.sdmAuthenticate handle) l res gSDMImpl gSDMImpl' := by
  replace h : Run (sdmAuthenticate psa fuel gSDMImpl handle) l (.ok (res, gSDMImpl')) := h
  unfold sdmAuthenticate at h
  cases gSDMImpl with
  | none =>
    obtain ⟨rfl, rfl, rfl⟩ := run_pure_pair.mp h
    exact .ignored rfl (fun h => nomatch h) fun _ h => nomatch h
  | some live =>
    dsimp only at h
    by_cases hhandle : handle = live.handle
    · rw [if_neg (not_not.mpr hhandle)] at h
      obtain ⟨⟨res, impl⟩, l₁, l₂, rfl, h₁, h₂⟩ := run_bind_ok.mp h
      obtain ⟨rfl, rfl, rfl⟩ := run_pure_pair.mp h₂
      exact .used (congrArg some hhandle) (fun h => nomatch h)
        (SecureDebugManagerImpl.returns_sdmAuthenticate _ _ h₁)
    · rw [if_pos hhandle] at h
      obtain ⟨rfl, rfl, rfl⟩ := run_pure_pair.mp h
      exact .ignored rfl (fun h => nomatch h) fun _ _ h => nomatch h

theorem effect_sdmResumeBoot {handle : SDMHandle}
    (h : Run ((ApiCall.sdmResumeBoot handle).perform psa fuel gSDMImpl) l (.ok (res, gSDMImpl'))) :
    Effect (.sdmResumeBoot handle) l res gSDMImpl gSDMImpl' := by
  replace h : Run (sdmResumeBoot gSDMImpl handle) l (.ok (res, gSDMImpl')) := h
  have hl : l = [] ∧ gSDMImpl' = gSDMImpl := by
    unfold sdmResumeBoot at h
    cases gSDMImpl with
    | none =>
      obtain ⟨rfl, hout⟩ := run_pure.mp h
      exact ⟨rfl, (Prod.mk.inj (Except.ok.inj hout)).2⟩
    | some live =>
      dsimp only at h
      split_ifs at h
      · obtain ⟨rfl, hout⟩ := run_pure.mp h
        exact ⟨rfl, (Prod.mk.inj (Except.ok.inj hout)).2⟩
      · obtain ⟨rfl, hout⟩ := run_pure.mp h
        exact ⟨rfl, (Prod.mk.inj (Except.ok.inj hout)).2⟩
  obtain ⟨rfl, rfl⟩ := hl
  exact .ignored rfl (fun h => nomatch h) fun _ _ h => nomatch h

theorem effect_sdmClose {handle : SDMHandle}
    (h : Run ((ApiCall.sdmClose handle).perform psa fuel gSDMImpl) l (.ok (res, gSDMImpl'))) :
    Effect (.sdmClose handle) l res gSDMImpl gSDMImpl' := by
  replace h : Run (sdmClose fuel gSDMImpl handle) l (.ok (res, gSDMImpl')) := h
  unfold sdmClose at h
  cases gSDMImpl with
  | none =>
    obtain ⟨rfl, rfl, rfl⟩ := run_pure_pair.mp h
    exact .ignored rfl (fun h => nomatch h) fun _ h => nomatch h
  | some live =>
    dsimp only at h
    by_cases hhandle : handle = live.handle
    · rw [if_neg (not_not.mpr hhandle)] at h
      obtain ⟨⟨res, impl⟩, l₁, l₂, rfl, -, h₂⟩ := run_bind_ok.mp h
      obtain ⟨-, rfl, rfl⟩ := run_pure_pair.mp h₂
      exact .closed (congrArg _ hhandle)
    · rw [if_pos hhandle] at h
      obtain ⟨rfl, rfl, rfl⟩ := run_pure_pair.mp h
      refine .ignored rfl (fun h => nomatch h) fun live' hlive hcall => ?_
      obtain rfl := Option.some.inj hlive
      exact hhandle (ApiCall.sdmClose.inj hcall)

theorem effect_of_run (h : Run (call.perform psa fuel gSDMImpl) l (.ok (res, gSDMImpl'))) :
    Effect call l res gSDMImpl gSDMImpl' := by
  cases call with
  | sdmOpen handle params => exact effect_sdmOpen h
  | sdmAuthenticate handle => exact effect_sdmAuthenticate h
  | sdmResumeBoot handle => exact effect_sdmResumeBoot h
  | sdmClose handle => exact effect_sdmClose h

theorem SessionOk.effect (hok : SessionOk gSDMImpl) (h : Effect call l res gSDMImpl gSDMImpl') :
    SessionOk gSDMImpl' := by
  cases h with
  | ignored => exact hok
  | refused => exact fun live h => nomatch h
  | opened _ _ hlive =>
    intro live h
    obtain rfl := Option.some.inj h
    exact hlive
  | used _ _ hkeeps =>
    intro live h
    obtain rfl := Option.some.inj h
    obtain ⟨driver, ho⟩ := hok _ rfl
    exact ⟨driver, hkeeps.isOpen_of ho⟩
  | closed => exact fun live h => nomatch h

theorem Reachable.sessionOk (h : Reachable psa gSDMImpl) : SessionOk gSDMImpl := by
  induction h with
  | init => exact fun live h => nomatch h
  | call _ hrun ih => exact ih.effect (effect_of_run hrun)

/-- No call that a session comes to makes a transfer through a driver that is not initialised: neither
`EComPort_Tx` nor `EComPort_Rx` takes that branch. -/
theorem apiCall_transfers (h : Reachable psa gSDMImpl) :
    Transfers (fun driver => driver.mIsComPortInited = true) (call.perform psa fuel gSDMImpl) := by
  have hok := h.sessionOk
  cases call with
  | sdmOpen handle params =>
    refine Transfers.seq ?_ fun _ => .pure _
    rw [sdmOpen]
    refine transfers_ite (.pure _) <| transfers_ite (.pure _) ?_
    refine (Transfers.callHost (by nofun)).seq fun _ => Transfers.seq ?_ fun _ => ?_
    · cases params with
      | none =>
        rw [SecureDebugManagerImpl.sdmOpen]
        · exact transfers_ite (.pure _) (.pure _)
        · nofun
      | some params =>
        rw [SecureDebugManagerImpl.sdmOpen]
        refine transfers_ite (.pure _) ?_
        refine (transfers_deref _).seq fun _ => (Transfers.callHost (by nofun)).seq fun _ => ?_
        refine transfers_ite (.pure _) <| (Transfers.callHost (by nofun)).seq fun _ => ?_
        refine Transfers.eComPortInit.seq fun _ => ?_
        exact transfers_ite (.pure _) <| transfers_ite (.pure _) (.pure _)
    · exact transfers_ite (.pure _) <| (transfers_deref _).seq fun _ => .pure _
  | sdmAuthenticate handle =>
    cases gSDMImpl with
    | none => exact .pure _
    | some live =>
      obtain ⟨driver, ho⟩ := hok live rfl
      refine transfers_ite (.pure _) <| Transfers.seq ?_ fun _ => .pure _
      refine SecureDebugManagerImpl.transfers_sdmAuthenticate.mono fun driver' hd => ?_
      obtain ⟨this', hhanded, hdriver⟩ := hd
      have ho' := hhanded.keeps.isOpen_of ho
      obtain rfl := Option.some.inj (hdriver.symm.trans ho'.attached)
      exact ho'.inited
  | sdmResumeBoot handle =>
    cases gSDMImpl with
    | none => exact .pure _
    | some live => exact transfers_ite (.pure _) <| Transfers.seq (.pure _) fun _ => .pure _
  | sdmClose handle =>
    cases gSDMImpl with
    | none => exact .pure _
    | some live =>
      refine transfers_ite (.pure _) <| Transfers.seq ?_ fun _ => .pure _
      rw [SecureDebugManagerImpl.sdmClose]
      exact transfers_ite (.pure _) <| Transfers.seq (.pure _) fun _ => .pure _

/-- The session invariant of the API. In every history `gSDMImpl` is null or points to an
open object whose driver is initialised, and so are the objects that `SDMAuthenticate` goes
on with; it stops being null at a successful `SDMOpen` only and becomes null at the close
with the live handle only; every other handle, and opening twice, is refused without a call
of anything. -/
theorem sdmApi_session (h : Reachable psa gSDMImpl)
    (hrun : Run (call.perform psa fuel gSDMImpl) l (.ok (res, gSDMImpl'))) :
    (∀ live, gSDMImpl' = some live → ∀ this, Handed psa live.impl this →
      this.mOpen = true ∧ ∃ driver, this.mExtComPortDriver = some driver ∧
        driver.mIsComPortInited = true) ∧
    (gSDMImpl = none → (gSDMImpl' ≠ none ↔ call.isOpen = true ∧ res = .success)) ∧
    (∀ live, gSDMImpl = some live →
      (gSDMImpl' = none ↔ call = .sdmClose live.handle) ∧
      ∀ live', gSDMImpl' = some live' → live'.handle = live.handle) ∧
    ((call.isOpen = true ∧ gSDMImpl ≠ none) ∨
      (call.isOpen = false ∧ ∀ live, gSDMImpl = some live → call.handle ≠ some live.handle) →
        gSDMImpl' = gSDMImpl ∧ l = []) := by
  have hok := h.sessionOk
  have heffect := effect_of_run hrun
  refine ⟨fun live hlive this hthis => ?_, ?_, ?_, ?_⟩
  · obtain ⟨driver, ho⟩ := hok.effect heffect live hlive
    have ho' := hthis.keeps.isOpen_of ho
    exact ⟨ho'.isOpen, driver, ho'.attached, ho'.inited⟩
  · rintro rfl
    cases heffect with
    | ignored _ hopen => simpa using hopen
    | refused _ hres => simp [hres]
    | opened hopen hres => simp [hopen, hres]
  · rintro live rfl
    cases heffect with
    | ignored _ _ hclose => simp [hclose]
    | used _ hclose => simp [hclose]
    | closed hcall => simp [hcall]
  · intro hcall
    cases heffect with
    | ignored hl => exact ⟨rfl, hl⟩
    | refused hopen => simp [hopen] at hcall
    | opened hopen => simp [hopen] at hcall
    | used hhandle => simp [hhandle, isOpen_of_handle hhandle] at hcall
    | closed hclose => simp [hclose, ApiCall.isOpen, ApiCall.handle] at hcall

theorem sdmApi_session_opened : ∃ live l, Run ((ApiCall.sdmOpen (some 0)
    (some allCallbacks)).perform .standard 9 none) l
      (.ok (.success, some live)) ∧ live.impl.mOpen = true := by
  obtain ⟨gSDMImpl', hrun⟩ := exists_run_of_exec
    ((ApiCall.sdmOpen (some 0) (some allCallbacks)).perform .standard 9 none)
    (ExternalComPortDriver.identifyScript ([flagIDA] ++ protocol ++ [flagEND])) .success
    (by decide +kernel)
  obtain ⟨hopen, hnew, -⟩ := sdmApi_session .init hrun
  obtain ⟨live, rfl⟩ := Option.ne_none_iff_exists'.mp ((hnew rfl).mpr ⟨rfl, rfl⟩)
  exact ⟨live, _, hrun, (hopen live rfl live.impl .refl).1⟩

end
end SecureDebug
