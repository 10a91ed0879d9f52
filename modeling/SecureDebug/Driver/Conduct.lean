import SecureDebug.Driver.Codes
import SecureDebug.Interaction.Serving

/-! How the driver treats the device: which accesses it makes, when it writes a byte, in which order
it asks for resets, and that it asks for nothing more once something failed. -/

namespace SecureDebug
open Interaction Program

inductive ResetStage where
  | idle
  | started
  | finished
  deriving DecidableEq, Repr

def ResetStage.passed : ResetStage → List ResetStage
  | .idle => []
  | .started => [.started]
  | .finished => [.started, .finished]

/-- What was done so far: the status, if that is what was read last, the stage of the reset, and
whether anything failed. -/
structure Conduct where
  status : Option Status := none
  stage : ResetStage := .idle
  failed : Bool := false
  deriving DecidableEq, Repr

def Status.hasRoom (status : Status) : Bool :=
  status.txFree ≠ 0 && status.txOverflow = 0 && status.linkErrs = 0

/-- The answer is not the one that was asked for; an access may also be performed in part only. -/
def hostFails : Event Host → Bool
  | ⟨.registerAccess accesses, (a : AccessResult)⟩ =>
    a.result ≠ .success || a.accessesCompleted ≠ accesses.length
  | ⟨.resetStart, (res : SDMReturnCode)⟩ => res ≠ .success
  | ⟨.resetEnd, (res : SDMReturnCode)⟩ => res ≠ .success
  | ⟨.presentForm _, (out : SDMReturnCode × Vector String _)⟩ => out.1 ≠ .success
  | ⟨.psaAdacInit, (adacRes : Int)⟩ => adacRes < 0
  | ⟨.importPrivateKey _, ((err, _, _) : Int × UInt8 × UInt32)⟩ => err ≠ 0
  | ⟨.loadTrustChain _, ((err, _) : Int × List UInt8)⟩ => err ≠ 0
  | ⟨.psaAdacSignToken _ _ _, ((adacRes, _) : Int × List UInt8)⟩ => adacRes < 0
  | ⟨.splitTlvStatic _, ((adacRes, _) : Int × List PsaTlv)⟩ => adacRes < 0
  | _ => false

namespace ExternalComPortDriver
variable (this : ExternalComPortDriver)

def Writes (block : Bool) (accesses : List SDMRegisterAccess) : Prop :=
  accesses ≠ [] ∧ accesses = accesses.map fun a => this.writeAccess block a.value.toUInt8

instance (block : Bool) (accesses : List SDMRegisterAccess) : Decidable (this.Writes block accesses) :=
  inferInstanceAs (Decidable (_ ∧ _))

/-- The status or a byte is read; bytes are written to the blocking register; a single one is to the
other register, when the status was read before it and showed room. -/
def Accesses (s : Conduct) (accesses : List SDMRegisterAccess) : Prop :=
  accesses = [this.statusAccess] ∨ accesses = [this.readAccess] ∨ this.Writes true accesses ∨
    (accesses.length = 1 ∧ this.Writes false accesses ∧ s.status.any Status.hasRoom = true)

instance (s : Conduct) (accesses : List SDMRegisterAccess) : Decidable (this.Accesses s accesses) :=
  inferInstanceAs (Decidable (_ ∨ _ ∨ _ ∨ _ ∧ _))

def Admits (s : Conduct) : HostCall → Prop
  | .registerAccess accesses => this.Accesses s accesses
  | .resetStart => s.stage = .idle
  | .resetEnd => s.stage = .started
  | _ => True

instance (s : Conduct) : (c : HostCall) → Decidable (this.Admits s c)
  | .registerAccess accesses => inferInstanceAs (Decidable (this.Accesses s accesses))
  | .resetStart => inferInstanceAs (Decidable (s.stage = .idle))
  | .resetEnd => inferInstanceAs (Decidable (s.stage = .started))
  | .updateProgress _ _ => inferInstanceAs (Decidable True)
  | .presentForm _ => inferInstanceAs (Decidable True)
  | .psaAdacInit => inferInstanceAs (Decidable True)
  | .importPrivateKey _ => inferInstanceAs (Decidable True)
  | .loadTrustChain _ => inferInstanceAs (Decidable True)
  | .psaAdacSignToken _ _ _ => inferInstanceAs (Decidable True)
  | .splitTlvStatic _ => inferInstanceAs (Decidable True)
  | .uninitialised _ => inferInstanceAs (Decidable True)
  | .newImpl => inferInstanceAs (Decidable True)

/-- What is known of the status behind an access. -/
def statusBehind (accesses : List SDMRegisterAccess) (a : AccessResult) : Option Status :=
  if accesses = [this.statusAccess] ∧ (statusResult a).1 = .success then some (statusResult a).2
  else none

def behind (s : Conduct) : Event Host → Conduct
  | ⟨.registerAccess accesses, (a : AccessResult)⟩ => { s with status := this.statusBehind accesses a }
  | ⟨.resetStart, _⟩ => { s with status := none, stage := .started }
  | ⟨.resetEnd, _⟩ => { s with status := none, stage := .finished }
  | _ => { s with status := none }

/-- Objects to any call behind a failure, and to one that is not admitted. -/
def conduct : Monitor Host Conduct := fun s e =>
  if s.failed = false ∧ this.Admits s e.call then
    some { this.behind s e with failed := hostFails e }
  else none

/-- From any state in which nothing failed: nothing is objected to, the reset stays where it is, and
a good code means that still nothing failed. -/
def Behaves {α : Type} (code : α → SDMReturnCode) (p : Sdm α) : Prop :=
  ∀ s, s.failed = false → Abides this.conduct
    (fun a t => t.stage = s.stage ∧ (code a = .success → t.failed = false)) p s

section
variable {this} {α β : Type} {code : α → SDMReturnCode} {code' : β → SDMReturnCode} {s : Conduct}
  {R : β → Conduct → Prop} {p : Sdm α} {f : α → Sdm β}

theorem behaves_pure (a : α) : this.Behaves code (pure a) := fun _ hs => ⟨rfl, fun _ => hs⟩

theorem behaves_halt (e : Stop) : this.Behaves code (halt e) := fun _ _ => abides_halt

theorem behaves_lift (x : Except Stop α) : this.Behaves code (lift x) :=
  fun _ hs => abides_lift fun _ _ => ⟨rfl, fun _ => hs⟩

theorem behaves_ite {c : Prop} [Decidable c] {q : Sdm α} (hp : c → this.Behaves code p)
    (hq : ¬c → this.Behaves code q) : this.Behaves code (if c then p else q) :=
  fun s hs => abides_ite (fun h => hp h s hs) fun h => hq h s hs

theorem Behaves.bind_returns {P : α → Prop} (hp : this.Behaves code p) (hreturns : Returns p P)
    (hbad : ∀ a, code a ≠ .success → ∃ b, f a = pure b ∧ code' b ≠ .success)
    (hgood : ∀ a, P a → code a = .success → this.Behaves code' (f a)) :
    this.Behaves code' (p >>= f) := by
  intro s hs
  refine ((hp s hs).and_returns hreturns).bind fun a t ht => ?_
  obtain ⟨⟨hstage, hfine⟩, hPa⟩ := ht
  by_cases ha : code a = .success
  · refine (hgood a hPa ha t (hfine ha)).mono fun b u hu => ?_
    exact ⟨hu.1.trans hstage, hu.2⟩
  · obtain ⟨b, hb, hb'⟩ := hbad a ha
    rw [hb]
    exact ⟨hstage, fun h => absurd h hb'⟩

theorem Behaves.bind (hp : this.Behaves code p)
    (hbad : ∀ a, code a ≠ .success → ∃ b, f a = pure b ∧ code' b ≠ .success)
    (hgood : ∀ a, code a = .success → this.Behaves code' (f a)) : this.Behaves code' (p >>= f) :=
  hp.bind_returns returns_true hbad fun a _ => hgood a

theorem Behaves.seq (hp : this.Behaves (fun _ => .success) p) (hf : ∀ a, this.Behaves code' (f a)) :
    this.Behaves code' (p >>= f) := hp.bind (fun _ h => absurd rfl h) fun a _ => hf a

theorem Behaves.map {g : α → β} (hp : this.Behaves code p) (hg : ∀ a, code' (g a) = code a) :
    this.Behaves code' (p >>= fun a => pure (g a)) := by
  refine hp.bind (fun a ha => ⟨g a, rfl, ?_⟩) fun a _ => behaves_pure (g a)
  rwa [hg a]

theorem behaves_assert {bail : SDMReturnCode → β} {call : Sdm SDMReturnCode} {rest : Sdm β}
    (hbail : ∀ c, code' (bail c) = c) (hcall : this.Behaves id call)
    (hrest : this.Behaves code' rest) : this.Behaves code' (psaAdacAssert bail call rest) := by
  refine hcall.bind (fun c hc => ⟨bail c, if_neg hc, ?_⟩) fun c (hc : c = .success) => ?_
  · rwa [hbail]
  · rw [if_pos hc]
    exact hrest

theorem abides_access {accesses : List SDMRegisterAccess} {f : AccessResult → Sdm β}
    (hs : s.failed = false) (hadmits : this.Accesses s accesses)
    (hf : ∀ a, Abides this.conduct R (f a) { this.behind s ⟨.registerAccess accesses, a⟩ with
      failed := hostFails ⟨.registerAccess accesses, a⟩ }) :
    Abides this.conduct R (this.registerAccess accesses >>= f) s := by
  rw [registerAccess]
  by_cases hcb : this.mRegisterAccessCallback = true
  · rw [if_pos hcb]
    exact fun a => ⟨_, if_pos ⟨hs, hadmits⟩, hf a⟩
  · rw [if_neg hcb]
    exact abides_halt

theorem behaves_access {accesses : List SDMRegisterAccess} {f : AccessResult → Sdm β}
    (hadmits : ∀ s, this.Accesses s accesses)
    (hbad : ∀ a, hostFails ⟨.registerAccess accesses, a⟩ = true →
      ∃ b, f a = pure b ∧ code' b ≠ .success)
    (hgood : ∀ a, hostFails ⟨.registerAccess accesses, a⟩ = false → this.Behaves code' (f a)) :
    this.Behaves code' (this.registerAccess accesses >>= f) := by
  intro s hs
  refine abides_access hs (hadmits s) fun a => ?_
  cases hfails : hostFails ⟨.registerAccess accesses, a⟩ with
  | true =>
    obtain ⟨b, hb, hb'⟩ := hbad a hfails
    rw [hb]
    exact ⟨rfl, fun h => absurd h hb'⟩
  | false =>
    exact hgood a hfails { this.behind s ⟨.registerAccess accesses, a⟩ with failed := false } rfl

/-! ### Raw accesses and polls -/

theorem hostFails_access {accesses : List SDMRegisterAccess} {a : AccessResult} :
    hostFails ⟨.registerAccess accesses, a⟩ = false ↔
      a.result = .success ∧ a.accessesCompleted = accesses.length := by
  rw [hostFails]
  simp

theorem statusResult_eq_success {a : AccessResult} :
    (statusResult a).1 = .success ↔ a.result = .success ∧ a.accessesCompleted = 1 := by
  rw [statusResult]
  split_ifs with h₁ h₂
  · exact iff_of_false h₁ fun h => h₁ h.1
  · exact iff_of_false (by decide) fun h => h₂ h.2
  · exact iff_of_true rfl ⟨not_not.mp h₁, not_not.mp h₂⟩

theorem readResult_fst_eq_success {a : AccessResult} :
    (readResult a).1 = .success ↔ a.result = .success ∧ a.accessesCompleted = 1 := by
  rw [readResult]
  split_ifs with h₁ h₂
  · exact iff_of_false h₁ fun h => h₁ h.1
  · exact iff_of_false (by decide) fun h => h₂ h.2
  · exact iff_of_true rfl ⟨not_not.mp h₁, not_not.mp h₂⟩

theorem writes_writeAccess (block : Bool) {bytes : List UInt8} (hne : bytes ≠ []) :
    this.Writes block (bytes.map (this.writeAccess block)) := by
  refine ⟨fun h => hne (List.map_eq_nil_iff.mp h), ?_⟩
  rw [List.map_map]
  refine List.map_congr_left fun byte _ => ?_
  rw [Function.comp_apply, toUInt8_writeAccess]

theorem behaves_eComTxRaw (bytes : List UInt8) : this.Behaves id (this.eComTxRaw true bytes) := by
  by_cases hne : bytes = []
  · rw [hne]
    exact behaves_pure _
  · rw [eComTxRaw_eq this true hne]
    refine behaves_access (fun _ => .inr (.inr (.inl (writes_writeAccess true hne))))
      (fun a hfails => ?_)
      fun a _ => behaves_pure _
    refine ⟨_, rfl, fun hres => Bool.false_ne_true ?_⟩
    obtain ⟨hresult, hdone⟩ := writeResult_eq_success.mp hres
    rw [← hfails]
    exact (hostFails_access.mpr ⟨hresult, by rw [hdone, List.length_map]⟩).symm

def Polled (level : Status → UInt8) (s : Conduct) (x : Except SDMReturnCode Nat) (t : Conduct) :
    Prop :=
  t.stage = s.stage ∧ match x with
    | .error code => code ≠ .success
    | .ok n => t.failed = false ∧ (n < maxRetries → ∃ status, t.status = some status ∧
        level status ≠ 0 ∧ status.txOverflow = 0 ∧ status.linkErrs = 0)

theorem pollResult_ok {level : Status → UInt8} {a : AccessResult} {ready : Bool}
    (h : pollResult level a = .ok ready) : (statusResult a).1 = .success ∧
      (statusResult a).2.txOverflow = 0 ∧ (statusResult a).2.linkErrs = 0 ∧
      ready = decide (level (statusResult a).2 ≠ 0) := by
  rw [pollResult] at h
  dsimp only at h
  split_ifs at h with h₁ h₂ h₃
  exact ⟨not_not.mp h₁, not_not.mp h₃, not_not.mp h₂, (Except.ok.inj h).symm⟩

variable (this) in
theorem statusBehind_of_pollResult {level : Status → UInt8} {a : AccessResult} {ready : Bool}
    (h : pollResult level a = .ok ready) :
    this.statusBehind [this.statusAccess] a = some (statusResult a).2 ∧
      hostFails ⟨.registerAccess [this.statusAccess], a⟩ = false := by
  obtain ⟨hgood, -⟩ := pollResult_ok h
  exact ⟨if_pos ⟨rfl, hgood⟩, hostFails_access.mpr (statusResult_eq_success.mp hgood)⟩

theorem polled_pollLoop (level : Status → UInt8) (left : Nat) (hs : s.failed = false) :
    Abides this.conduct (Polled level s) (this.pollLoop level left) s := by
  induction left generalizing s with
  | zero =>
    rw [pollLoop_eq]
    refine abides_access hs (.inl rfl) fun a => ?_
    cases hpoll : pollResult level a with
    | error code => exact ⟨rfl, pollResult_error_ne hpoll⟩
    | ok ready =>
      obtain ⟨-, hfine⟩ := statusBehind_of_pollResult this hpoll
      cases ready with
      | false => exact ⟨rfl, hfine, fun hlt => absurd hlt (by decide)⟩
      | true => exact ⟨rfl, hfine, fun hlt => absurd hlt (by decide)⟩
  | succ left ih =>
    rw [pollLoop_eq]
    refine abides_access hs (.inl rfl) fun a => ?_
    cases hpoll : pollResult level a with
    | error code => exact ⟨rfl, pollResult_error_ne hpoll⟩
    | ok ready =>
      obtain ⟨hstatus, hfine⟩ := statusBehind_of_pollResult this hpoll
      obtain ⟨-, hover, hlink, hready⟩ := pollResult_ok hpoll
      cases ready with
      | false => exact (ih hfine).mono fun x t ht => ht
      | true => exact ⟨rfl, hfine, fun _ => ⟨_, hstatus, of_decide_eq_true hready.symm, hover, hlink⟩⟩

theorem behaves_polledAccess {level : Status → UInt8} {fail : SDMReturnCode → β}
    {accesses : List SDMRegisterAccess} {finish : AccessResult → β}
    (hfail : ∀ c, code' (fail c) = c)
    (hadmits : ∀ t status, t.status = some status → level status ≠ 0 → status.txOverflow = 0 →
      status.linkErrs = 0 → this.Accesses t accesses)
    (hfinish : ∀ a : AccessResult, code' (finish a) = .success →
      a.result = .success ∧ a.accessesCompleted = accesses.length) :
    this.Behaves code' (this.polledAccess level fail accesses finish) := by
  intro s hs
  rw [polledAccess]
  refine (polled_pollLoop level maxRetries hs).bind fun x t ht => ?_
  obtain ⟨hstage, ht⟩ := ht
  cases x with
  | error c =>
    refine ⟨hstage, fun h => absurd ?_ ht⟩
    rwa [hfail] at h
  | ok n =>
    obtain ⟨hfine, hready⟩ := ht
    refine abides_ite (fun _ => ⟨hstage, fun _ => hfine⟩) fun hn => ?_
    obtain ⟨status, hstatus, hlevel, hover, hlink⟩ := hready (Nat.lt_of_not_le hn)
    refine abides_access hfine (hadmits t status hstatus hlevel hover hlink) fun a => ⟨hstage, ?_⟩
    intro hres
    exact hostFails_access.mpr (hfinish a hres)

theorem behaves_eComSendByte (byte : UInt8) : this.Behaves id (this.eComSendByte byte) := by
  rw [eComSendByte_eq]
  refine behaves_polledAccess (fun _ => rfl) (fun t status hstatus hlevel hover hlink => ?_) fun a => ?_
  · refine .inr (.inr (.inr ⟨rfl, writes_writeAccess false (List.cons_ne_nil byte []), ?_⟩))
    rw [hstatus, Option.any_some, Status.hasRoom, hover, hlink]
    simpa using hlevel
  · exact writeResult_eq_success.mp

theorem behaves_eComReadByte (byte : UInt8) : this.Behaves Prod.fst (this.eComReadByte byte) := by
  rw [eComReadByte_eq]
  refine behaves_polledAccess (fun _ => rfl) (fun _ _ _ _ _ _ => .inr (.inl rfl)) fun a hres => ?_
  apply readResult_fst_eq_success.mp
  by_contra hread
  rw [readByteResult, if_neg hread] at hres
  exact hread hres

/-! ### Bytes, flags and messages -/

theorem behaves_eComSendBytes (bytes : List UInt8) : this.Behaves id (this.eComSendBytes bytes) := by
  induction bytes with
  | nil => exact behaves_pure _
  | cons byte bytes ih =>
    rw [eComSendBytes]
    refine (behaves_eComSendByte byte).bind (fun c hc => ⟨c, if_pos hc, hc⟩)
      fun c (hc : c = .success) => ?_
    rw [if_neg (not_not.mpr hc)]
    exact ih

theorem behaves_eComSendBlock (bytes : List UInt8) (block : Bool) :
    this.Behaves id (this.eComSendBlock bytes block) := by
  cases block with
  | false => exact behaves_eComSendBytes bytes
  | true =>
    rw [eComSendBlock_true]
    exact behaves_eComTxRaw bytes

theorem behaves_waitLoop (flag : UInt8) (fuel : Nat) (byte : UInt8) :
    this.Behaves id (this.waitLoop flag fuel byte) := by
  induction fuel generalizing byte with
  | zero => exact behaves_halt _
  | succ fuel ih =>
    rw [waitLoop]
    refine (behaves_eComReadByte byte).bind (fun read hc => ⟨read.1, if_pos hc, hc⟩)
      fun read hc => ?_
    refine behaves_ite (fun hne => absurd hc hne) fun _ => ?_
    exact behaves_ite (fun _ => ih read.2) fun _ => behaves_pure _

theorem behaves_rxLoop (startFlag : UInt8) (rxBufferLength fuel : Nat) (s : RxState) :
    this.Behaves RxResult.res (this.rxLoop startFlag rxBufferLength fuel s) := by
  induction fuel generalizing s with
  | zero => exact behaves_halt _
  | succ fuel ih =>
    rw [rxLoop_eq]
    refine behaves_access (fun _ => .inr (.inl rfl)) (fun a hfails => ?_) fun a hfine => ?_
    · have hres : (readResult a).1 ≠ .success := fun hres => Bool.false_ne_true
        ((hostFails_access.mpr (readResult_fst_eq_success.mp hres)).symm.trans hfails)
      exact ⟨_, if_pos hres, hres⟩
    · refine behaves_ite (fun hres => behaves_pure _) fun _ => ?_
      refine (behaves_lift _).seq fun step => ?_
      cases step with
      | done out => exact behaves_pure out
      | more s' => exact ih s'

theorem behaves_eComPortPower (fuel : Nat) (requiredState : ECPDRequiredState) :
    this.Behaves id (this.eComPortPower fuel requiredState) := by
  have hbail (c : SDMReturnCode) : id (id c) = c := rfl
  cases requiredState with
  | powerOff =>
    exact behaves_assert hbail (behaves_eComSendByte _) <|
      behaves_assert hbail (behaves_waitLoop _ fuel _) (behaves_pure _)
  | powerOn =>
    exact behaves_assert hbail (behaves_eComSendByte _) <|
      behaves_assert hbail (behaves_waitLoop _ fuel _) <|
      behaves_assert hbail (behaves_eComSendByte _) <|
      behaves_assert hbail (behaves_waitLoop _ fuel _) (behaves_pure _)

theorem behaves_eComPortRReboot : this.Behaves id this.eComPortRReboot :=
  behaves_assert (fun _ => rfl) (behaves_eComSendByte _) (behaves_pure _)

theorem behaves_eComPortFinalize (fuel : Nat) : this.Behaves id (this.eComPortFinalize fuel) :=
  behaves_assert (fun _ => rfl) (behaves_eComSendByte _) <|
    behaves_assert (fun _ => rfl) (behaves_waitLoop _ fuel _) <|
    behaves_assert (fun _ => rfl) (behaves_eComPortPower fuel .powerOff) (behaves_pure _)

theorem behaves_eComPortTx (txBuffer : List UInt8) (actualLength : Nat) (block : Bool) :
    this.Behaves Prod.fst (this.eComPortTx txBuffer actualLength block) := by
  refine behaves_ite (fun _ => behaves_pure _) fun _ => ?_
  refine (behaves_lift _).seq fun frame => ?_
  refine behaves_ite (fun _ => behaves_pure _) fun _ => ?_
  exact (behaves_eComSendBlock _ block).map fun _ => rfl

theorem behaves_eComPortRx (fuel : Nat) (rxBuffer : List UInt8) (rxBufferLength actualLength : Nat) :
    this.Behaves RxResult.res (this.eComPortRx fuel rxBuffer rxBufferLength actualLength) :=
  behaves_ite (fun _ => behaves_pure _) fun _ => behaves_rxLoop flagSTART rxBufferLength fuel _

/-! ### Initialisation -/

def resetPending (remoteReset : ECPDRemoteResetType) : ResetStage :=
  if remoteReset = .system then .started else .idle

def resetDone (remoteReset : ECPDRemoteResetType) : ResetStage :=
  if remoteReset = .system then .finished else .idle

/-- A good code means that nothing failed and that the reset came to its end. -/
def Settles (code : α → SDMReturnCode) (remoteReset : ECPDRemoteResetType) (a : α) (t : Conduct) :
    Prop := code a = .success → t.failed = false ∧ t.stage = resetDone remoteReset

section
variable {remoteReset : ECPDRemoteResetType} {bail : SDMReturnCode → β} {rest : Sdm β}

theorem settles_bail {c : SDMReturnCode} (hbail : ∀ c, code' (bail c) = c) (hc : c ≠ .success) :
    Abides this.conduct (Settles code' remoteReset) (pure (bail c) : Sdm β) s :=
  fun h => absurd ((hbail c).symm.trans h) hc

theorem settles_assert {call : Sdm SDMReturnCode} (hbail : ∀ c, code' (bail c) = c)
    (hcall : this.Behaves id call) (hs : s.failed = false)
    (hrest : ∀ t, t.failed = false → t.stage = s.stage →
      Abides this.conduct (Settles code' remoteReset) rest t) :
    Abides this.conduct (Settles code' remoteReset) (psaAdacAssert bail call rest) s := by
  refine (hcall s hs).bind fun c t ht => ?_
  obtain ⟨hstage, hfine⟩ := ht
  refine abides_ite (fun hc => hrest t (hfine hc) hstage) fun hc => ?_
  exact settles_bail hbail hc

theorem settles_initResetStart (hbail : ∀ c, code' (bail c) = c) (hs : s.failed = false)
    (hidle : s.stage = .idle)
    (hrest : ∀ t, t.failed = false → t.stage = resetPending remoteReset →
      Abides this.conduct (Settles code' remoteReset) rest t) :
    Abides this.conduct (Settles code' remoteReset) (this.initResetStart bail remoteReset rest) s := by
  refine abides_ite (fun hsystem => ?_) fun hother => ?_
  · refine abides_ite (fun _ => ?_) fun _ => settles_bail hbail (by decide)
    refine abides_ite (fun _ => ?_) fun _ => settles_bail hbail (by decide)
    intro res
    refine ⟨_, if_pos ⟨hs, hidle⟩, ?_⟩
    refine abides_ite (fun hres => hrest _ ?_ ?_) fun hres => settles_bail hbail hres
    · exact decide_eq_false (not_not.mpr hres)
    · rw [resetPending, if_pos hsystem]
      rfl
  · refine hrest s hs ?_
    rw [resetPending, if_neg hother]
    exact hidle

theorem settles_initResetEnd (hbail : ∀ c, code' (bail c) = c) (hs : s.failed = false)
    (hpending : s.stage = resetPending remoteReset)
    (hrest : ∀ t, t.failed = false → t.stage = resetDone remoteReset →
      Abides this.conduct (Settles code' remoteReset) rest t) :
    Abides this.conduct (Settles code' remoteReset) (this.initResetEnd bail remoteReset rest) s := by
  cases remoteReset with
  | none => exact hrest s hs hpending
  | com =>
    refine settles_assert hbail behaves_eComPortRReboot hs fun t ht hstage => hrest t ht ?_
    exact hstage.trans hpending
  | system =>
    intro res
    refine ⟨_, if_pos ⟨hs, hpending⟩, ?_⟩
    refine abides_ite (fun hres => hrest _ ?_ rfl) fun hres => settles_bail hbail hres
    exact decide_eq_false (not_not.mpr hres)

end

theorem settles_eComPortInit (fuel : Nat) (remoteReset : ECPDRemoteResetType)
    (idResponseBuffer : List UInt8) (idBufferLength : Nat) (hs : s.failed = false)
    (hidle : s.stage = .idle) : Abides this.conduct (Settles InitResult.res remoteReset)
      (this.eComPortInit fuel remoteReset idResponseBuffer idBufferLength) s := by
  have hbail (c : SDMReturnCode) : (InitResult.mk c idResponseBuffer this).res = c := rfl
  refine settles_initResetStart hbail hs hidle fun s hs hpending => ?_
  refine settles_assert hbail (behaves_eComPortPower fuel .powerOn) hs fun t ht hstage => ?_
  rw [← hstage] at hpending
  refine settles_assert hbail (behaves_eComSendByte _) ht fun s hs hstage => ?_
  rw [← hstage] at hpending
  refine settles_initResetEnd hbail hs hpending fun t ht hdone => ?_
  refine settles_assert hbail (behaves_waitLoop _ fuel _) ht fun s hs hstage => ?_
  rw [← hstage] at hdone
  refine settles_assert hbail (behaves_eComSendByte _) hs fun t ht hstage => ?_
  rw [← hstage] at hdone
  refine (behaves_rxLoop flagIDA idBufferLength fuel _ t ht).bind fun rx u hu => ?_
  obtain ⟨hstage, hfine⟩ := hu
  rw [← hstage] at hdone
  refine abides_ite (fun hres h => absurd h hres) fun hres => ?_
  refine abides_ite (fun _ h => ?_) fun _ _ => ⟨hfine (not_not.mp hres), hdone⟩
  exact absurd (show SDMReturnCode.transferError = .success from h) (by decide)

def resetOf : DriverCall → ECPDRemoteResetType
  | .eComPortInit remoteReset _ _ => remoteReset
  | _ => .none

theorem settles_perform (c : DriverCall) (fuel : Nat) :
    Abides this.conduct (Settles Prod.fst (resetOf c)) (c.perform this fuel) {} := by
  have hother {γ : Type} {code : γ → SDMReturnCode} {p : Sdm γ}
      {f : γ → SDMReturnCode × ExternalComPortDriver}
      (hp : this.Behaves code p) (hf : ∀ c, (f c).1 = code c) :
      Abides this.conduct (Settles Prod.fst .none) (p >>= fun c => pure (f c)) {} := by
    refine (hp {} rfl).bind fun c t ht hgood => ?_
    rw [hf] at hgood
    exact ⟨ht.2 hgood, ht.1⟩
  cases c with
  | eComPortInit remoteReset idResponseBuffer idBufferLength =>
    exact (settles_eComPortInit fuel remoteReset idResponseBuffer idBufferLength rfl rfl).bind
      fun out t ht => ht
  | eComPortFinalize => exact hother (behaves_eComPortFinalize fuel) fun _ => rfl
  | eComPortPower requiredState =>
    exact hother (behaves_eComPortPower fuel requiredState) fun _ => rfl
  | eComPortRReboot => exact hother behaves_eComPortRReboot fun _ => rfl
  | eComPortTx txBuffer actualLength block =>
    exact hother (behaves_eComPortTx txBuffer actualLength block) fun _ => rfl
  | eComPortRx rxBuffer rxBufferLength actualLength =>
    exact hother (behaves_eComPortRx fuel rxBuffer rxBufferLength actualLength) fun _ => rfl

end

/-! ### What a trace shows of it -/

/-- The resets that are asked for, each by the stage it leads to. -/
def resetCalls (l : Trace) : List ResetStage :=
  l.filterMap fun e => match e.call with
    | .resetStart => some .started
    | .resetEnd => some .finished
    | _ => none

/-- Nothing comes behind a failure. A reset is started and finished once at most, in this order. The
accesses are reads of the status or of one byte, writes to the blocking register, or the write of one
byte right behind a status with room for it. -/
structure Disciplined (l : Trace) : Prop where
  resets : resetCalls l <+: [.started, .finished]
  stops : ∀ l₁ e l₂, l = l₁ ++ e :: l₂ → hostFails e = true → l₂ = []
  accesses : ∀ l₁ accesses (a : AccessResult) l₂, l = l₁ ++ ⟨.registerAccess accesses, a⟩ :: l₂ →
    accesses = [this.statusAccess] ∨ accesses = [this.readAccess] ∨ this.Writes true accesses ∨
      ∃ byte l₀ a₀, accesses = [this.writeAccess false byte] ∧ l₁ = l₀ ++ [this.statusEvent a₀] ∧
        (statusResult a₀).1 = .success ∧ (statusResult a₀).2.hasRoom = true

section
variable {this} {l l₁ l₂ : Trace} {e : Event Host} {s t : Conduct}

theorem conduct_eq_some (h : this.conduct s e = some t) :
    s.failed = false ∧ this.Admits s e.call ∧ t = { this.behind s e with failed := hostFails e } := by
  rw [conduct] at h
  split_ifs at h with hadmits
  exact ⟨hadmits.1, hadmits.2, (Option.some.inj h).symm⟩

theorem passed_behind (hadmits : this.Admits s e.call) :
    (this.behind s e).stage.passed = s.stage.passed ++ resetCalls [e] := by
  obtain ⟨c, answer⟩ := e
  cases c with
  | resetStart =>
    rw [show s.stage = .idle from hadmits]
    rfl
  | resetEnd =>
    rw [show s.stage = .started from hadmits]
    rfl
  | _ => exact (List.append_nil _).symm

theorem passed_of_follow (h : this.conduct.follow s l = some t) :
    t.stage.passed = s.stage.passed ++ resetCalls l := by
  induction l generalizing s with
  | nil =>
    rw [← Option.some.inj h]
    exact (List.append_nil _).symm
  | cons e l ih =>
    obtain ⟨u, hu, hrest⟩ := follow_cons.mp h
    obtain ⟨-, hadmits, rfl⟩ := conduct_eq_some hu
    have hsplit : resetCalls ([e] ++ l) = resetCalls [e] ++ resetCalls l := List.filterMap_append
    rw [ih hrest, ← List.singleton_append, hsplit, ← List.append_assoc]
    exact congrArg (· ++ resetCalls l) (passed_behind hadmits)

theorem follow_at (h : this.conduct.follow s (l₁ ++ e :: l₂) = some t) :
    ∃ u v, this.conduct.follow s l₁ = some u ∧ this.conduct u e = some v ∧
      this.conduct.follow v l₂ = some t := by
  obtain ⟨u, hu, hrest⟩ := follow_append.mp h
  obtain ⟨v, hv, hrest⟩ := follow_cons.mp hrest
  exact ⟨u, v, hu, hv, hrest⟩

theorem follow_status {status : Status} (h : this.conduct.follow {} l = some s)
    (hstatus : s.status = some status) :
    ∃ l₀ a, l = l₀ ++ [this.statusEvent a] ∧ statusResult a = (.success, status) := by
  rcases List.eq_nil_or_concat l with rfl | ⟨l₀, e, rfl⟩
  · obtain rfl := Option.some.inj h
    cases hstatus
  rw [List.concat_eq_append] at h ⊢
  obtain ⟨u, v, -, hv, hnil⟩ := follow_at h
  obtain rfl := Option.some.inj hnil
  obtain ⟨-, -, hv⟩ := conduct_eq_some hv
  rw [hv] at hstatus
  obtain ⟨c, answer⟩ := e
  cases c with
  | registerAccess accesses =>
    replace hstatus : this.statusBehind accesses answer = some status := hstatus
    rw [statusBehind] at hstatus
    split_ifs at hstatus with hread
    obtain ⟨rfl, hgood⟩ := hread
    exact ⟨l₀, answer, rfl, Prod.ext hgood (Option.some.inj hstatus)⟩
  | _ => cases hstatus

theorem disciplined_of_follow (h : this.conduct.follow {} l = some s) : this.Disciplined l where
  resets := by
    -- the stage is what the resets were so far
    rw [show resetCalls l = s.stage.passed from (passed_of_follow h).symm]
    cases s.stage with
    | idle => exact List.nil_prefix
    | started => exact List.prefix_append [ResetStage.started] [ResetStage.finished]
    | finished => exact List.prefix_refl _
  stops l₁ e l₂ hl hfails := by
    rw [hl] at h
    obtain ⟨u, v, -, hv, hrest⟩ := follow_at h
    obtain ⟨-, -, hv⟩ := conduct_eq_some hv
    cases l₂ with
    | nil => rfl
    | cons e' l₂ =>
      obtain ⟨w, hw, -⟩ := follow_cons.mp hrest
      obtain ⟨halive, -⟩ := conduct_eq_some hw
      rw [hv] at halive
      exact absurd (hfails.symm.trans halive) (by decide)
  accesses l₁ accesses a l₂ hl := by
    rw [hl] at h
    obtain ⟨u, v, hu, hv, -⟩ := follow_at h
    obtain ⟨-, hadmits, -⟩ := conduct_eq_some hv
    rcases hadmits with hstatus | hread | hblock | ⟨hlen, hwrites, hroom⟩
    · exact .inl hstatus
    · exact .inr (.inl hread)
    · exact .inr (.inr (.inl hblock))
    · -- the status is known, so that the event right before read it
      obtain ⟨access, rfl⟩ := List.length_eq_one_iff.mp hlen
      obtain ⟨status, hstatus, hroom⟩ := (Option.any_eq_true _ _).mp hroom
      obtain ⟨l₀, a₀, hl₀, ha₀⟩ := follow_status hu hstatus
      refine .inr (.inr (.inr ⟨access.value.toUInt8, l₀, a₀, hwrites.2, hl₀, ?_⟩))
      rw [ha₀]
      exact ⟨rfl, hroom⟩

theorem fine_of_follow (h : this.conduct.follow {} l = some s) (hs : s.failed = false)
    (he : e ∈ l) : hostFails e = false := by
  obtain ⟨l₁, l₂, rfl⟩ := List.append_of_mem he
  cases hfails : hostFails e with
  | false => rfl
  | true =>
    obtain rfl := (disciplined_of_follow h).stops l₁ e l₂ rfl hfails
    obtain ⟨u, v, -, hv, hnil⟩ := follow_at h
    obtain ⟨-, -, hv⟩ := conduct_eq_some hv
    rw [← Option.some.inj hnil, hv] at hs
    exact hfails.symm.trans hs

/-- Every public operation on any driver, on every device and in every run: it makes no other accesses
than these, writes a byte to the data register only right behind a status that shows room, finishes a
reset only behind its start, stops at the first access or reset that fails, and returns success only
if none did. -/
theorem perform_disciplined {c : DriverCall} {fuel : Nat}
    {r : Except Stop (SDMReturnCode × ExternalComPortDriver)} (h : Run (c.perform this fuel) l r) :
    this.Disciplined l ∧ ∀ out, r = .ok out → out.1 = .success → ∀ e ∈ l, hostFails e = false := by
  obtain ⟨s, hfollow, hgood⟩ := (settles_perform c fuel).follow h
  refine ⟨disciplined_of_follow hfollow, fun out hout hres e he => ?_⟩
  exact fine_of_follow hfollow (hgood out hout hres).1 he

theorem perform_disciplined_reboot :
    inited.Disciplined (scripted.exec (DriverCall.eComPortRReboot.perform inited 0)
      [⟨.success, 1, [1]⟩, ⟨.success, 1, []⟩]).2.1 :=
  (perform_disciplined (Machine.exec_run scripted _ _)).1

end

/-! ### A queue that does not overflow -/

/-- One access against the transmit queue of the device, a number of bytes. The queue drains at any
time. A byte that is written goes in; the blocking register takes it only while there is room and
lets the access wait until there is, the other one takes it room or not. -/
def AccessStep (capacity queued : Nat) (access : SDMRegisterAccess) (queued' : Nat) : Prop :=
  queued' ≤ queued ∨ access.op = .write ∧
    ∃ n ≤ queued, (access.address = this.regAddr regDBR → n < capacity) ∧ queued' ≤ n + 1

/-- The accesses come one after the other, and a status shows no more room than there is. -/
def QueueStep (capacity queued : Nat) (e : Event Host) (queued' : Nat) : Prop :=
  match e with
  | ⟨.registerAccess accesses, (a : AccessResult)⟩ =>
    Steps (this.AccessStep capacity) queued accesses queued' ∧
      (accesses = [this.statusAccess] → (statusResult a).1 = .success →
        (statusResult a).2.txFree.toNat + queued' ≤ capacity)
  | _ => queued' ≤ queued

section
variable {this} {this' : ExternalComPortDriver} {capacity queued queued' : Nat} {e : Event Host}
  {l : Trace} {s t : Conduct}

theorem Writes.op_write {block : Bool} {accesses : List SDMRegisterAccess}
    (h : this.Writes block accesses) {access : SDMRegisterAccess} (hmem : access ∈ accesses) :
    access = this.writeAccess block access.value.toUInt8 := by
  rw [h.2, List.mem_map] at hmem
  obtain ⟨other, -, rfl⟩ := hmem
  rw [toUInt8_writeAccess]

theorem queued_of_read {access : SDMRegisterAccess} (hop : access.op = .read)
    (h : Steps (this.AccessStep capacity) queued [access] queued') : queued' ≤ queued := by
  rcases steps_singleton.mp h with hle | ⟨hwrite, -⟩
  · exact hle
  · rw [hop] at hwrite
    cases hwrite

theorem queued_of_block {accesses : List SDMRegisterAccess}
    (hall : ∀ access ∈ accesses, access.address = this.regAddr regDBR) (hq : queued ≤ capacity)
    (h : Steps (this.AccessStep capacity) queued accesses queued') : queued' ≤ capacity := by
  induction h with
  | nil n => exact hq
  | cons hfirst _ ih =>
    obtain ⟨haddr, hrest⟩ := List.forall_mem_cons.mp hall
    apply ih hrest
    rcases hfirst with hle | ⟨-, n, -, hroom, hle⟩
    · exact hle.trans hq
    · exact hle.trans (hroom haddr)

theorem queued_of_single {access : SDMRegisterAccess}
    (h : Steps (this.AccessStep capacity) queued [access] queued') : queued' ≤ queued + 1 := by
  rcases steps_singleton.mp h with hle | ⟨-, n, hn, -, hle⟩
  · exact hle.trans (Nat.le_succ _)
  · exact hle.trans (Nat.succ_le_succ hn)

def Within (capacity : Nat) (s : Conduct) (queued : Nat) : Prop :=
  queued ≤ capacity ∧ ∀ status, s.status = some status → status.txFree.toNat + queued ≤ capacity

theorem Within.step (h : Within capacity s queued) (hs : this.conduct s e = some t)
    (hq : this.QueueStep capacity queued e queued') : Within capacity t queued' := by
  obtain ⟨-, hadmits, rfl⟩ := conduct_eq_some hs
  obtain ⟨c, answer⟩ := e
  obtain ⟨hle, hroom⟩ := h
  cases c with
  | registerAccess accesses =>
    obtain ⟨hsteps, hstatus⟩ := hq
    constructor
    · rcases hadmits with hread | hread | hblock | ⟨hlen, -, hroomy⟩
      · rw [hread] at hsteps
        exact (queued_of_read rfl hsteps).trans hle
      · rw [hread] at hsteps
        exact (queued_of_read rfl hsteps).trans hle
      · refine queued_of_block (fun access hmem => ?_) hle hsteps
        rw [hblock.op_write hmem]
        rfl
      · -- one byte, and room for it
        obtain ⟨access, rfl⟩ := List.length_eq_one_iff.mp hlen
        obtain ⟨status, hst, hhas⟩ := (Option.any_eq_true _ _).mp hroomy
        have hfree := hroom status hst
        have hadded := queued_of_single hsteps
        have hpos : status.txFree.toNat ≠ 0 := by
          intro hzero
          rw [Status.hasRoom, UInt8.toNat_inj.mp (hzero.trans UInt8.toNat_zero.symm)] at hhas
          cases hhas
        omega
    · intro status hst
      replace hst : this.statusBehind accesses answer = some status := hst
      rw [statusBehind] at hst
      split_ifs at hst with hread
      rw [← Option.some.inj hst]
      exact hstatus hread.1 hread.2
  | _ =>
    refine ⟨Nat.le_trans hq hle, ?_⟩
    intro status hst
    cases hst

theorem Within.steps (h : Within capacity s queued) (hs : this.conduct.follow s l = some t)
    (hq : Steps (this.QueueStep capacity) queued l queued') : Within capacity t queued' := by
  induction hq generalizing s with
  | nil n =>
    rw [← Option.some.inj hs]
    exact h
  | cons hfirst _ ih =>
    obtain ⟨u, hu, hrest⟩ := follow_cons.mp hs
    exact ih (h.step hu hfirst) hrest

theorem queueStep_of_calls {c : Called} (h : Calls this c this') :
    this'.QueueStep = this.QueueStep := by
  cases h with
  | @returned _ call _ l _ hrun =>
    have hdriver := returns_perform l _ _ hrun
    dsimp only at hdriver
    rw [hdriver]
    split_ifs
    · rfl
    · rfl
  | stopped _ => rfl

theorem exists_follow_of_calls {c : Called} (h : Calls this c this') :
    ∃ s, this.conduct.follow {} c.trace = some s := by
  cases h with
  | @returned _ call fuel l _ hrun =>
    obtain ⟨s, hs, -⟩ := (settles_perform call fuel).follow hrun
    exact ⟨s, hs⟩
  | @stopped call fuel l _ hrun =>
    obtain ⟨s, hs, -⟩ := (settles_perform call fuel).follow hrun
    exact ⟨s, hs⟩

/-- In every history of public operations, on a device whose status does not promise room that is not
there and whose blocking register waits for room, the transmit queue never holds more than it can: at
no point of any trace, however often a transfer was given up before. -/
theorem driverCalls_queue {calls : List Called} (h : Steps Calls this calls this')
    (hq : queued ≤ capacity) (hl : l <+: calls.flatMap Called.trace)
    (hsteps : Steps (this.QueueStep capacity) queued l queued') : queued' ≤ capacity := by
  induction h generalizing queued l with
  | nil this =>
    obtain rfl := List.prefix_nil.mp hl
    rwa [steps_nil.mp hsteps]
  | @cons this this₁ this₂ c calls hcall _ ih =>
    obtain ⟨s, hs⟩ := exists_follow_of_calls hcall
    -- an operation starts with nothing known of the status
    have hstart : Within capacity {} queued := ⟨hq, fun status hst => by cases hst⟩
    rw [List.flatMap_cons] at hl
    rcases List.prefix_or_prefix_of_prefix hl (List.prefix_append c.trace _) with hin | ⟨l', rfl⟩
    · obtain ⟨rest, hrest⟩ := hin
      rw [← hrest] at hs
      obtain ⟨u, hu, -⟩ := follow_append.mp hs
      exact (hstart.steps hu hsteps).1
    · obtain ⟨n, hfirst, hrest⟩ := steps_append.mp hsteps
      rw [List.prefix_append_right_inj] at hl
      rw [← queueStep_of_calls hcall] at hrest
      exact ih (hstart.steps hs hfirst).1 hl hrest

theorem driverCalls_queue_reboot :
    Steps (inited.QueueStep 1) 0 (failingWrite ⟨.ioError, 0, []⟩) 1 ∧ 1 ≤ 1 := by
  have hrun := run_failingWrite ⟨.ioError, 0, []⟩ (by decide)
  have hcalls : Steps Calls inited [⟨.eComPortRReboot, failingWrite ⟨.ioError, 0, []⟩,
      .ok .requestFailed⟩] inited := .cons (.returned hrun) (.nil _)
  have hsteps : Steps (inited.QueueStep 1) 0 (failingWrite ⟨.ioError, 0, []⟩) 1 := by
    refine .cons (t := 0) ⟨?_, fun _ _ => by decide⟩ (.cons (t := 1) ⟨?_, ?_⟩ (.nil 1))
    · exact steps_singleton.mpr (.inl (Nat.le_refl 0))
    · exact steps_singleton.mpr (.inr ⟨rfl, 0, Nat.le_refl 0, fun _ => Nat.one_pos, Nat.le_refl 1⟩)
    · intro h
      cases h
  exact ⟨hsteps, driverCalls_queue hcalls (Nat.zero_le 1) (List.prefix_append _ []) hsteps⟩

end
end ExternalComPortDriver
end SecureDebug
