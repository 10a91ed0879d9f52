import SecureDebug.Driver.Gate
import SecureDebug.Interaction.Heeding

/-! What becomes of the code with which the debugger fails an access: every operation stops there,
and returns the code unless a write was also counted short. -/

namespace SecureDebug
open Interaction Program

namespace ExternalComPortDriver
variable {this : ExternalComPortDriver} {β : Type} {code : β → SDMReturnCode}

/-- What the driver makes of a failed access: `EComTxRaw` looks at the count before the code. -/
def verdict : Event Host → Option SDMReturnCode
  | ⟨.registerAccess accesses, (a : AccessResult)⟩ =>
    if a.result = .success then none
    else if accesses.any (·.op = .write) ∧ a.accessesCompleted ≠ accesses.length then
      some .requestFailed
    else some a.result
  | _ => none

theorem verdict_ne_success (e : Event Host) : verdict e ≠ some .success := by
  obtain ⟨c, ans⟩ := e
  cases c with
  | registerAccess accesses =>
    rw [verdict]
    split_ifs with hres hshort
    · exact fun h => by cases h
    · exact fun h => by cases h
    · exact fun h => hres (Option.some.inj h)
  | _ => exact fun h => by cases h

theorem verdict_read {access : SDMRegisterAccess} (hop : access.op = .read) (a : AccessResult) :
    verdict ⟨.registerAccess [access], a⟩ = if a.result = .success then none else some a.result := by
  have hread : ¬([access].any (·.op = .write) = true ∧ a.accessesCompleted ≠ [access].length) := by
    rw [List.any_cons, hop]
    simp
  rw [verdict, if_neg hread]

variable (this) in
theorem verdict_write (block : Bool) {bytes : List UInt8} (hne : bytes ≠ []) (a : AccessResult) :
    verdict (this.writeEvent block bytes a) =
      if a.result = .success then none else some (writeResult bytes.length a) := by
  have hwrite : ((bytes.map (this.writeAccess block)).any (·.op = .write)) = true := by
    obtain ⟨byte, bytes, rfl⟩ := List.exists_cons_of_ne_nil hne
    rfl
  rw [writeEvent, verdict, writeResult]
  by_cases hres : a.result = .success
  · rw [if_pos hres, if_pos hres]
  · rw [if_neg hres, if_neg hres]
    by_cases hshort : a.accessesCompleted = bytes.length
    · rw [if_neg fun h => h.2 (by rw [hshort, List.length_map]), if_neg (not_not.mpr hshort)]
    · rw [if_pos ⟨hwrite, by rwa [List.length_map]⟩, if_pos hshort]

theorem heeds_access_bind {accesses : List SDMRegisterAccess} {f : AccessResult → Sdm β}
    (hfail : ∀ (a : AccessResult) v, verdict ⟨.registerAccess accesses, a⟩ = some v →
      ∃ b, f a = pure b ∧ code b = v)
    (hnext : ∀ a, Heeds verdict code (f a)) :
    Heeds verdict code (this.registerAccess accesses >>= f) := by
  rw [registerAccess]
  split_ifs with hcb
  · exact heeds_call hfail hnext
  · exact heeds_halt _

/-! ### Raw accesses and polls -/

theorem heeds_eComTxRaw (block : Bool) (bytes : List UInt8) :
    Heeds verdict id (this.eComTxRaw block bytes) := by
  by_cases hne : bytes = []
  · rw [hne]
    exact heeds_pure _
  · rw [this.eComTxRaw_eq block hne]
    refine heeds_access_bind (fun a v hv => ⟨_, rfl, ?_⟩) fun a => heeds_pure _
    have hwrite := this.verdict_write block hne a
    rw [writeEvent, hv] at hwrite
    split_ifs at hwrite
    exact (Option.some.inj hwrite).symm

def pollCode : Except SDMReturnCode Nat → SDMReturnCode
  | .error code => code
  | .ok _ => .success

theorem pollResult_verdict (level : Status → UInt8) {a : AccessResult} {v : SDMReturnCode}
    (hv : verdict (this.statusEvent a) = some v) : pollResult level a = .error v := by
  have hop : this.statusAccess.op = .read := rfl
  rw [statusEvent, verdict_read hop a] at hv
  split_ifs at hv with hres
  have hstatus : statusResult a = (a.result, {}) := if_pos hres
  rw [pollResult, hstatus]
  dsimp only
  rw [if_pos hres, Option.some.inj hv]

theorem heeds_pollLoop (level : Status → UInt8) (left : Nat) :
    Heeds verdict pollCode (this.pollLoop level left) := by
  induction left with
  | zero =>
    rw [pollLoop_eq]
    refine heeds_access_bind (fun a v hv => ?_) fun a => ?_
    · rw [pollResult_verdict level hv]
      exact ⟨_, rfl, rfl⟩
    · rcases pollResult level a with code | _ | _
      · exact heeds_pure _
      · exact heeds_pure _
      · exact heeds_pure _
  | succ left ih =>
    rw [pollLoop_eq]
    refine heeds_access_bind (fun a v hv => ?_) fun a => ?_
    · rw [pollResult_verdict level hv]
      exact ⟨_, rfl, rfl⟩
    · rcases pollResult level a with code | _ | _
      · exact heeds_pure _
      · exact ih
      · exact heeds_pure _

theorem heeds_polledAccess {level : Status → UInt8} {fail : SDMReturnCode → β}
    {accesses : List SDMRegisterAccess} {finish : AccessResult → β} (hfail : ∀ c, code (fail c) = c)
    (hfinish : ∀ (a : AccessResult) v, verdict ⟨.registerAccess accesses, a⟩ = some v →
      code (finish a) = v) :
    Heeds verdict code (this.polledAccess level fail accesses finish) := by
  rw [polledAccess]
  refine (heeds_pollLoop level maxRetries).bind verdict_ne_success (fun x hx => ?_) fun x _ => ?_
  · cases x with
    | error c => exact ⟨_, rfl, hfail c⟩
    | ok n => exact absurd rfl hx
  · cases x with
    | error c => exact heeds_pure _
    | ok n =>
      refine heeds_ite (fun _ => heeds_pure _) fun _ => ?_
      exact heeds_access_bind (fun a v hv => ⟨_, rfl, hfinish a v hv⟩) fun a => heeds_pure _

theorem heeds_eComSendByte (byte : UInt8) : Heeds verdict id (this.eComSendByte byte) := by
  rw [eComSendByte_eq]
  refine heeds_polledAccess (fun _ => rfl) fun a v hv => ?_
  have hwrite := this.verdict_write false (List.cons_ne_nil byte []) a
  rw [writeEvent, List.map_singleton, hv] at hwrite
  split_ifs at hwrite
  exact (Option.some.inj hwrite).symm

theorem heeds_eComReadByte (byte : UInt8) : Heeds verdict Prod.fst (this.eComReadByte byte) := by
  rw [eComReadByte_eq]
  refine heeds_polledAccess (fun _ => rfl) fun a v hv => ?_
  rw [verdict_read rfl] at hv
  split_ifs at hv with hres
  have hread : readResult a = (a.result, [0]) := if_pos hres
  rw [readByteResult, hread, if_neg hres]
  exact Option.some.inj hv

/-! ### Bytes, flags and stages -/

theorem heeds_eComSendBytes (bytes : List UInt8) :
    Heeds verdict id (this.eComSendBytes bytes) := by
  induction bytes with
  | nil => exact heeds_pure _
  | cons byte bytes ih =>
    rw [eComSendBytes]
    refine (heeds_eComSendByte byte).bind verdict_ne_success (fun c hc => ⟨c, if_pos hc, rfl⟩)
      fun c (hc : c = .success) => ?_
    rw [if_neg (not_not.mpr hc)]
    exact ih

theorem heeds_eComSendBlock (bytes : List UInt8) (block : Bool) :
    Heeds verdict id (this.eComSendBlock bytes block) := by
  cases block with
  | false => exact heeds_eComSendBytes bytes
  | true =>
    rw [eComSendBlock_true]
    exact heeds_eComTxRaw true bytes

theorem heeds_waitLoop (flag : UInt8) (fuel : Nat) (byte : UInt8) :
    Heeds verdict id (this.waitLoop flag fuel byte) := by
  induction fuel generalizing byte with
  | zero => exact heeds_halt _
  | succ fuel ih =>
    rw [waitLoop]
    refine (heeds_eComReadByte byte).bind verdict_ne_success
      (fun read hc => ⟨read.1, if_pos hc, rfl⟩) fun read hc => ?_
    refine heeds_ite (fun hne => absurd hc hne) fun _ => ?_
    exact heeds_ite (fun _ => ih read.2) fun _ => heeds_pure _

theorem heeds_assert {bail : SDMReturnCode → β} {call : Sdm SDMReturnCode} {rest : Sdm β}
    (hbail : ∀ c, code (bail c) = c) (hcall : Heeds verdict id call)
    (hrest : Heeds verdict code rest) : Heeds verdict code (psaAdacAssert bail call rest) := by
  rw [psaAdacAssert]
  refine hcall.bind verdict_ne_success (fun c hc => ⟨bail c, if_neg hc, hbail c⟩)
    fun c (hc : c = .success) => ?_
  rw [if_pos hc]
  exact hrest

theorem heeds_callHost (c : HostCall) (code : c.Answer → SDMReturnCode)
    (hother : ∀ ans, verdict ⟨c, ans⟩ = none) : Heeds verdict code (callHost c) := by
  refine heeds_call (fun ans v hv => ?_) fun ans => heeds_pure _
  rw [hother] at hv
  cases hv

theorem heeds_eComPortPower (fuel : Nat) (requiredState : ECPDRequiredState) :
    Heeds verdict id (this.eComPortPower fuel requiredState) := by
  have hbail (c : SDMReturnCode) : id (id c) = c := rfl
  cases requiredState with
  | powerOff =>
    exact heeds_assert hbail (heeds_eComSendByte _) <|
      heeds_assert hbail (heeds_waitLoop _ fuel _) (heeds_pure _)
  | powerOn =>
    exact heeds_assert hbail (heeds_eComSendByte _) <|
      heeds_assert hbail (heeds_waitLoop _ fuel _) <|
      heeds_assert hbail (heeds_eComSendByte _) <|
      heeds_assert hbail (heeds_waitLoop _ fuel _) (heeds_pure _)

theorem heeds_eComPortRReboot : Heeds verdict id this.eComPortRReboot :=
  heeds_assert (fun _ => rfl) (heeds_eComSendByte _) (heeds_pure _)

theorem heeds_initResetStart {bail : SDMReturnCode → β} (remoteReset : ECPDRemoteResetType)
    {rest : Sdm β} (hbail : ∀ c, code (bail c) = c) (hrest : Heeds verdict code rest) :
    Heeds verdict code (this.initResetStart bail remoteReset rest) := by
  refine heeds_ite (fun _ => ?_) fun _ => hrest
  refine heeds_ite (fun _ => ?_) fun _ => heeds_pure _
  refine heeds_ite (fun _ => ?_) fun _ => heeds_pure _
  exact heeds_assert hbail (heeds_callHost .resetStart id fun _ => rfl) hrest

theorem heeds_initResetEnd {bail : SDMReturnCode → β} (remoteReset : ECPDRemoteResetType)
    {rest : Sdm β} (hbail : ∀ c, code (bail c) = c) (hrest : Heeds verdict code rest) :
    Heeds verdict code (this.initResetEnd bail remoteReset rest) := by
  cases remoteReset with
  | none => exact hrest
  | com => exact heeds_assert hbail heeds_eComPortRReboot hrest
  | system => exact heeds_assert hbail (heeds_callHost .resetEnd id fun _ => rfl) hrest

theorem heeds_rxLoop (startFlag : UInt8) (rxBufferLength fuel : Nat) (s : RxState) :
    Heeds verdict RxResult.res (this.rxLoop startFlag rxBufferLength fuel s) := by
  induction fuel generalizing s with
  | zero => exact heeds_halt _
  | succ fuel ih =>
    rw [rxLoop_eq]
    refine heeds_access_bind (fun a v hv => ?_) fun a => heeds_ite (fun _ => heeds_pure _) fun _ => ?_
    · rw [verdict_read rfl] at hv
      split_ifs at hv with hres
      have hread : readResult a = (a.result, [0]) := if_pos hres
      rw [hread, if_pos hres]
      exact ⟨_, rfl, Option.some.inj hv⟩
    · cases rxStep startFlag rxBufferLength s (dataByte a) with
      | error e => exact heeds_halt e
      | ok step =>
        cases step with
        | done out => exact heeds_pure out
        | more s' => exact ih s'

/-! ### Operations -/

theorem heeds_eComPortInit (fuel : Nat) (remoteReset : ECPDRemoteResetType)
    (idResponseBuffer : List UInt8) (idBufferLength : Nat) : Heeds verdict InitResult.res
      (this.eComPortInit fuel remoteReset idResponseBuffer idBufferLength) := by
  have hbail (c : SDMReturnCode) : (InitResult.mk c idResponseBuffer this).res = c := rfl
  refine heeds_initResetStart remoteReset hbail <|
    heeds_assert hbail (heeds_eComPortPower fuel .powerOn) <|
    heeds_assert hbail (heeds_eComSendByte _) <|
    heeds_initResetEnd remoteReset hbail <|
    heeds_assert hbail (heeds_waitLoop _ fuel _) <|
    heeds_assert hbail (heeds_eComSendByte _) ?_
  refine (heeds_rxLoop flagIDA idBufferLength fuel _).bind verdict_ne_success
    (fun rx hres => ⟨_, if_pos hres, rfl⟩) fun rx hres => ?_
  rw [if_neg (not_not.mpr hres)]
  exact heeds_ite (fun _ => heeds_pure _) fun _ => heeds_pure _

theorem heeds_eComPortTx (txBuffer : List UInt8) (actualLength : Nat) (block : Bool) :
    Heeds verdict Prod.fst (this.eComPortTx txBuffer actualLength block) := by
  refine heeds_ite (fun _ => heeds_pure _) fun _ => ?_
  -- preparing the frame makes no access
  have hprepare : Heeds verdict (fun _ => SDMReturnCode.success)
      (lift (preparedFrame txBuffer) : Sdm PrepareResult) := heeds_lift _
  refine hprepare.bind verdict_ne_success (fun _ hne => absurd rfl hne) fun frame _ => ?_
  refine heeds_ite (fun _ => heeds_pure _) fun _ => ?_
  exact (heeds_eComSendBlock _ block).map verdict_ne_success fun _ => rfl

theorem heeds_eComPortRx (fuel : Nat) (rxBuffer : List UInt8) (rxBufferLength actualLength : Nat) :
    Heeds verdict RxResult.res (this.eComPortRx fuel rxBuffer rxBufferLength actualLength) :=
  heeds_ite (fun _ => heeds_pure _) fun _ => heeds_rxLoop flagSTART rxBufferLength fuel _

theorem heeds_eComPortFinalize (fuel : Nat) : Heeds verdict id (this.eComPortFinalize fuel) :=
  heeds_assert (fun _ => rfl) (heeds_eComSendByte _) <|
    heeds_assert (fun _ => rfl) (heeds_waitLoop _ fuel _) <|
    heeds_assert (fun _ => rfl) (heeds_eComPortPower fuel .powerOff) (heeds_pure _)

theorem heeds_perform (c : DriverCall) (fuel : Nat) :
    Heeds verdict Prod.fst (c.perform this fuel) := by
  have hgood := verdict_ne_success
  cases c with
  | eComPortInit remoteReset idResponseBuffer idBufferLength =>
    exact (heeds_eComPortInit fuel remoteReset idResponseBuffer idBufferLength).map hgood fun _ => rfl
  | eComPortFinalize => exact (heeds_eComPortFinalize fuel).map hgood fun _ => rfl
  | eComPortPower requiredState =>
    exact (heeds_eComPortPower fuel requiredState).map hgood fun _ => rfl
  | eComPortRReboot => exact heeds_eComPortRReboot.map hgood fun _ => rfl
  | eComPortTx txBuffer actualLength block =>
    exact (heeds_eComPortTx txBuffer actualLength block).map hgood fun _ => rfl
  | eComPortRx rxBuffer rxBufferLength actualLength =>
    exact (heeds_eComPortRx fuel rxBuffer rxBufferLength actualLength).map hgood fun _ => rfl

/-- Every code with which an access fails ends the operation and is what it returns, just if each
failed batch of writes was counted in full or failed with the code that a short count gets. -/
theorem perform_code_iff {c : DriverCall} {fuel : Nat} {l : Trace}
    {r : Except Stop (SDMReturnCode × ExternalComPortDriver)} (h : Run (c.perform this fuel) l r) :
    (∀ l₁ accesses (a : AccessResult) l₂, l = l₁ ++ ⟨.registerAccess accesses, a⟩ :: l₂ →
        a.result ≠ .success → l₂ = [] ∧ r.map Prod.fst = .ok a.result) ↔
      ∀ accesses (a : AccessResult), (⟨.registerAccess accesses, a⟩ : Event Host) ∈ l →
        a.result ≠ .success → accesses.any (·.op = .write) →
        a.accessesCompleted = accesses.length ∨ a.result = .requestFailed := by
  constructor
  · intro hsurvives accesses a hmem hres hwrite
    obtain ⟨l₁, l₂, rfl⟩ := List.append_of_mem hmem
    obtain ⟨-, hcode⟩ := hsurvives l₁ accesses a l₂ rfl hres
    by_contra hnot
    obtain ⟨hshort, hother⟩ := not_or.mp hnot
    have hmasked : verdict ⟨.registerAccess accesses, a⟩ = some .requestFailed := by
      rw [verdict, if_neg hres, if_pos ⟨hwrite, hshort⟩]
    obtain ⟨-, hcode'⟩ := heeds_perform c fuel l₁ _ l₂ r _ h hmasked
    rw [hcode] at hcode'
    exact hother (Except.ok.inj hcode')
  · intro hcounted l₁ accesses a l₂ hl hres
    rw [hl] at h hcounted
    apply heeds_perform c fuel l₁ _ l₂ r _ h
    rw [verdict, if_neg hres]
    split_ifs with hshort
    · have hcode := hcounted accesses a (by simp) hres hshort.1
      rw [hcode.resolve_left hshort.2]
    · rfl

def failingWrite (a : AccessResult) : Trace :=
  [inited.statusEvent ⟨.success, 1, [1]⟩, inited.writeEvent false [flagLPH2RR] a]

theorem run_failingWrite (a : AccessResult) (hres : a.result ≠ .success) :
    Run (DriverCall.eComPortRReboot.perform inited 0) (failingWrite a)
      (.ok (writeResult 1 a, inited)) := by
  have hready : pollResult Status.txFree ⟨.success, 1, [1]⟩ = .ok true := by decide +kernel
  have hpoll : Run (inited.pollLoop Status.txFree maxRetries) [inited.statusEvent ⟨.success, 1, [1]⟩]
      (.ok (.ok 0)) := by
    rw [pollLoop_eq, run_access_bind rfl]
    refine ⟨_, [], rfl, ?_⟩
    rw [hready]
    exact .ret _
  have hsend : Run (inited.eComSendFlag flagLPH2RR) (failingWrite a) (.ok (writeResult 1 a)) := by
    rw [eComSendFlag, eComSendByte_eq]
    refine hpoll.bind_ok ?_
    dsimp only
    rw [if_neg (by decide), run_access_bind rfl]
    exact ⟨a, [], rfl, .ret _⟩
  have hne : writeResult 1 a ≠ .success := fun h => hres (writeResult_eq_success.mp h).1
  have hreboot : Run inited.eComPortRReboot (failingWrite a ++ []) (.ok (writeResult 1 a)) := by
    refine hsend.bind_ok ?_
    rw [if_neg hne]
    exact .ret _
  exact hreboot.bind_ok (.ret _)

theorem perform_code_iff_counted :
    (∀ accesses (a : AccessResult),
        (⟨.registerAccess accesses, a⟩ : Event Host) ∈ failingWrite ⟨.ioError, 1, []⟩ →
        a.result ≠ .success → accesses.any (·.op = .write) →
        a.accessesCompleted = accesses.length ∨ a.result = .requestFailed) ∧
    ∀ l₁ accesses (a : AccessResult) l₂,
        failingWrite ⟨.ioError, 1, []⟩ = l₁ ++ ⟨.registerAccess accesses, a⟩ :: l₂ →
        a.result ≠ .success → l₂ = [] ∧ (Except.ok (SDMReturnCode.ioError, inited) :
          Except Stop _).map Prod.fst = .ok a.result := by
  have hcounted (accesses : List SDMRegisterAccess) (a : AccessResult)
      (hmem : (⟨.registerAccess accesses, a⟩ : Event Host) ∈ failingWrite ⟨.ioError, 1, []⟩)
      (hres : a.result ≠ .success) (_ : accesses.any (·.op = .write)) :
      a.accessesCompleted = accesses.length ∨ a.result = .requestFailed := by
    rcases List.mem_cons.mp hmem with heq | hmem
    · cases heq
      exact absurd rfl hres
    · cases List.mem_singleton.mp hmem
      exact .inl rfl
  exact ⟨hcounted, (perform_code_iff (run_failingWrite ⟨.ioError, 1, []⟩ (by decide))).mpr hcounted⟩

/-- A write that fails before it is performed is reported as a failed request. -/
theorem perform_code_iff_masked :
    ¬∀ (this : ExternalComPortDriver) (c : DriverCall) (fuel : Nat) (l : Trace)
      (r : Except Stop (SDMReturnCode × ExternalComPortDriver)), Run (c.perform this fuel) l r →
      ∀ l₁ accesses (a : AccessResult) l₂, l = l₁ ++ ⟨.registerAccess accesses, a⟩ :: l₂ →
        a.result ≠ .success → l₂ = [] ∧ r.map Prod.fst = .ok a.result := by
  intro h
  have hrun := run_failingWrite ⟨.ioError, 0, []⟩ (by decide)
  obtain ⟨-, hcode⟩ := h _ _ _ _ _ hrun [_] _ ⟨.ioError, 0, []⟩ [] rfl (by decide)
  cases hcode

end ExternalComPortDriver
end SecureDebug
