import SecureDebug.Driver.Waiting

/-! What `EComPort_Init` and `EComPort_Finalize` release behind exchanges that can fail: the reset,
and the power phase. Both are got to just on surroundings that go along with what stands in front. -/

namespace SecureDebug
open Interaction Program

namespace ExternalComPortDriver
variable {this : ExternalComPortDriver} {σ β : Type} {m : Machine Host σ} {s s₁ t : σ} {fuel : Nat}
  {l : Trace} {bail : SDMReturnCode → β} {call : Sdm SDMReturnCode} {rest : Sdm β}

theorem run_assert {r : Except Stop β} : Run (psaAdacAssert bail call rest) l r ↔
      (∃ l₁ l₂, l = l₁ ++ l₂ ∧ Run call l₁ (.ok .success) ∧ Run rest l₂ r) ∨
      (∃ code, code ≠ .success ∧ Run call l (.ok code) ∧ r = .ok (bail code)) ∨
      ∃ e, r = .error e ∧ Run call l (.error e) := by
  rw [psaAdacAssert, run_bind]
  constructor
  · intro h
    rcases h with ⟨code, l₁, l₂, rfl, hcall, hrest⟩ | hstop
    · by_cases hcode : code = .success
      · rw [if_pos hcode] at hrest
        rw [hcode] at hcall
        exact .inl ⟨l₁, l₂, rfl, hcall, hrest⟩
      · rw [if_neg hcode] at hrest
        obtain ⟨rfl, hr⟩ := run_pure.mp hrest
        rw [List.append_nil]
        exact .inr (.inl ⟨code, hcode, hcall, hr⟩)
    · exact .inr (.inr hstop)
  · intro h
    rcases h with ⟨l₁, l₂, hl, hcall, hrest⟩ | ⟨code, hcode, hcall, rfl⟩ | hstop
    · exact .inl ⟨_, l₁, l₂, hl, hcall, by rwa [if_pos rfl]⟩
    · refine .inl ⟨code, l, [], (List.append_nil l).symm, hcall, ?_⟩
      rw [if_neg hcode]
      exact .ret _
    · exact .inr hstop

theorem exec_assert_cases {b : β} (h : m.exec (psaAdacAssert bail call rest) s = (.ok b, l, t)) :
    (∃ code, code ≠ .success ∧ m.exec call s = (.ok code, l, t) ∧ b = bail code) ∨
      ∃ l₁ l₂ s', l = l₁ ++ l₂ ∧ m.exec call s = (.ok .success, l₁, s') ∧
        m.exec rest s' = (.ok b, l₂, t) := by
  obtain ⟨hrun, hplays⟩ := Machine.exec_eq_iff.mp h
  rcases run_assert.mp hrun with ⟨l₁, l₂, rfl, hcall, hrest⟩ | ⟨code, hcode, hcall, hb⟩ | ⟨e, he, -⟩
  · obtain ⟨s', hfirst, hsecond⟩ := Machine.plays_append.mp hplays
    exact .inr ⟨l₁, l₂, s', rfl, Machine.exec_eq_iff.mpr ⟨hcall, hfirst⟩,
      Machine.exec_eq_iff.mpr ⟨hrest, hsecond⟩⟩
  · exact .inl ⟨code, hcode, Machine.exec_eq_iff.mpr ⟨hcall, hplays⟩, Except.ok.inj hb⟩
  · cases he

/-! ### The reset -/

/-- What `EComPort_Init` does between the start and the end of the reset. -/
def linkUp (this : ExternalComPortDriver) (fuel : Nat) : Sdm SDMReturnCode :=
  psaAdacAssert id (this.eComPortPower fuel .powerOn) <|
  psaAdacAssert id (this.eComSendFlag flagLPH2RA) <|
  return .success

theorem staged_linkUp (hcb : this.mRegisterAccessCallback = true) :
    this.Staged this.linkUp (powerOn ++ [.send flagLPH2RA]) :=
  staged_assert (paced_eComPortPower hcb .powerOn).toStaged
    (staged_assert (staged_send hcb _) staged_return)

theorem performs_linkUp : this.Performs (fun _ => False) (this.linkUp fuel) (· = .success)
    (powerOn ++ [.send flagLPH2RA]) :=
  have hid (code : SDMReturnCode) (h : code ≠ .success) : ¬id code = .success := h
  performs_assert hid (performs_power fuel) <| performs_assert hid (performs_send _) performs_return

theorem resetEnd_notMem_linkUp {r : Except Stop SDMReturnCode} (h : Run (this.linkUp fuel) l r)
    (code : SDMReturnCode) : .resetEnd code ∉ this.traffic l := by
  intro hmem
  obtain ⟨c, hf, -⟩ := performs_linkUp l r h
  have hfront := hf.filterMap_prefix action_of_done action_of_cut
  have haction : Action.resetEnd ∈ (this.traffic l).filterMap action :=
    List.mem_filterMap.mpr ⟨_, hmem, rfl⟩
  exact absurd (hfront.subset haction) (by decide)

theorem run_call_of_assert {b : β} (h : Run (psaAdacAssert bail call rest) l (.ok b)) :
    ∃ l₁ code, Run call l₁ (.ok code) := by
  rcases run_assert.mp h with ⟨l₁, -, -, hcall, -⟩ | ⟨code, -, hcall, -⟩ | ⟨e, he, -⟩
  · exact ⟨l₁, _, hcall⟩
  · exact ⟨l, code, hcall⟩
  · cases he

theorem callback_of_linkUp {code : SDMReturnCode} (h : Run (this.linkUp fuel) l (.ok code)) :
    this.mRegisterAccessCallback = true := by
  obtain ⟨l₁, _, hpower⟩ := run_call_of_assert h
  obtain ⟨l₂, _, hsend⟩ := run_call_of_assert hpower
  cases hcb : this.mRegisterAccessCallback with
  | true => rfl
  | false =>
    rw [eComSendFlag, eComSendByte_eq] at hsend
    cases (run_polledAccess_of_null hcb hsend).2

section
variable {idResponseBuffer : List UInt8} {idBufferLength : Nat}

/-- What `EComPort_Init` does behind the reset. -/
def identify (this : ExternalComPortDriver) (fuel : Nat) (idResponseBuffer : List UInt8)
    (idBufferLength : Nat) : Sdm InitResult :=
  let bail (res : SDMReturnCode) : InitResult := ⟨res, idResponseBuffer, this⟩
  psaAdacAssert bail (this.eComWaitFlag fuel flagLPH2RA) <|
  psaAdacAssert bail (this.eComSendFlag flagIDR) do
    let rx ← this.eComPortRxInt fuel flagIDA idResponseBuffer idBufferLength 0
    if rx.res ≠ .success then return ⟨rx.res, rx.rxBuffer, this⟩
    if rx.actualLength = 0 then return ⟨.transferError, rx.rxBuffer, this⟩
    return ⟨.success, rx.rxBuffer, { this with mIsComPortInited := true }⟩

theorem eComPortInit_system
    (hset : this.mResetStartCallback = true ∧ this.mResetEndCallback = true) :
    this.eComPortInit fuel .system idResponseBuffer idBufferLength =
      psaAdacAssert (⟨·, idResponseBuffer, this⟩) (callHost .resetStart)
        (psaAdacAssert (⟨·, idResponseBuffer, this⟩) (this.linkUp fuel)
          (psaAdacAssert (⟨·, idResponseBuffer, this⟩) (callHost .resetEnd)
            (this.identify fuel idResponseBuffer idBufferLength))) := by
  rw [linkUp, assert_assert, assert_assert, assert_success, ← initResetStart_calls hset]
  rfl

/-- Once the reset is started it is ended just if the device goes along up to the link request. -/
theorem resetEnd_iff_offered {rest : Sdm InitResult} {bail : SDMReturnCode → InitResult}
    {out : InitResult} (h : m.exec (psaAdacAssert bail (this.linkUp fuel)
      (psaAdacAssert bail (callHost .resetEnd) rest)) s = (.ok out, l, t)) :
    (∃ code, .resetEnd code ∈ this.traffic l) ↔
      ∃ s₂, Steps (this.Offers m) s (powerOn ++ [.send flagLPH2RA]) s₂ := by
  rcases exec_assert_cases h with ⟨code, hcode, hlink, -⟩ | ⟨l₁, l₂, s₂, rfl, hlink, hend⟩
  · have hrun := (Machine.exec_eq_iff.mp hlink).1
    have hstaged := staged_linkUp (callback_of_linkUp hrun)
    refine iff_of_false (fun hended => ?_) fun hoffered => ?_
    · obtain ⟨code', hmem⟩ := hended
      exact resetEnd_notMem_linkUp hrun code' hmem
    · obtain ⟨s₂, hsteps⟩ := hoffered
      obtain ⟨n, hn⟩ := (hstaged.leads m s s₂).mpr hsteps
      exact hcode (hstaged.fueled.leads_unique ⟨_, hlink⟩ hn).1
  · have hstaged := staged_linkUp (callback_of_linkUp (Machine.exec_eq_iff.mp hlink).1)
    refine iff_of_true ?_ ⟨s₂, (hstaged.leads m s s₂).mp ⟨fuel, l₁, hlink⟩⟩
    obtain ⟨code, l₃, rfl⟩ : ∃ code l₃, l₂ = [⟨.resetEnd, code⟩] ++ l₃ := by
      rcases exec_assert_cases hend with ⟨code, -, hcall, -⟩ | ⟨_, l₃, _, rfl, hcall, -⟩
      · exact ⟨code, [], (exec_callHost.mp hcall).2⟩
      · exact ⟨_, l₃, by rw [(exec_callHost.mp hcall).2]⟩
    refine ⟨code, ?_⟩
    rw [traffic_append, traffic_append]
    exact List.mem_append_right _ (List.mem_append_left _ (List.mem_singleton_self _))

theorem offers_resetStart (hset : this.mResetStartCallback = true ∧ this.mResetEndCallback = true) :
    this.Offers m s .resetStart t ↔ m.answer .resetStart s = (.success, t) := by
  constructor
  · intro h
    cases h with
    | resetStart _ _ hanswer => exact hanswer
  · exact .resetStart hset.1 hset.2

/-- The reset is ended just on the devices that, once it was started, take every flag of the power
handshake and of the link request and give both acknowledges: at any failure of these
`EComPort_Init` leaves with the reset still on. -/
theorem eComPortInit_resetEnd {out : InitResult}
    (h : m.exec (this.eComPortInit fuel .system idResponseBuffer idBufferLength) s = (.ok out, l, t)) :
    (.resetStart .success ∈ this.traffic l → ∃ code, .resetEnd code ∈ this.traffic l) ↔
      ∀ s₁, this.Offers m s .resetStart s₁ →
        ∃ s₂, Steps (this.Offers m) s₁ (powerOn ++ [.send flagLPH2RA]) s₂ := by
  have htraffic (code : SDMReturnCode) (l : Trace) :
      this.traffic ([⟨.resetStart, code⟩] ++ l) = .resetStart code :: this.traffic l := by
    rw [traffic_append]
    rfl
  by_cases hset : this.mResetStartCallback = true ∧ this.mResetEndCallback = true
  · simp only [offers_resetStart hset]
    rw [eComPortInit_system hset] at h
    rcases exec_assert_cases h with ⟨code, hcode, hstart, -⟩ | ⟨l₁, l₂, s₀, rfl, hstart, hrest⟩
    · -- the reset was not started
      obtain ⟨hanswer, rfl⟩ := exec_callHost.mp hstart
      have hnone : .resetStart .success ∉ this.traffic [⟨.resetStart, code⟩] := by
        rw [← List.append_nil [_], htraffic, traffic_nil, List.mem_singleton]
        exact fun heq => hcode (Observation.resetStart.inj heq).symm
      refine iff_of_true (fun hmem => absurd hmem hnone) fun s₁ hanswer' => ?_
      rw [hanswer] at hanswer'
      exact absurd (Prod.mk.inj hanswer').1 hcode
    · obtain ⟨hanswer, rfl⟩ := exec_callHost.mp hstart
      simp only [hanswer, htraffic, Prod.mk.injEq, true_and, forall_eq', List.mem_cons, true_or,
        true_imp_iff, reduceCtorEq, false_or]
      exact resetEnd_iff_offered hrest
  · have hinit : this.eComPortInit fuel .system idResponseBuffer idBufferLength =
        pure ⟨.internalError, idResponseBuffer, this⟩ := initResetStart_missing hset
    rw [hinit] at h
    obtain ⟨rfl, -⟩ := run_pure.mp (Machine.exec_eq_iff.mp h).1
    exact iff_of_true (fun hmem => absurd hmem List.not_mem_nil) fun s₁ hoffer =>
      absurd hoffer (not_offers_resetStart hset)

def linkOut : Except Stop InitResult × Trace × List AccessResult :=
  scripted.exec (fresh.eComPortInit 1 .system [0, 0] 2) (powerScript ++ taking ++ [⟨.ioError, 0, []⟩])

theorem eComPortInit_resetEnd_linked :
    .resetStart .success ∈ fresh.traffic linkOut.2.1 ∧
      .resetEnd .success ∈ fresh.traffic linkOut.2.1 ∧
      ∀ s₁, fresh.Offers scripted (powerScript ++ taking ++ [⟨.ioError, 0, []⟩]) .resetStart s₁ →
        ∃ s₂, Steps (fresh.Offers scripted) s₁ (powerOn ++ [.send flagLPH2RA]) s₂ := by
  have hout : linkOut.1 = .ok ⟨.ioError, [0, 0], fresh⟩ := by decide +kernel
  have hended : .resetEnd .success ∈ fresh.traffic linkOut.2.1 := by decide +kernel
  have hexec : linkOut = (.ok ⟨.ioError, [0, 0], fresh⟩, linkOut.2.1, linkOut.2.2) := by rw [← hout]
  exact ⟨by decide +kernel, hended, (eComPortInit_resetEnd hexec).mp fun _ => ⟨_, hended⟩⟩

theorem eComPortInit_resetEnd_missing :
    ¬∀ (this : ExternalComPortDriver) (fuel : Nat) (idResponseBuffer : List UInt8)
      (idBufferLength : Nat) (l : Trace) (out : InitResult),
      Run (this.eComPortInit fuel .system idResponseBuffer idBufferLength) l (.ok out) →
      .resetStart .success ∈ this.traffic l → ∃ code, .resetEnd code ∈ this.traffic l := by
  intro h
  have hrun := Machine.exec_run scripted (fresh.eComPortInit 1 .system [0, 0] 2) [⟨.ioError, 0, []⟩]
  have hres : (scripted.exec (fresh.eComPortInit 1 .system [0, 0] 2) [⟨.ioError, 0, []⟩]).1 =
      .ok ⟨.ioError, [0, 0], fresh⟩ := by decide +kernel
  have htraffic : fresh.traffic (scripted.exec (fresh.eComPortInit 1 .system [0, 0] 2)
      [⟨.ioError, 0, []⟩]).2.1 = [.resetStart .success] := by decide +kernel
  rw [hres] at hrun
  have hmem := h fresh 1 [0, 0] 2 _ _ hrun
  rw [htraffic] at hmem
  obtain ⟨code, hcode⟩ := hmem (List.mem_singleton_self _)
  cases List.mem_singleton.mp hcode

end

/-! ### The power phase -/

end ExternalComPortDriver
end SecureDebug
