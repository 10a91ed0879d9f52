import SecureDebug.Interaction.Carrying
import SecureDebug.Driver.Stream

/-! `EComPort_Init` goes through its flags, acknowledges and reset callbacks in a fixed order
and stops at the first that fails. -/

namespace SecureDebug
open Interaction Program Framing
open scoped List

/-- What `EComPort_Init` does, one stage for each exchange. -/
inductive Stage where
  | send (flag : UInt8)
  | await (flag : UInt8)
  | resetStart
  | resetEnd
  | identify
  deriving DecidableEq, Repr

/-- How a stage shows. An acknowledge is the first byte of its value that is read; `accepted`
says which bytes are an identification response. -/
def stages (accepted : List UInt8 → Prop) : Plan Stage Observation where
  Done
    | .send flag, t => t = [.wrote flag true]
    | .await flag, t => ∃ bytes : List UInt8, flag ∉ bytes ∧ t = (bytes ++ [flag]).map .read
    | .resetStart, t => t = [.resetStart .success]
    | .resetEnd, t => t = [.resetEnd .success]
    | .identify, t => ∃ bytes, accepted bytes ∧ t = bytes.map .read
  Cut
    | .send flag, t => t = [] ∨ t = [.offered flag] ∨ t = [.wrote flag false]
    | .await flag, t => ∃ bytes : List UInt8, flag ∉ bytes ∧ t = bytes.map .read
    | .resetStart, t => t = [] ∨ ∃ code, code ≠ .success ∧ t = [.resetStart code]
    | .resetEnd, t => ∃ code, code ≠ .success ∧ t = [.resetEnd code]
    | .identify, t => ∃ bytes, ¬accepted bytes ∧ t = bytes.map .read

def powerOn : List Stage :=
  [.send flagLPH1RL, .await flagLPH1RL, .send flagLPH1RA, .await flagLPH1RA]

def ECPDRemoteResetType.start : ECPDRemoteResetType → List Stage
  | .system => [.resetStart]
  | _ => []

def ECPDRemoteResetType.step : ECPDRemoteResetType → List Stage
  | .none => []
  | .system => [.resetEnd]
  | .com => [.send flagLPH2RR]

def link (remoteReset : ECPDRemoteResetType) : List Stage :=
  remoteReset.start ++ powerOn ++ [.send flagLPH2RA]

def handshake (remoteReset : ECPDRemoteResetType) : List Stage :=
  link remoteReset ++ (remoteReset.step ++ [.await flagLPH2RA, .send flagIDR, .identify])

/-! ### Order -/

section
variable {accepted : List UInt8 → Prop}

inductive Action where
  | flag (byte : UInt8)
  | resetStart
  | resetEnd
  deriving DecidableEq, Repr

def action : Observation → Option Action
  | .wrote byte _ => some (.flag byte)
  | .offered byte => some (.flag byte)
  | .resetStart _ => some .resetStart
  | .resetEnd _ => some .resetEnd
  | _ => none

def Stage.action : Stage → Option Action
  | .send flag => some (.flag flag)
  | .resetStart => some .resetStart
  | .resetEnd => some .resetEnd
  | _ => none

theorem filterMap_action_read (bytes : List UInt8) :
    (bytes.map Observation.read).filterMap action = [] := by
  rw [List.filterMap_map]
  exact List.filterMap_eq_nil_iff.mpr fun _ _ => rfl

theorem action_of_done (s : Stage) (t : List Observation) (h : (stages accepted).Done s t) :
    t.filterMap action = s.action.toList := by
  cases s with
  | send flag => rw [show t = _ from h]; rfl
  | await flag =>
    obtain ⟨bytes, -, rfl⟩ := h
    exact filterMap_action_read _
  | resetStart => rw [show t = _ from h]; rfl
  | resetEnd => rw [show t = _ from h]; rfl
  | identify =>
    obtain ⟨bytes, -, rfl⟩ := h
    exact filterMap_action_read _

theorem action_of_cut (s : Stage) (t : List Observation) (h : (stages accepted).Cut s t) :
    t.filterMap action <+: s.action.toList := by
  cases s with
  | send flag =>
    rcases h with rfl | rfl | rfl
    · exact List.nil_prefix
    · exact List.prefix_refl _
    · exact List.prefix_refl _
  | await flag =>
    obtain ⟨bytes, -, rfl⟩ := h
    rw [filterMap_action_read]
    exact List.nil_prefix
  | resetStart =>
    rcases h with rfl | ⟨code, -, rfl⟩
    · exact List.nil_prefix
    · exact List.prefix_refl _
  | resetEnd =>
    obtain ⟨code, -, rfl⟩ := h
    exact List.prefix_refl _
  | identify =>
    obtain ⟨bytes, -, rfl⟩ := h
    rw [filterMap_action_read]
    exact List.nil_prefix

theorem singleton_of_action (s : Stage) (t : List Observation)
    (h : (stages accepted).Done s t ∨ (stages accepted).Cut s t) (o : Observation) (ho : o ∈ t)
    (hloud : (action o).isSome) : t = [o] := by
  have hread (bytes : List UInt8) (ht : t = bytes.map .read) : t = [o] := by
    rw [ht] at ho
    obtain ⟨b, -, rfl⟩ := List.mem_map.mp ho
    cases hloud
  have hsingle (o' : Observation) (ht : t = [o']) : t = [o] := by
    rw [ht, List.mem_singleton] at ho
    rw [ht, ho]
  have hnil (ht : t = []) : t = [o] := absurd (ht ▸ ho) List.not_mem_nil
  rcases h with h | h
  · cases s with
    | send flag => exact hsingle _ h
    | await flag =>
      obtain ⟨bytes, -, ht⟩ := h
      exact hread _ ht
    | resetStart => exact hsingle _ h
    | resetEnd => exact hsingle _ h
    | identify =>
      obtain ⟨bytes, -, ht⟩ := h
      exact hread _ ht
  · cases s with
    | send flag =>
      rcases h with h | h | h
      · exact hnil h
      · exact hsingle _ h
      · exact hsingle _ h
    | await flag =>
      obtain ⟨bytes, -, ht⟩ := h
      exact hread _ ht
    | resetStart =>
      rcases h with h | ⟨code, -, h⟩
      · exact hnil h
      · exact hsingle _ h
    | resetEnd =>
      obtain ⟨code, -, h⟩ := h
      exact hsingle _ h
    | identify =>
      obtain ⟨bytes, -, ht⟩ := h
      exact hread _ ht

theorem action_eq_of_single {s : Stage} {o : Observation} (hloud : (action o).isSome)
    (h : (stages accepted).Done s [o] ∨ (stages accepted).Cut s [o]) : s.action = action o := by
  have hone : [o].filterMap action = (action o).toList := by
    rw [List.filterMap_cons]
    cases action o <;> rfl
  obtain ⟨a, ha⟩ := Option.isSome_iff_exists.mp hloud
  rcases h with h | h
  · have := action_of_done s [o] h
    rw [hone, ha] at this
    rw [ha]
    cases hs : s.action <;> simp_all
  · have := action_of_cut s [o] h
    rw [hone, ha] at this
    rw [ha]
    cases hs : s.action <;> simp_all

theorem follows_before {ss ss₁ ss₂ : List Stage} {s : Stage} {t₁ t₂ : List Observation}
    {o : Observation} {c : Bool} (h : (stages accepted).Follows ss (t₁ ++ o :: t₂) c)
    (hss : ss = ss₁ ++ s :: ss₂) (hloud : (action o).isSome)
    (h₁ : action o ∉ ss₁.map Stage.action) (h₂ : action o ∉ ss₂.map Stage.action) :
    (stages accepted).Follows ss₁ t₁ true := by
  obtain ⟨ss₁', s', ss₂', hss', hf, hs'⟩ := h.before singleton_of_action hloud
  have hmap := congrArg (List.map Stage.action) (hss.symm.trans hss')
  rw [List.map_append, List.map_append, List.map_cons, List.map_cons,
    action_eq_of_single hloud hs', List.append_cons_inj_of_notMem h₁ h₂] at hmap
  have hlen : ss₁.length = ss₁'.length := by simpa using congrArg List.length hmap.1
  obtain ⟨rfl, -⟩ := List.append_inj (hss.symm.trans hss') hlen
  exact hf

/-- What a stage that is done leaves behind for certain. -/
def Stage.mark : Stage → List Observation
  | .send flag => [.wrote flag true]
  | .await flag => [.read flag]
  | .resetStart => [.resetStart .success]
  | .resetEnd => [.resetEnd .success]
  | .identify => []

theorem mark_sublist (s : Stage) (t : List Observation) (h : (stages accepted).Done s t) :
    s.mark <+ t := by
  cases s with
  | send flag => rw [show t = _ from h]; exact List.Sublist.refl _
  | await flag =>
    obtain ⟨bytes, -, rfl⟩ := h
    rw [List.map_append]
    exact List.sublist_append_right _ _
  | resetStart => rw [show t = _ from h]; exact List.Sublist.refl _
  | resetEnd => rw [show t = _ from h]; exact List.Sublist.refl _
  | identify => exact List.nil_sublist t

theorem marks_before {ss : List Stage} {t₁ t₂ marks : List Observation} {o : Observation}
    {a : Action} {c : Bool} (ss₁ : List Stage) (s : Stage) (ss₂ : List Stage)
    (h : (stages accepted).Follows ss (t₁ ++ o :: t₂) c) (ho : action o = some a)
    (hss : ss = ss₁ ++ s :: ss₂)
    (h₁ : some a ∉ ss₁.map Stage.action) (h₂ : some a ∉ ss₂.map Stage.action)
    (hmarks : marks <+ ss₁.flatMap Stage.mark) : marks <+ t₁ := by
  have hloud : (action o).isSome := by rw [ho]; rfl
  rw [← ho] at h₁ h₂
  exact hmarks.trans ((follows_before h hss hloud h₁ h₂).flatMap_sublist mark_sublist)

/-- The order of flags and reset callbacks that the source prescribes. -/
def ECPDRemoteResetType.plan : ECPDRemoteResetType → List Action
  | .none => [.flag flagLPH1RL, .flag flagLPH1RA, .flag flagLPH2RA, .flag flagIDR]
  | .system => [.resetStart, .flag flagLPH1RL, .flag flagLPH1RA, .flag flagLPH2RA, .resetEnd,
      .flag flagIDR]
  | .com => [.flag flagLPH1RL, .flag flagLPH1RA, .flag flagLPH2RA, .flag flagLPH2RR, .flag flagIDR]

theorem filterMap_handshake (remoteReset : ECPDRemoteResetType) :
    (handshake remoteReset).filterMap Stage.action = remoteReset.plan := by
  cases remoteReset <;> rfl

def ECPDRemoteResetType.stepDone : ECPDRemoteResetType → List Observation
  | .none => []
  | .system => [.resetEnd .success]
  | .com => [.wrote flagLPH2RR true]

end

/-! ### Runs -/

namespace ExternalComPortDriver
variable {this : ExternalComPortDriver} {accepted : List UInt8 → Prop}

theorem eq_of_append_cons {α : Type} {x : α} {as bs us vs : List α} (ha : x ∉ as) (hb : x ∉ bs)
    (h : as ++ x :: us = bs ++ x :: vs) : as = bs := by
  induction as generalizing bs with
  | nil =>
    cases bs with
    | nil => rfl
    | cons b bs =>
      obtain ⟨rfl, -⟩ := List.cons.inj h
      exact absurd List.mem_cons_self hb
  | cons a as ih =>
    cases bs with
    | nil =>
      obtain ⟨rfl, -⟩ := List.cons.inj h
      exact absurd List.mem_cons_self ha
    | cons b bs =>
      obtain ⟨rfl, h'⟩ := List.cons.inj h
      rw [ih (fun hmem => ha (List.mem_cons_of_mem _ hmem))
        (fun hmem => hb (List.mem_cons_of_mem _ hmem)) h']

theorem read_not_mem {flag : UInt8} {bytes : List UInt8} (h : flag ∉ bytes) :
    Observation.read flag ∉ bytes.map .read := by
  rw [List.mem_map]
  rintro ⟨b, hb, heq⟩
  cases heq
  exact h hb

/-- Short of the identification it shows where one stage ends and the next begins. -/
theorem done_unique (s : Stage) (hs : s ≠ .identify) (t t' u u' : List Observation)
    (h : (stages accepted).Done s t) (h' : (stages accepted).Done s t') (heq : t ++ u = t' ++ u') :
    t = t' := by
  cases s with
  | send flag => exact Eq.trans h (Eq.symm h')
  | await flag =>
    obtain ⟨bytes, hb, rfl⟩ := h
    obtain ⟨bytes', hb', rfl⟩ := h'
    simp only [List.map_append, List.map_singleton, List.append_assoc,
      List.singleton_append] at heq ⊢
    rw [eq_of_append_cons (read_not_mem hb) (read_not_mem hb') heq]
  | resetStart => exact Eq.trans h (Eq.symm h')
  | resetEnd => exact Eq.trans h (Eq.symm h')
  | identify => exact absurd rfl hs

theorem not_done_of_cut (s : Stage) (hs : s ≠ .identify) (t t' : List Observation)
    (h : (stages accepted).Cut s t) (h' : (stages accepted).Done s t') : ¬t' <+: t := by
  cases s with
  | send flag =>
    rw [show t' = _ from h']
    rcases h with rfl | rfl | rfl <;> simp
  | await flag =>
    obtain ⟨bytes, hb, rfl⟩ := h
    obtain ⟨bytes', -, rfl⟩ := h'
    exact fun hpre => read_not_mem hb (hpre.subset (by simp))
  | resetStart =>
    rw [show t' = _ from h']
    rcases h with rfl | ⟨code, hcode, rfl⟩
    · simp
    · simpa using Ne.symm hcode
  | resetEnd =>
    obtain ⟨code, hcode, rfl⟩ := h
    rw [show t' = _ from h']
    simpa using Ne.symm hcode
  | identify => exact absurd rfl hs

/-- Every run of the program goes through the stages, and through all of them just if it
returns a value that is `ok`. -/
def Performs {β : Type} (this : ExternalComPortDriver) (accepted : List UInt8 → Prop)
    (p : Sdm β) (ok : β → Prop) (ss : List Stage) : Prop :=
  ∀ l r, Run p l r → ∃ c, (stages accepted).Follows ss (this.traffic l) c ∧
    (c = true ↔ ∃ b, r = .ok b ∧ ok b)

section
variable {β : Type} {ok : β → Prop} {bail : SDMReturnCode → β}

theorem performs_assert {call : Sdm SDMReturnCode} {rest : Sdm β} {ss₁ ss₂ : List Stage}
    (hbail : ∀ code, code ≠ .success → ¬ok (bail code))
    (hcall : this.Performs accepted call (· = .success) ss₁)
    (hrest : this.Performs accepted rest ok ss₂) :
    this.Performs accepted (psaAdacAssert bail call rest) ok (ss₁ ++ ss₂) := by
  apply Carries.bind this.traffic_append hcall
  · intro _ code _ hcode
    rw [if_pos hcode]
    exact hrest
  · intro code hcode
    exact ⟨bail code, hbail code hcode, if_neg hcode⟩

theorem performs_return :
    this.Performs accepted (pure SDMReturnCode.success) (· = .success) [] :=
  carries_pure this.traffic_nil rfl

theorem performs_send (flag : UInt8) :
    this.Performs accepted (this.eComSendFlag flag) (· = .success) [.send flag] := by
  apply carries_single
  intro l r h
  rcases run_eComSendByte h with ⟨hr, ht⟩ | ⟨hr, ht⟩
  · exact .inl ⟨ht, _, hr, rfl⟩
  · exact .inr ⟨ht, by simpa using hr⟩

theorem performs_await (fuel : Nat) (flag : UInt8) :
    this.Performs accepted (this.eComWaitFlag fuel flag) (· = .success) [.await flag] := by
  apply carries_single
  intro l r h
  obtain ⟨bytes, hmem, ⟨hr, ht⟩ | ⟨hr, ht⟩⟩ := run_eComWaitFlag h
  · exact .inl ⟨⟨bytes, hmem, ht⟩, _, hr, rfl⟩
  · exact .inr ⟨⟨bytes, hmem, ht⟩, by simpa using hr⟩

theorem performs_resetStart :
    this.Performs accepted (callHost .resetStart) (· = .success) [.resetStart] := by
  apply carries_single
  intro l r h
  obtain ⟨code, rfl, rfl⟩ := run_perform.mp h
  have ht : this.traffic [⟨.resetStart, code⟩] = [.resetStart code] := rfl
  by_cases hcode : code = .success
  · subst hcode
    exact .inl ⟨ht, _, rfl, rfl⟩
  · exact .inr ⟨.inr ⟨code, hcode, ht⟩, by simpa using hcode⟩

theorem performs_resetEnd :
    this.Performs accepted (callHost .resetEnd) (· = .success) [.resetEnd] := by
  apply carries_single
  intro l r h
  obtain ⟨code, rfl, rfl⟩ := run_perform.mp h
  have ht : this.traffic [⟨.resetEnd, code⟩] = [.resetEnd code] := rfl
  by_cases hcode : code = .success
  · subst hcode
    exact .inl ⟨ht, _, rfl, rfl⟩
  · exact .inr ⟨⟨code, hcode, ht⟩, by simpa using hcode⟩

theorem performs_power (fuel : Nat) :
    this.Performs accepted (this.eComPortPower fuel .powerOn) (· = .success) powerOn :=
  have hid (code : SDMReturnCode) (h : code ≠ .success) : ¬id code = .success := h
  performs_assert hid (performs_send _) <| performs_assert hid (performs_await _ _) <|
    performs_assert hid (performs_send _) <| performs_assert hid (performs_await _ _)
      performs_return

theorem performs_reboot :
    this.Performs accepted this.eComPortRReboot (· = .success) [.send flagLPH2RR] :=
  performs_assert (fun _ h => h) (performs_send _) performs_return

theorem performs_initResetStart {rest : Sdm β} {ss : List Stage} (remoteReset : ECPDRemoteResetType)
    (hbail : ∀ code, code ≠ .success → ¬ok (bail code))
    (hrest : this.Performs accepted rest ok ss) :
    this.Performs accepted (this.initResetStart bail remoteReset rest) ok
      (remoteReset.start ++ ss) := by
  have hmissing : this.Performs accepted (return bail .internalError) ok (.resetStart :: ss) :=
    carries_stop (.inl rfl : (stages accepted).Cut .resetStart []) (hbail _ (by decide))
  cases remoteReset with
  | none => exact hrest
  | com => exact hrest
  | system =>
    rw [initResetStart, if_pos rfl, psaAdacAssertError, psaAdacAssertError]
    split_ifs
    · exact performs_assert hbail performs_resetStart hrest
    · exact hmissing
    · exact hmissing

theorem performs_initResetEnd {rest : Sdm β} {ss : List Stage} (remoteReset : ECPDRemoteResetType)
    (hbail : ∀ code, code ≠ .success → ¬ok (bail code))
    (hrest : this.Performs accepted rest ok ss) :
    this.Performs accepted (this.initResetEnd bail remoteReset rest) ok
      (remoteReset.step ++ ss) := by
  cases remoteReset with
  | none => exact hrest
  | com => exact performs_assert hbail performs_reboot hrest
  | system => exact performs_assert hbail performs_resetEnd hrest

end

/-- The bytes read are an identification response that leaves `target` in the buffer. -/
def Identified (idResponseBuffer : List UInt8) (idBufferLength : Nat) (target bytes : List UInt8) :
    Prop :=
  ∃ n, n ≠ 0 ∧ Receives flagIDA idBufferLength (rxStateOf idResponseBuffer 0 {}) bytes
    ⟨.success, target, n⟩

section
variable {fuel idBufferLength : Nat} {remoteReset : ECPDRemoteResetType}
  {idResponseBuffer target : List UInt8} {l : Trace}

variable (target) in
theorem performs_identify : this.Performs (Identified idResponseBuffer idBufferLength target)
    (this.eComPortRxInt fuel flagIDA idResponseBuffer idBufferLength 0)
    (fun rx => ∃ n, n ≠ 0 ∧ rx = ⟨.success, target, n⟩) [.identify] := by
  apply carries_single
  intro l r h
  obtain ⟨bytes, ht, ⟨out, rfl, hrec⟩ | ⟨hres, hnot⟩⟩ := run_rxLoop h
  · by_cases hout : ∃ n, n ≠ 0 ∧ out = ⟨.success, target, n⟩
    · obtain ⟨n, hn, rfl⟩ := hout
      exact .inl ⟨⟨bytes, ⟨n, hn, hrec⟩, ht⟩, _, rfl, n, hn, rfl⟩
    · -- a reading determines its result, so these bytes have no other that would be accepted
      have hbad : ¬Identified idResponseBuffer idBufferLength target bytes := by
        intro ⟨n, hn, hrec'⟩
        exact hout ⟨n, hn, (hrec.unique hrec' (List.prefix_refl _) (List.prefix_refl _)).2⟩
      refine .inr ⟨⟨bytes, hbad, ht⟩, ?_⟩
      intro ⟨rx, hrx, hgood⟩
      rw [← Except.ok.inj hrx] at hgood
      exact hout hgood
  · refine .inr ⟨⟨bytes, fun ⟨n, _, hrec⟩ => hnot _ hrec, ht⟩, ?_⟩
    intro ⟨rx, hrx, n, hn, hgood⟩
    exact hres rx hrx (by rw [hgood])

variable (target) in
theorem performs_eComPortInit : this.Performs
    (Identified idResponseBuffer idBufferLength target)
    (this.eComPortInit fuel remoteReset idResponseBuffer idBufferLength)
    (fun out => out.res = .success ∧ out.idResponseBuffer = target) (handshake remoteReset) := by
  have hbail (code : SDMReturnCode) (h : code ≠ .success) :
      ¬((⟨code, idResponseBuffer, this⟩ : InitResult).res = .success ∧
        (⟨code, idResponseBuffer, this⟩ : InitResult).idResponseBuffer = target) := fun hb => h hb.1
  rw [handshake, link, List.append_assoc, List.append_assoc]
  refine performs_initResetStart _ hbail <| performs_assert hbail (performs_power fuel) <|
    performs_assert hbail (performs_send _) <| performs_initResetEnd _ hbail <|
    performs_assert hbail (performs_await fuel _) <| performs_assert hbail (performs_send _) ?_
  apply Carries.bind this.traffic_append (performs_identify target)
  · intro _ rx _ hgood
    obtain ⟨n, hn, rfl⟩ := hgood
    rw [if_neg (not_not.mpr rfl), if_neg hn]
    exact carries_pure this.traffic_nil ⟨rfl, rfl⟩
  · intro rx hbad
    by_cases hres : rx.res = .success
    · rw [if_neg (not_not.mpr hres)]
      by_cases hlen : rx.actualLength = 0
      · rw [if_pos hlen]
        exact ⟨_, fun h => SDMReturnCode.noConfusion h.1, rfl⟩
      · rw [if_neg hlen]
        refine ⟨_, fun h => hbad ⟨rx.actualLength, hlen, ?_⟩, rfl⟩
        rw [← hres, ← show rx.rxBuffer = target from h.2]
    · rw [if_pos hres]
      exact ⟨_, fun h => hres h.1, rfl⟩

theorem returns_assert {β : Type} {Q : β → Prop} {bail : SDMReturnCode → β}
    {call : Sdm SDMReturnCode} {rest : Sdm β} (hbail : ∀ code, code ≠ .success → Q (bail code))
    (hrest : Returns rest Q) : Returns (psaAdacAssert bail call rest) Q := by
  refine returns_true.bind fun code _ => ?_
  by_cases hcode : code = .success
  · rw [if_pos hcode]
    exact hrest
  · rw [if_neg hcode]
    exact returns_pure (hbail code hcode)

theorem returns_initResetStart {β : Type} {Q : β → Prop} {bail : SDMReturnCode → β} {rest : Sdm β}
    (remoteReset : ECPDRemoteResetType) (hbail : ∀ code, code ≠ .success → Q (bail code))
    (hrest : Returns rest Q) : Returns (this.initResetStart bail remoteReset rest) Q := by
  rw [initResetStart, psaAdacAssertError, psaAdacAssertError]
  split_ifs
  · exact returns_assert hbail hrest
  · exact returns_pure (hbail _ (by decide))
  · exact returns_pure (hbail _ (by decide))
  · exact hrest

theorem returns_initResetEnd {β : Type} {Q : β → Prop} {bail : SDMReturnCode → β} {rest : Sdm β}
    (remoteReset : ECPDRemoteResetType) (hbail : ∀ code, code ≠ .success → Q (bail code))
    (hrest : Returns rest Q) : Returns (this.initResetEnd bail remoteReset rest) Q := by
  cases remoteReset with
  | none => exact hrest
  | com => exact returns_assert hbail hrest
  | system => exact returns_assert hbail hrest

theorem eComPortInit_driver : Returns
    (this.eComPortInit fuel remoteReset idResponseBuffer idBufferLength) fun out =>
      (out.res = .success → out.driver = { this with mIsComPortInited := true }) ∧
      (out.res ≠ .success → out.driver = this) := by
  have hbail (code : SDMReturnCode) (h : code ≠ .success) :
      (code = .success → this = { this with mIsComPortInited := true }) ∧
        (code ≠ .success → this = this) := ⟨fun hc => absurd hc h, fun _ => rfl⟩
  refine returns_initResetStart remoteReset hbail <| returns_assert hbail <|
    returns_assert hbail <| returns_initResetEnd remoteReset hbail <| returns_assert hbail <|
    returns_assert hbail ?_
  refine returns_true.bind fun rx _ => ?_
  split_ifs with h₁ h₃
  · exact returns_pure (hbail _ h₁)
  · exact returns_pure (hbail .transferError (by decide))
  · exact returns_pure ⟨fun _ => rfl, fun hne => absurd rfl hne⟩

/-- `EComPort_Init` keeps to the order of the handshake: whatever the device and the
callbacks do, the flags and callbacks are a prefix of the plan, no flag goes out before the
acknowledge of the one before it, and success takes all of it. -/
theorem eComPortInit_handshake {r : Except Stop InitResult}
    (h : Run (this.eComPortInit fuel remoteReset idResponseBuffer idBufferLength) l r) :
    (this.traffic l).filterMap action <+: remoteReset.plan ∧
      (∀ t₁ o t₂, this.traffic l = t₁ ++ o :: t₂ →
        (action o = some (.flag flagLPH1RA) → [.wrote flagLPH1RL true, .read flagLPH1RL] <+ t₁) ∧
        (action o = some (.flag flagLPH2RA) → [.wrote flagLPH1RA true, .read flagLPH1RA] <+ t₁) ∧
        (action o = some (.flag flagIDR) →
          [.wrote flagLPH2RA true] ++ remoteReset.stepDone ++ [.read flagLPH2RA] <+ t₁)) ∧
      (∀ out, r = .ok out →
        (out.res = .success ∨ this.mIsComPortInited = false ∧ out.driver.mIsComPortInited = true →
          (stages (Identified idResponseBuffer idBufferLength out.idResponseBuffer)).Follows
            (handshake remoteReset) (this.traffic l) true) ∧
        (out.res ≠ .success → out.driver = this)) := by
  obtain ⟨c, hf, -⟩ := performs_eComPortInit [] l r h
  refine ⟨?_, ?_, ?_⟩
  · rw [← filterMap_handshake]
    exact hf.filterMap_prefix action_of_done action_of_cut
  · intro t₁ o t₂ ht
    rw [ht] at hf
    refine ⟨fun ho => ?_, fun ho => ?_, fun ho => ?_⟩
    · refine marks_before (remoteReset.start ++ [.send flagLPH1RL, .await flagLPH1RL])
        (.send flagLPH1RA) ([.await flagLPH1RA, .send flagLPH2RA] ++ (remoteReset.step ++
          [.await flagLPH2RA, .send flagIDR, .identify])) hf ho ?_ ?_ ?_ ?_
      all_goals cases remoteReset <;> decide
    · refine marks_before (remoteReset.start ++ powerOn) (.send flagLPH2RA) (remoteReset.step ++
        [.await flagLPH2RA, .send flagIDR, .identify]) hf ho ?_ ?_ ?_ ?_
      all_goals cases remoteReset <;> decide
    · refine marks_before (link remoteReset ++ (remoteReset.step ++ [.await flagLPH2RA]))
        (.send flagIDR) [.identify] hf ho ?_ ?_ ?_ ?_
      all_goals cases remoteReset <;> decide
  · intro out hout
    obtain ⟨hinited, hfailed⟩ := eComPortInit_driver l out (hout ▸ h)
    refine ⟨fun hsuccess => ?_, hfailed⟩
    have hres : out.res = .success := by
      rcases hsuccess with hres | ⟨hbefore, hafter⟩
      · exact hres
      · by_contra hne
        rw [hfailed hne, hbefore] at hafter
        cases hafter
    obtain ⟨c', hf', hc'⟩ := performs_eComPortInit out.idResponseBuffer l r h
    obtain rfl := hc'.mpr ⟨out, hout, hres, rfl⟩
    exact hf'

def fresh : ExternalComPortDriver := new .armADIv6 true true true

def taking : List AccessResult := [⟨.success, 1, [1]⟩, ⟨.success, 1, []⟩]

def giving (byte : UInt8) : List AccessResult := [⟨.success, 1, [0x10000]⟩, cleanRead byte]

def returning (flag : UInt8) : List AccessResult := taking ++ giving flag

def powerScript : List AccessResult := returning flagLPH1RL ++ returning flagLPH1RA

/-- A device that completes the handshake and then delivers `bytes`. -/
def identifyScript (bytes : List UInt8) : List AccessResult :=
  powerScript ++ returning flagLPH2RA ++ taking ++ bytes.map cleanRead

def rebootScript (bytes : List UInt8) : List AccessResult :=
  powerScript ++ taking ++ returning flagLPH2RA ++ taking ++ bytes.map cleanRead

def rebootOut : Except Stop InitResult × Trace × List AccessResult :=
  scripted.exec (fresh.eComPortInit 3 .com [0, 0] 2) (rebootScript [flagIDA, 0x50, flagEND])

theorem eComPortInit_handshake_com :
    (fresh.traffic rebootOut.2.1).filterMap action <+: ECPDRemoteResetType.com.plan ∧
      (stages (Identified [0, 0] 2 [0x50, 0])).Follows (handshake .com) (fresh.traffic rebootOut.2.1)
        true := by
  have hout : rebootOut.1 = .ok ⟨.success, [0x50, 0], { fresh with mIsComPortInited := true }⟩ := by
    decide +kernel
  obtain ⟨hplan, -, hsuccess⟩ := eComPortInit_handshake (run_of_exec _ hout)
  exact ⟨hplan, (hsuccess _ rfl).1 (.inl rfl)⟩

end

end ExternalComPortDriver
end SecureDebug
