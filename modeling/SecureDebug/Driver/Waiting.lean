import Mathlib.Data.Nat.Find
import SecureDebug.Driver.Device
import SecureDebug.Driver.Transmit

/-! Waiting for a flag has no bound of its own. Against a device that never fails an access: when a
wait returns, when the operations that wait do, and which devices keep them busy for ever. -/

namespace SecureDebug
open Interaction Program Framing

namespace ExternalComPortDriver
variable {this : ExternalComPortDriver} {flag : UInt8} {d d' d'' : Device} {fuel n : Nat}

/-! ### Waiting for a flag -/

/-- The `n`-th byte is the flag, or the `n`-th status a fault, or the first of so many without a
byte that the retries for one are used up. -/
def EndsWait (flag : UInt8) (d : Device) (n : Nat) : Prop :=
  d.byte n = flag ∨ Faulty (d.status.get n) ∨
    ∀ i < maxRetries, (statusOfSR (d.status.get (n + i))).rxData = 0

/-- The device ends a wait for the flag at some time. -/
def Responds (flag : UInt8) (d : Device) : Prop := ∃ n, EndsWait flag d n

inductive Awaits (flag : UInt8) : Device → Device → Prop
  | hit {d d' : Device} : Gives d d' → d.byte 0 = flag → Awaits flag d d'
  | miss {d d' d'' : Device} : Gives d d' → d.byte 0 ≠ flag → Awaits flag d' d'' → Awaits flag d d''

theorem EndsWait.gives (h : EndsWait flag d n) (hgives : Gives d d') (hbyte : d.byte 0 ≠ flag) :
    ∃ n' < n, EndsWait flag d' n' := by
  obtain ⟨k, hk, hready, rfl⟩ := hgives
  rcases h with h | h | h
  · cases n with
    | zero => exact absurd h hbyte
    | succ n =>
      refine ⟨n, Nat.lt_succ_self n, .inl ?_⟩
      rw [Device.byte_skipData, Device.byte_skipStatus, Nat.add_comm]
      exact h
  · have hkn : k < n := by
      by_contra hle
      rcases Nat.lt_or_eq_of_le (Nat.le_of_not_lt hle) with hlt | heq
      · exact (hready.idle n hlt).1 h
      · exact hready.sound (heq ▸ h)
    refine ⟨n - (k + 1), by omega, .inr (.inl ?_)⟩
    rw [Device.status_skipData, Device.get_skipStatus, Nat.add_sub_cancel' hkn]
    exact h
  · have hkn : k < n := by
      by_contra hle
      have hzero := h (k - n) (by omega)
      rw [Nat.add_sub_cancel' (Nat.le_of_not_lt hle)] at hzero
      exact hready.ready hzero
    refine ⟨n - (k + 1), by omega, .inr (.inr fun i hi => ?_)⟩
    rw [Device.status_skipData, Device.get_skipStatus, ← Nat.add_assoc, Nat.add_sub_cancel' hkn]
    exact h i hi

theorem Responds.of_gives (h : Responds flag d') (hgives : Gives d d') : Responds flag d := by
  obtain ⟨k, -, -, rfl⟩ := hgives
  obtain ⟨n, h | h | h⟩ := h
  · refine ⟨1 + n, .inl ?_⟩
    rwa [Device.byte_skipData] at h
  · refine ⟨k + 1 + n, .inr (.inl ?_)⟩
    rwa [Device.status_skipData, Device.get_skipStatus] at h
  · refine ⟨k + 1 + n, .inr (.inr fun i hi => ?_)⟩
    have hzero := h i hi
    rwa [Device.status_skipData, Device.get_skipStatus, ← Nat.add_assoc] at hzero

theorem exists_gives (h : ¬Responds flag d) : ∃ d', Gives d d' := by
  have hbusy : ∃ k, k < maxRetries ∧ (statusOfSR (d.status.get k)).rxData ≠ 0 := by
    by_contra hnone
    refine h ⟨0, .inr (.inr fun i hi => ?_)⟩
    by_contra hi'
    rw [Nat.zero_add] at hi'
    exact hnone ⟨i, hi, hi'⟩
  have hsound (i : Nat) : ¬Faulty (d.status.get i) := fun hi => h ⟨i, .inr (.inl hi)⟩
  classical
  obtain ⟨hk, hready⟩ := Nat.find_spec hbusy
  refine ⟨_, Nat.find hbusy, hk, ⟨fun i hi => ⟨hsound i, ?_⟩, hsound _, hready⟩, rfl⟩
  have hmin := Nat.find_min hbusy hi
  rw [not_and, not_not] at hmin
  exact hmin (hi.trans hk)

theorem leads_waitLoop_succ {byte : UInt8} {res : SDMReturnCode} :
    Leads (device this) (this.waitLoop flag (fuel + 1) byte) d res d'' ↔
      ∃ code read d', Leads (device this) (this.eComReadByte byte) d (code, read) d' ∧
        ((code ≠ .success ∧ res = code ∧ d'' = d') ∨ (code = .success ∧ read = flag ∧
            res = .success ∧ d'' = d') ∨
          (code = .success ∧ read ≠ flag ∧
            Leads (device this) (this.waitLoop flag fuel read) d' res d'')) := by
  rw [waitLoop, leads_bind, Prod.exists]
  apply exists_congr
  intro code
  apply exists_congr
  intro read
  apply exists_congr
  intro d'
  apply and_congr_right
  intro _
  dsimp only
  by_cases hcode : code = .success
  · by_cases hread : read = flag
    · rw [if_neg (not_not.mpr hcode), if_neg (not_not.mpr hread), leads_pure]
      simp [hcode, hread]
    · rw [if_neg (not_not.mpr hcode), if_pos hread]
      simp [hcode, hread]
  · rw [if_pos hcode, leads_pure]
    simp [hcode]

theorem leads_waitLoop_gives (hcb : this.mRegisterAccessCallback = true) {byte : UInt8}
    {res : SDMReturnCode} (hgives : Gives d d') :
    Leads (device this) (this.waitLoop flag (fuel + 1) byte) d res d'' ↔
      (d.byte 0 = flag ∧ res = .success ∧ d'' = d') ∨
        (d.byte 0 ≠ flag ∧ Leads (device this) (this.waitLoop flag fuel (d.byte 0)) d' res d'') := by
  have hread : Leads (device this) (this.eComReadByte byte) d (.success, d.byte 0) d' :=
    (leads_eComReadByte hcb).mpr (givesByte_device.mpr ⟨hgives, rfl⟩)
  rw [leads_waitLoop_succ]
  constructor
  · intro h
    obtain ⟨code, read, d₁, hread', hcases⟩ := h
    obtain ⟨hpair, rfl⟩ := hread.unique hread'
    obtain ⟨rfl, rfl⟩ := Prod.mk.inj hpair
    rcases hcases with ⟨hcode, -⟩ | ⟨-, hhit⟩ | ⟨-, hmiss⟩
    · exact absurd rfl hcode
    · exact .inl hhit
    · exact .inr hmiss
  · intro h
    refine ⟨_, _, d', hread, .inr ?_⟩
    rcases h with hhit | hmiss
    · exact .inl ⟨rfl, hhit⟩
    · exact .inr ⟨rfl, hmiss⟩

variable (flag) in
theorem leads_waitLoop_not_gives (hcb : this.mRegisterAccessCallback = true) (byte : UInt8)
    (hnone : ∀ d', ¬Gives d d') : ∃ code d', code ≠ .success ∧ ∀ fuel res d'',
      Leads (device this) (this.waitLoop flag (fuel + 1) byte) d res d'' ↔ res = code ∧ d'' = d' := by
  obtain ⟨⟨code, read⟩, d', hread⟩ : ∃ out d', Leads (device this) (this.eComReadByte byte) d out d' := by
    rw [eComReadByte_eq]
    exact exists_leads_polledAccess _ _ hcb _ _ _
  have hcode : code ≠ .success := by
    rintro rfl
    exact hnone d' (givesByte_device.mp ((leads_eComReadByte hcb).mp hread)).1
  refine ⟨code, d', hcode, fun fuel res d'' => ?_⟩
  rw [leads_waitLoop_succ]
  constructor
  · intro h
    obtain ⟨code', read', d₁, hread', hcases⟩ := h
    obtain ⟨hpair, rfl⟩ := hread.unique hread'
    obtain ⟨rfl, rfl⟩ := Prod.mk.inj hpair
    rcases hcases with ⟨-, hfail⟩ | ⟨hsuccess, -⟩ | ⟨hsuccess, -⟩
    · exact hfail
    · exact absurd hsuccess hcode
    · exact absurd hsuccess hcode
  · intro h
    exact ⟨code, read, d', hread, .inl ⟨hcode, h⟩⟩

theorem leads_waitLoop_of_ends (hcb : this.mRegisterAccessCallback = true) (byte : UInt8)
    (h : EndsWait flag d n) :
    ∃ fuel res d', Leads (device this) (this.waitLoop flag fuel byte) d res d' := by
  induction n using Nat.strong_induction_on generalizing d byte with
  | _ n ih =>
    by_cases hgives : ∃ d', Gives d d'
    · obtain ⟨d', hgives⟩ := hgives
      by_cases hbyte : d.byte 0 = flag
      · exact ⟨1, .success, d', (leads_waitLoop_gives hcb hgives).mpr (.inl ⟨hbyte, rfl, rfl⟩)⟩
      · obtain ⟨n', hn', hends⟩ := h.gives hgives hbyte
        obtain ⟨fuel, res, d'', hlead⟩ := ih n' hn' (d.byte 0) hends
        exact ⟨fuel + 1, res, d'', (leads_waitLoop_gives hcb hgives).mpr (.inr ⟨hbyte, hlead⟩)⟩
    · rw [not_exists] at hgives
      obtain ⟨code, d', -, hlead⟩ := leads_waitLoop_not_gives flag hcb byte hgives
      exact ⟨1, code, d', (hlead 0 code d').mpr ⟨rfl, rfl⟩⟩

theorem not_leads_waitLoop (hcb : this.mRegisterAccessCallback = true) {byte : UInt8}
    {res : SDMReturnCode} (h : ¬Responds flag d) :
    ¬Leads (device this) (this.waitLoop flag fuel byte) d res d'' := by
  induction fuel generalizing d byte with
  | zero =>
    intro hlead
    obtain ⟨l, hlead⟩ := hlead
    cases hlead
  | succ fuel ih =>
    intro hlead
    obtain ⟨d', hgives⟩ := exists_gives h
    rcases (leads_waitLoop_gives hcb hgives).mp hlead with ⟨hbyte, -⟩ | ⟨-, hrest⟩
    · exact h ⟨0, .inl hbyte⟩
    · exact ih (fun hresp => h (hresp.of_gives hgives)) hrest

theorem completes_waitFlag (hcb : this.mRegisterAccessCallback = true) (flag : UInt8) (d : Device) :
    Completes (device this) (fun fuel => this.eComWaitFlag fuel flag) d ↔ Responds flag d := by
  have hfueled : Fueled .outOfFuel fun fuel => this.eComWaitFlag fuel flag :=
    fueled_waitLoop flag flagNULL
  rw [hfueled.completes_iff]
  constructor
  · intro h
    obtain ⟨fuel, res, d', hlead⟩ := h
    by_contra hnone
    exact not_leads_waitLoop hcb hnone hlead
  · intro h
    obtain ⟨n, hn⟩ := h
    exact leads_waitLoop_of_ends hcb flagNULL hn

theorem givesFlag_device : this.GivesFlag (device this) flag d d'' ↔ Awaits flag d d'' := by
  constructor
  · intro h
    obtain ⟨noise, t, hnoise, hmem, hlast⟩ := h
    induction hnoise with
    | nil d =>
      obtain ⟨hgives, hbyte⟩ := givesByte_device.mp hlast
      exact .hit hgives hbyte
    | cons hfirst _ ih =>
      obtain ⟨hne, hrest⟩ := not_or.mp (mt List.mem_cons.mpr hmem)
      obtain ⟨hgives, hbyte⟩ := givesByte_device.mp hfirst
      rw [← hbyte] at hne
      exact .miss hgives (Ne.symm hne) (ih hrest hlast)
  · intro h
    induction h with
    | hit hgives hbyte => exact .hit (givesByte_device.mpr ⟨hgives, hbyte⟩)
    | miss hgives hne _ ih => exact .miss (givesByte_device.mpr ⟨hgives, rfl⟩) hne ih

/-! ### Stages against a device -/

/-- The device lets the stage succeed. The reset start callback is made only if both are set. -/
inductive Grants (this : ExternalComPortDriver) : Device → Stage → Device → Prop
  | send {d d' : Device} {flag : UInt8} : Takes d d' → Grants this d (.send flag) d'
  | await {d d' : Device} {flag : UInt8} : Awaits flag d d' → Grants this d (.await flag) d'
  | resetStart {d : Device} : this.mResetStartCallback = true → this.mResetEndCallback = true →
      d.resetStart = .success → Grants this d .resetStart d
  | resetEnd {d : Device} : d.resetEnd = .success → Grants this d .resetEnd d

theorem offers_device : this.Offers (device this) = this.Grants := by
  funext d s d'
  apply propext
  constructor
  · intro h
    cases h with
    | send htakes => exact .send ((takesByte_device _).mp htakes)
    | await hgives => exact .await (givesFlag_device.mp hgives)
    | resetStart hstart hend hanswer =>
      obtain ⟨hcode, rfl⟩ := Prod.mk.inj hanswer
      exact .resetStart hstart hend hcode
    | resetEnd hanswer =>
      obtain ⟨hcode, rfl⟩ := Prod.mk.inj hanswer
      exact .resetEnd hcode
  · intro h
    cases h with
    | send htakes => exact .send ((takesByte_device _).mpr htakes)
    | await hawaits => exact .await (givesFlag_device.mpr hawaits)
    | resetStart hstart hend hcode => exact .resetStart hstart hend (Prod.ext hcode rfl)
    | resetEnd hcode => exact .resetEnd (Prod.ext hcode rfl)

/-- From each wait that is reached on the device ends that wait. -/
def Unblocked (this : ExternalComPortDriver) (ss : List Stage) (d : Device) : Prop :=
  ∀ ss₁ flag ss₂ d', ss = ss₁ ++ .await flag :: ss₂ → Steps this.Grants d ss₁ d' → Responds flag d'

section
variable {ss ss₁ ss₂ : List Stage}

theorem unblocked_of_no_wait (h : ∀ flag, .await flag ∉ ss) : this.Unblocked ss d := by
  intro ss₁ flag ss₂ d' hss _
  exact absurd (by simp [hss]) (h flag)

theorem unblocked_await : this.Unblocked [.await flag] d ↔ Responds flag d := by
  constructor
  · intro h
    exact h [] flag [] d rfl (.nil d)
  · intro h ss₁ flag' ss₂ d' hss hgrants
    obtain ⟨rfl, htail⟩ := List.append_eq_singleton_iff.mp hss.symm |>.resolve_right (by simp)
    obtain ⟨hflag, -⟩ := List.cons.inj htail
    cases hflag
    obtain rfl := steps_nil.mp hgrants
    exact h

theorem unblocked_append : this.Unblocked (ss₁ ++ ss₂) d ↔
    this.Unblocked ss₁ d ∧ ∀ d', Steps this.Grants d ss₁ d' → this.Unblocked ss₂ d' := by
  constructor
  · intro h
    refine ⟨fun ts₁ flag ts₂ d' hss hgrants => ?_, fun d' hgrants ts₁ flag ts₂ d'' hss hgrants' => ?_⟩
    · exact h ts₁ flag (ts₂ ++ ss₂) d' (by rw [hss]; simp) hgrants
    · exact h (ss₁ ++ ts₁) flag ts₂ d'' (by rw [hss]; simp) (steps_append.mpr ⟨d', hgrants, hgrants'⟩)
  · intro h ts₁ flag ts₂ d' hss hgrants
    obtain ⟨hfirst, hsecond⟩ := h
    rcases List.append_eq_append_iff.mp hss with ⟨us, hts, hss₂⟩ | ⟨us, hss₁, hts⟩
    · rw [hts] at hgrants
      obtain ⟨t, hgrants₁, hgrants₂⟩ := steps_append.mp hgrants
      exact hsecond t hgrants₁ us flag ts₂ d' hss₂ hgrants₂
    · cases us with
      | nil =>
        rw [List.append_nil] at hss₁
        rw [← hss₁] at hgrants
        exact hsecond d' hgrants [] flag ts₂ d' hts.symm (.nil d')
      | cons s us =>
        obtain ⟨rfl, -⟩ := List.cons.inj hts
        exact hfirst ts₁ flag us d' hss₁ hgrants

end

/-- The procedure goes through the stages, and it returns unless one of its waits goes on for
ever. -/
structure Paced (this : ExternalComPortDriver) (p : Nat → Sdm SDMReturnCode) (ss : List Stage) :
    Prop extends this.Staged p ss where
  completes : ∀ d, Completes (device this) p d ↔ this.Unblocked ss d

section
variable {p q : Nat → Sdm SDMReturnCode} {ss₁ ss₂ : List Stage}

theorem Staged.granted (h : this.Staged p ss) (d d' : Device) :
    (∃ fuel, Leads (device this) (p fuel) d .success d') ↔ Steps this.Grants d ss d' := by
  rw [h.leads, offers_device]

theorem paced_assert (hp : this.Paced p ss₁) (hq : this.Paced q ss₂) :
    this.Paced (fun fuel => psaAdacAssert id (p fuel) (q fuel)) (ss₁ ++ ss₂) := by
  have hrest (code : SDMReturnCode) : Fueled .outOfFuel fun fuel =>
      if code = .success then q fuel else pure (id code) := fueled_ite hq.fueled (fueled_const _)
  refine ⟨staged_assert hp.toStaged hq.toStaged, fun d => ?_⟩
  have hbind := hp.fueled.completes_bind (m := device this) (s := d) hrest
  refine hbind.trans ?_
  rw [unblocked_append, ← hp.completes d, hp.fueled.completes_iff]
  constructor
  · intro h
    obtain ⟨n, code, t, hfirst, hsecond⟩ := h
    refine ⟨⟨n, code, t, hfirst⟩, fun d' hgrants => ?_⟩
    obtain ⟨k, hlead⟩ := (hp.granted d d').mpr hgrants
    obtain ⟨rfl, rfl⟩ := hp.fueled.leads_unique hfirst hlead
    exact (hq.completes _).mp hsecond
  · intro h
    obtain ⟨⟨n, code, t, hfirst⟩, hsecond⟩ := h
    refine ⟨n, code, t, hfirst, ?_⟩
    by_cases hcode : code = .success
    · simp only [if_pos hcode]
      rw [hcode] at hfirst
      exact (hq.completes t).mpr (hsecond t ((hp.granted d t).mp ⟨n, hfirst⟩))
    · simp only [if_neg hcode]
      exact ⟨0, code, [], t, fun _ _ => rfl⟩

theorem paced_return : this.Paced (fun _ => pure .success) [] := by
  refine ⟨staged_return, fun d => ?_⟩
  refine iff_of_true ⟨0, .success, [], d, fun _ _ => rfl⟩ (unblocked_of_no_wait fun _ => ?_)
  exact List.not_mem_nil

theorem paced_single {call : Sdm SDMReturnCode} {s : Stage} (hs : ∀ flag, .await flag ≠ s)
    (hstaged : this.Staged (fun _ => call) [s])
    (hreturns : ∀ d, ∃ res d', Leads (device this) call d res d') :
    this.Paced (fun _ => call) [s] := by
  refine ⟨hstaged, fun d => iff_of_true ?_ (unblocked_of_no_wait fun flag hmem => ?_)⟩
  · obtain ⟨res, d', l, hlead⟩ := hreturns d
    exact ⟨0, res, l, d', fun _ _ => hlead⟩
  · exact hs flag (List.mem_singleton.mp hmem)

theorem paced_send (hcb : this.mRegisterAccessCallback = true) (flag : UInt8) :
    this.Paced (fun _ => this.eComSendFlag flag) [.send flag] := by
  refine paced_single (fun _ hs => ?_) (staged_send hcb flag) fun d => ?_
  · cases hs
  · rw [eComSendFlag, eComSendByte_eq]
    exact exists_leads_polledAccess _ _ hcb _ _ _

theorem paced_await (hcb : this.mRegisterAccessCallback = true) (flag : UInt8) :
    this.Paced (fun fuel => this.eComWaitFlag fuel flag) [.await flag] := by
  refine ⟨staged_await hcb flag, fun d => ?_⟩
  rw [completes_waitFlag hcb, unblocked_await]

theorem paced_reboot (hcb : this.mRegisterAccessCallback = true) :
    this.Paced (fun _ => this.eComPortRReboot) [.send flagLPH2RR] :=
  paced_assert (paced_send hcb flagLPH2RR) paced_return

theorem paced_resetStart (hstart : this.mResetStartCallback = true)
    (hend : this.mResetEndCallback = true) :
    this.Paced (fun _ => callHost .resetStart) [.resetStart] := by
  refine paced_single (fun _ hs => ?_) (staged_resetStart hstart hend) fun d => ⟨_, _, _, rfl⟩
  cases hs

theorem paced_resetEnd : this.Paced (fun _ => callHost .resetEnd) [.resetEnd] := by
  refine paced_single (fun _ hs => ?_) staged_resetEnd fun d => ⟨_, _, _, rfl⟩
  cases hs

/-- A missing callback ends the procedure before its first stage. -/
theorem paced_initResetStart (remoteReset : ECPDRemoteResetType) (hq : this.Paced q ss₂) :
    this.Paced (fun fuel => this.initResetStart id remoteReset (q fuel)) (remoteReset.start ++ ss₂) := by
  cases remoteReset with
  | none => exact hq
  | com => exact hq
  | system =>
    by_cases hset : this.mResetStartCallback = true ∧ this.mResetEndCallback = true
    · simp only [initResetStart_calls hset]
      exact paced_assert (paced_resetStart hset.1 hset.2) hq
    · simp only [initResetStart_missing hset]
      refine ⟨staged_missing hset _ (by decide), fun d => ?_⟩
      refine iff_of_true ⟨0, .internalError, [], d, fun _ _ => rfl⟩ ?_
      intro ss₁ flag ss₃ d' hss hgrants
      cases ss₁ with
      | nil => cases hss
      | cons s ss₁ =>
        obtain ⟨rfl, -⟩ := List.cons.inj hss
        obtain ⟨t, hfirst, -⟩ := steps_cons.mp hgrants
        rw [← offers_device] at hfirst
        exact absurd hfirst (not_offers_resetStart hset)

theorem paced_initResetEnd (hcb : this.mRegisterAccessCallback = true)
    (remoteReset : ECPDRemoteResetType) (hq : this.Paced q ss₂) :
    this.Paced (fun fuel => this.initResetEnd id remoteReset (q fuel)) (remoteReset.step ++ ss₂) := by
  cases remoteReset with
  | none => exact hq
  | com => exact paced_assert (paced_reboot hcb) hq
  | system => exact paced_assert paced_resetEnd hq

end

/-! ### Operations -/

def initHandshake (this : ExternalComPortDriver) (fuel : Nat) (remoteReset : ECPDRemoteResetType) :
    Sdm SDMReturnCode :=
  this.initResetStart id remoteReset <|
  psaAdacAssert id (this.eComPortPower fuel .powerOn) <|
  psaAdacAssert id (this.eComSendFlag flagLPH2RA) <|
  this.initResetEnd id remoteReset <|
  psaAdacAssert id (this.eComWaitFlag fuel flagLPH2RA) <|
  psaAdacAssert id (this.eComSendFlag flagIDR) <|
  return .success

section
variable {β : Type} {bail : SDMReturnCode → β}

theorem assert_initResetStart (remoteReset : ECPDRemoteResetType) (next : Sdm SDMReturnCode)
    (rest : Sdm β) : psaAdacAssert bail (this.initResetStart id remoteReset next) rest =
      this.initResetStart bail remoteReset (psaAdacAssert bail next rest) := by
  have herror : psaAdacAssert bail (pure .internalError) rest = pure (bail .internalError) := rfl
  rw [initResetStart, initResetStart]
  by_cases hreset : remoteReset = .system
  · rw [if_pos hreset, if_pos hreset]
    simp only [psaAdacAssertError]
    by_cases hstart : this.mResetStartCallback = true
    · rw [if_pos hstart, if_pos hstart]
      by_cases hend : this.mResetEndCallback = true
      · rw [if_pos hend, if_pos hend, assert_assert]
      · rw [if_neg hend, if_neg hend]
        exact herror
    · rw [if_neg hstart, if_neg hstart]
      exact herror
  · rw [if_neg hreset, if_neg hreset]

theorem assert_initResetEnd (remoteReset : ECPDRemoteResetType) (next : Sdm SDMReturnCode)
    (rest : Sdm β) : psaAdacAssert bail (this.initResetEnd id remoteReset next) rest =
      this.initResetEnd bail remoteReset (psaAdacAssert bail next rest) := by
  cases remoteReset with
  | none => rfl
  | com => exact assert_assert _ _ _
  | system => exact assert_assert _ _ _

end

theorem eComPortInit_eq_handshake (fuel : Nat) (remoteReset : ECPDRemoteResetType)
    (idResponseBuffer : List UInt8) (idBufferLength : Nat) :
    this.eComPortInit fuel remoteReset idResponseBuffer idBufferLength =
      psaAdacAssert (fun res => ⟨res, idResponseBuffer, this⟩) (this.initHandshake fuel remoteReset) (do
        let rx ← this.eComPortRxInt fuel flagIDA idResponseBuffer idBufferLength 0
        if rx.res ≠ .success then return ⟨rx.res, rx.rxBuffer, this⟩
        if rx.actualLength = 0 then return ⟨.transferError, rx.rxBuffer, this⟩
        return ⟨.success, rx.rxBuffer, { this with mIsComPortInited := true }⟩) := by
  rw [initHandshake, assert_initResetStart, assert_assert, assert_assert, assert_initResetEnd,
    assert_assert, assert_assert, assert_success]
  rfl

def powerOff : List Stage := [.send flagLPH1RL, .await flagLPH1RL]

def power : ECPDRequiredState → List Stage
  | .powerOn => powerOn
  | .powerOff => powerOff

def finalize : List Stage := .send flagLPH2RL :: .await flagLPH2RL :: powerOff

section
variable (hcb : this.mRegisterAccessCallback = true)
include hcb

theorem paced_eComPortPower (requiredState : ECPDRequiredState) :
    this.Paced (fun fuel => this.eComPortPower fuel requiredState) (power requiredState) := by
  cases requiredState with
  | powerOff => exact paced_assert (paced_send hcb _) (paced_assert (paced_await hcb _) paced_return)
  | powerOn =>
    exact paced_assert (paced_send hcb _) <| paced_assert (paced_await hcb _) <|
      paced_assert (paced_send hcb _) <| paced_assert (paced_await hcb _) paced_return

theorem paced_initHandshake (remoteReset : ECPDRemoteResetType) :
    this.Paced (fun fuel => this.initHandshake fuel remoteReset)
      (link remoteReset ++ (remoteReset.step ++ [.await flagLPH2RA, .send flagIDR])) := by
  rw [link, List.append_assoc, List.append_assoc]
  exact paced_initResetStart remoteReset <| paced_assert (paced_eComPortPower hcb .powerOn) <|
    paced_assert (paced_send hcb _) <| paced_initResetEnd hcb remoteReset <|
    paced_assert (paced_await hcb _) <| paced_assert (paced_send hcb _) paced_return

theorem paced_eComPortFinalize : this.Paced (fun fuel => this.eComPortFinalize fuel) finalize :=
  paced_assert (paced_send hcb _) <| paced_assert (paced_await hcb _) <|
    paced_assert (paced_eComPortPower hcb .powerOff) paced_return

/-- A wait returns just if the device delivers the flag, reports a fault or stops delivering bytes
at some time, and an operation just if the device does so from each wait that it reaches on. -/
theorem eComWaitFlag_returns (d : Device) :
    (∀ flag, Completes (device this) (fun fuel => this.eComWaitFlag fuel flag) d ↔
      Responds flag d) ∧
    (∀ requiredState, Completes (device this) (fun fuel => this.eComPortPower fuel requiredState) d ↔
      this.Unblocked (power requiredState) d) ∧
    (∀ remoteReset, Completes (device this) (fun fuel => this.initHandshake fuel remoteReset) d ↔
      this.Unblocked (link remoteReset ++ (remoteReset.step ++ [.await flagLPH2RA, .send flagIDR])) d) ∧
    (Completes (device this) (fun fuel => this.eComPortFinalize fuel) d ↔ this.Unblocked finalize d) :=
  ⟨fun flag => completes_waitFlag hcb flag d,
    fun requiredState => (paced_eComPortPower hcb requiredState).completes d,
    fun remoteReset => (paced_initHandshake hcb remoteReset).completes d,
    (paced_eComPortFinalize hcb).completes d⟩

end

/-- A device that always has room for a byte and a byte to read, and delivers `NULL` for ever. -/
def idleDevice : Device where
  status := Stream'.const 0x00010001
  data := Stream'.const flagNULL.toUInt32
  resetStart := .success
  resetEnd := .success

theorem not_responds_idleDevice (hflag : flag ≠ flagNULL) : ¬Responds flag idleDevice := by
  intro h
  obtain ⟨n, h | h | h⟩ := h
  · have hbyte : idleDevice.byte n = flagNULL := rfl
    exact hflag (h.symm.trans hbyte)
  · have hsound : ¬Faulty (0x00010001 : UInt32) := by
      rw [Faulty]
      decide
    exact hsound h
  · have hdata : (statusOfSR 0x00010001).rxData ≠ 0 := by decide
    exact hdata (h 0 (by decide))

theorem responds_idleDevice : Responds flag idleDevice ↔ flag = flagNULL := by
  constructor
  · intro h
    by_contra hflag
    exact not_responds_idleDevice hflag h
  · intro h
    exact ⟨0, .inl h.symm⟩

theorem grants_idleDevice (flag : UInt8) : this.Grants idleDevice (.send flag) idleDevice := by
  have hready : Ready Status.txFree idleDevice 0 := by
    refine ⟨fun i hi => absurd hi (Nat.not_lt_zero i), fun h => ?_, ?_⟩
    · have hsound : ¬Faulty (0x00010001 : UInt32) := by
        rw [Faulty]
        decide
      exact hsound h
    · show (statusOfSR 0x00010001).txFree ≠ 0
      decide
  exact .send ⟨0, by decide, hready, rfl⟩

theorem not_unblocked_idleDevice {ss ss₁ ss₂ : List Stage}
    (hgrants : Steps this.Grants idleDevice ss₁ idleDevice) (hss : ss = ss₁ ++ .await flag :: ss₂)
    (hflag : flag ≠ flagNULL) : ¬this.Unblocked ss idleDevice := fun h =>
  not_responds_idleDevice hflag (h ss₁ flag ss₂ idleDevice hss hgrants)

theorem eComWaitFlag_returns_idle :
    (∀ flag, Completes (device inited) (fun fuel => inited.eComWaitFlag fuel flag) idleDevice ↔
      flag = flagNULL) ∧
    (∀ requiredState,
      ¬Completes (device inited) (fun fuel => inited.eComPortPower fuel requiredState) idleDevice) ∧
    (∀ remoteReset,
      ¬Completes (device inited) (fun fuel => inited.initHandshake fuel remoteReset) idleDevice) ∧
    ¬Completes (device inited) (fun fuel => inited.eComPortFinalize fuel) idleDevice := by
  have hpower : Steps inited.Grants idleDevice [.send flagLPH1RL] idleDevice :=
    steps_singleton.mpr (grants_idleDevice flagLPH1RL)
  have hcb : inited.mRegisterAccessCallback = true := rfl
  obtain ⟨hwait, hstate, hinit, hfinal⟩ := eComWaitFlag_returns hcb idleDevice
  refine ⟨fun flag => (hwait flag).trans responds_idleDevice, fun requiredState => ?_,
    fun remoteReset => ?_, ?_⟩
  · rw [hstate]
    cases requiredState with
    | powerOn => exact not_unblocked_idleDevice hpower rfl (by decide)
    | powerOff => exact not_unblocked_idleDevice hpower rfl (by decide)
  · rw [hinit]
    cases remoteReset with
    | none => exact not_unblocked_idleDevice hpower rfl (by decide)
    | com => exact not_unblocked_idleDevice hpower rfl (by decide)
    | system =>
      have hstart : Steps inited.Grants idleDevice [.resetStart, .send flagLPH1RL] idleDevice :=
        .cons (.resetStart rfl rfl rfl) hpower
      exact not_unblocked_idleDevice hstart rfl (by decide)
  · rw [hfinal]
    have hsend : Steps inited.Grants idleDevice [.send flagLPH2RL] idleDevice :=
      steps_singleton.mpr (grants_idleDevice flagLPH2RL)
    exact not_unblocked_idleDevice hsend rfl (by decide)

theorem eComWaitFlag_returns_busy :
    ¬∀ (this : ExternalComPortDriver) (d : Device) (flag : UInt8), this.mRegisterAccessCallback = true →
      Completes (device this) (fun fuel => this.eComWaitFlag fuel flag) d ∧
      Completes (device this) (fun fuel => this.eComPortPower fuel .powerOn) d := by
  intro h
  have hreturns := (h inited idleDevice flagLPH1RL rfl).1
  exact not_responds_idleDevice (by decide) ((completes_waitFlag rfl _ _).mp hreturns)

end ExternalComPortDriver
end SecureDebug
