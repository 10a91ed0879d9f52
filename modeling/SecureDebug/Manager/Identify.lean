import SecureDebug.Manager.Session

/-! `SDMOpen` compares six bytes of its buffer with the protocol, however many of them the
identification response filled. -/

namespace SecureDebug
open Interaction Program Framing
open scoped List

def identReads (t : List Observation) : List UInt8 :=
  (t.dropWhile (· ≠ .wrote flagIDR true)).filterMap heard

theorem identReads_of_split {t₁ : List Observation} {bytes : List UInt8}
    (h : .wrote flagIDR true ∉ t₁) :
    identReads (t₁ ++ .wrote flagIDR true :: bytes.map .read) = bytes := by
  have hpos (o : Observation) (ho : o ∈ t₁) : decide (o ≠ .wrote flagIDR true) = true :=
    decide_eq_true fun heq => h (heq ▸ ho)
  have hread : heard ∘ Observation.read = some := rfl
  rw [identReads, List.dropWhile_append_of_pos hpos, List.dropWhile_cons_of_neg (by simp),
    List.filterMap_cons, List.filterMap_map, hread, List.filterMap_some]
  rfl

theorem identReads_of_not_mem {t : List Observation} (h : .wrote flagIDR true ∉ t) :
    identReads t = [] := by
  have hnil : t.dropWhile (· ≠ .wrote flagIDR true) = [] := by
    rw [List.dropWhile_eq_nil_iff]
    exact fun o ho => decide_eq_true fun heq => h (heq ▸ ho)
  rw [identReads, hnil]
  rfl

theorem exists_identification {accepted : List UInt8 → Prop} {remoteReset : ECPDRemoteResetType}
    {t : List Observation} {c : Bool}
    (h : (stages accepted).Follows (handshake remoteReset) t c) (hmem : .wrote flagIDR true ∈ t) :
    ∃ t₁ bytes, t = t₁ ++ .wrote flagIDR true :: bytes.map .read ∧ .wrote flagIDR true ∉ t₁ ∧
      (c = true ↔ accepted bytes) := by
  have hsplit : handshake remoteReset =
      (link remoteReset ++ (remoteReset.step ++ [.await flagLPH2RA])) ++ .send flagIDR :: [.identify] := by
    simp [handshake]
  have hids (s : Stage) (hs : s ∈ link remoteReset ++ (remoteReset.step ++ [.await flagLPH2RA])) :
      s ≠ .identify := by
    rintro rfl
    revert hs
    cases remoteReset <;> decide
  obtain ⟨t₁, t₂, ht, hfirst⟩ := List.eq_append_cons_of_mem hmem
  have hbefore : (stages accepted).Follows
      (link remoteReset ++ (remoteReset.step ++ [.await flagLPH2RA])) t₁ true := by
    refine follows_before (ht ▸ h) hsplit rfl ?_ ?_
    · show some (Action.flag flagIDR) ∉ _
      cases remoteReset <;> decide
    · show some (Action.flag flagIDR) ∉ _
      decide
  rw [hsplit] at h
  obtain ⟨t₂', ht', hrest⟩ := h.continue (fun s hs => ExternalComPortDriver.done_unique s (hids s hs))
    (fun s hs => ExternalComPortDriver.not_done_of_cut s (hids s hs)) hbefore ⟨_, ht.symm⟩
  obtain rfl := List.append_cancel_left (ht.symm.trans ht')
  generalize hu : Observation.wrote flagIDR true :: t₂ = u at hrest
  cases hrest with
  | cut hcut => rcases hcut with rfl | rfl | rfl <;> cases hu
  | step hdone hlast =>
    rw [show _ = [Observation.wrote flagIDR true] from hdone] at hu
    obtain ⟨-, rfl⟩ := List.cons.inj hu
    cases hlast with
    | cut hcut =>
      obtain ⟨bytes, hno, rfl⟩ := hcut
      exact ⟨t₁, bytes, ht, hfirst, by simp [hno]⟩
    | step hdone' hnil =>
      obtain ⟨bytes, hyes, rfl⟩ := hdone'
      obtain ⟨rfl, rfl⟩ := Plan.follows_nil.mp hnil
      rw [List.append_nil] at ht
      exact ⟨t₁, bytes, ht, hfirst, by simp [hyes]⟩

/-- `EComPort_Init` succeeds and leaves `target` in the buffer just if that is what the bytes
after `IDR` amount to. -/
theorem identified_iff {this : ExternalComPortDriver} {fuel idBufferLength : Nat}
    {remoteReset : ECPDRemoteResetType} {idResponseBuffer target : List UInt8} {l : Trace}
    {r : Except Stop InitResult}
    (h : Run (this.eComPortInit fuel remoteReset idResponseBuffer idBufferLength) l r) :
    (∃ out, r = .ok out ∧ out.res = .success ∧ out.idResponseBuffer = target) ↔
      ExternalComPortDriver.Identified idResponseBuffer idBufferLength target
        (identReads (this.traffic l)) := by
  obtain ⟨c, hf, hc⟩ := ExternalComPortDriver.performs_eComPortInit target l r h
  rw [← hc]
  by_cases hmem : .wrote flagIDR true ∈ this.traffic l
  · obtain ⟨t₁, bytes, ht, hfirst, hiff⟩ := exists_identification hf hmem
    rw [ht, identReads_of_split hfirst, hiff]
  · rw [identReads_of_not_mem hmem]
    refine iff_of_false ?_ fun ⟨n, _, hrec⟩ => not_receives_nil hrec
    rintro rfl
    refine hmem ((hf.flatMap_sublist mark_sublist).subset ?_)
    rw [List.mem_flatMap]
    exact ⟨.send flagIDR, by simp [handshake], List.mem_singleton_self _⟩

/-! ### What passes for the protocol -/

def idMemory (junk pre : List UInt8) : List UInt8 :=
  overlay junk (({} : Receiver UInt8).run (sdc600 flagIDA) pre).image

/-- The bytes in front of the end flag get past the checks of `EComPort_Init`, and over what
was in the buffer before they spell the protocol. -/
structure Passes (junk pre : List UInt8) : Prop where
  stop : flagEND ∉ pre
  start : flagIDA ∈ pre
  fits : Receiver.Fits (sdc600 flagIDA) maxPreNullFlags sdResponseLength {} pre
  stored : (({} : Receiver UInt8).run (sdc600 flagIDA) pre).stored.getD 0 ≠ 0
  spells : idMemory junk pre = protocol

/-- The identification response: the un-escaped bytes after the last `IDA`. -/
def idResponse (pre : List UInt8) : List UInt8 := (sdc600 flagIDA).message pre

section
variable {junk bytes pre : List UInt8}

theorem identified_protocol_iff (hjunk : junk.length = sdResponseLength) :
    ExternalComPortDriver.Identified junk sdResponseLength protocol bytes ↔
      ∃ pre, bytes = pre ++ [flagEND] ∧ Passes junk pre := by
  have hflag : IsStartFlag flagIDA := .inr rfl
  have room : Room sdResponseLength junk := ⟨by decide, Nat.le_of_eq hjunk.symm⟩
  constructor
  · rintro ⟨n, hn, hrec⟩
    obtain ⟨pre, rfl, hend, hfits, hstarted, hout⟩ :=
      hrec.success hflag room Receiver.ok_nil rfl
    obtain ⟨-, hbuf, hlen⟩ := RxResult.mk.inj hout
    exact ⟨pre, rfl, hend, (ExternalComPortDriver.started_nil_run hflag).mp hstarted, hfits,
      hlen ▸ hn, hbuf.symm⟩
  · rintro ⟨pre, rfl, h⟩
    have hrec := receives_of_fits 0 hflag room h.stop h.fits
    rw [rxResultOf, (ExternalComPortDriver.started_nil_run hflag).mpr h.start, if_pos rfl,
      show overlay junk _ = protocol from h.spells] at hrec
    exact ⟨_, h.stored, hrec⟩

theorem unstuff_protocol {e : Bool} {s : List UInt8}
    (h : (sdc600 flagIDA).unstuff e s = protocol) : (sdc600 flagIDA).unstuff false s = protocol := by
  cases e with
  | false => exact h
  | true =>
    obtain ⟨a, ha⟩ := (sdc600 flagIDA).exists_mark_of_unstuff h
    have hle : 0x80 ≤ (a ||| 0x80).toNat := by
      rw [UInt8.toNat_or]
      exact Nat.right_le_or
    rw [show a ||| 0x80 = 0x50 from ha.symm] at hle
    exact absurd hle (by decide)

theorem Passes.idResponse_eq (h : Passes junk pre)
    (hlen : (idResponse pre).length = sdResponseLength) : idResponse pre = protocol := by
  have lawful := sdc600_lawful (.inr rfl : IsStartFlag flagIDA)
  obtain ⟨e, hcur⟩ := Receiver.exists_cur_run {} lawful.start_ne_null lawful.start_ne_esc
    (show (sdc600 flagIDA).start ∈ pre from h.start)
  rw [idResponse, Alphabet.message, Alphabet.length_unstuff] at hlen
  rw [idResponse, Alphabet.message]
  have hok := h.fits.ok Receiver.ok_nil
  have hspells := h.spells
  have hjunk : junk.length ≤ sdResponseLength := by
    have hlength := congrArg List.length hspells
    rw [idMemory, length_overlay] at hlength
    exact (Nat.le_max_left _ _).trans (Nat.le_of_eq hlength)
  rw [idMemory, Receiver.image, ← overlay_assoc, overlay_of_length_le] at hspells
  · rw [hcur] at hspells
    exact unstuff_protocol hspells
  · rw [length_overlay, hcur, Alphabet.length_unstuff, hlen]
    exact max_le hjunk hok.done

end

theorem checkProtocol_eq_success {idResBuff : List UInt8} (h : idResBuff.length = sdResponseLength) :
    checkProtocol idResBuff protocol = .success ↔ idResBuff = protocol := by
  have htake : idResBuff.take sdResponseLength = idResBuff := List.take_of_length_le (Nat.le_of_eq h)
  have hprotocol : protocol.take sdResponseLength = protocol := rfl
  rw [checkProtocol, htake, hprotocol]
  split_ifs with hne
  · simpa using Ne.symm hne
  · simpa using (not_not.mp hne).symm

namespace SecureDebugManagerImpl
variable {this this' : SecureDebugManagerImpl} {fuel : Nat} {params : SDMOpenParameters}
  {l : Trace} {res : SDMReturnCode}

def openDriver (params : SDMOpenParameters) : ExternalComPortDriver :=
  match params.callbacks with
  | some callbacks => .new params.debugArchitecture callbacks.registerAccess callbacks.resetStart
      callbacks.resetFinish
  | none => .new params.debugArchitecture false false false

def stackContent (l : Trace) : List UInt8 :=
  (l.findSome? fun
    | ⟨.uninitialised _, (content : Vector UInt8 _)⟩ => some content.toList
    | _ => none).getD []

/-- `SDMOpen` succeeds just if what was read passes for the protocol. -/
theorem sdmOpen_success_iff (h : Run (this.sdmOpen fuel (some params)) l (.ok (res, this'))) :
    res = .success ↔ ∃ pre, identReads ((openDriver params).traffic l) = pre ++ [flagEND] ∧
      Passes (stackContent l) pre := by
  have hsilent (l : Trace) (hl : (openDriver params).traffic l = []) (hres : res ≠ .success) :
      res = .success ↔ ∃ pre, identReads ((openDriver params).traffic l) = pre ++ [flagEND] ∧
        Passes (stackContent l) pre := by
    refine iff_of_false hres fun ⟨pre, hpre, _⟩ => ?_
    rw [hl] at hpre
    simp [identReads] at hpre
  unfold sdmOpen at h
  by_cases hopen : this.mOpen = true
  · rw [if_pos hopen] at h
    obtain ⟨rfl, rfl, -⟩ := run_pure_pair.mp h
    exact hsilent [] rfl (by decide)
  rw [if_neg hopen] at h
  dsimp only at h
  cases hcb : params.callbacks with
  | none =>
    rw [hcb] at h
    cases (run_halt.mp h).2
  | some callbacks =>
    rw [hcb, deref_some, pure_bind] at h
    have hdriver : openDriver params = .new params.debugArchitecture callbacks.registerAccess
        callbacks.resetStart callbacks.resetFinish := by rw [openDriver, hcb]
    obtain ⟨adacRes, l₁, l₂, rfl, h₁, h₂⟩ := run_bind_ok.mp h
    obtain ⟨answer, rfl, hanswer⟩ := run_perform.mp h₁
    by_cases hinit : adacRes < 0
    · rw [if_pos hinit] at h₂
      obtain ⟨rfl, rfl, -⟩ := run_pure_pair.mp h₂
      exact hsilent _ rfl (by decide)
    rw [if_neg hinit] at h₂
    obtain ⟨idResBuff, l₃, l₄, rfl, h₃, h₄⟩ := run_bind_ok.mp h₂
    obtain ⟨_, rfl, hjunk⟩ := run_perform.mp h₃
    obtain rfl := Except.ok.inj hjunk
    obtain ⟨out, l₅, l₆, rfl, h₅, h₆⟩ := run_bind_ok.mp h₄
    rw [← hdriver] at h₅
    have htraffic (l : Trace) : (openDriver params).traffic ([⟨.psaAdacInit, answer⟩] ++
        ([⟨.uninitialised sdResponseLength, idResBuff⟩] ++ l)) = (openDriver params).traffic l := by
      rw [ExternalComPortDriver.traffic_append, ExternalComPortDriver.traffic_append]
      rfl
    have hstack (l : Trace) : stackContent ([⟨.psaAdacInit, answer⟩] ++
        ([⟨.uninitialised sdResponseLength, idResBuff⟩] ++ l)) = idResBuff.toList := rfl
    have hsize : out.idResponseBuffer.length = sdResponseLength :=
      (ExternalComPortDriver.returns_eComPortInit _ _ h₅).trans idResBuff.length_toList
    obtain ⟨rfl, hres⟩ : l₆ = [] ∧
        (res = .success ↔ out.res = .success ∧ out.idResponseBuffer = protocol) := by
      rw [← checkProtocol_eq_success hsize]
      split_ifs at h₆ with hinit hprotocol
      · obtain ⟨rfl, rfl, -⟩ := run_pure_pair.mp h₆
        exact ⟨rfl, by simp [hinit]⟩
      · obtain ⟨rfl, rfl, -⟩ := run_pure_pair.mp h₆
        exact ⟨rfl, by simp [hprotocol]⟩
      · obtain ⟨rfl, rfl, -⟩ := run_pure_pair.mp h₆
        exact ⟨rfl, by simp [not_not.mp hinit, not_not.mp hprotocol]⟩
    rw [List.append_nil, htraffic, hstack, ← identified_protocol_iff idResBuff.length_toList,
      ← identified_iff h₅, hres]
    simp

/-- `SDMOpen` returns success only to a target whose identification response is the protocol,
just in the runs in which a response that passes for it is six bytes long. -/
theorem sdmOpen_identified (h : Run (this.sdmOpen fuel (some params)) l (.ok (res, this'))) :
    (res = .success → ∃ pre, identReads ((openDriver params).traffic l) = pre ++ [flagEND] ∧
      flagEND ∉ pre ∧ flagIDA ∈ pre ∧ idResponse pre = protocol) ↔
    (∀ pre, identReads ((openDriver params).traffic l) = pre ++ [flagEND] →
      Passes (stackContent l) pre → (idResponse pre).length = 6) := by
  rw [sdmOpen_success_iff h]
  constructor
  · intro hres pre hpre hpasses
    obtain ⟨pre', hpre', -, -, hid⟩ := hres ⟨pre, hpre, hpasses⟩
    obtain rfl := List.append_cancel_right (hpre.symm.trans hpre')
    rw [hid]
    rfl
  · rintro hlen ⟨pre, hpre, hpasses⟩
    exact ⟨pre, hpre, hpasses.stop, hpasses.start,
      hpasses.idResponse_eq (hlen pre hpre hpasses)⟩

theorem sdmOpen_identified_letters : ∃ pre,
    identReads ((openDriver allCallbacks).traffic (scripted.exec (new.sdmOpen 9 (some allCallbacks))
      (ExternalComPortDriver.identifyScript ([flagIDA] ++ protocol ++ [flagEND]))).2.1) =
        pre ++ [flagEND] ∧
      flagEND ∉ pre ∧ flagIDA ∈ pre ∧ idResponse pre = protocol := by
  obtain ⟨this', hrun⟩ := exists_run_of_exec
    (new.sdmOpen 9 (some allCallbacks))
    (ExternalComPortDriver.identifyScript ([flagIDA] ++ protocol ++ [flagEND])) .success
    (by decide +kernel)
  have hreads : identReads ((openDriver allCallbacks).traffic (scripted.exec
      (new.sdmOpen 9 (some allCallbacks))
        (ExternalComPortDriver.identifyScript ([flagIDA] ++ protocol ++ [flagEND]))).2.1) =
      [flagIDA] ++ protocol ++ [flagEND] := by decide +kernel
  refine (sdmOpen_identified hrun).mpr (fun pre hpre _ => ?_) rfl
  obtain rfl := List.append_cancel_right (hreads.symm.trans hpre)
  decide

theorem sdmOpen_identified_short :
    ¬∀ (this this' : SecureDebugManagerImpl) (fuel : Nat) (params : SDMOpenParameters) (l : Trace)
      (res : SDMReturnCode), Run (this.sdmOpen fuel (some params)) l (.ok (res, this')) →
      res = .success → ∃ pre, identReads ((openDriver params).traffic l) = pre ++ [flagEND] ∧
        flagEND ∉ pre ∧ flagIDA ∈ pre ∧ idResponse pre = protocol := by
  intro h
  obtain ⟨this', hrun⟩ := exists_run_of_exec
    (new.sdmOpen 11 (some allCallbacks))
    (ExternalComPortDriver.identifyScript ([flagIDA] ++ protocol ++ [flagIDA, 0x50, flagEND]))
    .success (by decide +kernel)
  have hreads : identReads ((openDriver allCallbacks).traffic (scripted.exec
      (new.sdmOpen 11 (some allCallbacks)) (ExternalComPortDriver.identifyScript
        ([flagIDA] ++ protocol ++ [flagIDA, 0x50, flagEND]))).2.1) =
      [flagIDA] ++ protocol ++ [flagIDA, 0x50] ++ [flagEND] := by decide +kernel
  obtain ⟨pre, hpre, -, -, hid⟩ := h _ _ _ _ _ _ hrun rfl
  obtain rfl := List.append_cancel_right (hreads.symm.trans hpre)
  exact absurd hid (by decide)

end SecureDebugManagerImpl
end SecureDebug
