import SecureDebug.Driver.Stream
import SecureDebug.Driver.Transmit

/-! What one side frames the other side gets back: a whole session of receives against a wire
that carries framed payloads with idle bytes anywhere in between. -/

namespace SecureDebug
open Interaction Program Framing

def builtFrame (payload : List UInt8) : List UInt8 :=
  match preparedFrame payload with
  | .ok frame => frame.outData.take frame.outSize
  | .error _ => []

theorem builtFrame_eq {payload : List UInt8}
    (h : ((sdc600 flagSTART).frame payload).length ≤ 65535) :
    builtFrame payload = (sdc600 flagSTART).frame payload := by
  obtain ⟨frame, hframe, -, -, htake⟩ := preparedFrame_eq h
  rw [builtFrame, hframe]
  exact htake

/-! ### One frame among idle bytes -/

section
variable {payload pre bytes rest rxBuffer : List UInt8} {rxBufferLength : Nat}

theorem lawful_start : (sdc600 flagSTART).Lawful := sdc600_lawful (.inl rfl)

theorem exists_frame_split
    (h : bytes.filter (· ≠ flagNULL) = (sdc600 flagSTART).frame payload ++ rest) :
    ∃ pre bytes', bytes = pre ++ [flagEND] ++ bytes' ∧ bytes'.filter (· ≠ flagNULL) = rest ∧
      pre.filter (· ≠ flagNULL) = flagSTART :: (sdc600 flagSTART).stuff payload := by
  have hframe : (sdc600 flagSTART).frame payload ++ rest =
      (flagSTART :: (sdc600 flagSTART).stuff payload) ++ flagEND :: rest := by
    simp [Alphabet.frame, sdc600]
  rw [hframe, List.filter_eq_append_iff] at h
  obtain ⟨x, y, rfl, hx, hy⟩ := h
  obtain ⟨z, w, rfl, hz, -, hw⟩ := List.filter_eq_cons_iff.mp hy
  refine ⟨x ++ z, w, by simp, hw, ?_⟩
  rw [List.filter_append, hx, List.filter_eq_nil_iff.mpr hz, List.append_nil]

theorem flagEND_not_mem
    (h : pre.filter (· ≠ flagNULL) = flagSTART :: (sdc600 flagSTART).stuff payload) :
    flagEND ∉ pre := by
  intro hmem
  have hfilter : flagEND ∈ pre.filter (· ≠ flagNULL) :=
    List.mem_filter.mpr ⟨hmem, by decide⟩
  rw [h, List.mem_cons] at hfilter
  rcases hfilter with hfilter | hfilter
  · exact absurd hfilter (by decide)
  · exact lawful_start.stop_not_mem_stuff payload hfilter

/-- No run of more than 10000 idle bytes leads up to a start flag. -/
def GapsBounded (bytes : List UInt8) : Prop :=
  ∀ u n v, bytes = u ++ List.replicate n flagNULL ++ flagSTART :: v → n ≤ 10000

theorem gapsBounded_of_length (h : bytes.length ≤ 10000) : GapsBounded bytes := by
  rintro u n v rfl
  simp only [List.length_append, List.length_replicate] at h
  omega

theorem GapsBounded.leadingNulls (hgaps : GapsBounded (pre ++ bytes))
    (h : pre.filter (· ≠ flagNULL) = flagSTART :: (sdc600 flagSTART).stuff payload) :
    Receiver.leadingNulls (sdc600 flagSTART) pre ≤ maxPreNullFlags := by
  obtain ⟨z, w, rfl, hz, -, -⟩ := List.filter_eq_cons_iff.mp h
  have hznull (b : UInt8) (hb : b ∈ z) : b = flagNULL := by simpa using hz b hb
  have hrep : z = List.replicate z.length flagNULL := List.eq_replicate_iff.mpr ⟨rfl, hznull⟩
  have hlen : z.length ≤ 10000 := by
    refine hgaps [] z.length (w ++ bytes) ?_
    rw [← hrep]
    simp
  have hpos (b : UInt8) (hb : b ∈ z) : decide (b ≠ flagSTART) = true := by
    rw [hznull b hb]
    decide
  have htake : (z ++ flagSTART :: w).takeWhile (· ≠ flagSTART) = z := by
    rw [List.takeWhile_append_of_pos hpos, List.takeWhile_cons_of_neg (by simp), List.append_nil]
  rw [Receiver.leadingNulls]
  show ((z ++ flagSTART :: w).takeWhile (· ≠ flagSTART)).count flagNULL ≤ _
  rw [htake]
  exact (List.count_le_length).trans hlen

theorem receives_frame (room : Room rxBufferLength rxBuffer) (hlen : payload.length ≤ rxBufferLength)
    (h : pre.filter (· ≠ flagNULL) = flagSTART :: (sdc600 flagSTART).stuff payload)
    (hnulls : Receiver.leadingNulls (sdc600 flagSTART) pre ≤ maxPreNullFlags) :
    Receives flagSTART rxBufferLength (rxStateOf rxBuffer 0 {}) (pre ++ [flagEND])
      ⟨.success, overlay rxBuffer payload, payload.length⟩ := by
  have hrec : Receives flagSTART rxBufferLength (rxStateOf rxBuffer 0 {}) (pre ++ [flagEND])
      (rxResultOf rxBuffer 0 (({} : Receiver UInt8).run (sdc600 flagSTART) pre)) :=
    receives_of_fits _ (.inl rfl) room (flagEND_not_mem h)
      (Receiver.fits_frame lawful_start h hnulls hlen)
  obtain ⟨hstarted, hdone, hcur, hstored⟩ := Receiver.run_frame lawful_start h
  rw [rxResultOf, hstarted, Receiver.image, hdone, hcur, hstored, nil_overlay, if_pos rfl] at hrec
  exact hrec

end

namespace ExternalComPortDriver
variable {this : ExternalComPortDriver}

/-- One `EComPort_Rx` after the other, each with a buffer of its own and `*ActualLength` 0. -/
def rxCalls (this : ExternalComPortDriver) (fuel rxBufferLength : Nat) :
    List (List UInt8) → Sdm (List RxResult)
  | [] => return []
  | rxBuffer :: rxBuffers => do
    let out ← this.eComPortRx fuel rxBuffer rxBufferLength 0
    let outs ← rxCalls this fuel rxBufferLength rxBuffers
    return out :: outs

/-- A session of receives gives back the payloads whose frames are on the wire, in order,
none lost, merged or doubled, wherever idle bytes were put in. -/
theorem rxCalls_round_trip {σ : Type} {m : Machine Host σ} {s t : σ} {fuel rxBufferLength : Nat}
    {payloads rxBuffers : List (List UInt8)} {bytes : List UInt8}
    (hinit : this.mIsComPortInited = true) (hmax : rxBufferLength ≤ 65535)
    (hbuffers : ∀ rxBuffer ∈ rxBuffers, rxBufferLength ≤ rxBuffer.length)
    (hcalls : rxBuffers.length = payloads.length)
    (hlen : ∀ payload ∈ payloads, payload.length ≤ rxBufferLength)
    (hframe : ∀ payload ∈ payloads, ((sdc600 flagSTART).frame payload).length ≤ 65535)
    (hbytes : bytes.filter (· ≠ flagNULL) = (payloads.map builtFrame).flatten)
    (hgaps : GapsBounded bytes) (hs : this.Delivers m s bytes t) (hfuel : bytes.length ≤ fuel) :
    ∃ outs l u, m.exec (this.rxCalls fuel rxBufferLength rxBuffers) s = (.ok outs, l, u) ∧
      List.Forall₂ (fun payload out => out.res = .success ∧ out.actualLength = payload.length ∧
        out.rxBuffer.take out.actualLength = payload) payloads outs := by
  induction payloads generalizing rxBuffers bytes s with
  | nil =>
    obtain rfl := List.length_eq_zero_iff.mp hcalls
    exact ⟨[], [], s, rfl, .nil⟩
  | cons payload payloads ih =>
    obtain ⟨rxBuffer, rxBuffers, rfl⟩ := List.exists_cons_of_length_eq_add_one hcalls
    rw [List.map_cons, List.flatten_cons, builtFrame_eq (hframe payload List.mem_cons_self)] at hbytes
    obtain ⟨pre, bytes', rfl, hbytes', hpre⟩ := exists_frame_split hbytes
    obtain ⟨u, hpreu, hu⟩ := delivers_append.mp hs
    have room : Room rxBufferLength rxBuffer := ⟨hmax, hbuffers rxBuffer List.mem_cons_self⟩
    have hnulls : Receiver.leadingNulls (sdc600 flagSTART) pre ≤ maxPreNullFlags := by
      rw [List.append_assoc] at hgaps
      exact hgaps.leadingNulls hpre
    have hrec := receives_frame room (hlen payload List.mem_cons_self) hpre hnulls
    have hpfuel : (pre ++ [flagEND]).length ≤ fuel :=
      (List.prefix_append (pre ++ [flagEND]) bytes').length_le.trans hfuel
    obtain ⟨l, hexec, -, -⟩ := exec_rxLoop hrec hpreu hpfuel
    have hgaps' : GapsBounded bytes' := fun v n w hv =>
      hgaps (pre ++ [flagEND] ++ v) n w (by rw [hv]; simp)
    have hfuel' : bytes'.length ≤ fuel :=
      (List.suffix_append (pre ++ [flagEND]) bytes').length_le.trans hfuel
    obtain ⟨outs, l', u', hexec', hall⟩ := ih
      (fun b hb => hbuffers b (List.mem_cons_of_mem _ hb)) (Nat.succ.inj hcalls)
      (fun p hp => hlen p (List.mem_cons_of_mem _ hp))
      (fun p hp => hframe p (List.mem_cons_of_mem _ hp)) hbytes' hgaps' hu hfuel'
    have hcall : m.exec (this.eComPortRx fuel rxBuffer rxBufferLength 0) s =
        (.ok ⟨.success, overlay rxBuffer payload, payload.length⟩, l, u) := by
      rw [eComPortRx, hinit]
      exact hexec
    refine ⟨⟨.success, overlay rxBuffer payload, payload.length⟩ :: outs, l ++ (l' ++ []), u', ?_,
      .cons ⟨rfl, rfl, ?_⟩ hall⟩
    · rw [rxCalls, Machine.exec_bind, hcall]
      dsimp only
      rw [Machine.exec_bind, hexec']
      rfl
    · rw [take_overlay (Nat.le_refl _), List.take_length]

theorem rxCalls_round_trip_escaped :
    ∃ outs l u, scripted.exec (inited.rxCalls 20 2 [[0, 0], [9, 9]])
        ([flagNULL, 0xAC, 0xAE, flagNULL, 0x25, 0x01, 0xAD, flagNULL, 0xAC, 0xAD].map cleanRead ++
          []) = (.ok outs, l, u) ∧
      List.Forall₂ (fun payload out => out.res = .success ∧ out.actualLength = payload.length ∧
        out.rxBuffer.take out.actualLength = payload) [[0xA5, 0x01], []] outs := by
  refine rxCalls_round_trip rfl (by decide) (by decide) rfl (by decide) (by decide) ?_
    (gapsBounded_of_length ?_) (delivers_scripted rfl _ []) ?_
  · decide
  · decide
  · decide

end ExternalComPortDriver
end SecureDebug
