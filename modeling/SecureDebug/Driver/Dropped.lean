import SecureDebug.Driver.Message
import SecureDebug.Driver.RoundTrip

/-! What `EComPort_Rx` does not keep: a link dropper flag inside the stream, and a message that
outgrows the buffer. -/

namespace SecureDebug
open Interaction Program Framing

/-! ### What one turn stores -/

def rxStore (startFlag : UInt8) (rxBufferLength : Nat) (s : RxState) (readByte : UInt8) :
    Option (Nat × UInt8) :=
  if readByte = flagEND ∨ readByte = flagNULL ∨ readByte = flagESC ∨ readByte = startFlag then none
  else if s.bufferIdx ≥ rxBufferLength then none
  else some (s.bufferIdx, if s.isEscRecv then readByte ||| 0x80 else readByte)

def RxStep.rxBuffer : RxStep → List UInt8
  | .more s => s.rxBuffer
  | .done result => result.rxBuffer

section
variable {startFlag byte : UInt8} {rxBufferLength : Nat} {s s' : RxState} {step : RxStep}

theorem rxStore_of_isData (h : IsData startFlag byte) : rxStore startFlag rxBufferLength s byte =
    if s.bufferIdx ≥ rxBufferLength then none
    else some (s.bufferIdx, if s.isEscRecv then byte ||| 0x80 else byte) := by
  have hskip : ¬(byte = flagEND ∨ byte = flagNULL ∨ byte = flagESC ∨ byte = startFlag) := by
    simp only [not_or]
    exact ⟨h.ne_end, h.ne_null, h.ne_esc, h.ne_start⟩
  rw [rxStore, if_neg hskip]

theorem rxBuffer_of_rxStep (hflag : IsStartFlag startFlag)
    (h : rxStep startFlag rxBufferLength s byte = .ok step) :
    step.rxBuffer = match rxStore startFlag rxBufferLength s byte with
      | none => s.rxBuffer
      | some (idx, stored) => s.rxBuffer.set idx stored := by
  cases step with
  | done out =>
    obtain ⟨hleaves, hout⟩ := rxStep_done hflag h
    have hnone : rxStore startFlag rxBufferLength s byte = none := by
      generalize out.res = code at hleaves
      cases hleaves with
      | stop => rfl
      | late => rfl
      | full hdata hfull => rw [rxStore_of_isData hdata, if_pos hfull]
    rw [hnone, hout]
    rfl
  | more s' =>
    have hturn := (rxStep_more_iff hflag).mp h
    cases hturn with
    | null => rfl
    | esc => rfl
    | start =>
      rw [rxStore, if_pos (.inr (.inr (.inr rfl)))]
      rfl
    | data hdata hroom =>
      rw [rxStore_of_isData hdata, if_neg (Nat.not_le.mpr hroom)]
      rfl

end

/-! ### The link dropper flag -/

namespace ExternalComPortDriver
variable {this : ExternalComPortDriver} {startFlag byte : UInt8} {rxBufferLength actualLength fuel : Nat}
  {s : RxState} {rxBuffer bytes u v : List UInt8} {l : Trace} {r : Except Stop RxResult}

/-- In front of each byte that a run has read, it passed over what it read before, and the byte
on which the loop leaves decides what is returned. -/
theorem run_rxLoop_at (hflag : IsStartFlag startFlag)
    (h : Run (this.rxLoop startFlag rxBufferLength fuel s) l r)
    (ht : this.traffic l = (u ++ byte :: v).map .read) :
    ∃ s', PassesOver startFlag rxBufferLength s u s' ∧
      ∀ out, rxStep startFlag rxBufferLength s' byte = .ok (.done out) → r = .ok out := by
  -- a run that read one byte at most is at that byte in the state it began in
  have hlast {u : List UInt8} {b : UInt8} (ht : [Observation.read b] = (u ++ byte :: v).map .read) :
      u = [] ∧ byte = b := by
    have hlen := congrArg List.length ht
    simp only [List.length_cons, List.length_nil, List.length_map, List.length_append] at hlen
    obtain rfl : u = [] := List.eq_nil_of_length_eq_zero (by omega)
    simp only [List.nil_append, List.map_cons, List.cons.injEq, Observation.read.injEq] at ht
    exact ⟨rfl, ht.1.symm⟩
  have hnothing {u : List UInt8} (ht : [] = (u ++ byte :: v).map Observation.read) : False := by
    simp at ht
  induction fuel generalizing s l u with
  | zero =>
    obtain ⟨rfl, rfl⟩ := run_halt.mp h
    exact (hnothing ht).elim
  | succ fuel ih =>
    have hturn := run_rxLoop_succ h
    rw [ht] at hturn
    generalize ht : (u ++ byte :: v).map Observation.read = t at hturn
    cases hturn with
    | silent _ => exact (hnothing ht.symm).elim
    | done hstep hr =>
      obtain ⟨rfl, rfl⟩ := hlast ht.symm
      refine ⟨s, .nil s, ?_⟩
      intro out hout
      rw [hstep] at hout
      cases hout
      exact hr
    | stopped hstep _ =>
      obtain ⟨rfl, rfl⟩ := hlast ht.symm
      refine ⟨s, .nil s, ?_⟩
      intro out hout
      rw [hstep] at hout
      cases hout
    | more hstep hrest =>
      cases u with
      | nil =>
        obtain ⟨hbyte, -⟩ := List.cons.inj ht
        refine ⟨s, .nil s, ?_⟩
        intro out hout
        rw [Observation.read.inj hbyte, hstep] at hout
        cases hout
      | cons b u =>
        obtain ⟨hb, hu⟩ := List.cons.inj ht
        obtain ⟨s', hpass, hout⟩ := ih hrest hu.symm
        rw [Observation.read.inj hb]
        exact ⟨s', .cons ((rxStep_more_iff hflag).mp hstep) hpass, hout⟩

theorem isData_flagLPH2RL : IsData flagSTART flagLPH2RL := ⟨by decide, by decide, by decide, by decide⟩

theorem exists_reads (h : Run (this.eComPortRx fuel rxBuffer rxBufferLength actualLength) l r) :
    ∃ bytes : List UInt8, this.traffic l = bytes.map .read := by
  by_cases hinit : this.mIsComPortInited = true
  · rw [eComPortRx_of_inited hinit] at h
    obtain ⟨bytes, ht, -⟩ := run_rxLoop h
    exact ⟨bytes, ht⟩
  · rw [eComPortRx, Bool.eq_false_iff.mpr hinit] at h
    obtain ⟨rfl, -⟩ := run_pure.mp h
    exact ⟨[], rfl⟩

/-- The link dropper flag ends the call with an error and stays out of the buffer just where the
buffer is full already; in every other place it is a data byte. -/
theorem eComPortRx_linkDrop
    (h : Run (this.eComPortRx fuel rxBuffer rxBufferLength actualLength) l r) :
    ∃ bytes : List UInt8, this.traffic l = bytes.map .read ∧
      ((∀ u v, bytes = u ++ flagLPH2RL :: v →
          (∃ out, r = .ok out ∧ out.res ≠ .success) ∧
            ∃ s, PassesOver flagSTART rxBufferLength (rxStateOf rxBuffer actualLength {}) u s ∧
              rxStore flagSTART rxBufferLength s flagLPH2RL = none ∧
              ∀ step, rxStep flagSTART rxBufferLength s flagLPH2RL = .ok step →
                step.rxBuffer = s.rxBuffer) ↔
        ∀ u v, bytes = u ++ flagLPH2RL :: v → rxBufferLength ≤
          (sdc600 flagSTART).dataCount (Alphabet.lastRun flagSTART u) % indexRange) := by
  have hflag : IsStartFlag flagSTART := .inl rfl
  obtain ⟨bytes, ht⟩ := exists_reads h
  refine ⟨bytes, ht, ?_⟩
  refine forall_congr' fun u => forall_congr' fun v => imp_congr_right fun hbytes => ?_
  rw [hbytes] at ht
  have hinit : this.mIsComPortInited = true := by
    by_contra hinit
    rw [eComPortRx, Bool.eq_false_iff.mpr hinit] at h
    obtain ⟨rfl, -⟩ := run_pure.mp h
    simp at ht
  rw [eComPortRx_of_inited hinit] at h
  obtain ⟨s, hpass, hlast⟩ := run_rxLoop_at hflag h ht
  have hidx := (heard_of_passes hflag hpass).index
  rw [← hidx]
  constructor
  · intro hdropped
    obtain ⟨-, s', hpass', hnone, -⟩ := hdropped
    have hidx' := (heard_of_passes hflag hpass').index
    rw [rxStore_of_isData isData_flagLPH2RL] at hnone
    by_contra hroom
    rw [hidx', ← hidx, if_neg hroom] at hnone
    cases hnone
  · intro hfull
    have hdone := hlast ⟨.internalError, s.rxBuffer, s.actualLength⟩ (by
      rw [rxStep_data isData_flagLPH2RL, if_pos hfull])
    have hnone : rxStore flagSTART rxBufferLength s flagLPH2RL = none := by
      rw [rxStore_of_isData isData_flagLPH2RL, if_pos hfull]
    refine ⟨⟨_, hdone, fun hres => ?_⟩, s, hpass, hnone, fun step hstep => ?_⟩
    · cases hres
    · rw [rxBuffer_of_rxStep hflag hstep, hnone]

theorem eComPortRx_linkDrop_full :
    ∃ s, PassesOver flagSTART 1 (rxStateOf [0] 0 {}) [flagSTART, 0x41] s ∧
      rxStore flagSTART 1 s flagLPH2RL = none ∧
      ∀ step, rxStep flagSTART 1 s flagLPH2RL = .ok step → step.rxBuffer = s.rxBuffer := by
  have hrun : Run (inited.eComPortRx 3 [0] 1 0) _ (.ok ⟨.internalError, [0x41], 1⟩) :=
    run_of_exec (streamScript [flagSTART, 0x41, flagLPH2RL]) (by decide +kernel)
  have hread : inited.traffic (scripted.exec (inited.eComPortRx 3 [0] 1 0)
      (streamScript [flagSTART, 0x41, flagLPH2RL])).2.1 =
        [flagSTART, 0x41, flagLPH2RL].map .read := by decide +kernel
  obtain ⟨bytes, ht, hiff⟩ := eComPortRx_linkDrop hrun
  have hbytes : bytes = [flagSTART, 0x41] ++ flagLPH2RL :: [] :=
    List.map_injective_iff.mpr (fun a b h => Observation.read.inj h) (ht.symm.trans hread)
  refine (hiff.mpr (fun u v huv => ?_) _ _ hbytes).2
  -- the flag is the third byte, behind one data byte
  have hcut : [flagSTART, 0x41] = u := by
    rw [hbytes] at huv
    rcases u with _ | ⟨a, _ | ⟨b, _ | ⟨c, u⟩⟩⟩
    all_goals simp at huv
    · cases huv.1
    · cases huv.2.1
    · rw [huv.1, huv.2.1]
  rw [← hcut]
  decide

/-- The link drops inside a message, and the message is delivered with the flag in it. -/
theorem eComPortRx_linkDrop_stored :
    ¬∀ (this : ExternalComPortDriver) (fuel rxBufferLength actualLength : Nat)
      (rxBuffer u v : List UInt8) (l : Trace) (r : Except Stop RxResult), Room rxBufferLength rxBuffer →
      Run (this.eComPortRx fuel rxBuffer rxBufferLength actualLength) l r →
      this.traffic l = (u ++ flagLPH2RL :: v).map .read →
      ∃ out, r = .ok out ∧ out.res ≠ .success := by
  intro h
  have hrun : Run (inited.eComPortRx 3 [0] 1 0) _ (.ok ⟨.success, [flagLPH2RL], 1⟩) :=
    run_of_exec (streamScript [flagSTART, flagLPH2RL, flagEND]) (by decide +kernel)
  obtain ⟨out, hout, hres⟩ := h inited 3 1 0 [0] [flagSTART] [flagEND] _ _ ⟨by decide, by decide⟩ hrun
    (by decide +kernel)
  cases hout
  exact hres rfl

end ExternalComPortDriver

/-! ### A message that outgrows the buffer -/

section
variable {rxBufferLength : Nat} {payload pre p u w rest : List UInt8} {byte : UInt8}

theorem exists_payload_split
    (h : pre.filter (· ≠ flagNULL) = flagSTART :: (sdc600 flagSTART).stuff payload) :
    ∃ u w, pre = u ++ flagSTART :: w ∧ (∀ b ∈ u, b = flagNULL) ∧ flagSTART ∉ w ∧
      messageLength w = payload.length := by
  obtain ⟨u, w, hsplit, hu, -, hw⟩ := List.filter_eq_cons_iff.mp h
  refine ⟨u, w, hsplit, fun b hb => by simpa using hu b hb, fun hmem => ?_, ?_⟩
  · have hfilter : flagSTART ∈ w.filter (· ≠ flagNULL) := List.mem_filter.mpr ⟨hmem, by decide⟩
    rw [hw] at hfilter
    exact lawful_start.start_not_mem_stuff payload hfilter
  · have hunstuff := Alphabet.unstuff_filter (sdc600 flagSTART) false w
    have hnull : (sdc600 flagSTART).null = flagNULL := rfl
    rw [hnull, hw, lawful_start.unstuff_stuff] at hunstuff
    rw [← length_unstuff_message false w, ← hunstuff]

theorem prefix_of_flagEND_not_mem (hp : flagEND ∉ p) (h : p <+: pre ++ flagEND :: rest) : p <+: pre := by
  rcases List.prefix_or_prefix_of_prefix h (List.prefix_append pre _) with hpre | hpre
  · exact hpre
  · obtain ⟨x, rfl⟩ := hpre
    rw [List.prefix_append_right_inj] at h
    cases x with
    | nil => exact ⟨[], by simp⟩
    | cons b x =>
      obtain ⟨rfl, -⟩ := List.cons_prefix_cons.mp h
      exact absurd (by simp) hp

theorem exists_cut (hdata : IsData flagSTART byte) (hu : ∀ b ∈ u, b = flagNULL)
    (h : p ++ [byte] <+: u ++ flagSTART :: w) : ∃ x y, p = u ++ flagSTART :: x ∧ w = x ++ byte :: y := by
  obtain ⟨y, hy⟩ := h
  rw [List.append_assoc, List.singleton_append, List.append_eq_append_iff] at hy
  rcases hy with ⟨x, hx, htail⟩ | ⟨x, hx, htail⟩
  · cases x with
    | nil => exact absurd (List.cons.inj htail).1 hdata.ne_start
    | cons b x =>
      have hbyte : byte ∈ u := by
        rw [hx, (List.cons.inj htail).1]
        simp
      exact absurd (hu byte hbyte) hdata.ne_null
  · cases x with
    | nil => exact absurd (List.cons.inj htail).1.symm hdata.ne_start
    | cons b x =>
      obtain ⟨hb, hw⟩ := List.cons.inj htail
      rw [← hb] at hx
      exact ⟨x, y, hx, hw⟩

end

namespace ExternalComPortDriver
variable {this : ExternalComPortDriver} {rxBufferLength actualLength fuel : Nat} {rxBuffer : List UInt8}

variable (actualLength) in
/-- On a stream that holds an end flag the call returns, and leaves the rest of the stream unread. -/
theorem exec_eComPortRx {σ : Type} {m : Machine Host σ} {s t : σ} {stream : List UInt8}
    (hinit : this.mIsComPortInited = true) (hmem : rxBufferLength ≤ rxBuffer.length)
    (hend : flagEND ∈ stream) (hd : this.Delivers m s stream t) (hfuel : stream.length ≤ fuel) :
    ∃ out l u bytes rest, stream = bytes ++ rest ∧ this.Delivers m u rest t ∧
      m.exec (this.eComPortRx fuel rxBuffer rxBufferLength actualLength) s = (.ok out, l, u) ∧
      Receives flagSTART rxBufferLength (rxStateOf rxBuffer actualLength {}) bytes out := by
  have hflag : IsStartFlag flagSTART := .inl rfl
  rcases passes_or_receives actualLength hflag hmem stream with ⟨s', hpass⟩ | ⟨bytes, out, hprefix, hrec⟩
  · exact absurd hend (heard_of_passes hflag hpass).live
  obtain ⟨rest, rfl⟩ := hprefix
  obtain ⟨u, hu, hrest⟩ := delivers_append.mp hd
  obtain ⟨l, hexec, -, -⟩ := exec_rxLoop hrec hu ((List.prefix_append bytes rest).length_le.trans hfuel)
  rw [← eComPortRx_of_inited hinit] at hexec
  exact ⟨out, l, u, bytes, rest, rfl, hrest, hexec, hrec⟩

/-- A frame that is too long leaves the call in its middle, and what is left of it holds no start
flag in front of its end flag. -/
theorem receives_overlong {payload pre bytes rest : List UInt8} {out : RxResult}
    (hlong : rxBufferLength < payload.length)
    (hpre : pre.filter (· ≠ flagNULL) = flagSTART :: (sdc600 flagSTART).stuff payload)
    (hnulls : Receiver.leadingNulls (sdc600 flagSTART) pre ≤ maxPreNullFlags)
    (hbytes : bytes <+: pre ++ flagEND :: rest)
    (h : Receives flagSTART rxBufferLength (rxStateOf rxBuffer actualLength {}) bytes out) :
    (out.res = .success ∧ indexRange ≤ rxBufferLength ∧ bytes = pre ++ [flagEND]) ∨
      (out.res ≠ .success ∧ rxBufferLength < indexRange ∧
        ∃ y, pre = bytes ++ y ∧ flagSTART ∉ y) := by
  have hflag : IsStartFlag flagSTART := .inl rfl
  obtain ⟨u, w, rfl, hu, hw, hcount⟩ := exists_payload_split hpre
  have hendpre := flagEND_not_mem hpre
  obtain ⟨p, byte, s, rfl, hpass, hlast⟩ := h.exists_passes hflag
  obtain ⟨hleaves, -⟩ := rxStep_done hflag hlast
  have heard := heard_of_passes hflag hpass
  generalize out.res = res at hleaves
  have hinner (hbyte : byte ≠ flagEND) : p ++ [byte] <+: u ++ flagSTART :: w := by
    refine prefix_of_flagEND_not_mem (fun hmem => ?_) hbytes
    rcases List.mem_append.mp hmem with hmem | hmem
    · exact heard.live hmem
    · exact hbyte (List.mem_singleton.mp hmem).symm
  cases hleaves with
  | stop =>
    obtain rfl : p = u ++ flagSTART :: w := by
      obtain ⟨x, hx⟩ := prefix_of_flagEND_not_mem heard.live ((List.prefix_append p _).trans hbytes)
      rw [← hx] at hbytes hendpre ⊢
      rw [List.append_assoc, List.prefix_append_right_inj] at hbytes
      cases x with
      | nil => rw [List.append_nil]
      | cons b x =>
        obtain ⟨rfl, -⟩ := List.cons_prefix_cons.mp hbytes
        exact absurd (by simp) hendpre
    have hstarted : s.isStartRecv = true := by
      rw [heard.started]
      exact decide_eq_true (by simp)
    refine .inl ⟨if_pos hstarted, ?_, rfl⟩
    by_contra hmax
    have hroom := heard.room (Nat.lt_of_not_le hmax)
    rw [Alphabet.lastRun_append_cons hw] at hroom
    have hlength : (sdc600 flagSTART).dataCount w = payload.length := hcount
    omega
  | late hlate =>
    have hcut := hinner (by decide)
    have hle := (Receiver.leadingNulls_mono (A := sdc600 flagSTART) hcut).trans hnulls
    rw [heard.nulls_concat hflag] at hlate
    exact absurd hle (Nat.not_le.mpr hlate)
  | full hdata hfull =>
    have hcut := hinner hdata.ne_end
    obtain ⟨x, y, rfl, rfl⟩ := exists_cut hdata hu hcut
    refine .inr ⟨by decide, ?_, y, by simp, fun hmem => hw (by simp [hmem])⟩
    rw [heard.index] at hfull
    exact Nat.lt_of_le_of_lt hfull (Nat.mod_lt _ (by decide))

/-- Behind an over-long frame no call gets at the next message: a call that leaves inside the frame
leaves its end to the next call, which finds no start flag in front of it. With a buffer that the
16-bit index cannot fill the first call does not even fail. -/
theorem eComPortRx_overlong {σ : Type} {m : Machine Host σ} {s₀ t : σ} {fuel₁ fuel₂ actualLength₁
    actualLength₂ : Nat} {payload₁ payload₂ rxBuffer₁ rxBuffer₂ stream : List UInt8}
    (hinit : this.mIsComPortInited = true) (hmem₁ : rxBufferLength ≤ rxBuffer₁.length)
    (hmem₂ : rxBufferLength ≤ rxBuffer₂.length) (hlong : rxBufferLength < payload₁.length)
    (hstream : stream.filter (· ≠ flagNULL) =
      (sdc600 flagSTART).frame payload₁ ++ (sdc600 flagSTART).frame payload₂)
    (hnulls : Receiver.leadingNulls (sdc600 flagSTART) stream ≤ maxPreNullFlags)
    (hd : this.Delivers m s₀ stream t) (hfuel₁ : stream.length ≤ fuel₁)
    (hfuel₂ : stream.length ≤ fuel₂) :
    ∃ out₁ out₂ l₁ l₂ u v,
      m.exec (this.eComPortRx fuel₁ rxBuffer₁ rxBufferLength actualLength₁) s₀ = (.ok out₁, l₁, u) ∧
      m.exec (this.eComPortRx fuel₂ rxBuffer₂ rxBufferLength actualLength₂) u = (.ok out₂, l₂, v) ∧
      (out₁.res ≠ .success ↔ rxBufferLength < indexRange) ∧
      ¬(out₁.res ≠ .success ∧ out₂.res = .success ∧ out₂.rxBuffer.take payload₂.length = payload₂) := by
  have hflag : IsStartFlag flagSTART := .inl rfl
  obtain ⟨pre, rest, hsplit, hrest, hpre⟩ := exists_frame_split hstream
  rw [List.append_assoc, List.singleton_append] at hsplit
  have hnulls₁ := (Receiver.leadingNulls_mono (A := sdc600 flagSTART)
    (List.prefix_append pre (flagEND :: rest))).trans (hsplit ▸ hnulls)
  have hendrest : flagEND ∈ rest := by
    have hframe : flagEND ∈ rest.filter (· ≠ flagNULL) := by
      rw [hrest, Alphabet.frame]
      exact List.mem_append_right _ (List.mem_singleton_self _)
    exact (List.mem_filter.mp hframe).1
  obtain ⟨out₁, l₁, u, bytes₁, rest₁, hbytes₁, hd₁, hexec₁, hrec₁⟩ :=
    exec_eComPortRx actualLength₁ hinit hmem₁ (by simp [hsplit]) hd hfuel₁
  have hprefix₁ : bytes₁ <+: pre ++ flagEND :: rest := ⟨rest₁, by rw [← hsplit, hbytes₁]⟩
  have hleft := receives_overlong hlong hpre hnulls₁ hprefix₁ hrec₁
  -- what is left unread reaches to the end of the second frame
  have hend₁ : flagEND ∈ rest₁ := by
    rw [hsplit] at hbytes₁
    rcases hleft with ⟨-, -, hall⟩ | ⟨-, -, y, hcut, -⟩
    · rw [hall, List.append_assoc, List.append_cancel_left_eq, List.singleton_append,
        List.cons.injEq] at hbytes₁
      exact hbytes₁.2 ▸ hendrest
    · rw [hcut, List.append_assoc, List.append_cancel_left_eq] at hbytes₁
      rw [← hbytes₁]
      simp
  have hfuel : rest₁.length ≤ fuel₂ := by
    rw [hbytes₁, List.length_append] at hfuel₂
    exact (Nat.le_add_left _ _).trans hfuel₂
  obtain ⟨out₂, l₂, v, bytes₂, rest₂, hbytes₂, -, hexec₂, hrec₂⟩ :=
    exec_eComPortRx actualLength₂ hinit hmem₂ hend₁ hd₁ hfuel
  refine ⟨out₁, out₂, l₁, l₂, u, v, hexec₁, hexec₂, ?_, ?_⟩
  · rcases hleft with ⟨hres, hwide, -⟩ | ⟨hres, hmax, -⟩
    · exact iff_of_false (not_not.mpr hres) (Nat.not_lt.mpr hwide)
    · exact iff_of_true hres hmax
  · intro hresync
    obtain ⟨hres₁, hres₂, -⟩ := hresync
    rcases hleft with ⟨hres, -⟩ | ⟨-, -, y, hcut, hy⟩
    · exact hres₁ hres
    · obtain ⟨p, s', rfl, hpass, hstarted, -⟩ := hrec₂.exists_passes_of_success hflag hres₂
      have heard := heard_of_passes hflag hpass
      rw [heard.started] at hstarted
      rw [hsplit, hcut, List.append_assoc, List.append_cancel_left_eq] at hbytes₁
      have hprefix : p <+: y ++ flagEND :: rest := by
        rw [hbytes₁, hbytes₂, List.append_assoc]
        exact List.prefix_append p _
      have hinner := prefix_of_flagEND_not_mem heard.live hprefix
      exact hy (hinner.subset (of_decide_eq_true hstarted))

/-- A message of three bytes for a buffer of one, and one that fits after it. -/
def overlongStream : List UInt8 :=
  [flagNULL, flagSTART, 0x11, flagNULL, 0x22, 0x33, flagEND, flagSTART, 0x44, flagEND]

theorem eComPortRx_overlong_three : ∃ out₁ out₂ l₁ l₂ u v,
    scripted.exec (inited.eComPortRx 10 [0] 1 0) (streamScript overlongStream ++ []) =
      (.ok out₁, l₁, u) ∧
    scripted.exec (inited.eComPortRx 10 [7] 1 9) u = (.ok out₂, l₂, v) ∧
    (out₁.res ≠ .success ↔ 1 < indexRange) ∧
    ¬(out₁.res ≠ .success ∧ out₂.res = .success ∧
      out₂.rxBuffer.take [(0x44 : UInt8)].length = [0x44]) := by
  have hstream : overlongStream.filter (· ≠ flagNULL) =
      (sdc600 flagSTART).frame [0x11, 0x22, 0x33] ++ (sdc600 flagSTART).frame [0x44] := by decide
  exact eComPortRx_overlong rfl (by decide) (by decide) (by decide) hstream (by decide +kernel)
    (delivers_scripted rfl _ []) (by decide) (by decide)

theorem eComPortRx_overlong_remainder :
    ¬∀ (this : ExternalComPortDriver) (fuel rxBufferLength : Nat)
      (payload₁ payload₂ rxBuffer₁ rxBuffer₂ stream : List UInt8) (script t : List AccessResult),
      this.mIsComPortInited = true → Room rxBufferLength rxBuffer₁ → Room rxBufferLength rxBuffer₂ →
      rxBufferLength < payload₁.length → payload₂ ≠ [] → payload₂.length ≤ rxBufferLength →
      stream.filter (· ≠ flagNULL) =
        (sdc600 flagSTART).frame payload₁ ++ (sdc600 flagSTART).frame payload₂ →
      Receiver.leadingNulls (sdc600 flagSTART) stream ≤ maxPreNullFlags →
      this.Delivers scripted script stream t → stream.length ≤ fuel →
      ∃ out₁ out₂ l₁ l₂ u v,
        scripted.exec (this.eComPortRx fuel rxBuffer₁ rxBufferLength 0) script = (.ok out₁, l₁, u) ∧
        scripted.exec (this.eComPortRx fuel rxBuffer₂ rxBufferLength 0) u = (.ok out₂, l₂, v) ∧
        out₁.res ≠ .success ∧ out₂.res = .success ∧
        out₂.rxBuffer.take payload₂.length = payload₂ := by
  intro h
  obtain ⟨out₁, out₂, l₁, l₂, u, v, hexec₁, hexec₂, -, hres₂, -⟩ :=
    h inited 10 1 [0x11, 0x22, 0x33] [0x44] [0] [0] overlongStream (streamScript overlongStream ++ [])
      [] rfl ⟨by decide, by decide⟩ ⟨by decide, by decide⟩ (by decide) (by decide) (by decide)
      (by decide) (by decide +kernel) (delivers_scripted rfl _ []) (by decide)
  have hfirst : scripted.exec (inited.eComPortRx 10 [0] 1 0) (streamScript overlongStream ++ []) = _ :=
    exec_eq_of_parts (a := ⟨.internalError, [0x11], 1⟩)
      (t := streamScript [0x33, flagEND, flagSTART, 0x44, flagEND]) (by decide +kernel)
      (by decide +kernel)
  rw [hfirst] at hexec₁
  obtain ⟨-, hrest⟩ := Prod.mk.inj hexec₁
  obtain ⟨-, rfl⟩ := Prod.mk.inj hrest
  have hsecond : (scripted.exec (inited.eComPortRx 10 [0] 1 0)
      (streamScript [0x33, flagEND, flagSTART, 0x44, flagEND])).1 = .ok ⟨.internalError, [0x33], 1⟩ := by
    decide +kernel
  rw [hexec₂] at hsecond
  obtain rfl := Except.ok.inj hsecond
  cases hres₂

end ExternalComPortDriver
end SecureDebug
