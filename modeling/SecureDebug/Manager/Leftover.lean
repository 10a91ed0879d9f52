import SecureDebug.Manager.Lockstep

/-! Which old content of the message buffer a call of `SDMAuthenticate` lets through. All its
packets go through that buffer; an answer overwrites as much of it as was received, and the
code reads on. -/

namespace SecureDebug
open Interaction Program Framing

namespace SecureDebugManagerImpl
variable {this : SecureDebugManagerImpl} {driver : ExternalComPortDriver} {psa : PsaAdac}
  {fuel n : Nat} {l : Trace}

def signedChallenges (l : Trace) : List (List UInt8) := l.filterMap fun e => match e.call with
  | .psaAdacSignToken challenge _ _ => some challenge
  | _ => none

theorem signedChallenges_append (l l' : Trace) :
    signedChallenges (l ++ l') = signedChallenges l ++ signedChallenges l' := List.filterMap_append

theorem signedChallenges_signAndRespond {credentials : Credentials} {challenge : List UInt8}
    {r : Except Stop (SDMReturnCode × SecureDebugManagerImpl)}
    (hcb : this.mSdmOpenParams.callbacks ≠ none)
    (h : Run (signAndRespond psa fuel credentials challenge this) l r) :
    ∃ rest, signedChallenges l =
      (challenge.drop psa.offsetChallengeVector).take psa.sizeofChallengeVector :: rest := by
  obtain ⟨callbacks, hcallbacks⟩ := Option.ne_none_iff_exists'.mp hcb
  have hprogress {l : Trace} {x : Except Stop Unit}
      (hx : Run (this.updateProgress "Signing token" 40) l x) :
      signedChallenges l = [] ∧ x = .ok () := by
    rw [updateProgress, hcallbacks, deref_some, pure_bind] at hx
    by_cases hset : callbacks.updateProgress
    · rw [if_pos hset] at hx
      obtain ⟨a, rfl, rfl⟩ := run_perform.mp hx
      exact ⟨rfl, rfl⟩
    · rw [if_neg hset] at hx
      obtain ⟨rfl, rfl⟩ := run_pure.mp hx
      exact ⟨rfl, rfl⟩
  unfold signAndRespond at h
  rcases run_bind.mp h with ⟨_, l₁, l₂, rfl, h₁, h₂⟩ | ⟨e, -, he⟩
  · obtain ⟨a, l₃, rfl, -⟩ := run_call.mp h₂
    rw [signedChallenges_append, (hprogress h₁).1, List.nil_append]
    exact ⟨_, rfl⟩
  · cases (hprogress he).2

variable {σ : Type} {m : Machine Host σ} {s : σ}

/-- How a call ends and what it had signed, if the buffer holds `buffer` when it starts. -/
def conclusion (this : SecureDebugManagerImpl) (psa : PsaAdac) (fuel : Nat) (m : Machine Host σ)
    (s : σ) (buffer : List UInt8) : Except Stop SDMReturnCode × List (List UInt8) :=
  let out := m.exec ({ this with mMsgBuffer := buffer }.sdmAuthenticate psa fuel) s
  (out.1.map Prod.fst, signedChallenges out.2.1)

/-- The answer to `AUTH_START`, as it is read from the link. -/
def challengeAnswer (this : SecureDebugManagerImpl) (psa : PsaAdac) (fuel : Nat)
    (driver : ExternalComPortDriver) (m : Machine Host σ) (s : σ) : List UInt8 :=
  reads driver (m.exec (this.awaitChallenge psa fuel) s).2.1

def closing (this : SecureDebugManagerImpl) (psa : PsaAdac) (fuel : Nat) (m : Machine Host σ) (t : σ)
    (res : SDMReturnCode) (credentials : Credentials) (buffer : List UInt8) :
    Except Stop SDMReturnCode × List (List UInt8) :=
  let out := m.exec (takeChallenge psa fuel res credentials { this with mMsgBuffer := buffer }) t
  (out.1.map Prod.fst, signedChallenges out.2.1)

theorem conclusion_of_ok (ho : this.IsOpen driver) {buffer response : List UInt8}
    {res : SDMReturnCode} {credentials : Credentials} {l : Trace} {t : σ}
    (h : m.exec ({ this with mMsgBuffer := buffer }.awaitChallenge psa fuel) s =
      (.ok (res, credentials, response), l, t)) :
    conclusion this psa fuel m s buffer =
      ((closing this psa fuel m t res credentials response).1,
        signedChallenges l ++ (closing this psa fuel m t res credentials response).2) := by
  have hopen : { this with mMsgBuffer := buffer }.mOpen = true := ho.isOpen
  have hexec := Machine.exec_bind m ({ this with mMsgBuffer := buffer }.awaitChallenge psa fuel)
    (fun out => takeChallenge psa fuel out.1 out.2.1 { this with mMsgBuffer := out.2.2 }) s
  rw [h] at hexec
  unfold conclusion closing
  rw [sdmAuthenticate_eq_await hopen]
  dsimp only at hexec ⊢
  rw [hexec, signedChallenges_append]

theorem conclusion_of_error (ho : this.IsOpen driver) {buffer : List UInt8} {e : Stop} {l : Trace}
    {t : σ} (h : m.exec ({ this with mMsgBuffer := buffer }.awaitChallenge psa fuel) s =
      (.error e, l, t)) :
    conclusion this psa fuel m s buffer = (.error e, signedChallenges l) := by
  have hopen : { this with mMsgBuffer := buffer }.mOpen = true := ho.isOpen
  have hexec := Machine.exec_bind m ({ this with mMsgBuffer := buffer }.awaitChallenge psa fuel)
    (fun out => takeChallenge psa fuel out.1 out.2.1 { this with mMsgBuffer := out.2.2 }) s
  rw [h] at hexec
  unfold conclusion
  rw [sdmAuthenticate_eq_await hopen]
  dsimp only at hexec ⊢
  rw [hexec]
  rfl

theorem exec_awaitChallenge (psa : PsaAdac) (fuel : Nat) (m : Machine Host σ) (s : σ)
    (ho : this.IsOpen driver) {buffer : List UInt8} (hbuffer : buffer.length = bufferSize) :
    ∃ r, m.exec ({ this with mMsgBuffer := buffer }.awaitChallenge psa fuel) s =
        (r, (m.exec (this.awaitChallenge psa fuel) s).2) ∧
      Alike (fun out out' => out.1 = out'.1 ∧ out.2.1 = out'.2.1)
        (m.exec (this.awaitChallenge psa fuel) s).1 r := by
  have hmatch : Matches 0 this { this with mMsgBuffer := buffer } :=
    ⟨rfl, rfl, rfl, ⟨ho.size.trans hbuffer.symm, rfl⟩⟩
  obtain ⟨halike, hrest⟩ := (related_awaitChallenge psa fuel hmatch).exec m s
  exact ⟨_, Prod.ext rfl hrest.symm, halike.mono fun out out' h => ⟨h.1, h.2.1⟩⟩

theorem conclusion_of_not_framed (ho : this.IsOpen driver)
    (h : ¬Framed (challengeAnswer this psa fuel driver m s)) :
    ∃ c, ∀ buffer : List UInt8, buffer.length = bufferSize →
      conclusion this psa fuel m s buffer = c := by
  have hrun := Machine.exec_run m (this.awaitChallenge psa fuel) s
  have hrefused := (run_awaitChallenge ho hrun).2
  refine ⟨((m.exec (this.awaitChallenge psa fuel) s).1.map fun _ => .internalError,
    signedChallenges (m.exec (this.awaitChallenge psa fuel) s).2.1), fun buffer hbuffer => ?_⟩
  obtain ⟨r, hexec, halike⟩ := exec_awaitChallenge psa fuel m s ho hbuffer
  generalize (m.exec (this.awaitChallenge psa fuel) s).1 = r₀ at halike hrefused
  cases halike with
  | error e => exact conclusion_of_error ho hexec
  | @ok out out' hout =>
    obtain ⟨res, credentials, response⟩ := out'
    have hcode : out.1 = res := hout.1
    have hres : res ≠ .success := by
      intro hsuccess
      refine h (hrefused out.2.1 out.2.2 ?_)
      rw [← hsuccess, ← hcode]
    rw [conclusion_of_ok ho hexec, closing, takeChallenge, if_pos hres]
    exact Prod.ext rfl (List.append_nil _)

theorem conclusion_of_framed (ho : this.IsOpen driver)
    (h : Framed (challengeAnswer this psa fuel driver m s)) :
    ∃ credentials l t, this.mSdmOpenParams.callbacks ≠ none ∧
      ∀ buffer : List UInt8, buffer.length = bufferSize →
        conclusion this psa fuel m s buffer =
          ((closing this psa fuel m t .success credentials (overlay buffer
              (reception (challengeAnswer this psa fuel driver m s)).image)).1,
            signedChallenges l ++ (closing this psa fuel m t .success credentials (overlay buffer
              (reception (challengeAnswer this psa fuel driver m s)).image)).2) := by
  have hrun := Machine.exec_run m (this.awaitChallenge psa fuel) s
  obtain ⟨credentials, hok⟩ := (run_awaitChallenge ho hrun).1 h
  refine ⟨credentials, (m.exec (this.awaitChallenge psa fuel) s).2.1,
    (m.exec (this.awaitChallenge psa fuel) s).2.2, ?_, fun buffer hbuffer => ?_⟩
  · intro hnone
    rw [hok] at hrun
    unfold awaitChallenge requestChallenge updateProgress at hrun
    rw [hnone] at hrun
    cases (run_halt.mp hrun).2
  · obtain ⟨r, hexec, halike⟩ := exec_awaitChallenge psa fuel m s ho hbuffer
    have ho' : { this with mMsgBuffer := buffer }.IsOpen driver :=
      ⟨ho.isOpen, ho.attached, ho.inited, hbuffer⟩
    have hrun' := Machine.exec_run m ({ this with mMsgBuffer := buffer }.awaitChallenge psa fuel) s
    rw [hexec] at hrun'
    obtain ⟨credentials', hr⟩ : ∃ credentials', r = .ok (.success, credentials',
        overlay buffer (reception (challengeAnswer this psa fuel driver m s)).image) :=
      (run_awaitChallenge ho' hrun').1 h
    rw [hok, hr] at halike
    rw [hr] at hexec
    cases halike with
    | ok hout =>
      obtain rfl : credentials = credentials' := hout.2
      exact conclusion_of_ok ho hexec

/-! ### What the challenge makes of the buffer -/

/-- The data count of an answer to `AUTH_START` in the buffer is the one asked for. -/
def Counted (psa : PsaAdac) (buffer : List UInt8) : Prop :=
  packetDataCount buffer * 4 % 2 ^ 32 = psa.sizeofPsaAuthChallenge

/-- The bytes of the buffer that are handed over for signing. -/
def vector (psa : PsaAdac) (buffer : List UInt8) : List UInt8 :=
  (buffer.drop (sizeofPacket + psa.offsetChallengeVector)).take psa.sizeofChallengeVector

section
variable {credentials : Credentials} {t : σ} {buffer buffer' : List UInt8}

theorem closing_of_not_counted (h : ¬Counted psa buffer) :
    closing this psa fuel m t .success credentials buffer = (.ok .internalError, []) := by
  have hcount : packetDataCount buffer * 4 % 2 ^ 32 ≠ psa.sizeofPsaAuthChallenge := h
  unfold closing takeChallenge
  rw [if_neg (not_not.mpr rfl)]
  dsimp only
  rw [if_pos hcount]
  rfl

theorem closing_of_counted (fuel : Nat) (m : Machine Host σ) (t : σ) (credentials : Credentials)
    (hcb : this.mSdmOpenParams.callbacks ≠ none) (h : Counted psa buffer)
    (hsize : buffer.length = bufferSize) :
    ∃ rest, (closing this psa fuel m t .success credentials buffer).2 = vector psa buffer :: rest := by
  have hfits : sizeofPacket + psa.sizeofPsaAuthChallenge ≤ buffer.length := by
    have hle := psa.challenge_le
    have hpacket : sizeofPacket = 8 := rfl
    have hmax : bufferSize = 4096 := rfl
    omega
  have hin := psa.vector_le
  have hcount : packetDataCount buffer * 4 % 2 ^ 32 = psa.sizeofPsaAuthChallenge := h
  have hvector : vector psa buffer =
      ((((buffer.drop sizeofPacket).take psa.sizeofPsaAuthChallenge).drop
        psa.offsetChallengeVector).take psa.sizeofChallengeVector) := by
    rw [vector, List.drop_take, List.take_take, List.drop_drop, Nat.min_eq_left (by omega)]
  rw [hvector]
  unfold closing takeChallenge
  rw [if_neg (not_not.mpr rfl)]
  dsimp only
  rw [if_neg (not_not.mpr hcount), peek, if_pos hfits]
  have hcb' : { this with mMsgBuffer := buffer }.mSdmOpenParams.callbacks ≠ none := hcb
  exact signedChallenges_signAndRespond hcb' (Machine.exec_run m _ t)

theorem closing_eq_of_agree (h : Agree n buffer buffer')
    (hn : sizeofPacket + psa.offsetChallengeVector + psa.sizeofChallengeVector ≤ n) :
    closing this psa fuel m t .success credentials buffer =
      closing this psa fuel m t .success credentials buffer' := by
  have hmatch : Matches n { this with mMsgBuffer := buffer } { this with mMsgBuffer := buffer' } :=
    ⟨rfl, rfl, rfl, h⟩
  obtain ⟨halike, hrest⟩ := (related_takeChallenge psa fuel .success credentials hmatch hn).exec m t
  rw [closing, closing, hrest]
  refine Prod.ext ?_ rfl
  dsimp only
  generalize (m.exec (takeChallenge psa fuel .success credentials
    { this with mMsgBuffer := buffer }) t).1 = r at halike
  generalize (m.exec (takeChallenge psa fuel .success credentials
    { this with mMsgBuffer := buffer' }) t).1 = r' at halike
  cases halike with
  | ok hout => exact congrArg Except.ok hout.1
  | error e => rfl

end

theorem packetDataCount_set {buffer : List UInt8} (h : 8 ≤ buffer.length) (byte : UInt8) :
    packetDataCount (buffer.set 7 byte) = packetDataCount (buffer.set 7 0) + 2 ^ 24 * byte.toNat := by
  match buffer, h with
  | b₀ :: b₁ :: b₂ :: b₃ :: b₄ :: b₅ :: b₆ :: b₇ :: rest, _ =>
    simp only [packetDataCount, List.set_cons_succ, List.set_cons_zero, List.drop_succ_cons,
      List.drop_zero, List.take_succ_cons, List.take_zero, leNat, UInt8.toNat_zero]
    omega

theorem not_counted_set {buffer : List UInt8} (h : Counted psa buffer) (hsize : 8 ≤ buffer.length) :
    ¬Counted psa (buffer.set 7 (buffer[7] + 1)) := by
  have hsame := packetDataCount_set hsize buffer[7]
  have hother := packetDataCount_set hsize (buffer[7] + 1)
  have hlt := buffer[7].toNat_lt
  rw [List.set_getElem_self] at hsame
  rw [UInt8.toNat_add, UInt8.toNat_one] at hother
  unfold Counted at *
  omega

theorem vector_set_ne {buffer : List UInt8} {i : Nat} (hi : i < buffer.length)
    (hlast : i + 1 = sizeofPacket + psa.offsetChallengeVector + psa.sizeofChallengeVector) :
    vector psa (buffer.set i (buffer[i] + 1)) ≠ vector psa buffer := by
  have hpos := psa.vector_pos
  intro heq
  have hbyte := congrArg (·[psa.sizeofChallengeVector - 1]?) heq
  have hindex : sizeofPacket + psa.offsetChallengeVector + (psa.sizeofChallengeVector - 1) = i := by
    omega
  simp only [vector, List.getElem?_take_of_lt (Nat.sub_lt hpos Nat.one_pos), List.getElem?_drop,
    hindex, List.getElem?_set_self hi, List.getElem?_eq_getElem hi, Option.some.injEq] at hbyte
  have hnat := congrArg UInt8.toNat hbyte
  have hlt := buffer[i].toNat_lt
  rw [UInt8.toNat_add, UInt8.toNat_one] at hnat
  omega

/-- Where the answer ends before the challenge vector does, some other content is refused or
puts another vector in its place. -/
theorem exists_other_vector {buffer image : List UInt8} (hbuffer : buffer.length = bufferSize)
    (hcounted : Counted psa (overlay buffer image))
    (hshort : image.length < sizeofPacket + psa.offsetChallengeVector + psa.sizeofChallengeVector) :
    ∃ buffer' : List UInt8, buffer'.length = bufferSize ∧ (Counted psa (overlay buffer' image) →
      vector psa (overlay buffer' image) ≠ vector psa (overlay buffer image)) := by
  have hin := psa.vector_le
  have hle := psa.challenge_le
  have hpacket : sizeofPacket = 8 := rfl
  have hmax : bufferSize = 4096 := rfl
  have hsize : (overlay buffer image).length = bufferSize := by
    rw [length_overlay]
    omega
  rcases Nat.lt_or_ge image.length 8 with h8 | h8
  · -- the last byte of the data count is not received
    have h7 : 8 ≤ (overlay buffer image).length := by omega
    refine ⟨buffer.set 7 ((overlay buffer image)[7] + 1), by rw [List.length_set, hbuffer], ?_⟩
    rw [overlay_set (Nat.le_of_lt_succ h8)]
    exact fun h => absurd h (not_counted_set hcounted h7)
  · -- the data count is, but not the last byte of the vector
    obtain ⟨i, hi⟩ : ∃ i, i + 1 =
        sizeofPacket + psa.offsetChallengeVector + psa.sizeofChallengeVector :=
      ⟨psa.offsetChallengeVector + psa.sizeofChallengeVector + 7, by omega⟩
    have hlt : i < (overlay buffer image).length := by omega
    refine ⟨buffer.set i ((overlay buffer image)[i] + 1), by rw [List.length_set, hbuffer], ?_⟩
    rw [overlay_set (by omega)]
    exact fun _ => vector_set_ne hlt hi

/-- What is left in the buffer decides nothing just if the answer to `AUTH_START` is no
well-formed frame, reaches to the end of the challenge vector, or is refused for its data count
whatever it is laid over. -/
theorem sdmAuthenticate_leftover (psa : PsaAdac) (fuel : Nat) (ho : this.IsOpen driver)
    (m : Machine Host σ) (s : σ) :
    (∀ buffer buffer' : List UInt8, buffer.length = bufferSize → buffer'.length = bufferSize →
      conclusion this psa fuel m s buffer = conclusion this psa fuel m s buffer') ↔
    (Framed (challengeAnswer this psa fuel driver m s) →
      sizeofPacket + psa.offsetChallengeVector + psa.sizeofChallengeVector ≤
          (reception (challengeAnswer this psa fuel driver m s)).image.length ∨
        ∀ buffer : List UInt8, buffer.length = bufferSize → ¬Counted psa
          (overlay buffer (reception (challengeAnswer this psa fuel driver m s)).image)) := by
  constructor
  · intro hall hframed
    obtain ⟨credentials, l, t, hcb, hconclusion⟩ := conclusion_of_framed ho hframed
    generalize (reception (challengeAnswer this psa fuel driver m s)).image = image at hconclusion ⊢
    by_contra hcon
    push Not at hcon
    obtain ⟨hshort, buffer, hbuffer, hcounted⟩ := hcon
    obtain ⟨buffer', hbuffer', hother⟩ := exists_other_vector hbuffer hcounted hshort
    have hsize (b : List UInt8) (hb : b.length = bufferSize) :
        (overlay b image).length = bufferSize := by
      have hin := psa.vector_le
      have hle := psa.challenge_le
      have hpacket : sizeofPacket = 8 := rfl
      have hmax : bufferSize = 4096 := rfl
      rw [length_overlay]
      omega
    obtain ⟨rest, hsigned⟩ := closing_of_counted fuel m t credentials hcb hcounted (hsize buffer hbuffer)
    have heq := hall buffer buffer' hbuffer hbuffer'
    rw [hconclusion buffer hbuffer, hconclusion buffer' hbuffer', hsigned] at heq
    have hrest := List.append_cancel_left (Prod.mk.inj heq).2
    by_cases hcounted' : Counted psa (overlay buffer' image)
    · obtain ⟨rest', hsigned'⟩ :=
        closing_of_counted fuel m t credentials hcb hcounted' (hsize buffer' hbuffer')
      rw [hsigned'] at hrest
      exact hother hcounted' (List.cons.inj hrest).1.symm
    · rw [closing_of_not_counted hcounted'] at hrest
      cases hrest
  · intro hcond buffer buffer' hbuffer hbuffer'
    by_cases hframed : Framed (challengeAnswer this psa fuel driver m s)
    · obtain ⟨credentials, l, t, -, hconclusion⟩ := conclusion_of_framed ho hframed
      rw [hconclusion buffer hbuffer, hconclusion buffer' hbuffer']
      rcases hcond hframed with hcovers | hrefused
      · have hagree := agree_overlay (hbuffer.trans hbuffer'.symm)
          (reception (challengeAnswer this psa fuel driver m s)).image
        rw [closing_eq_of_agree hagree hcovers]
      · rw [closing_of_not_counted (hrefused buffer hbuffer),
          closing_of_not_counted (hrefused buffer' hbuffer')]
    · obtain ⟨c, hc⟩ := conclusion_of_not_framed ho hframed
      rw [hc buffer hbuffer, hc buffer' hbuffer']

theorem sdmAuthenticate_leftover_whole :
    conclusion opened .standard 60 scripted (dialogueScript [startAnswer 0, [0, 0, 0, 0, 0, 0, 0, 0]])
        (List.replicate bufferSize 0) =
      conclusion opened .standard 60 scripted (dialogueScript [startAnswer 0, [0, 0, 0, 0, 0, 0, 0, 0]])
        (List.replicate bufferSize 1) := by
  refine (sdmAuthenticate_leftover .standard 60 isOpen_opened scripted
    (dialogueScript [startAnswer 0, [0, 0, 0, 0, 0, 0, 0, 0]])).mpr (fun _ => .inl ?_) _ _
    List.length_replicate List.length_replicate
  decide +kernel

/-- An answer that ends behind its header: what was in the buffer before is signed. -/
theorem sdmAuthenticate_leftover_header :
    ¬∀ (psa : PsaAdac) (this : SecureDebugManagerImpl) (driver : ExternalComPortDriver) (fuel : Nat)
      (σ : Type) (m : Machine Host σ) (s : σ) (buffer buffer' : List UInt8), this.IsOpen driver →
      buffer.length = bufferSize → buffer'.length = bufferSize →
      conclusion this psa fuel m s buffer = conclusion this psa fuel m s buffer' := by
  intro h
  have hsame := h .standard opened .inited 60 (List AccessResult) scripted
    (dialogueScript [[0, 0, 0, 0, 9, 0, 0, 0], [0, 0, 0, 0, 0, 0, 0, 0]])
    (List.replicate bufferSize 0) (List.replicate bufferSize 1) isOpen_opened
    List.length_replicate List.length_replicate
  have hzeros : (conclusion opened .standard 60 scripted
      (dialogueScript [[0, 0, 0, 0, 9, 0, 0, 0], [0, 0, 0, 0, 0, 0, 0, 0]])
      (List.replicate bufferSize 0)).2 = [List.replicate 32 0] := by decide +kernel
  have hones : (conclusion opened .standard 60 scripted
      (dialogueScript [[0, 0, 0, 0, 9, 0, 0, 0], [0, 0, 0, 0, 0, 0, 0, 0]])
      (List.replicate bufferSize 1)).2 = [List.replicate 32 1] := by decide +kernel
  rw [hsame, hones] at hzeros
  exact absurd hzeros (by decide)

end SecureDebugManagerImpl
end SecureDebug
