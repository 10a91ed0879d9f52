import SecureDebug.Interaction.Steps
import SecureDebug.Driver.RoundTrip
import SecureDebug.Manager.Dialogue

/-! A target that takes requests in order and answers each with one frame, as a transition
system over what shows on the link, and what it lets a host read. -/

namespace SecureDebug
open Interaction Program Framing

/-- How long a target may take and what it may say: the numbers of `NULL` flags it may show while an
answer is due, and its answers. -/
structure Pace where
  nulls : Nat → Prop
  answer : List UInt8 → Prop

def anyPace : Pace := ⟨fun _ => True, fun _ => True⟩

/-- The packet has its header and the data that its data count declares. -/
def Whole (packet : List UInt8) : Prop := sizeofPacket + 4 * packetDataCount packet ≤ packet.length

instance (packet : List UInt8) : Decidable (Whole packet) := inferInstanceAs (Decidable (_ ≤ _))

/-- What the receive routine waits for and has room for, in answers that are whole. -/
def timely : Pace :=
  ⟨(· ≤ maxPreNullFlags), fun answer => answer.length ≤ maxPacket ∧ Whole answer⟩

/-- Where a target stands: the requests it took, those it answered or is answering, the `NULL`
flags shown while the next answer is due, the answer it is at and what is left of its frame.
`heard` is what the host read since it last wrote. -/
structure Target where
  requests : Nat := 0
  answers : Nat := 0
  nulls : Nat := 0
  answer : List UInt8 := []
  rest : List UInt8 := []
  heard : List UInt8 := []

namespace Target

def Due (w : Target) : Prop := w.rest = [] ∧ w.answers < w.requests

/-- A request is taken with its `END`. Whatever the target says it may show `NULL` in between. -/
inductive Step (pace : Pace) (w : Target) : Observation → Target → Prop
  | take {byte : UInt8} : byte ≠ flagEND → Step pace w (.wrote byte true) { w with heard := [] }
  | request : Step pace w (.wrote flagEND true) { w with requests := w.requests + 1, heard := [] }
  | idle : ¬w.Due → Step pace w (.read flagNULL) { w with heard := w.heard ++ [flagNULL] }
  | wait : w.Due → pace.nulls (w.nulls + 1) → Step pace w (.read flagNULL)
      { w with nulls := w.nulls + 1, heard := w.heard ++ [flagNULL] }
  | start {answer : List UInt8} : w.Due → pace.answer answer → Step pace w (.read flagSTART)
      { w with
        answers := w.answers + 1
        nulls := 0
        answer
        rest := (sdc600 flagSTART).stuff answer ++ [flagEND]
        heard := w.heard ++ [flagSTART] }
  | send {byte : UInt8} {rest : List UInt8} : w.rest = byte :: rest →
      Step pace w (.read byte) { w with rest, heard := w.heard ++ [byte] }

/-- An access that succeeds and shows what the target does. -/
def Serves (driver : ExternalComPortDriver) (pace : Pace) (w : Target) (e : Event Host)
    (w' : Target) : Prop :=
  driver.FineAnswer e ∧ Steps (Step pace) w (driver.traffic [e]) w'

theorem steps_serves {driver : ExternalComPortDriver} {pace : Pace} {w w' : Target} {l : Trace} :
    Steps (Serves driver pace) w l w' ↔
      driver.NeverErrs l ∧ Steps (Step pace) w (driver.traffic l) w' := by
  induction l generalizing w with
  | nil =>
    rw [steps_nil, ExternalComPortDriver.traffic_nil, steps_nil]
    exact ⟨fun h => ⟨(fun _ he => nomatch he), h⟩, And.right⟩
  | cons e l ih =>
    rw [steps_cons, ← List.singleton_append, ExternalComPortDriver.traffic_append, steps_append]
    constructor
    · intro h
      obtain ⟨t, ⟨hfine, h₁⟩, h₂⟩ := h
      obtain ⟨hfines, h₃⟩ := ih.mp h₂
      exact ⟨List.forall_mem_cons.mpr ⟨hfine, hfines⟩, t, h₁, h₃⟩
    · intro h
      obtain ⟨hfines, t, h₁, h₂⟩ := h
      obtain ⟨hfine, hrest⟩ := List.forall_mem_cons.mp hfines
      exact ⟨t, ⟨hfine, h₁⟩, ih.mpr ⟨hrest, h₂⟩⟩

/-! ### What the target is at -/

structure Idle (w : Target) : Prop where
  rest : w.rest = []
  counts : w.answers = w.requests
  nulls : w.nulls = 0

/-- One answer is due, and nothing but `NULL` was heard of it. -/
structure Waiting (w : Target) : Prop where
  rest : w.rest = []
  counts : w.answers + 1 = w.requests
  heard : w.heard = List.replicate w.nulls flagNULL
  early : w.nulls ≤ maxPreNullFlags

/-- The answer to the last request is being sent; `post` is missing of it. -/
structure Telling (w : Target) (post : List UInt8) : Prop where
  rest : w.rest = post ++ [flagEND]
  counts : w.answers = w.requests
  nulls : w.nulls = 0
  frame : w.heard.filter (· ≠ flagNULL) ++ post = flagSTART :: (sdc600 flagSTART).stuff w.answer
  started : flagSTART ∈ w.heard
  early : Receiver.leadingNulls (sdc600 flagSTART) w.heard ≤ maxPreNullFlags
  size : w.answer.length ≤ maxPacket
  whole : Whole w.answer

/-- The answer to the last request is due or being sent. -/
inductive Answering (w : Target) : Prop
  | waiting : Waiting w → Answering w
  | telling (post : List UInt8) : Telling w post → Answering w

variable {w w' : Target} {byte : UInt8} {post : List UInt8}

theorem Telling.post_data (h : w.Telling post) (hmem : byte ∈ post) :
    byte ≠ flagNULL ∧ byte ≠ flagEND := by
  have hin : byte ∈ flagSTART :: (sdc600 flagSTART).stuff w.answer := by
    rw [← h.frame]
    exact List.mem_append_right _ hmem
  have hlawful := lawful_start
  rcases List.mem_cons.mp hin with heq | hstuff
  · rw [heq]
    exact ⟨by decide, by decide⟩
  · constructor
    · intro heq
      rw [heq] at hstuff
      exact hlawful.null_not_mem_stuff w.answer hstuff
    · intro heq
      rw [heq] at hstuff
      exact hlawful.stop_not_mem_stuff w.answer hstuff

theorem Telling.filter (h : w.Telling post) :
    (w.heard ++ post).filter (· ≠ flagNULL) = flagSTART :: (sdc600 flagSTART).stuff w.answer := by
  have hpost : post.filter (· ≠ flagNULL) = post := by
    rw [List.filter_eq_self]
    intro byte hmem
    exact decide_eq_true (h.post_data hmem).1
  rw [List.filter_append, hpost, h.frame]

theorem Answering.fits (h : w.Answering) :
    Receiver.Fits (sdc600 flagSTART) maxPreNullFlags maxPacket {} w.heard := by
  cases h with
  | waiting h =>
    have hfilter : (w.heard ++ [flagSTART]).filter (· ≠ flagNULL) =
        flagSTART :: (sdc600 flagSTART).stuff [] := by
      rw [h.heard, List.filter_append, List.filter_replicate_of_neg (by simp)]
      rfl
    have hnulls : Receiver.leadingNulls (sdc600 flagSTART) (w.heard ++ [flagSTART]) ≤
        maxPreNullFlags := by
      rw [Receiver.leadingNulls_concat (show flagSTART ≠ flagNULL by decide), h.heard]
      have hcount := Receiver.leadingNulls_replicate (A := sdc600 flagSTART)
        lawful_start.start_ne_null w.nulls
      exact hcount.trans_le h.early
    have hfits := Receiver.fits_frame lawful_start hfilter hnulls (Nat.zero_le maxPacket)
    exact ((Receiver.fits_append _ _ _).mp hfits).1
  | telling post h =>
    have hnulls : Receiver.leadingNulls (sdc600 flagSTART) (w.heard ++ post) ≤ maxPreNullFlags := by
      have happend := Receiver.leadingNulls_append (A := sdc600 flagSTART) h.started post
      rw [happend]
      exact h.early
    have hfits := Receiver.fits_frame lawful_start h.filter hnulls h.size
    exact ((Receiver.fits_append _ _ _).mp hfits).1

theorem Telling.not_due (h : w.Telling post) : ¬w.Due := by
  intro hdue
  have hrest := hdue.1
  rw [h.rest] at hrest
  simp at hrest

theorem Telling.hear {post' rest : List UInt8} (h : w.Telling post) (hrest : rest = post' ++ [flagEND])
    (hframe : (w.heard ++ [byte]).filter (· ≠ flagNULL) ++ post' =
      w.heard.filter (· ≠ flagNULL) ++ post) :
    Telling { w with rest, heard := w.heard ++ [byte] } post' where
  rest := hrest
  counts := h.counts
  nulls := h.nulls
  frame := hframe.trans h.frame
  started := List.mem_append_left _ h.started
  early := (Receiver.leadingNulls_append (A := sdc600 flagSTART) h.started [byte]).trans_le h.early
  size := h.size
  whole := h.whole

theorem Waiting.start {answer : List UInt8} (h : w.Waiting) (hsize : answer.length ≤ maxPacket)
    (hwhole : Whole answer) : Telling
      { w with
        answers := w.answers + 1
        nulls := 0
        answer
        rest := (sdc600 flagSTART).stuff answer ++ [flagEND]
        heard := w.heard ++ [flagSTART] }
      ((sdc600 flagSTART).stuff answer) where
  rest := rfl
  counts := h.counts
  nulls := rfl
  frame := by
    have hfilter : (w.heard ++ [flagSTART]).filter (· ≠ flagNULL) = [flagSTART] := by
      rw [h.heard, List.filter_append, List.filter_replicate_of_neg (by simp)]
      rfl
    rw [hfilter]
    rfl
  started := List.mem_append_right _ List.mem_cons_self
  early := by
    have hearly := Receiver.leadingNulls_concat (A := sdc600 flagSTART)
      (show flagSTART ≠ flagNULL by decide) w.heard
    have hcount := Receiver.leadingNulls_replicate (A := sdc600 flagSTART)
      lawful_start.start_ne_null w.nulls
    dsimp only
    rw [hearly, h.heard]
    exact hcount.trans_le h.early
  size := hsize
  whole := hwhole

/-- What a timely target lets the host read while it answers: up to its end flag the answer to
the last request, then no more is due. -/
theorem Answering.read (h : w.Answering) (hs : Step timely w (.read byte) w') :
    w'.heard = w.heard ++ [byte] ∧ (byte ≠ flagNULL → w'.answers = w'.requests) ∧
      ((byte ≠ flagEND ∧ w'.Answering) ∨ (byte = flagEND ∧ w'.Idle ∧ Whole w'.answer ∧
        w.heard.filter (· ≠ flagNULL) = flagSTART :: (sdc600 flagSTART).stuff w'.answer)) := by
  cases hs with
  | idle hdue =>
    refine ⟨rfl, fun hne => absurd rfl hne, .inl ⟨by decide, ?_⟩⟩
    cases h with
    | waiting h => exact absurd ⟨h.rest, by rw [← h.counts]; exact Nat.lt_succ_self _⟩ hdue
    | telling post h =>
      -- an idle flag within a frame changes nothing
      have hfilter : (w.heard ++ [flagNULL]).filter (· ≠ flagNULL) =
          w.heard.filter (· ≠ flagNULL) := by
        rw [List.filter_append, List.filter_cons_of_neg (by simp), List.filter_nil, List.append_nil]
      exact .telling post (h.hear h.rest (by rw [hfilter]))
  | wait hdue hnulls =>
    refine ⟨rfl, fun hne => absurd rfl hne, .inl ⟨by decide, ?_⟩⟩
    cases h with
    | waiting h =>
      refine .waiting ⟨h.rest, h.counts, ?_, hnulls⟩
      rw [h.heard, List.replicate_succ']
    | telling post h => exact absurd hdue h.not_due
  | @start answer hdue hanswer =>
    cases h with
    | waiting h =>
      have htelling := h.start hanswer.1 hanswer.2
      exact ⟨rfl, fun _ => h.counts, .inl ⟨by decide, .telling _ htelling⟩⟩
    | telling post h => exact absurd hdue h.not_due
  | @send _ rest hrest =>
    cases h with
    | waiting h =>
      rw [h.rest] at hrest
      cases hrest
    | telling post h =>
      refine ⟨rfl, fun _ => h.counts, ?_⟩
      rw [h.rest] at hrest
      cases post with
      | nil =>
        -- the last flag of the frame
        obtain ⟨hbyte, hnil⟩ := List.cons.inj hrest
        refine .inr ⟨hbyte.symm, ⟨hnil.symm, h.counts, h.nulls⟩, h.whole, ?_⟩
        have hframe := h.frame
        rwa [List.append_nil] at hframe
      | cons b post =>
        obtain ⟨hbyte, hpost⟩ := List.cons.inj hrest
        subst hbyte
        obtain ⟨hnull, hend⟩ := h.post_data List.mem_cons_self
        refine .inl ⟨hend, .telling post (h.hear hpost.symm ?_)⟩
        rw [List.filter_append, List.filter_cons_of_pos (by simpa using hnull), List.filter_nil,
          List.append_assoc]
        rfl

/-! ### Traffic -/

theorem steps_body {pace : Pace} {bytes : List UInt8} {w' : Target} (hbytes : flagEND ∉ bytes) :
    Steps (Target.Step pace) { w with heard := [] } (bytes.map (.wrote · true)) w' ↔
      w' = { w with heard := [] } := by
  induction bytes with
  | nil => exact steps_nil
  | cons byte bytes ih =>
    obtain ⟨hbyte, hrest⟩ : flagEND ≠ byte ∧ flagEND ∉ bytes := by simpa using hbytes
    rw [List.map_cons, steps_cons, ← ih hrest]
    constructor
    · intro h
      obtain ⟨t, hstep, hsteps⟩ := h
      cases hstep with
      | take _ => exact hsteps
      | request => exact absurd rfl hbyte
    · intro h
      exact ⟨_, .take hbyte.symm, h⟩

theorem steps_frame {pace : Pace} {payload : List UInt8} {w' : Target} :
    Steps (Target.Step pace) w (((sdc600 flagSTART).frame payload).map (.wrote · true)) w' ↔
      w' = { w with requests := w.requests + 1, heard := [] } := by
  have hbody := lawful_start.stop_not_mem_stuff payload
  have hframe : ((sdc600 flagSTART).frame payload).map (Observation.wrote · true) =
      .wrote flagSTART true :: (((sdc600 flagSTART).stuff payload).map (.wrote · true) ++
        [.wrote flagEND true]) := by
    rw [Alphabet.frame, List.map_append]
    rfl
  rw [hframe, steps_cons]
  constructor
  · intro h
    obtain ⟨t, hstart, h⟩ := h
    obtain ⟨t', hsteps, hend⟩ := steps_append.mp h
    cases hstart with
    | take _ =>
      rw [(steps_body hbody).mp hsteps] at hend
      cases steps_singleton.mp hend with
      | take hne => exact absurd rfl hne
      | request => rfl
  · intro h
    rw [h]
    refine ⟨{ w with heard := [] }, .take (by decide), steps_append.mpr ?_⟩
    exact ⟨_, (steps_body hbody).mpr rfl, steps_singleton.mpr .request⟩

theorem steps_send {pace : Pace} (bytes : List UInt8) :
    Steps (Step pace) { w with rest := bytes } (bytes.map .read)
      { w with rest := [], heard := w.heard ++ bytes } := by
  induction bytes generalizing w with
  | nil =>
    rw [List.append_nil]
    exact .nil _
  | cons byte bytes ih =>
    have hrest := ih (w := { w with heard := w.heard ++ [byte] })
    rw [List.append_assoc] at hrest
    exact .cons (.send rfl) hrest

/-- An answer that is due may come at once and without a pause. -/
theorem steps_answer {pace : Pace} {answer : List UInt8} (hdue : w.Due) (hanswer : pace.answer answer) :
    Steps (Step pace) w (((sdc600 flagSTART).frame answer).map .read)
      { w with
        answers := w.answers + 1
        nulls := 0
        answer
        rest := []
        heard := w.heard ++ (sdc600 flagSTART).frame answer } := by
  have hsend : Steps (Step pace) _ _ _ := steps_send ((sdc600 flagSTART).stuff answer ++ [flagEND])
    (w := { w with answers := w.answers + 1, nulls := 0, answer, heard := w.heard ++ [flagSTART] })
  rw [List.append_assoc] at hsend
  exact .cons (.start hdue hanswer) hsend

theorem Idle.steps_exchange {pace : Pace} {payload answer : List UInt8} (h : w.Idle)
    (hanswer : pace.answer answer) :
    Steps (Step pace) w (((sdc600 flagSTART).frame payload).map (.wrote · true) ++
        ((sdc600 flagSTART).frame answer).map .read)
      { requests := w.requests + 1
        answers := w.answers + 1
        answer
        heard := (sdc600 flagSTART).frame answer } := by
  have hdue : Due { w with requests := w.requests + 1, heard := [] } :=
    ⟨h.rest, Nat.lt_succ_of_le (Nat.le_of_eq h.counts)⟩
  exact steps_append.mpr ⟨_, steps_frame.mpr rfl, steps_answer hdue hanswer⟩

theorem exists_steps_wait (h : w.Due) (k : Nat) :
    ∃ w', Steps (Step anyPace) w ((List.replicate k flagNULL).map .read) w' ∧ w'.rest = [] ∧
      w'.requests = w.requests ∧ w'.answers = w.answers := by
  induction k generalizing w with
  | zero => exact ⟨w, .nil w, h.1, rfl, rfl⟩
  | succ k ih =>
    have hdue : Due { w with nulls := w.nulls + 1, heard := w.heard ++ [flagNULL] } := h
    obtain ⟨w', hsteps, hrest⟩ := ih hdue
    exact ⟨w', .cons (.wait h trivial) hsteps, hrest⟩

end Target
end SecureDebug
