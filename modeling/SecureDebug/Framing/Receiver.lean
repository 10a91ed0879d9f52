import Mathlib.Data.List.DropRight
import SecureDebug.Framing.Overlay

/-! Byte-stuffed links over any alphabet: what a sender puts around and into a message, and
an ideal receiver that keeps what it hears in lists of any length. A `start` symbol begins a
message anew at the front of the memory; `null` is idle; `esc` marks the next symbol. -/

namespace Framing
variable {α : Type}

/-- The symbols of a link. `flagged` symbols cannot be sent as they are: `esc` and `strip` of
the symbol stand for them, and `mark` takes `strip` back. -/
structure Alphabet (α : Type) where
  start : α
  stop : α
  esc : α
  null : α
  flagged : α → Bool
  strip : α → α
  mark : α → α

structure Alphabet.Lawful (A : Alphabet α) : Prop where
  flagged_start : A.flagged A.start = true
  flagged_stop : A.flagged A.stop = true
  flagged_esc : A.flagged A.esc = true
  flagged_null : A.flagged A.null = true
  flagged_strip : ∀ a, A.flagged a = true → A.flagged (A.strip a) = false
  mark_strip : ∀ a, A.flagged a = true → A.mark (A.strip a) = a
  start_ne_stop : A.start ≠ A.stop
  start_ne_esc : A.start ≠ A.esc
  start_ne_null : A.start ≠ A.null
  stop_ne_null : A.stop ≠ A.null
  esc_ne_null : A.esc ≠ A.null
  esc_ne_stop : A.esc ≠ A.stop

namespace Alphabet
variable (A : Alphabet α)

def stuff (as : List α) : List α := as.flatMap fun a => if A.flagged a then [A.esc, A.strip a] else [a]

/-- A message on the wire. -/
def frame (as : List α) : List α := A.start :: A.stuff as ++ [A.stop]

@[simp] theorem stuff_nil : A.stuff [] = [] := rfl

theorem stuff_cons (a : α) (as : List α) :
    A.stuff (a :: as) = (if A.flagged a then [A.esc, A.strip a] else [a]) ++ A.stuff as := by
  simp only [stuff, List.flatMap_cons]

theorem length_stuff (as : List α) :
    (A.stuff as).length = as.length + as.countP A.flagged := by
  induction as with
  | nil => rfl
  | cons a as ih =>
    rw [stuff_cons, List.length_append, ih, List.countP_cons, List.length_cons]
    cases A.flagged a <;> simp <;> omega

theorem length_frame (as : List α) :
    (A.frame as).length = as.length + as.countP A.flagged + 2 := by
  simp only [frame, List.cons_append, List.length_cons, List.length_append, length_stuff,
    List.length_nil]

section
variable [DecidableEq α]

/-- Undo the escapes of what is received; `true` when the symbol before was an `esc`. -/
def unstuff : Bool → List α → List α
  | _, [] => []
  | e, a :: as =>
    if a = A.null then unstuff e as
    else if a = A.esc then unstuff true as
    else (if e then A.mark a else a) :: unstuff false as

/-- The symbols that reach the message: all but `null` and `esc`. -/
def isData (a : α) : Bool := a ≠ A.null && a ≠ A.esc

def dataCount (as : List α) : Nat := as.countP A.isData

theorem length_unstuff (e : Bool) (as : List α) : (A.unstuff e as).length = A.dataCount as := by
  induction as generalizing e with
  | nil => rfl
  | cons a as ih =>
    rw [unstuff, dataCount, List.countP_cons]
    by_cases hn : a = A.null
    · rw [if_pos hn, ih]
      simp [hn, isData, dataCount]
    by_cases hesc : a = A.esc
    · rw [if_neg hn, if_pos hesc, ih]
      simp [hesc, isData, dataCount]
    · rw [if_neg hn, if_neg hesc, List.length_cons, ih]
      simp [hn, hesc, isData, dataCount]

theorem tail_unstuff (e : Bool) (as : List α) : (A.unstuff e as).tail = (A.unstuff false as).tail := by
  induction as generalizing e with
  | nil => rfl
  | cons a as ih =>
    rw [unstuff, unstuff]
    by_cases hn : a = A.null
    · rw [if_pos hn, if_pos hn, ih]
    by_cases hesc : a = A.esc
    · rw [if_neg hn, if_pos hesc, if_neg hn, if_pos hesc]
    · rw [if_neg hn, if_neg hesc, if_neg hn, if_neg hesc, List.tail_cons, List.tail_cons]

theorem exists_mark_of_unstuff {as bs : List α} {b : α} (h : A.unstuff true as = b :: bs) :
    ∃ a, b = A.mark a := by
  induction as with
  | nil => simp [unstuff] at h
  | cons a as ih =>
    simp only [unstuff, if_true] at h
    split_ifs at h with hn hesc
    · exact ih h
    · exact ih h
    · exact ⟨a, (List.cons.inj h).1.symm⟩

theorem unstuff_filter (e : Bool) (as : List α) :
    A.unstuff e (as.filter (· ≠ A.null)) = A.unstuff e as := by
  induction as generalizing e with
  | nil => rfl
  | cons a as ih =>
    by_cases hn : a = A.null
    · rw [List.filter_cons_of_neg (by simpa using hn), ih, unstuff, if_pos hn]
    · rw [List.filter_cons_of_pos (by simpa using hn), unstuff, unstuff, if_neg hn, if_neg hn, ih, ih]

def lastRun (a : α) (as : List α) : List α := (as.splitOn a).getLastD []

/-- What a transmission says: the symbols after its last `start`, un-escaped. -/
def message (as : List α) : List α := A.unstuff false (lastRun A.start as)

omit A in
theorem exists_lastRun {a : α} {as : List α} (h : a ∈ as) :
    ∃ u, as = u ++ a :: lastRun a as ∧ a ∉ lastRun a as := by
  obtain ⟨s, u, hrev, hs⟩ := List.eq_append_cons_of_mem (List.mem_reverse.mpr h)
  have hsplit : as = u.reverse ++ a :: s.reverse := by
    rw [← List.reverse_reverse as, hrev]
    simp
  have hs' : a ∉ s.reverse := by simpa using hs
  have hlast : lastRun a as = s.reverse := by
    rw [lastRun, hsplit, List.splitOn_append_cons_self, List.splitOn_eq_singleton hs']
    simp
  rw [hlast]
  exact ⟨u.reverse, hsplit, hs'⟩

end
end Alphabet

theorem Alphabet.ne_of_not_flagged {A : Alphabet α} {a b : α} (ha : A.flagged a = false)
    (hb : A.flagged b = true) : a ≠ b := by
  rintro rfl
  exact Bool.false_ne_true (ha.symm.trans hb)

namespace Alphabet.Lawful
variable {A : Alphabet α} (hA : A.Lawful)
include hA

theorem not_mem_stuff {b : α} (hb : A.flagged b = true) (hesc : b ≠ A.esc) (as : List α) :
    b ∉ A.stuff as := by
  induction as with
  | nil => exact List.not_mem_nil
  | cons a as ih =>
    rw [stuff_cons, List.mem_append]
    rintro (h | h)
    · cases ha : A.flagged a with
      | false =>
        rw [ha, if_neg Bool.false_ne_true, List.mem_singleton] at h
        exact ne_of_not_flagged ha hb h.symm
      | true =>
        rw [ha, if_pos rfl, List.mem_cons, List.mem_singleton] at h
        rcases h with h | h
        · exact hesc h
        · exact ne_of_not_flagged (hA.flagged_strip a ha) hb h.symm
    · exact ih h

theorem start_not_mem_stuff (as : List α) : A.start ∉ A.stuff as :=
  hA.not_mem_stuff hA.flagged_start hA.start_ne_esc as

theorem stop_not_mem_stuff (as : List α) : A.stop ∉ A.stuff as :=
  hA.not_mem_stuff hA.flagged_stop hA.esc_ne_stop.symm as

theorem null_not_mem_stuff (as : List α) : A.null ∉ A.stuff as :=
  hA.not_mem_stuff hA.flagged_null hA.esc_ne_null.symm as

theorem unstuff_stuff [DecidableEq α] (as : List α) : A.unstuff false (A.stuff as) = as := by
  induction as with
  | nil => rfl
  | cons a as ih =>
    rw [stuff_cons]
    cases ha : A.flagged a with
    | false =>
      rw [if_neg Bool.false_ne_true, List.singleton_append, unstuff,
        if_neg (ne_of_not_flagged ha hA.flagged_null),
        if_neg (ne_of_not_flagged ha hA.flagged_esc), ih]
      rfl
    | true =>
      have hs := hA.flagged_strip a ha
      rw [if_pos rfl, List.cons_append, List.singleton_append, unstuff, if_neg hA.esc_ne_null,
        if_pos rfl, unstuff, if_neg (ne_of_not_flagged hs hA.flagged_null),
        if_neg (ne_of_not_flagged hs hA.flagged_esc), if_pos rfl, hA.mark_strip a ha, ih]

theorem frame_injective [DecidableEq α] : Function.Injective A.frame := by
  intro as bs h
  have hstuff : A.stuff as = A.stuff bs := List.append_cancel_right (List.cons.inj h).2
  rw [← hA.unstuff_stuff as, hstuff, hA.unstuff_stuff]

end Alphabet.Lawful

/-! ### The ideal receiver -/

/-- What an unbounded receiver knows: the idle symbols before the first `start`, whether one
was seen, whether an escape is pending, the memory image left by the segments before the
last `start`, the message since then, and how long the message was when it last grew. -/
structure Receiver (α : Type) where
  nulls : Nat := 0
  started : Bool := false
  escaping : Bool := false
  done : List α := []
  cur : List α := []
  stored : Option Nat := none

namespace Receiver
variable [DecidableEq α] (A : Alphabet α)

def step (r : Receiver α) (a : α) : Receiver α :=
  if a = A.null then (if r.started then r else { r with nulls := r.nulls + 1 })
  else if a = A.esc then { r with escaping := true }
  else if a = A.start then { r with started := true, done := overlay r.done r.cur, cur := [] }
  else { r with
    escaping := false, cur := r.cur ++ [if r.escaping then A.mark a else a],
    stored := some (r.cur.length + 1) }

def run (r : Receiver α) (as : List α) : Receiver α := as.foldl (step A) r

/-- Everything in memory: the earlier segments with the current message over them. -/
def image (r : Receiver α) : List α := overlay r.done r.cur

variable {A}

@[simp] theorem run_nil (r : Receiver α) : r.run A [] = r := rfl

theorem run_cons (r : Receiver α) (a : α) (as : List α) :
    r.run A (a :: as) = (r.step A a).run A as := rfl

theorem run_append (r : Receiver α) (as bs : List α) :
    r.run A (as ++ bs) = (r.run A as).run A bs := List.foldl_append

theorem step_null (r : Receiver α) :
    r.step A A.null = if r.started then r else { r with nulls := r.nulls + 1 } := by
  rw [step, if_pos rfl]

theorem step_esc (r : Receiver α) (h : A.esc ≠ A.null) :
    r.step A A.esc = { r with escaping := true } := by
  rw [step, if_neg h, if_pos rfl]

theorem step_start (r : Receiver α) (hn : A.start ≠ A.null) (he : A.start ≠ A.esc) :
    r.step A A.start = { r with started := true, done := r.image, cur := [] } := by
  rw [step, if_neg hn, if_neg he, if_pos rfl, image]

theorem step_data (r : Receiver α) {a : α} (hn : a ≠ A.null) (he : a ≠ A.esc) (hs : a ≠ A.start) :
    r.step A a = { r with
      escaping := false, cur := r.cur ++ [if r.escaping then A.mark a else a],
      stored := some (r.cur.length + 1) } := by
  rw [step, if_neg hn, if_neg he, if_neg hs]

theorem run_of_start_not_mem {as : List α} (h : A.start ∉ as) (r : Receiver α) :
    (r.run A as).cur = r.cur ++ A.unstuff r.escaping as ∧ (r.run A as).done = r.done ∧
      (r.run A as).started = r.started := by
  induction as generalizing r with
  | nil => simp [Alphabet.unstuff]
  | cons a as ih =>
    obtain ⟨ha, has⟩ : A.start ≠ a ∧ A.start ∉ as := by simpa using h
    obtain ⟨hcur, hdone, hstart⟩ := ih has (r.step A a)
    rw [run_cons, hcur, hdone, hstart, Alphabet.unstuff]
    by_cases hn : a = A.null
    · subst hn
      rw [step_null, if_pos rfl]
      cases h : r.started <;> simp [h]
    by_cases he : a = A.esc
    · subst he
      rw [step_esc r hn, if_neg hn, if_pos rfl]
      exact ⟨rfl, rfl, rfl⟩
    · rw [step_data r hn he (Ne.symm ha), if_neg hn, if_neg he]
      exact ⟨by simp, rfl, rfl⟩

theorem started_run (r : Receiver α) (hn : A.start ≠ A.null) (he : A.start ≠ A.esc) (as : List α) :
    (r.run A as).started = (r.started || decide (A.start ∈ as)) := by
  induction as generalizing r with
  | nil => simp
  | cons a as ih =>
    rw [run_cons, ih]
    by_cases hs : a = A.start
    · subst hs
      simp [step_start r hn he]
    · have hstep : (r.step A a).started = r.started := by
        rw [step]
        split_ifs <;> rfl
      rw [hstep]
      simp [Ne.symm hs]

/-- The message is what follows the last `start`, read with the escape pending there, over
the image left by what came before. -/
theorem run_start (r : Receiver α) (hn : A.start ≠ A.null) (he : A.start ≠ A.esc)
    {u s : List α} (hs : A.start ∉ s) :
    (r.run A (u ++ A.start :: s)).cur = A.unstuff (r.run A u).escaping s ∧
      (r.run A (u ++ A.start :: s)).done = (r.run A u).image := by
  obtain ⟨hcur, hdone, -⟩ := run_of_start_not_mem hs ((r.run A u).step A A.start)
  rw [run_append, run_cons, hcur, hdone, step_start _ hn he]
  exact ⟨List.nil_append _, rfl⟩

/-- Once a `start` was read the message received is that of the transmission, but for an escape
pending at the last `start`. -/
theorem exists_cur_run (r : Receiver α) (hn : A.start ≠ A.null) (he : A.start ≠ A.esc) {as : List α}
    (hs : A.start ∈ as) : ∃ e, (r.run A as).cur = A.unstuff e (Alphabet.lastRun A.start as) := by
  obtain ⟨u, has, hrun⟩ := Alphabet.exists_lastRun hs
  have hcur := (r.run_start hn he (u := u) hrun).1
  rw [← has] at hcur
  exact ⟨_, hcur⟩

def quiet (r : Receiver α) : Receiver α := { r with nulls := 0 }

omit [DecidableEq α] in
theorem quiet_eq_iff {r s : Receiver α} : r.quiet = s.quiet ↔ r.started = s.started ∧
    r.escaping = s.escaping ∧ r.done = s.done ∧ r.cur = s.cur ∧ r.stored = s.stored := by
  cases r
  cases s
  simp [quiet]

theorem quiet_step_null (r : Receiver α) : (r.step A A.null).quiet = r.quiet := by
  rw [step_null]
  split_ifs <;> rfl

theorem quiet_step {r s : Receiver α} (h : r.quiet = s.quiet) (a : α) :
    (r.step A a).quiet = (s.step A a).quiet := by
  obtain ⟨h₁, h₂, h₃, h₄, h₅⟩ := quiet_eq_iff.mp h
  rw [step, step]
  split_ifs <;> simp_all [quiet_eq_iff]

theorem quiet_run {r s : Receiver α} (h : r.quiet = s.quiet) (as : List α) :
    (r.run A as).quiet = (s.run A as).quiet := by
  induction as generalizing r s with
  | nil => exact h
  | cons a as ih => exact ih (quiet_step h a)

theorem quiet_run_filter (r : Receiver α) (as : List α) :
    (r.run A (as.filter (· ≠ A.null))).quiet = (r.run A as).quiet := by
  induction as generalizing r with
  | nil => rfl
  | cons a as ih =>
    by_cases hn : a = A.null
    · subst hn
      rw [List.filter_cons_of_neg (by simp), ih, run_cons]
      exact (quiet_run (quiet_step_null r) as).symm
    · rw [List.filter_cons_of_pos (by simpa using hn), run_cons, run_cons, ih]

/-! ### Limits -/

/-- No more than `maxNulls` idle symbols counted, no message longer than `maxLen`. -/
structure Ok (maxNulls maxLen : Nat) (r : Receiver α) : Prop where
  nulls : r.nulls ≤ maxNulls
  cur : r.cur.length ≤ maxLen
  done : r.done.length ≤ maxLen

variable (A) in
/-- The limits hold after every symbol read. -/
def Fits (maxNulls maxLen : Nat) : Receiver α → List α → Prop
  | _, [] => True
  | r, a :: as => Ok maxNulls maxLen (r.step A a) ∧ Fits maxNulls maxLen (r.step A a) as

variable (A) in
/-- The idle symbols in front of the first `start`. -/
def leadingNulls (as : List α) : Nat := (as.takeWhile (· ≠ A.start)).count A.null

variable {maxNulls maxLen : Nat}

omit [DecidableEq α] in
theorem Ok.length_image {r : Receiver α} (h : Ok maxNulls maxLen r) : r.image.length ≤ maxLen := by
  rw [image, length_overlay]
  exact max_le h.done h.cur

theorem Fits.ok {r : Receiver α} {as : List α} (h : Fits A maxNulls maxLen r as)
    (hr : Ok maxNulls maxLen r) : Ok maxNulls maxLen (r.run A as) := by
  induction as generalizing r with
  | nil => exact hr
  | cons a as ih => exact ih h.2 h.1

theorem fits_append (r : Receiver α) (as bs : List α) : Fits A maxNulls maxLen r (as ++ bs) ↔
    Fits A maxNulls maxLen r as ∧ Fits A maxNulls maxLen (r.run A as) bs := by
  induction as generalizing r with
  | nil => simp [Fits]
  | cons a as ih => rw [List.cons_append, Fits, ih, Fits, run_cons, and_assoc]

theorem leadingNulls_cons (a : α) (as : List α) : leadingNulls A (a :: as) =
    if a = A.start then 0 else (if a = A.null then 1 else 0) + leadingNulls A as := by
  rw [leadingNulls, List.takeWhile_cons]
  by_cases hs : a = A.start
  · simp [hs]
  · rw [if_pos (by simpa using hs), if_neg hs, List.count_cons, Nat.add_comm, leadingNulls]
    simp

theorem leadingNulls_concat {a : α} (ha : a ≠ A.null) (as : List α) :
    leadingNulls A (as ++ [a]) = leadingNulls A as := by
  induction as with
  | nil =>
    rw [List.nil_append, leadingNulls_cons, if_neg ha]
    split_ifs <;> rfl
  | cons b as ih => rw [List.cons_append, leadingNulls_cons, ih, leadingNulls_cons]

theorem leadingNulls_concat_null (hn : A.start ≠ A.null) {as : List α} (h : A.start ∉ as) :
    leadingNulls A (as ++ [A.null]) = leadingNulls A as + 1 := by
  induction as with
  | nil =>
    rw [List.nil_append, leadingNulls_cons, if_neg hn.symm, if_pos rfl]
    rfl
  | cons a as ih =>
    obtain ⟨ha, has⟩ : A.start ≠ a ∧ A.start ∉ as := by simpa using h
    rw [List.cons_append, leadingNulls_cons, ih has, leadingNulls_cons, if_neg ha.symm,
      if_neg ha.symm, Nat.add_assoc]

theorem leadingNulls_append {as : List α} (h : A.start ∈ as) (bs : List α) :
    leadingNulls A (as ++ bs) = leadingNulls A as := by
  induction as with
  | nil => cases h
  | cons a as ih =>
    rw [List.cons_append, leadingNulls_cons, leadingNulls_cons]
    by_cases hs : a = A.start
    · rw [if_pos hs, if_pos hs]
    · have has : A.start ∈ as := (List.mem_cons.mp h).resolve_left (Ne.symm hs)
      rw [if_neg hs, if_neg hs, ih has]

theorem leadingNulls_mono {as bs : List α} (h : as <+: bs) : leadingNulls A as ≤ leadingNulls A bs := by
  obtain ⟨cs, rfl⟩ := h
  induction as with
  | nil => exact Nat.zero_le _
  | cons a as ih =>
    rw [List.cons_append, leadingNulls_cons, leadingNulls_cons]
    by_cases hs : a = A.start
    · rw [if_pos hs, if_pos hs]
    · rw [if_neg hs, if_neg hs]
      exact Nat.add_le_add_left ih _

theorem leadingNulls_replicate (hn : A.start ≠ A.null) (n : Nat) :
    leadingNulls A (List.replicate n A.null) = n := by
  induction n with
  | zero => rfl
  | succ n ih =>
    rw [List.replicate_succ, leadingNulls_cons, if_neg hn.symm, if_pos rfl, ih, Nat.add_comm]

theorem splitOn_cons {a b : α} {as seg : List α} {segs : List (List α)}
    (h : as.splitOn b = seg :: segs) :
    (a :: as).splitOn b = if a = b then [] :: seg :: segs else (a :: seg) :: segs := by
  rw [List.splitOn_cons_eq_if_modifyHead, h]
  by_cases hab : a = b <;> simp [hab]

/-- The limits in closed form, from any receiver within them: the idle symbols still to be
counted fit, and so does each stretch between two `start` symbols, the first one on top of
the message so far. -/
theorem fits_iff (hn : A.start ≠ A.null) (he : A.start ≠ A.esc) (hen : A.esc ≠ A.null)
    {r : Receiver α} (hr : Ok maxNulls maxLen r) {as seg : List α} {segs : List (List α)}
    (hs : as.splitOn A.start = seg :: segs) :
    Fits A maxNulls maxLen r as ↔
      (r.nulls + if r.started then 0 else leadingNulls A as) ≤ maxNulls ∧
      r.cur.length + A.dataCount seg ≤ maxLen ∧ ∀ seg' ∈ segs, A.dataCount seg' ≤ maxLen := by
  induction as generalizing r seg segs with
  | nil =>
    rw [List.splitOn_nil, List.cons.injEq] at hs
    obtain ⟨rfl, rfl⟩ := hs
    simpa [Fits, leadingNulls, Alphabet.dataCount] using ⟨hr.nulls, hr.cur⟩
  | cons a as ih =>
    obtain ⟨seg₀, segs₀, hs₀⟩ := List.exists_cons_of_ne_nil (List.splitOn_ne_nil A.start as)
    rw [splitOn_cons hs₀] at hs
    rw [Fits, leadingNulls_cons]
    by_cases hstart : a = A.start
    · rw [if_pos hstart, List.cons.injEq] at hs
      obtain ⟨rfl, rfl⟩ := hs
      have hok : Ok maxNulls maxLen (r.step A a) := by
        rw [hstart, step_start r hn he]
        exact ⟨hr.nulls, Nat.zero_le _, hr.length_image⟩
      rw [and_iff_right hok, ih hok hs₀, hstart, step_start r hn he]
      simp [Alphabet.dataCount, hr.nulls, hr.cur]
    rw [if_neg hstart, List.cons.injEq] at hs
    obtain ⟨rfl, rfl⟩ := hs
    rw [if_neg hstart]
    by_cases hnull : a = A.null
    · -- an idle symbol counts only ahead of the first `start`
      have hcount : A.dataCount (a :: seg₀) = A.dataCount seg₀ := by
        simp [Alphabet.dataCount, Alphabet.isData, hnull]
      rw [hcount, if_pos hnull, hnull, step_null]
      by_cases hst : r.started = true
      · rw [if_pos hst, if_pos hst, and_iff_right hr, ih hr hs₀, if_pos hst]
      rw [if_neg hst, if_neg hst]
      by_cases hok : r.nulls + 1 ≤ maxNulls
      · have hok' : Ok maxNulls maxLen { r with nulls := r.nulls + 1 } := ⟨hok, hr.cur, hr.done⟩
        rw [and_iff_right hok', ih hok' hs₀, if_neg hst, Nat.add_assoc]
      · have hno : ¬Ok maxNulls maxLen { r with nulls := r.nulls + 1 } := fun h => hok h.nulls
        refine iff_of_false (fun h => hno h.1) fun h => ?_
        omega
    rw [if_neg hnull, Nat.zero_add]
    by_cases hesc : a = A.esc
    · have hcount : A.dataCount (a :: seg₀) = A.dataCount seg₀ := by
        simp [Alphabet.dataCount, Alphabet.isData, hesc]
      have hok : Ok maxNulls maxLen (r.step A a) := by
        rw [hesc, step_esc r hen]
        exact ⟨hr.nulls, hr.cur, hr.done⟩
      rw [hcount, and_iff_right hok, ih hok hs₀, hesc, step_esc r hen]
    · have hcount : A.dataCount (a :: seg₀) = A.dataCount seg₀ + 1 := by
        simp [Alphabet.dataCount, Alphabet.isData, hesc, hnull]
      rw [hcount, step_data r hnull hesc hstart]
      by_cases hok : r.cur.length + 1 ≤ maxLen
      · have hok' : Ok maxNulls maxLen { r with
            escaping := false, cur := r.cur ++ [if r.escaping then A.mark a else a],
            stored := some (r.cur.length + 1) } := ⟨hr.nulls, by simpa using hok, hr.done⟩
        rw [and_iff_right hok', ih hok' hs₀]
        simp only [List.length_append, List.length_singleton]
        rw [Nat.add_assoc, Nat.add_comm 1]
      · refine iff_of_false (fun h => hok (by simpa using h.1.cur)) fun h => ?_
        omega

/-! ### One frame among idle symbols -/

omit [DecidableEq α] in
variable (A) in
theorem ok_nil : Ok maxNulls maxLen ({} : Receiver α) :=
  ⟨Nat.zero_le _, Nat.zero_le _, Nat.zero_le _⟩

theorem stored_run {as : List α} (h : A.start ∉ as) {r : Receiver α}
    (hr : r.stored.getD 0 = r.cur.length) :
    (r.run A as).stored.getD 0 = (r.run A as).cur.length := by
  induction as generalizing r with
  | nil => exact hr
  | cons a as ih =>
    obtain ⟨ha, has⟩ : A.start ≠ a ∧ A.start ∉ as := by simpa using h
    refine ih has ?_
    rw [step]
    split_ifs with h₁ h₂ h₃ h₄
    · exact hr
    · exact hr
    · exact hr
    · exact absurd h₄.symm ha
    all_goals simp

section
variable {pre as : List α}

theorem run_frame (hA : A.Lawful) (h : pre.filter (· ≠ A.null) = A.start :: A.stuff as) :
    (({} : Receiver α).run A pre).started = true ∧ (({} : Receiver α).run A pre).done = [] ∧
      (({} : Receiver α).run A pre).cur = as ∧
      (({} : Receiver α).run A pre).stored.getD 0 = as.length := by
  have hquiet := quiet_run_filter (A := A) {} pre
  rw [h, run_cons, step_start _ hA.start_ne_null hA.start_ne_esc] at hquiet
  obtain ⟨hstarted, -, hdone, hcur, hstored⟩ := quiet_eq_iff.mp hquiet
  have hmem := hA.start_not_mem_stuff as
  obtain ⟨hcur', hdone', hstarted'⟩ := run_of_start_not_mem hmem
    { ({} : Receiver α) with started := true, done := ({} : Receiver α).image, cur := [] }
  have hcount := stored_run hmem
    (r := { ({} : Receiver α) with started := true, done := ({} : Receiver α).image, cur := [] }) rfl
  rw [hA.unstuff_stuff, List.nil_append] at hcur'
  refine ⟨hstarted.symm.trans hstarted', hdone.symm.trans hdone', hcur.symm.trans hcur', ?_⟩
  rw [← hstored, hcount, hcur']

theorem fits_frame (hA : A.Lawful) (h : pre.filter (· ≠ A.null) = A.start :: A.stuff as)
    (hnulls : leadingNulls A pre ≤ maxNulls) (hlen : as.length ≤ maxLen) :
    Fits A maxNulls maxLen {} pre := by
  obtain ⟨z, w, rfl, hz, -, hw⟩ := List.filter_eq_cons_iff.mp h
  have hznull (a : α) (ha : a ∈ z) : a = A.null := by simpa using hz a ha
  have hzmem : A.start ∉ z := fun hmem => hA.start_ne_null (hznull _ hmem)
  have hwmem : A.start ∉ w := fun hmem => by
    have : A.start ∈ w.filter (· ≠ A.null) :=
      List.mem_filter.mpr ⟨hmem, by simpa using hA.start_ne_null⟩
    rw [hw] at this
    exact hA.start_not_mem_stuff as this
  have hsplit : (z ++ A.start :: w).splitOn A.start = z :: [w] := by
    rw [List.splitOn_append_cons_self, List.splitOn_eq_singleton hzmem,
      List.splitOn_eq_singleton hwmem]
    rfl
  have hzcount : A.dataCount z = 0 := by
    rw [Alphabet.dataCount, List.countP_eq_zero]
    intro a ha
    simp [hznull a ha, Alphabet.isData]
  have hwcount : A.dataCount w = as.length := by
    rw [← A.length_unstuff false, ← A.unstuff_filter, hw, hA.unstuff_stuff]
  rw [fits_iff hA.start_ne_null hA.start_ne_esc hA.esc_ne_null ok_nil hsplit]
  refine ⟨by simpa using hnulls, by simp [hzcount], ?_⟩
  intro run hrun
  rw [List.mem_singleton.mp hrun, hwcount]
  exact hlen

end

end Receiver
end Framing
