import SecureDebug.Framing.Receiver

/-! Escapes that no sender wrote: one that is pending where a message begins, and symbols that
are no escaped form of anything. A receiver takes them all; what it makes of them says which of
its readings a sender could have meant. -/

namespace Framing
variable {α : Type} [DecidableEq α] (A : Alphabet α)

namespace Alphabet

def pending (as : List α) : Bool :=
  (as.filter fun a => a ≠ A.null && a ≠ A.start).getLast? = some A.esc

theorem pending_concat (as : List α) (a : α) : A.pending (as ++ [a]) =
    if a = A.null ∨ a = A.start then A.pending as else decide (a = A.esc) := by
  rw [pending, List.filter_append]
  by_cases h : a = A.null ∨ a = A.start
  · have hskip : [a].filter (fun a => a ≠ A.null && a ≠ A.start) = [] := by
      simpa [or_iff_not_imp_left] using h
    rw [if_pos h, hskip, List.append_nil, pending]
  · have hkeep : [a].filter (fun a => a ≠ A.null && a ≠ A.start) = [a] := by
      simpa using not_or.mp h
    rw [if_neg h, hkeep, List.getLast?_append]
    simp

/-- A pending escape shows in the message unless the first symbol is an escape itself or is one
that marking leaves alone. -/
theorem unstuff_eq_iff (as : List α) : A.unstuff true as = A.unstuff false as ↔
    ∀ a, as.find? (· ≠ A.null) = some a → a = A.esc ∨ A.mark a = a := by
  induction as with
  | nil => simp [unstuff]
  | cons a as ih =>
    rw [unstuff, unstuff]
    by_cases hn : a = A.null
    · rw [if_pos hn, if_pos hn, ih, List.find?_cons_of_neg (by simpa using hn)]
    rw [if_neg hn, if_neg hn, List.find?_cons_of_pos (by simpa using hn)]
    by_cases hesc : a = A.esc
    · simp [hesc]
    · simp [hesc]

theorem tail_unstuff_eq (e e' : Bool) (as : List α) :
    (A.unstuff e as).tail = (A.unstuff e' as).tail := by
  rw [A.tail_unstuff e, A.tail_unstuff e']

theorem lastRun_concat (a b : α) (as : List α) :
    lastRun a (as ++ [b]) = if b = a then [] else lastRun a as ++ [b] := by
  by_cases hb : b = a
  · rw [if_pos hb, hb, lastRun, List.splitOn_append_cons_self, List.splitOn_nil]
    simp
  rw [if_neg hb]
  by_cases ha : a ∈ as
  · obtain ⟨u, has, hrun⟩ := exists_lastRun ha
    have hrun' : a ∉ lastRun a as ++ [b] := by
      simpa [hrun] using Ne.symm hb
    have hsplit : as ++ [b] = u ++ a :: (lastRun a as ++ [b]) := by
      conv_lhs => rw [has]
      simp
    rw [lastRun, hsplit, List.splitOn_append_cons_self, List.splitOn_eq_singleton hrun']
    simp
  · have hab : a ∉ as ++ [b] := by simpa [ha] using Ne.symm hb
    rw [lastRun, lastRun, List.splitOn_eq_singleton hab, List.splitOn_eq_singleton ha]
    rfl

theorem lastRun_append_cons {a : α} {u s : List α} (h : a ∉ s) : lastRun a (u ++ a :: s) = s := by
  rw [lastRun, List.splitOn_append_cons_self, List.splitOn_eq_singleton h]
  simp

/-! ### Escaped forms -/

omit [DecidableEq α] in
/-- The symbols of an escaped message: no flag on its own, and behind each `esc` the stripped
form of a flag. -/
inductive Stuffed : List α → Prop
  | nil : Stuffed []
  | plain {a : α} {as : List α} : A.flagged a = false → Stuffed as → Stuffed (a :: as)
  | escaped {a : α} {as : List α} : A.flagged (A.mark a) = true → A.strip (A.mark a) = a →
      Stuffed as → Stuffed (A.esc :: a :: as)

end Alphabet

namespace Alphabet.Lawful
variable {A} (hA : A.Lawful)
include hA

omit [DecidableEq α] in
theorem stuffed_stuff (as : List α) : A.Stuffed (A.stuff as) := by
  induction as with
  | nil => exact .nil
  | cons a as ih =>
    rw [stuff_cons]
    cases ha : A.flagged a with
    | false => exact .plain ha ih
    | true =>
      have hmark := hA.mark_strip a ha
      refine .escaped ?_ ?_ ih
      · rw [hmark, ha]
      · rw [hmark]

theorem stuff_unstuff {as : List α} (h : A.Stuffed as) : A.stuff (A.unstuff false as) = as := by
  induction h with
  | nil => rfl
  | @plain a as ha _ ih =>
    have hnull : a ≠ A.null := ne_of_not_flagged ha hA.flagged_null
    have hesc : a ≠ A.esc := ne_of_not_flagged ha hA.flagged_esc
    rw [unstuff, if_neg hnull, if_neg hesc, if_neg Bool.false_ne_true, stuff_cons, ha,
      if_neg Bool.false_ne_true, ih]
    rfl
  | @escaped a as hflag hstrip _ ih =>
    have ha : A.flagged a = false := by
      rw [← hstrip]
      exact hA.flagged_strip _ hflag
    have hnull : a ≠ A.null := ne_of_not_flagged ha hA.flagged_null
    have hesc : a ≠ A.esc := ne_of_not_flagged ha hA.flagged_esc
    rw [unstuff, if_neg hA.esc_ne_null, if_pos rfl, unstuff, if_neg hnull, if_neg hesc, if_pos rfl,
      stuff_cons, if_pos hflag, hstrip, ih]
    rfl

/-- Escaping what was read gives back what was read just if it was an escaped form and no
pending escape changed its first symbol. -/
theorem stuff_unstuff_iff (e : Bool) {as : List α} (hnull : A.null ∉ as) :
    A.stuff (A.unstuff e as) = as ↔ A.Stuffed as ∧
      (e = true → ∀ a, as.find? (· ≠ A.null) = some a → a = A.esc ∨ A.mark a = a) := by
  constructor
  · intro h
    refine ⟨?_, fun he => ?_⟩
    · rw [← h]
      exact hA.stuffed_stuff _
    · rw [he] at h
      intro a ha
      cases as with
      | nil => cases ha
      | cons b as =>
        obtain ⟨hb, -⟩ : A.null ≠ b ∧ A.null ∉ as := by simpa using hnull
        rw [List.find?_cons_of_pos (by simpa using hb.symm)] at ha
        obtain rfl := Option.some.inj ha
        by_cases hesc : b = A.esc
        · exact .inl hesc
        -- the first symbol was marked, so its escaped form does not begin with `esc`
        rw [unstuff, if_neg hb.symm, if_neg hesc, if_pos rfl, stuff_cons] at h
        cases hflag : A.flagged (A.mark b) with
        | true =>
          rw [hflag, if_pos rfl, List.cons_append] at h
          exact absurd (List.cons.inj h).1.symm hesc
        | false =>
          rw [hflag, if_neg Bool.false_ne_true, List.cons_append] at h
          exact .inr (List.cons.inj h).1
  · intro h
    obtain ⟨hstuffed, hfirst⟩ := h
    cases e with
    | false => exact hA.stuff_unstuff hstuffed
    | true =>
      rw [(A.unstuff_eq_iff as).mpr (hfirst rfl)]
      exact hA.stuff_unstuff hstuffed

end Alphabet.Lawful

/-! ### Rings -/

omit [DecidableEq α]

/-- Store `ys` one after another from cell `i` on, in a ring of `k` cells. -/
def writeRing (k : Nat) : List α → Nat → List α → List α
  | xs, _, [] => xs
  | xs, i, y :: ys => writeRing k (xs.set i y) ((i + 1) % k) ys

section
variable {k n i : Nat} {xs xs' ys ys' : List α}

@[simp] theorem length_writeRing (k : Nat) (xs : List α) (i : Nat) (ys : List α) :
    (writeRing k xs i ys).length = xs.length := by
  induction ys generalizing xs i with
  | nil => rfl
  | cons y ys ih => rw [writeRing, ih, List.length_set]

theorem writeRing_append (hi : i < k) (xs ys zs : List α) : writeRing k xs i (ys ++ zs) =
    writeRing k (writeRing k xs i ys) ((i + ys.length) % k) zs := by
  induction ys generalizing xs i with
  | nil => rw [List.nil_append, List.length_nil, Nat.add_zero, Nat.mod_eq_of_lt hi, writeRing]
  | cons y ys ih =>
    have hlt : (i + 1) % k < k := Nat.mod_lt _ (Nat.zero_lt_of_lt hi)
    have hidx : ((i + 1) % k + ys.length) % k = (i + (ys.length + 1)) % k := by
      rw [Nat.mod_add_mod, Nat.add_assoc, Nat.add_comm 1]
    rw [List.cons_append, writeRing, ih hlt, writeRing, List.length_cons, hidx]

theorem writeRing_of_le (hk : i + ys.length ≤ k) (hlen : i + ys.length ≤ xs.length) :
    writeRing k xs i ys = xs.take i ++ ys ++ xs.drop (i + ys.length) := by
  induction ys generalizing xs i with
  | nil => simp [writeRing]
  | cons y ys ih =>
    rw [List.length_cons] at hk hlen
    have hset : xs.set i y = xs.take i ++ y :: xs.drop (i + 1) :=
      List.set_eq_take_append_cons_drop.trans (if_pos (by omega))
    have htake : (xs.take i).length = i := List.length_take_of_le (by omega)
    rw [writeRing]
    cases ys with
    | nil =>
      rw [writeRing, hset]
      simp
    | cons z zs =>
      rw [List.length_cons] at hk hlen
      have hmod : (i + 1) % k = i + 1 := Nat.mod_eq_of_lt (by omega)
      have hfirst : (xs.set i y).take (i + 1) = xs.take i ++ [y] := by
        rw [hset, List.take_append, htake, List.take_of_length_le (by omega)]
        simp
      have hrest : (xs.set i y).drop (i + 1 + (zs.length + 1)) = xs.drop (i + (zs.length + 1 + 1)) := by
        rw [List.drop_set_of_lt (by omega)]
        congr 1
        omega
      rw [hmod, ih (by rw [List.length_cons]; omega) (by rw [List.length_cons, List.length_set]; omega),
        hfirst, List.length_cons, hrest]
      simp

theorem take_writeRing_congr (h : xs.take n = xs'.take n) (k i : Nat) (ys : List α) :
    (writeRing k xs i ys).take n = (writeRing k xs' i ys).take n := by
  induction ys generalizing xs xs' i with
  | nil => exact h
  | cons y ys ih =>
    refine ih ?_ _
    rw [List.take_set, List.take_set, h]

variable (xs ys) in
theorem take_writeRing (hk : ys.length ≤ k) (hlen : ys.length ≤ xs.length) :
    (writeRing k xs 0 ys).take ys.length = ys := by
  rw [writeRing_of_le (by omega) (by omega)]
  simp

theorem take_writeRing_wrapped (hk : 0 < k) (hlen : k ≤ xs.length) (hlen' : k ≤ xs'.length) {y y' : α}
    (hys : k ≤ ys.length) :
    (writeRing k xs 0 (y :: ys)).take k = (writeRing k xs' 0 (y' :: ys)).take k := by
  obtain ⟨z, zs, hdrop⟩ : ∃ z zs, ys.drop (k - 1) = z :: zs := by
    apply List.exists_cons_of_ne_nil
    rw [ne_eq, List.drop_eq_nil_iff]
    omega
  have hsplit : ys = ys.take (k - 1) ++ z :: zs := by
    rw [← hdrop, List.take_append_drop]
  have hlap : (ys.take (k - 1)).length + 1 = k := by
    rw [List.length_take]
    omega
  have hwrap (w : α) (ws : List α) (hws : k ≤ ws.length) :
      (writeRing k ws 0 (w :: ys)).take k =
        (writeRing k ((writeRing k ws 0 (w :: ys.take (k - 1))).set 0 z) (1 % k) zs).take k := by
    conv_lhs => rw [hsplit, ← List.cons_append, writeRing_append hk, List.length_cons, hlap,
      Nat.zero_add, Nat.mod_self, writeRing]
  have hcells (w : α) (ws : List α) (hws : k ≤ ws.length) :
      ((writeRing k ws 0 (w :: ys.take (k - 1))).set 0 z).take k = z :: ys.take (k - 1) := by
    have htake := take_writeRing (k := k) ws (w :: ys.take (k - 1))
      (by rw [List.length_cons]; omega) (by rw [List.length_cons]; omega)
    rw [List.length_cons, hlap] at htake
    rw [List.take_set, htake]
    rfl
  rw [hwrap y xs hlen, hwrap y' xs' hlen']
  apply take_writeRing_congr
  rw [hcells y xs hlen, hcells y' xs' hlen']

variable (xs xs') in
/-- Two messages that differ in their first symbol at most leave the same behind just if they do
not differ or the ring has wrapped. -/
theorem take_writeRing_eq_iff (hk : 0 < k) (hys : ys.length = ys'.length) (htail : ys.tail = ys'.tail)
    (hlen : min ys.length k ≤ xs.length) (hlen' : min ys.length k ≤ xs'.length) :
    (writeRing k xs 0 ys).take (min ys.length k) = (writeRing k xs' 0 ys').take (min ys.length k) ↔
      ys = ys' ∨ k < ys.length := by
  rcases Nat.lt_or_ge k ys.length with hwrap | hfits
  · refine iff_of_true ?_ (.inr hwrap)
    rw [Nat.min_eq_right hwrap.le] at hlen hlen' ⊢
    cases ys with
    | nil => cases hwrap
    | cons y ys =>
      cases ys' with
      | nil => cases hys
      | cons y' ys' =>
        obtain rfl : ys = ys' := htail
        exact take_writeRing_wrapped hk hlen hlen' (Nat.le_of_lt_succ hwrap)
  · rw [Nat.min_eq_left hfits] at hlen hlen' ⊢
    have hright := take_writeRing (k := k) xs' ys' (by omega) (by omega)
    rw [take_writeRing xs ys hfits hlen, hys, hright, or_iff_left (by omega)]

end
end Framing
