import Mathlib.Data.List.Basic
import Mathlib.Tactic.Common

/-! Memory written from its first cell on: `overlay xs ys` is `xs` after `ys` was stored over
its front. Overlays compose, so what several writes leave behind is one overlay. -/

namespace Framing
variable {α : Type}

def overlay (xs ys : List α) : List α := ys ++ xs.drop ys.length

@[simp] theorem overlay_nil (xs : List α) : overlay xs [] = xs := by simp [overlay]

@[simp] theorem nil_overlay (ys : List α) : overlay [] ys = ys := by simp [overlay]

@[simp] theorem length_overlay (xs ys : List α) :
    (overlay xs ys).length = max xs.length ys.length := by
  simp only [overlay, List.length_append, List.length_drop]
  omega

theorem overlay_assoc (xs ys zs : List α) :
    overlay (overlay xs ys) zs = overlay xs (overlay ys zs) := by
  rw [overlay, overlay, overlay, overlay, List.drop_append, List.append_assoc, List.drop_drop,
    List.length_append, List.length_drop]
  congr 3
  omega

theorem overlay_of_length_le {xs ys : List α} (h : xs.length ≤ ys.length) : overlay xs ys = ys := by
  rw [overlay, List.drop_eq_nil_of_le h, List.append_nil]

theorem overlay_concat {xs ys : List α} {y : α} (h : ys.length < xs.length) :
    overlay xs (ys ++ [y]) = (overlay xs ys).set ys.length y := by
  rw [overlay, overlay, List.set_append_right _ _ (Nat.le_refl _), Nat.sub_self, List.length_append,
    List.length_singleton, List.append_assoc]
  obtain ⟨x, zs, hx⟩ : ∃ x zs, xs.drop ys.length = x :: zs := by
    rcases hd : xs.drop ys.length with _ | ⟨x, zs⟩
    · have := congrArg List.length hd
      simp only [List.length_drop, List.length_nil] at this
      omega
    · exact ⟨x, zs, rfl⟩
  rw [← List.drop_drop, hx]
  rfl

theorem drop_overlay {xs ys : List α} {n : Nat} (h : ys.length ≤ n) :
    (overlay xs ys).drop n = xs.drop n := by
  rw [overlay, List.drop_append, List.drop_eq_nil_of_le h, List.nil_append, List.drop_drop]
  congr 1
  omega

theorem overlay_drop (xs ys : List α) (n : Nat) :
    (overlay xs ys).drop n = overlay (xs.drop n) (ys.drop n) := by
  rw [overlay, overlay, List.drop_append, List.drop_drop, List.drop_drop, List.length_drop]
  congr 2
  omega

theorem overlay_take (xs ys : List α) (n : Nat) :
    (overlay xs ys).take n = overlay (xs.take n) (ys.take n) := by
  rw [overlay, overlay, List.take_append, List.length_take]
  congr 1
  rcases Nat.le_total ys.length n with h | h
  · rw [Nat.min_eq_right h, List.drop_take]
  · rw [Nat.sub_eq_zero_of_le h, List.take_zero, Nat.min_eq_left h]
    exact (List.drop_eq_nil_of_le (List.length_take_le n xs)).symm

theorem take_overlay {xs ys : List α} {n : Nat} (h : n ≤ ys.length) :
    (overlay xs ys).take n = ys.take n := by
  rw [overlay, List.take_append_of_le_length h]

theorem slice_overlay {xs ys : List α} {i n : Nat} (h : i + n ≤ ys.length) :
    ((overlay xs ys).drop i).take n = (ys.drop i).take n := by
  rw [List.take_drop, take_overlay h, ← List.take_drop]

theorem overlay_set {xs ys : List α} {i : Nat} (h : ys.length ≤ i) (a : α) :
    overlay (xs.set i a) ys = (overlay xs ys).set i a := by
  rw [overlay, overlay, List.drop_set, if_neg (Nat.not_lt.mpr h), List.set_append_right _ _ h]

/-! ### Memories that agree -/

/-- Two memories of one size that hold the same in their first `n` cells. -/
structure Agree (n : Nat) (xs ys : List α) : Prop where
  length_eq : xs.length = ys.length
  take_eq : xs.take n = ys.take n

namespace Agree
variable {n : Nat} {xs ys : List α}

theorem mono {k : Nat} (h : Agree n xs ys) (hk : k ≤ n) : Agree k xs ys := by
  refine ⟨h.length_eq, ?_⟩
  have htake := congrArg (List.take k) h.take_eq
  rwa [List.take_take, List.take_take, Nat.min_eq_left hk] at htake

theorem slice {i k : Nat} (h : Agree n xs ys) (hin : i + k ≤ n) :
    (xs.drop i).take k = (ys.drop i).take k := by
  rw [List.take_drop, List.take_drop, (h.mono hin).take_eq]

theorem set (h : Agree n xs ys) (i : Nat) (a : α) : Agree n (xs.set i a) (ys.set i a) := by
  refine ⟨by rw [List.length_set, List.length_set, h.length_eq], ?_⟩
  rw [List.take_set, List.take_set, h.take_eq]

theorem write {i : Nat} {as : List α} (h : Agree n xs ys) (hi : i ≤ n)
    (hfits : i + as.length ≤ xs.length) :
    Agree (i + as.length) (xs.take i ++ as ++ xs.drop (i + as.length))
      (ys.take i ++ as ++ ys.drop (i + as.length)) := by
  have htake : xs.take i = ys.take i := (h.mono hi).take_eq
  have hlen : (ys.take i ++ as).length = i + as.length := by
    rw [List.length_append, ← htake, List.length_take, Nat.min_eq_left (by omega)]
  refine ⟨?_, ?_⟩
  · simp only [List.length_append, List.length_take, List.length_drop, h.length_eq]
  · rw [htake, List.take_left' hlen, List.take_left' hlen]

end Agree

theorem agree_overlay {xs xs' : List α} (h : xs.length = xs'.length) (ys : List α) :
    Agree ys.length (overlay xs ys) (overlay xs' ys) := by
  refine ⟨by rw [length_overlay, length_overlay, h], ?_⟩
  rw [take_overlay (Nat.le_refl _), take_overlay (Nat.le_refl _)]

end Framing
