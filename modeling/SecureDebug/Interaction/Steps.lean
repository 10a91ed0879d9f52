import Mathlib.Data.List.Basic
import Mathlib.Tactic.Common

/-! Labelled transition systems: the labels that lead from one state to another. -/

namespace Interaction
section
variable {S L : Type} {step : S → L → S → Prop} {s t u : S} {a : L} {as bs : List L}

/-- The labels lead from the first state to the last, one step each. -/
inductive Steps (step : S → L → S → Prop) : S → List L → S → Prop
  | nil (s : S) : Steps step s [] s
  | cons {s t u : S} {a : L} {as : List L} : step s a t → Steps step t as u → Steps step s (a :: as) u

theorem steps_nil : Steps step s [] t ↔ t = s := by
  constructor
  · intro h
    cases h
    rfl
  · intro h
    rw [h]
    exact .nil s

theorem steps_cons : Steps step s (a :: as) u ↔ ∃ t, step s a t ∧ Steps step t as u := by
  constructor
  · intro h
    cases h with
    | cons h₁ h₂ => exact ⟨_, h₁, h₂⟩
  · intro h
    obtain ⟨t, h₁, h₂⟩ := h
    exact .cons h₁ h₂

theorem steps_singleton : Steps step s [a] t ↔ step s a t := by
  rw [steps_cons]
  constructor
  · intro h
    obtain ⟨t', h₁, h₂⟩ := h
    have heq := steps_nil.mp h₂
    rwa [heq]
  · intro h
    exact ⟨t, h, .nil t⟩

theorem steps_append : Steps step s (as ++ bs) u ↔ ∃ t, Steps step s as t ∧ Steps step t bs u := by
  induction as generalizing s with
  | nil =>
    constructor
    · intro h
      exact ⟨s, .nil s, h⟩
    · intro h
      obtain ⟨t, h₁, h₂⟩ := h
      have heq := steps_nil.mp h₁
      rwa [heq] at h₂
  | cons a as ih =>
    rw [List.cons_append, steps_cons]
    constructor
    · intro h
      obtain ⟨t', h₁, h₂⟩ := h
      obtain ⟨t, h₃, h₄⟩ := ih.mp h₂
      exact ⟨t, .cons h₁ h₃, h₄⟩
    · intro h
      obtain ⟨t, h₁, h₂⟩ := h
      obtain ⟨t', h₃, h₄⟩ := steps_cons.mp h₁
      exact ⟨t', h₃, ih.mpr ⟨t, h₄, h₂⟩⟩

theorem Steps.invariant {P : List L → S → Prop}
    (hstep : ∀ bs s a t, P bs s → step s a t → P (bs ++ [a]) t) (h : P bs s)
    (hsteps : Steps step s as t) : P (bs ++ as) t := by
  induction hsteps generalizing bs with
  | nil s =>
    rw [List.append_nil]
    exact h
  | cons hfirst _ ih =>
    have hnext := ih (hstep _ _ _ _ h hfirst)
    rwa [List.append_assoc] at hnext

end

end Interaction
