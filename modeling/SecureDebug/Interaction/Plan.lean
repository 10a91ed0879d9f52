import Mathlib.Data.List.Basic
import Mathlib.Tactic.Common

/-! Plans: what shows of a procedure that takes its stages in a fixed order and stops at the
first that fails. -/

namespace Interaction

/-- What is observed while a stage is carried out, and while it fails. -/
structure Plan (S O : Type) where
  Done : S → List O → Prop
  Cut : S → List O → Prop

variable {S O A : Type} {P : Plan S O}

namespace Plan

/-- `P.Follows ss t c`: `t` is what is observed of the stages `ss`, all of them done if `c`
and the last one reached cut short if not. -/
inductive Follows (P : Plan S O) : List S → List O → Bool → Prop
  | nil : Follows P [] [] true
  | cut {s : S} {ss : List S} {t : List O} : P.Cut s t → Follows P (s :: ss) t false
  | step {s : S} {ss : List S} {t t' : List O} {c : Bool} :
      P.Done s t → Follows P ss t' c → Follows P (s :: ss) (t ++ t') c

theorem follows_nil {t : List O} {c : Bool} : P.Follows [] t c ↔ t = [] ∧ c = true := by
  constructor
  · rintro ⟨⟩
    exact ⟨rfl, rfl⟩
  · rintro ⟨rfl, rfl⟩
    exact .nil

theorem Follows.single {s : S} {t : List O} (h : P.Done s t) : P.Follows [s] t true := by
  simpa using Follows.step h .nil

theorem Follows.append {ss₁ ss₂ : List S} {t₁ t₂ : List O} {c : Bool}
    (h₁ : P.Follows ss₁ t₁ true) (h₂ : P.Follows ss₂ t₂ c) :
    P.Follows (ss₁ ++ ss₂) (t₁ ++ t₂) c := by
  generalize hc : true = b at h₁
  induction h₁ with
  | nil => exact h₂
  | cut _ => cases hc
  | step hd _ ih =>
    rw [List.append_assoc]
    exact .step hd (ih hc)

theorem Follows.append_cut {ss₁ ss₂ : List S} {t : List O} (h : P.Follows ss₁ t false) :
    P.Follows (ss₁ ++ ss₂) t false := by
  generalize hc : false = b at h
  induction h with
  | nil => cases hc
  | cut hcut => exact .cut hcut
  | step hd _ ih => exact .step hd (ih hc)

/-- Each stage shows its own mark, at most once, and only that: so the marks observed are
those of a prefix of the plan. -/
theorem Follows.filterMap_prefix {f : O → Option A} {g : S → Option A}
    (hdone : ∀ s t, P.Done s t → t.filterMap f = (g s).toList)
    (hcut : ∀ s t, P.Cut s t → t.filterMap f <+: (g s).toList)
    {ss : List S} {t : List O} {c : Bool} (h : P.Follows ss t c) :
    t.filterMap f <+: ss.filterMap g := by
  induction h with
  | nil => exact List.prefix_refl _
  | @cut s ss t h =>
    have hs : (s :: ss).filterMap g = (g s).toList ++ ss.filterMap g := by
      rw [List.filterMap_cons]
      cases g s <;> rfl
    rw [hs]
    exact (hcut s t h).trans (List.prefix_append _ _)
  | @step s ss t t' c h _ ih =>
    have hs : (s :: ss).filterMap g = (g s).toList ++ ss.filterMap g := by
      rw [List.filterMap_cons]
      cases g s <;> rfl
    rw [hs, List.filterMap_append, hdone s t h]
    exact (List.prefix_append_right_inj _).mpr ih

/-- An observation that can only be the whole of a stage comes after all earlier stages. -/
theorem Follows.before {Loud : O → Prop}
    (hloud : ∀ s t, P.Done s t ∨ P.Cut s t → ∀ o ∈ t, Loud o → t = [o])
    {ss : List S} {t₁ t₂ : List O} {o : O} {c : Bool} (ho : Loud o)
    (h : P.Follows ss (t₁ ++ o :: t₂) c) :
    ∃ ss₁ s ss₂, ss = ss₁ ++ s :: ss₂ ∧ P.Follows ss₁ t₁ true ∧ (P.Done s [o] ∨ P.Cut s [o]) := by
  generalize ht : t₁ ++ o :: t₂ = t at h
  induction h generalizing t₁ with
  | nil => simp at ht
  | @cut s ss t h =>
    have hsingle : t = [o] := hloud s t (.inr h) o (by rw [← ht]; simp) ho
    obtain ⟨rfl, -⟩ : t₁ = [] ∧ t₂ = [] := by
      rw [hsingle] at ht
      simpa [List.append_eq_singleton_iff] using ht
    exact ⟨[], s, ss, rfl, .nil, .inr (hsingle ▸ h)⟩
  | @step s ss t t' c h _ ih =>
    rcases List.append_eq_append_iff.mp ht with ⟨bs, rfl, hbs⟩ | ⟨as, rfl, has⟩
    · cases bs with
      | nil =>
        rw [List.append_nil] at h
        obtain ⟨ss₁, s', ss₂, rfl, hf, hs'⟩ := @ih [] hbs
        refine ⟨s :: ss₁, s', ss₂, rfl, ?_, hs'⟩
        simpa using Follows.step h hf
      | cons b bs =>
        obtain ⟨rfl, -⟩ : o = b ∧ t₂ = bs ++ t' := by simpa using hbs
        have hsingle := hloud s _ (.inl h) o (by simp) ho
        obtain ⟨rfl, -⟩ : t₁ = [] ∧ bs = [] := by simpa [List.append_eq_singleton_iff] using hsingle
        exact ⟨[], s, ss, rfl, .nil, .inl (hsingle ▸ h)⟩
    · obtain ⟨ss₁, s', ss₂, rfl, hf, hs'⟩ := ih has.symm
      exact ⟨s :: ss₁, s', ss₂, rfl, .step h hf, hs'⟩

/-- Where it can be read off the observations whether a stage is done, a procedure that got
through the first stages went on with the next. -/
theorem Follows.continue {ss₁ ss₂ : List S} {t t₁ : List O} {c : Bool}
    (hunique : ∀ s ∈ ss₁, ∀ t t' u u', P.Done s t → P.Done s t' → t ++ u = t' ++ u' → t = t')
    (hcut : ∀ s ∈ ss₁, ∀ t t', P.Cut s t → P.Done s t' → ¬t' <+: t)
    (h : P.Follows (ss₁ ++ ss₂) t c) (h₁ : P.Follows ss₁ t₁ true) (hpre : t₁ <+: t) :
    ∃ t₂, t = t₁ ++ t₂ ∧ P.Follows ss₂ t₂ c := by
  induction ss₁ generalizing t t₁ with
  | nil =>
    obtain ⟨rfl, -⟩ := follows_nil.mp h₁
    exact ⟨t, rfl, h⟩
  | cons s ss₁ ih =>
    cases h₁ with
    | @step _ _ u u' _ hd hf =>
      cases h with
      | cut hc => exact absurd ((List.prefix_append u u').trans hpre) (hcut s List.mem_cons_self _ _ hc hd)
      | @step _ _ v v' _ hd' hf' =>
        obtain ⟨w, hw⟩ := hpre
        rw [List.append_assoc] at hw
        obtain rfl := hunique s List.mem_cons_self _ _ _ _ hd hd' hw
        obtain ⟨t₂, rfl, ht₂⟩ := ih (fun s hs => hunique s (List.mem_cons_of_mem _ hs))
          (fun s hs => hcut s (List.mem_cons_of_mem _ hs)) hf' hf ⟨w, List.append_cancel_left hw⟩
        exact ⟨t₂, (List.append_assoc _ _ _).symm, ht₂⟩

theorem Follows.flatMap_sublist {mark : S → List O} (hmark : ∀ s t, P.Done s t → (mark s).Sublist t)
    {ss : List S} {t : List O} (h : P.Follows ss t true) : (ss.flatMap mark).Sublist t := by
  generalize hc : true = c at h
  induction h with
  | nil => exact List.Sublist.slnil
  | cut _ => cases hc
  | @step s ss t t' c h _ ih =>
    rw [List.flatMap_cons]
    exact (hmark s t h).append (ih hc)

end Plan
end Interaction
