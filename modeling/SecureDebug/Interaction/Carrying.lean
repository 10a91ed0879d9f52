import SecureDebug.Interaction.Plan
import SecureDebug.Interaction.Program

/-! Programs that carry out a plan: every run goes through the stages in order and stops at the
first that fails. -/

namespace Interaction
open Program

variable {I : Interface} {ε α β S O : Type} {P : Plan S O} {view : List (Event I) → List O}

/-- What `view` shows of a run follows the plan, and the plan is completed just if the run returns
a value that is good. -/
def Carries (P : Plan S O) (view : List (Event I) → List O) (p : Program I ε α) (good : α → Prop)
    (ss : List S) : Prop :=
  ∀ l r, Run p l r → ∃ c, P.Follows ss (view l) c ∧ (c = true ↔ ∃ a, r = .ok a ∧ good a)

section
variable {p : Program I ε α} {f : α → Program I ε β} {good : α → Prop} {fine : β → Prop}
  {ss ss' : List S} {s : S}

theorem carries_pure {a : α} (hview : view [] = []) (h : good a) :
    Carries P view (pure a : Program I ε α) good [] := by
  intro l r hrun
  obtain ⟨hl, hr⟩ := run_pure.mp hrun
  rw [hl, hview, hr]
  exact ⟨true, .nil, iff_of_true rfl ⟨a, rfl, h⟩⟩

theorem carries_nil (h : ∀ l r, Run p l r → view l = [] ∧ ∃ a, r = .ok a) :
    Carries P view p (fun _ => True) [] := by
  intro l r hrun
  obtain ⟨hl, a, hr⟩ := h l r hrun
  rw [hl]
  exact ⟨true, .nil, iff_of_true rfl ⟨a, hr, trivial⟩⟩

theorem carries_single (h : ∀ l r, Run p l r → (P.Done s (view l) ∧ ∃ a, r = .ok a ∧ good a) ∨
    (P.Cut s (view l) ∧ ¬∃ a, r = .ok a ∧ good a)) : Carries P view p good [s] := by
  intro l r hrun
  rcases h l r hrun with ⟨hdone, hgood⟩ | ⟨hcut, hbad⟩
  · exact ⟨true, .single hdone, iff_of_true rfl hgood⟩
  · exact ⟨false, .cut hcut, iff_of_false Bool.false_ne_true hbad⟩

theorem carries_stop {a : α} (hcut : P.Cut s (view [])) (h : ¬good a) :
    Carries P view (pure a : Program I ε α) good (s :: ss) := by
  intro l r hrun
  obtain ⟨hl, hr⟩ := run_pure.mp hrun
  rw [hl, hr]
  refine ⟨false, .cut hcut, iff_of_false Bool.false_ne_true ?_⟩
  intro hgood
  obtain ⟨a', ha', hgood⟩ := hgood
  rw [← Except.ok.inj ha'] at hgood
  exact h hgood

/-- A part that shows nothing belongs to the next stage, and if it halts that is cut short. -/
theorem Carries.silent_bind (hview : ∀ l l', view (l ++ l') = view l ++ view l')
    (hsilent : ∀ l r, Run p l r → view l = []) (hcut : P.Cut s [])
    (hrest : ∀ l a, Run p l (.ok a) → Carries P view (f a) fine (s :: ss)) :
    Carries P view (p >>= f) fine (s :: ss) := by
  intro l r hrun
  rcases run_bind.mp hrun with ⟨a, l₁, l₂, rfl, h₁, h₂⟩ | ⟨e, rfl, he⟩
  · rw [hview, hsilent _ _ h₁, List.nil_append]
    exact hrest l₁ a h₁ _ _ h₂
  · rw [hsilent _ _ he]
    refine ⟨false, .cut hcut, iff_of_false Bool.false_ne_true ?_⟩
    intro hfine
    obtain ⟨b, hb, -⟩ := hfine
    cases hb

theorem Carries.run_bind (fine : β → Prop) {l : List (Event I)} {r : Except ε β}
    (hview : ∀ l l', view (l ++ l') = view l ++ view l') (hp : Carries P view p good ss)
    (hstop : ∀ a, ¬good a → ∃ b, ¬fine b ∧ f a = pure b) (hrun : Run (p >>= f) l r) :
    (P.Follows ss (view l) false ∧ ¬∃ b, r = .ok b ∧ fine b) ∨
      ∃ a l₁ l₂, l = l₁ ++ l₂ ∧ Run p l₁ (.ok a) ∧ good a ∧ P.Follows ss (view l₁) true ∧
        Run (f a) l₂ r := by
  have hnil : view [] = [] := List.append_right_eq_self.mp (hview [] []).symm
  rcases Interaction.run_bind.mp hrun with ⟨a, l₁, l₂, rfl, h₁, h₂⟩ | ⟨e, rfl, he⟩
  · obtain ⟨c, hfollows, hc⟩ := hp _ _ h₁
    cases c with
    | true =>
      obtain ⟨a', ha', hgood⟩ := hc.mp rfl
      obtain rfl := Except.ok.inj ha'
      exact .inr ⟨a, l₁, l₂, rfl, h₁, hgood, hfollows, h₂⟩
    | false =>
      have hbad : ¬good a := fun hgood => Bool.false_ne_true (hc.mpr ⟨a, rfl, hgood⟩)
      obtain ⟨b, hb, hf⟩ := hstop a hbad
      rw [hf] at h₂
      obtain ⟨hl, hr⟩ := run_pure.mp h₂
      rw [hview, hl, hnil, List.append_nil, hr]
      refine .inl ⟨hfollows, ?_⟩
      intro hfine
      obtain ⟨b', hb', hfine⟩ := hfine
      rw [← Except.ok.inj hb'] at hfine
      exact hb hfine
  · obtain ⟨c, hfollows, hc⟩ := hp _ _ he
    cases c with
    | true =>
      obtain ⟨a, ha, -⟩ := hc.mp rfl
      cases ha
    | false =>
      refine .inl ⟨hfollows, ?_⟩
      intro hfine
      obtain ⟨b, hb, -⟩ := hfine
      cases hb

/-- The stages of the rest come behind those of the first part. -/
theorem Carries.bind (hview : ∀ l l', view (l ++ l') = view l ++ view l')
    (hp : Carries P view p good ss)
    (hrest : ∀ l a, Run p l (.ok a) → good a → Carries P view (f a) fine ss')
    (hstop : ∀ a, ¬good a → ∃ b, ¬fine b ∧ f a = pure b) :
    Carries P view (p >>= f) fine (ss ++ ss') := by
  intro l r hrun
  rcases hp.run_bind fine hview hstop hrun with ⟨hfollows, hbad⟩ | ⟨a, l₁, l₂, rfl, h₁, hgood, hdone, h₂⟩
  · exact ⟨false, hfollows.append_cut, iff_of_false Bool.false_ne_true hbad⟩
  · obtain ⟨c, hfollows, hc⟩ := hrest l₁ a h₁ hgood l₂ r h₂
    rw [hview]
    exact ⟨c, hdone.append hfollows, hc⟩

end
end Interaction
