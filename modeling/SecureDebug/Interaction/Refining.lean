import SecureDebug.Interaction.Serving
import SecureDebug.Interaction.Steps

/-! A program against one that says what it is about. The environment of the first is a transition
system that shows the calls of the second while it answers those of the first: as long as its steps
explain the answers, the first program has come as far as the second one has with what is shown. -/

namespace Interaction
open Program

/-- An environment as a transition system, what it shows, and what is to hold of its steps. -/
structure World (I J : Interface) (S : Type) where
  step : S → Event I → S → Prop
  shown : Event I → S → List (Event J)
  good : Event I → S → Prop

variable {I J : Interface} {S ε δ α β γ κ : Type}

/-! ### How far a program comes -/

/-- With the answers of the list the first program comes to the second. -/
inductive Reaches : Program J δ β → List (Event J) → Program J δ β → Prop
  | refl (q : Program J δ β) : Reaches q [] q
  | call {c : J.Call} {next : J.Answer c → Program J δ β} {ans : J.Answer c} {es : List (Event J)}
      {q : Program J δ β} : Reaches (next ans) es q → Reaches (call c next) (⟨c, ans⟩ :: es) q

section
variable {q q' q'' : Program J δ β} {es es' : List (Event J)}

theorem Reaches.trans (h : Reaches q es q') (h' : Reaches q' es' q'') : Reaches q (es ++ es') q'' := by
  induction h with
  | refl q => exact h'
  | call _ ih => exact .call (ih h')

theorem Reaches.bind {g : β → Program J δ κ} (h : Reaches q es q') :
    Reaches (q >>= g) es (q' >>= g) := by
  induction h with
  | refl q => exact .refl _
  | call _ ih => exact .call ih

theorem reaches_perform {c : J.Call} {ans : J.Answer c} :
    Reaches (perform c : Program J δ (J.Answer c)) [⟨c, ans⟩] (pure ans) := .call (.refl _)

end

/-! ### What a world shows -/

/-- While the world goes from the first state to the last, as the events say, it shows the second
list. -/
inductive World.Shows (W : World I J S) : S → List (Event I) → List (Event J) → S → Prop
  | nil (s : S) : W.Shows s [] [] s
  | cons {s t u : S} {e : Event I} {l : List (Event I)} {es : List (Event J)} :
      W.step s e t → W.Shows t l es u → W.Shows s (e :: l) (W.shown e t ++ es) u

section
variable {W : World I J S} {s t : S} {l : List (Event I)}

theorem exists_shows (h : Steps W.step s l t) : ∃ es, W.Shows s l es t := by
  induction h with
  | nil s => exact ⟨[], .nil s⟩
  | cons hstep _ ih =>
    obtain ⟨es, hshows⟩ := ih
    exact ⟨_, .cons hstep hshows⟩

/-! ### Refinement -/

/-- From `s` on, as long as the world can take the step, each call is good in the state it leads to
and the second program goes along with what is shown, and a value is returned together with one that
`R` relates to it. -/
def Refines (W : World I J S) (R : α → β → S → Prop) :
    Program I ε α → Program J δ β → S → Prop
  | .ret a, q, s => ∃ b, q = .ret b ∧ R a b s
  | .halt _, _, _ => True
  | .call c next, q, s => ∀ ans t, W.step s ⟨c, ans⟩ t → W.good ⟨c, ans⟩ t ∧
      ∃ q', Reaches q (W.shown ⟨c, ans⟩ t) q' ∧ Refines W R (next ans) q' t

end

section
variable {W : World I J S} {R R' : α → β → S → Prop} {Q : γ → κ → S → Prop} {p p' : Program I ε α}
  {q q' : Program J δ β} {f : α → Program I ε γ} {g : β → Program J δ κ} {s t : S}

theorem refines_pure {a : α} {b : β} (h : R a b s) :
    Refines W R (pure a : Program I ε α) (pure b : Program J δ β) s := ⟨b, rfl, h⟩

theorem refines_halt {e : ε} : Refines W R (halt e : Program I ε α) q s := trivial

theorem refines_lift {x : Except ε α} {b : β} (h : ∀ a, x = .ok a → R a b s) :
    Refines W R (lift x : Program I ε α) (pure b : Program J δ β) s := by
  cases x with
  | ok a => exact ⟨b, rfl, h a rfl⟩
  | error e => trivial

theorem refines_perform {c : I.Call} {R : I.Answer c → β → S → Prop}
    (h : ∀ ans t, W.step s ⟨c, ans⟩ t → W.good ⟨c, ans⟩ t ∧
      ∃ b, Reaches q (W.shown ⟨c, ans⟩ t) (pure b) ∧ R ans b t) :
    Refines W R (perform c : Program I ε (I.Answer c)) q s := by
  intro ans t hstep
  obtain ⟨hgood, b, hreaches, hR⟩ := h ans t hstep
  exact ⟨hgood, pure b, hreaches, b, rfl, hR⟩

theorem refines_ite {c d : Prop} [Decidable c] [Decidable d] (hcd : c ↔ d)
    (hp : c → Refines W R p q s) (hq : ¬c → Refines W R p' q' s) :
    Refines W R (if c then p else p') (if d then q else q') s := by
  by_cases h : c
  · rw [if_pos h, if_pos (hcd.mp h)]
    exact hp h
  · rw [if_neg h, if_neg (mt hcd.mpr h)]
    exact hq h

theorem refines_ite_left {c : Prop} [Decidable c] (hp : c → Refines W R p q s)
    (hq : ¬c → Refines W R p' q s) : Refines W R (if c then p else p') q s := by
  by_cases h : c
  · rw [if_pos h]
    exact hp h
  · rw [if_neg h]
    exact hq h

theorem Refines.bind (h : Refines W R p q s) (hf : ∀ a b t, R a b t → Refines W Q (f a) (g b) t) :
    Refines W Q (p >>= f) (q >>= g) s := by
  induction p generalizing q s with
  | ret a =>
    obtain ⟨b, rfl, hR⟩ := h
    exact hf a b s hR
  | halt e => trivial
  | call c next ih =>
    intro ans t hstep
    obtain ⟨hgood, q', hreaches, hnext⟩ := h ans t hstep
    exact ⟨hgood, q' >>= g, hreaches.bind, ih ans hnext⟩

theorem Refines.bind_left {R : α → Unit → S → Prop} {q : Program J δ κ}
    (h : Refines W R p (pure () : Program J δ Unit) s)
    (hf : ∀ a t, R a () t → Refines W Q (f a) q t) : Refines W Q (p >>= f) q s :=
  Refines.bind (g := fun _ => q) h fun a _ t hR => hf a t hR

theorem Refines.mono (h : Refines W R p q s) (hR : ∀ a b t, R a b t → R' a b t) :
    Refines W R' p q s := by
  induction p generalizing q s with
  | ret a =>
    obtain ⟨b, hb, hRb⟩ := h
    exact ⟨b, hb, hR a b s hRb⟩
  | halt e => trivial
  | call c next ih =>
    intro ans t hstep
    obtain ⟨hgood, q', hreaches, hnext⟩ := h ans t hstep
    exact ⟨hgood, q', hreaches, ih ans hnext⟩

theorem Refines.and_returns {P : α → Prop} (h : Refines W R p q s) (hp : Returns p P) :
    Refines W (fun a b t => R a b t ∧ P a) p q s := by
  induction p generalizing q s with
  | ret a =>
    obtain ⟨b, hb, hR⟩ := h
    exact ⟨b, hb, hR, hp [] a (.ret a)⟩
  | halt e => trivial
  | call c next ih =>
    intro ans t hstep
    obtain ⟨hgood, q', hreaches, hnext⟩ := h ans t hstep
    refine ⟨hgood, q', hreaches, ih ans hnext ?_⟩
    intro l a hrun
    exact hp _ a (.call ans hrun)

/-- A program whose calls the world shows as what answers them in the second. The machine shows that
each of the calls is in some run. -/
theorem refines_serve {h : Server I J ε} {C : I.Call → Prop} {σ : Type} (machine : Machine I σ) (x : σ)
    (hp : Makes p C) (hcall : ∀ c ans t, C c → W.step s ⟨c, ans⟩ t →
      W.good ⟨c, ans⟩ t ∧ Reaches (h c) (W.shown ⟨c, ans⟩ t) (pure ans) ∧ t = s) :
    Refines W (fun a b t => a = b ∧ t = s) p (p.serve h) s := by
  induction p with
  | ret a => exact ⟨a, rfl, rfl, rfl⟩
  | halt e => trivial
  | call c next ih =>
    intro ans t hstep
    have hrest (ans : I.Answer c) : Makes (next ans) C := by
      intro l r hrun e he
      exact hp _ r (.call ans hrun) e (List.mem_cons_of_mem _ he)
    have hin : C c := hp _ _ (.call ans (machine.exec_run (next ans) x)) _ List.mem_cons_self
    obtain ⟨hgood, hreaches, rfl⟩ := hcall c ans t hin hstep
    exact ⟨hgood, (next ans).serve h, hreaches.bind, ih ans (hrest ans)⟩

/-- Up to any point of a run that the world explains the second program has come as far, and where the
run is over it has returned what belongs to the value. -/
theorem Refines.reaches {l₁ l₂ : List (Event I)} {es : List (Event J)} {r : Except ε α}
    (h : Refines W R p q s) (hrun : Run p (l₁ ++ l₂) r) (hshows : W.Shows s l₁ es t) :
    ∃ q', Reaches q es q' ∧ (l₂ = [] → ∀ a, r = .ok a → ∃ b, q' = pure b ∧ R a b t) := by
  induction p generalizing q s l₁ es with
  | ret a =>
    obtain ⟨hnil, rfl⟩ := run_ret.mp hrun
    obtain ⟨rfl, -⟩ := List.append_eq_nil_iff.mp hnil
    cases hshows
    refine ⟨q, .refl q, fun _ a' ha' => ?_⟩
    obtain rfl := Except.ok.inj ha'
    exact h
  | halt e =>
    obtain ⟨hnil, rfl⟩ := run_halt.mp hrun
    obtain ⟨rfl, -⟩ := List.append_eq_nil_iff.mp hnil
    cases hshows
    exact ⟨q, .refl q, fun _ a ha => nomatch ha⟩
  | call c next ih =>
    cases hshows with
    | nil =>
      refine ⟨q, .refl q, fun hl₂ => ?_⟩
      obtain ⟨ans, l', heq, -⟩ := run_call.mp hrun
      rw [hl₂] at heq
      cases heq
    | cons hstep hrest =>
      obtain ⟨ans, l', heq, hrun'⟩ := run_call.mp hrun
      obtain ⟨rfl, rfl⟩ := List.cons.inj heq
      obtain ⟨-, q₁, hreaches, hnext⟩ := h ans _ hstep
      obtain ⟨q', hq', hend⟩ := ih ans hnext hrun' hrest
      exact ⟨q', hreaches.trans hq', hend⟩

theorem Refines.good_of_run {l₁ l₂ : List (Event I)} {e : Event I} {es : List (Event J)}
    {r : Except ε α} (h : Refines W R p q s) (hrun : Run p (l₁ ++ e :: l₂) r)
    (hshows : W.Shows s (l₁ ++ [e]) es t) : W.good e t := by
  induction p generalizing q s l₁ es with
  | ret a => cases List.append_eq_nil_iff.mp (run_ret.mp hrun).1 |>.2
  | halt e => cases List.append_eq_nil_iff.mp (run_halt.mp hrun).1 |>.2
  | call c next ih =>
    obtain ⟨ans, l', heq, hrun'⟩ := run_call.mp hrun
    cases l₁ with
    | nil =>
      obtain ⟨rfl, -⟩ := List.cons.inj heq
      cases hshows with
      | cons hstep hrest =>
        cases hrest
        exact (h ans t hstep).1
    | cons e' l₁ =>
      obtain ⟨rfl, rfl⟩ := List.cons.inj heq
      cases hshows with
      | cons hstep hrest =>
        obtain ⟨-, q', -, hnext⟩ := h ans _ hstep
        exact ih ans hnext hrun' hrest

end
end Interaction
