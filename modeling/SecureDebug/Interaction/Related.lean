import SecureDebug.Interaction.Program

/-! Two programs in lockstep: they make the same calls whatever they are answered, and end
alike up to a relation between what they return. -/

namespace Interaction
open Program

variable {I : Interface} {ε α β γ δ σ : Type}

/-- Both return, with related values, or both halt for one reason. -/
inductive Alike (R : α → β → Prop) : Except ε α → Except ε β → Prop
  | ok {a : α} {b : β} : R a b → Alike R (.ok a) (.ok b)
  | error (e : ε) : Alike R (.error e) (.error e)

theorem Alike.mono {R S : α → β → Prop} {x : Except ε α} {y : Except ε β} (h : Alike R x y)
    (hRS : ∀ a b, R a b → S a b) : Alike S x y := by
  cases h with
  | ok h => exact .ok (hRS _ _ h)
  | error e => exact .error e

theorem Alike.returned {R : α → β → Prop} {x : Except ε α} {y : Except ε β} (h : Alike R x y) :
    Alike (fun a b => R a b ∧ x = .ok a ∧ y = .ok b) x y := by
  cases h with
  | ok h => exact .ok ⟨h, rfl, rfl⟩
  | error e => exact .error e

inductive Related (R : α → β → Prop) : Program I ε α → Program I ε β → Prop
  | ret {a : α} {b : β} : R a b → Related R (ret a) (ret b)
  | halt (e : ε) : Related R (halt e) (halt e)
  | call {c : I.Call} {next : I.Answer c → Program I ε α} {next' : I.Answer c → Program I ε β} :
      (∀ ans, Related R (next ans) (next' ans)) → Related R (call c next) (call c next')

section
variable {R : α → β → Prop} {S : γ → δ → Prop} {p : Program I ε α} {q : Program I ε β}

theorem related_pure {a : α} {b : β} (h : R a b) :
    Related R (pure a : Program I ε α) (pure b : Program I ε β) := .ret h

theorem related_refl (p : Program I ε α) : Related Eq p p := by
  induction p with
  | ret a => exact .ret rfl
  | halt e => exact .halt e
  | call c next ih => exact .call ih

theorem related_lift {x : Except ε α} {y : Except ε β} (h : Alike R x y) :
    Related R (lift x : Program I ε α) (lift y : Program I ε β) := by
  cases h with
  | ok h => exact .ret h
  | error e => exact .halt e

theorem Related.bind {f : α → Program I ε γ} {g : β → Program I ε δ} (h : Related R p q)
    (hfg : ∀ a b, R a b → Related S (f a) (g b)) : Related S (p >>= f) (q >>= g) := by
  induction h with
  | ret h => exact hfg _ _ h
  | halt e => exact .halt e
  | call _ ih => exact .call ih

theorem Related.bind_refl {f : α → Program I ε γ} {g : α → Program I ε δ} (p : Program I ε α)
    (hfg : ∀ a, Related S (f a) (g a)) : Related S (p >>= f) (p >>= g) := by
  apply (related_refl p).bind
  rintro a _ rfl
  exact hfg a

theorem related_ite {c : Prop} [Decidable c] {p' : Program I ε α} {q' : Program I ε β}
    (hp : c → Related R p q) (hq : ¬c → Related R p' q') :
    Related R (if c then p else p') (if c then q else q') := by
  by_cases h : c
  · rw [if_pos h, if_pos h]
    exact hp h
  · rw [if_neg h, if_neg h]
    exact hq h

/-- Against one environment two programs in lockstep show the same trace, leave the same
state behind and end alike. -/
theorem Related.exec (h : Related R p q) (m : Machine I σ) (s : σ) :
    Alike R (m.exec p s).1 (m.exec q s).1 ∧ (m.exec p s).2 = (m.exec q s).2 := by
  induction h generalizing s with
  | ret h => exact ⟨.ok h, rfl⟩
  | halt e => exact ⟨.error e, rfl⟩
  | @call c next next' _ ih =>
    obtain ⟨halike, hrest⟩ := ih (m.answer c s).1 (m.answer c s).2
    refine ⟨halike, ?_⟩
    unfold Machine.exec
    dsimp only
    rw [hrest]

end
end Interaction
