import SecureDebug.Interaction.Program

/-! The reasons for which a program halts, whatever its environment does. -/

namespace Interaction
open Program

variable {I J : Interface} {ε α β : Type}

/-- A run that does not return is halted for a reason that `E` admits. -/
def StopsFor (p : Program I ε α) (E : ε → Prop) : Prop := ∀ l e, Run p l (.error e) → E e

section
variable {p : Program I ε α} {f : α → Program I ε β} {E E' : ε → Prop}

theorem stopsFor_pure {a : α} : StopsFor (pure a : Program I ε α) E := by
  intro l e h
  cases (run_pure.mp h).2

theorem stopsFor_perform {c : I.Call} : StopsFor (perform c : Program I ε (I.Answer c)) E := by
  intro l e h
  obtain ⟨ans, -, hr⟩ := run_perform.mp h
  cases hr

theorem StopsFor.bind (h : StopsFor p E) (hf : ∀ l a, Run p l (.ok a) → StopsFor (f a) E) :
    StopsFor (p >>= f) E := by
  intro l e hrun
  rcases run_bind.mp hrun with ⟨a, l₁, l₂, -, h₁, h₂⟩ | ⟨e', he, h'⟩
  · exact hf l₁ a h₁ l₂ e h₂
  · rw [← Except.error.inj he] at h'
    exact h l e h'

theorem stopsFor_ite {c : Prop} [Decidable c] {q : Program I ε α} (hp : c → StopsFor p E)
    (hq : ¬c → StopsFor q E) : StopsFor (if c then p else q) E := by
  by_cases h : c
  · rw [if_pos h]
    exact hp h
  · rw [if_neg h]
    exact hq h

theorem StopsFor.mono (h : StopsFor p E) (hE : ∀ e, E e → E' e) : StopsFor p E' :=
  fun l e hrun => hE e (h l e hrun)

theorem StopsFor.avoids {e : ε} (h : StopsFor p E) (he : ¬E e) : Avoids p e :=
  fun l hrun => he (h l e hrun)

theorem StopsFor.run_bind {l : List (Event I)} {r : Except ε β} (h : StopsFor p fun _ => False)
    (hrun : Run (p >>= f) l r) : ∃ a l₁ l₂, l = l₁ ++ l₂ ∧ Run p l₁ (.ok a) ∧ Run (f a) l₂ r := by
  rcases Interaction.run_bind.mp hrun with hok | ⟨e, -, he⟩
  · exact hok
  · exact (h l e he).elim

end
end Interaction
