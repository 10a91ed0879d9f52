import SecureDebug.Interaction.Program

/-! Programs that heed failures: an answer that counts as one is the last that the program asks for,
and the program returns its code. -/

namespace Interaction
open Program

variable {I : Interface} {ε α β C : Type} {verdict : Event I → Option C} {good : C}

/-- `verdict` says which events are failures and with which code. -/
def Heeds (verdict : Event I → Option C) (code : α → C) (p : Program I ε α) : Prop :=
  ∀ l₁ e l₂ r c, Run p (l₁ ++ e :: l₂) r → verdict e = some c → l₂ = [] ∧ r.map code = .ok c

section
variable {p : Program I ε α} {f : α → Program I ε β} {code : α → C} {code' : β → C}

theorem heeds_silent (h : ∀ l r, Run p l r → l = []) : Heeds verdict code p := by
  intro l₁ e l₂ r c hrun _
  have hnil := h _ _ hrun
  simp at hnil

theorem heeds_pure (a : α) : Heeds verdict code (pure a : Program I ε α) :=
  heeds_silent fun _ _ hrun => (run_pure.mp hrun).1

theorem heeds_halt (e : ε) : Heeds verdict code (halt e : Program I ε α) :=
  heeds_silent fun _ _ hrun => (run_halt.mp hrun).1

theorem heeds_lift (x : Except ε α) : Heeds verdict code (lift x : Program I ε α) :=
  heeds_silent fun _ _ hrun => (run_lift.mp hrun).1

theorem heeds_ite {c : Prop} [Decidable c] {q : Program I ε α} (hp : c → Heeds verdict code p)
    (hq : ¬c → Heeds verdict code q) : Heeds verdict code (if c then p else q) := by
  by_cases h : c
  · rw [if_pos h]
    exact hp h
  · rw [if_neg h]
    exact hq h

theorem heeds_call {c : I.Call} {next : I.Answer c → Program I ε α}
    (hfail : ∀ ans v, verdict ⟨c, ans⟩ = some v → ∃ a, next ans = pure a ∧ code a = v)
    (hnext : ∀ ans, Heeds verdict code (next ans)) : Heeds verdict code (call c next) := by
  intro l₁ e l₂ r v hrun hv
  obtain ⟨ans, l', heq, hrun'⟩ := run_call.mp hrun
  cases l₁ with
  | nil =>
    obtain ⟨rfl, rfl⟩ := List.cons.inj heq
    obtain ⟨a, ha, rfl⟩ := hfail ans v hv
    rw [ha] at hrun'
    obtain ⟨hnil, rfl⟩ := run_pure.mp hrun'
    exact ⟨hnil, rfl⟩
  | cons e' l₁ =>
    obtain ⟨-, rfl⟩ := List.cons.inj heq
    exact hnext ans l₁ e l₂ r v hrun' hv

/-- A sequence heeds failures if both parts do and a code that is not good leads straight to its
end. -/
theorem Heeds.bind (hp : Heeds verdict code p) (hgood : ∀ e, verdict e ≠ some good)
    (hbail : ∀ a, code a ≠ good → ∃ b, f a = pure b ∧ code' b = code a)
    (hf : ∀ a, code a = good → Heeds verdict code' (f a)) : Heeds verdict code' (p >>= f) := by
  intro l₁ e l₂ r v hrun hv
  have hrest (a : α) : Heeds verdict code' (f a) := by
    by_cases ha : code a = good
    · exact hf a ha
    · obtain ⟨b, hb, -⟩ := hbail a ha
      rw [hb]
      exact heeds_pure b
  rcases run_bind.mp hrun with ⟨a, k₁, k₂, hsplit, hfirst, hsecond⟩ | ⟨stop, rfl, hstop⟩
  · rcases List.append_eq_append_iff.mp hsplit with ⟨as, rfl, has⟩ | ⟨bs, rfl, hbs⟩
    · cases as with
      | nil =>
        rw [List.nil_append] at has
        exact hrest a [] e l₂ r v (has ▸ hsecond) hv
      | cons e' as =>
        -- the failure is in the first part, which returns its code
        obtain ⟨rfl, rfl⟩ := List.cons.inj has
        obtain ⟨rfl, hcode⟩ := hp l₁ e as (.ok a) v hfirst hv
        have hcode : code a = v := Except.ok.inj hcode
        obtain ⟨b, hb, hb'⟩ := hbail a fun ha => hgood e (by rw [hv, ← hcode, ha])
        rw [hb] at hsecond
        obtain ⟨rfl, rfl⟩ := run_pure.mp hsecond
        exact ⟨rfl, congrArg Except.ok (hb'.trans hcode)⟩
    · rw [hbs] at hsecond
      exact hrest a bs e l₂ r v hsecond hv
  · obtain ⟨-, hcode⟩ := hp l₁ e l₂ _ v hstop hv
    cases hcode

theorem Heeds.map {g : α → β} (hp : Heeds verdict code p) (hgood : ∀ e, verdict e ≠ some good)
    (hg : ∀ a, code' (g a) = code a) : Heeds verdict code' (p >>= fun a => pure (g a)) :=
  hp.bind hgood (fun a _ => ⟨g a, rfl, hg a⟩) fun a _ => heeds_pure (g a)

end
end Interaction
