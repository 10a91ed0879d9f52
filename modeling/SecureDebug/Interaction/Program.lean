import Mathlib.Data.List.Basic
import Mathlib.Tactic.Common

/-! Programs that call an environment, as trees of calls: what such a program does against
an environment is the list of calls it made with their answers, and the outcome it reached. -/

namespace Interaction

/-- The calls a program can make and what each of them is answered with. -/
structure Interface where
  Call : Type
  Answer : Call → Type

/-- A program that returns an `α`, halts for a reason in `ε`, or makes a call and goes on
with the answer. -/
inductive Program (I : Interface) (ε α : Type) where
  | ret (a : α)
  | halt (e : ε)
  | call (c : I.Call) (next : I.Answer c → Program I ε α)

structure Event (I : Interface) where
  call : I.Call
  answer : I.Answer call

variable {I : Interface} {ε α β γ σ : Type}

namespace Program

def bind : Program I ε α → (α → Program I ε β) → Program I ε β
  | ret a, f => f a
  | halt e, _ => halt e
  | call c next, f => call c fun ans => (next ans).bind f

instance : Monad (Program I ε) where
  pure := ret
  bind := bind

def perform (c : I.Call) : Program I ε (I.Answer c) := call c ret

def lift : Except ε α → Program I ε α
  | .ok a => ret a
  | .error e => halt e

theorem ret_bind (a : α) (f : α → Program I ε β) : (ret a >>= f) = f a := rfl

instance : LawfulMonad (Program I ε) := LawfulMonad.mk' _
  (fun p => by
    induction p with
    | ret a => rfl
    | halt e => rfl
    | call c next ih => exact congrArg (call c) (funext ih))
  (fun a f => ret_bind a f)
  (fun p f g => by
    induction p with
    | ret a => rfl
    | halt e => rfl
    | call c next ih => exact congrArg (call c) (funext ih))

end Program

open Program

/-- `Run p l r`: with the answers recorded in `l`, the program `p` makes exactly the calls
of `l`, in order, and ends in `r`. -/
inductive Run : Program I ε α → List (Event I) → Except ε α → Prop
  | ret (a : α) : Run (ret a) [] (.ok a)
  | halt (e : ε) : Run (halt e) [] (.error e)
  | call {c : I.Call} {next : I.Answer c → Program I ε α} {l : List (Event I)} {r : Except ε α}
      (ans : I.Answer c) : Run (next ans) l r → Run (call c next) (⟨c, ans⟩ :: l) r

@[simp] theorem run_ret {a : α} {l : List (Event I)} {r : Except ε α} :
    Run (Program.ret a) l r ↔ l = [] ∧ r = .ok a := by
  constructor
  · rintro ⟨⟩
    exact ⟨rfl, rfl⟩
  · rintro ⟨rfl, rfl⟩
    exact .ret a

@[simp] theorem run_pure {a : α} {l : List (Event I)} {r : Except ε α} :
    Run (pure a : Program I ε α) l r ↔ l = [] ∧ r = .ok a := run_ret

theorem run_pure_ok {a b : α} {l : List (Event I)} :
    Run (pure a : Program I ε α) l (.ok b) ↔ l = [] ∧ b = a := by
  rw [run_pure, Except.ok.injEq]

theorem run_pure_pair {a b : α} {s t : β} {l : List (Event I)} :
    Run (pure (a, s) : Program I ε (α × β)) l (.ok (b, t)) ↔ l = [] ∧ b = a ∧ t = s := by
  rw [run_pure_ok, Prod.mk.injEq]

@[simp] theorem run_halt {e : ε} {l : List (Event I)} {r : Except ε α} :
    Run (Program.halt e) l r ↔ l = [] ∧ r = .error e := by
  constructor
  · rintro ⟨⟩
    exact ⟨rfl, rfl⟩
  · rintro ⟨rfl, rfl⟩
    exact .halt e

theorem run_call {c : I.Call} {next : I.Answer c → Program I ε α} {l : List (Event I)}
    {r : Except ε α} : Run (Program.call c next) l r ↔
      ∃ ans l', l = ⟨c, ans⟩ :: l' ∧ Run (next ans) l' r := by
  constructor
  · rintro ⟨⟩
    rename_i l ans h
    exact ⟨ans, l, rfl, h⟩
  · rintro ⟨ans, l', rfl, h⟩
    exact .call ans h

@[simp] theorem run_perform {c : I.Call} {l : List (Event I)} {r : Except ε (I.Answer c)} :
    Run (perform c) l r ↔ ∃ ans, l = [⟨c, ans⟩] ∧ r = .ok ans := by
  simp only [perform, run_call, run_ret]
  constructor
  · rintro ⟨ans, l', rfl, rfl, rfl⟩
    exact ⟨ans, rfl, rfl⟩
  · rintro ⟨ans, rfl, rfl⟩
    exact ⟨ans, [], rfl, rfl, rfl⟩

@[simp] theorem run_lift {x : Except ε α} {l : List (Event I)} {r : Except ε α} :
    Run (Program.lift x) l r ↔ l = [] ∧ r = x := by
  cases x <;> simp [Program.lift]

theorem Run.bind_ok {p : Program I ε α} {f : α → Program I ε β} {a : α}
    {l₁ l₂ : List (Event I)} {r : Except ε β} (hp : Run p l₁ (.ok a)) (hf : Run (f a) l₂ r) :
    Run (p >>= f) (l₁ ++ l₂) r := by
  induction p generalizing l₁ with
  | ret b =>
    obtain ⟨rfl, hb⟩ := run_ret.mp hp
    cases hb
    exact hf
  | halt e => cases (run_halt.mp hp).2
  | call c next ih =>
    obtain ⟨ans, l', rfl, h⟩ := run_call.mp hp
    exact .call ans (ih ans h)

theorem Run.bind_error {p : Program I ε α} {f : α → Program I ε β} {e : ε}
    {l : List (Event I)} (hp : Run p l (.error e)) : Run (p >>= f) l (.error e) := by
  induction p generalizing l with
  | ret b => cases (run_ret.mp hp).2
  | halt e' =>
    obtain ⟨rfl, he⟩ := run_halt.mp hp
    cases he
    exact .halt e
  | call c next ih =>
    obtain ⟨ans, l', rfl, h⟩ := run_call.mp hp
    exact .call ans (ih ans h)

/-- A run of a sequence is a run of the first part that returns, followed by a run of the
rest, or a run of the first part that halts. -/
theorem run_bind {p : Program I ε α} {f : α → Program I ε β} {l : List (Event I)}
    {r : Except ε β} : Run (p >>= f) l r ↔
      (∃ a l₁ l₂, l = l₁ ++ l₂ ∧ Run p l₁ (.ok a) ∧ Run (f a) l₂ r) ∨
      (∃ e, r = .error e ∧ Run p l (.error e)) := by
  constructor
  · intro h
    induction p generalizing l with
    | ret a => exact .inl ⟨a, [], l, rfl, .ret a, h⟩
    | halt e =>
      obtain ⟨rfl, rfl⟩ := run_halt.mp h
      exact .inr ⟨e, rfl, .halt e⟩
    | call c next ih =>
      obtain ⟨ans, l', rfl, h'⟩ := run_call.mp h
      rcases ih ans h' with ⟨a, l₁, l₂, rfl, h₁, h₂⟩ | ⟨e, rfl, he⟩
      · exact .inl ⟨a, ⟨c, ans⟩ :: l₁, l₂, rfl, .call ans h₁, h₂⟩
      · exact .inr ⟨e, rfl, .call ans he⟩
  · rintro (⟨a, l₁, l₂, rfl, h₁, h₂⟩ | ⟨e, rfl, he⟩)
    · exact h₁.bind_ok h₂
    · exact he.bind_error

theorem run_bind_ok {p : Program I ε α} {f : α → Program I ε β} {l : List (Event I)} {b : β} :
    Run (p >>= f) l (.ok b) ↔ ∃ a l₁ l₂, l = l₁ ++ l₂ ∧ Run p l₁ (.ok a) ∧ Run (f a) l₂ (.ok b) := by
  simp [run_bind]

theorem run_bind_nil {p : Program I ε α} {f : α → Program I ε β} {b : β}
    (h : Run (p >>= f) [] (.ok b)) : ∃ a, Run p [] (.ok a) ∧ Run (f a) [] (.ok b) := by
  obtain ⟨a, l₁, l₂, hl, h₁, h₂⟩ := run_bind_ok.mp h
  obtain ⟨rfl, rfl⟩ := List.append_eq_nil_iff.mp hl.symm
  exact ⟨a, h₁, h₂⟩

theorem Run.unique {p : Program I ε α} {l l' k k' : List (Event I)} {r r' : Except ε α}
    (h : Run p l r) (h' : Run p l' r') (heq : l ++ k = l' ++ k') : l = l' ∧ r = r' := by
  induction h generalizing l' with
  | ret a =>
    obtain ⟨rfl, rfl⟩ := run_ret.mp h'
    exact ⟨rfl, rfl⟩
  | halt e =>
    obtain ⟨rfl, rfl⟩ := run_halt.mp h'
    exact ⟨rfl, rfl⟩
  | call ans _ ih =>
    obtain ⟨ans', l', rfl, hrest⟩ := run_call.mp h'
    obtain ⟨hfirst, htail⟩ := List.cons.inj heq
    cases hfirst
    obtain ⟨rfl, rfl⟩ := ih hrest htail
    exact ⟨rfl, rfl⟩

/-! ### What is returned -/

/-- Whatever the environment does, a value that the program returns satisfies `Q`. -/
def Returns (p : Program I ε α) (Q : α → Prop) : Prop := ∀ l a, Run p l (.ok a) → Q a

section
variable {p : Program I ε α} {f : α → Program I ε β} {Q : α → Prop} {R : β → Prop}

theorem returns_pure {a : α} (h : Q a) : Returns (pure a : Program I ε α) Q := by
  intro l b hb
  obtain ⟨-, rfl⟩ := run_pure_ok.mp hb
  exact h

theorem returns_halt {e : ε} : Returns (halt e : Program I ε α) Q := by
  intro l a h
  cases (run_halt.mp h).2

theorem returns_lift {x : Except ε α} (h : ∀ a, x = .ok a → Q a) :
    Returns (lift x : Program I ε α) Q := by
  intro l a ha
  obtain ⟨-, hx⟩ := run_lift.mp ha
  exact h a hx.symm

theorem returns_true : Returns p fun _ => True := fun _ _ _ => trivial

theorem Returns.bind (h : Returns p Q) (hf : ∀ a, Q a → Returns (f a) R) :
    Returns (p >>= f) R := by
  intro l b hb
  obtain ⟨a, l₁, l₂, -, h₁, h₂⟩ := run_bind_ok.mp hb
  exact hf a (h l₁ a h₁) l₂ b h₂

theorem returns_ite {c : Prop} [Decidable c] {q : Program I ε α} (hp : c → Returns p Q)
    (hq : ¬c → Returns q Q) : Returns (if c then p else q) Q := by
  by_cases h : c
  · rw [if_pos h]
    exact hp h
  · rw [if_neg h]
    exact hq h

theorem Returns.mono {Q' : α → Prop} (h : Returns p Q) (hQ : ∀ a, Q a → Q' a) : Returns p Q' :=
  fun l a ha => hQ a (h l a ha)

end

/-! ### How it never ends -/

/-- Whatever the environment does, the program does not halt for the reason `e`. -/
def Avoids (p : Program I ε α) (e : ε) : Prop := ∀ l, ¬Run p l (.error e)

section
variable {p : Program I ε α} {f : α → Program I ε β} {e e' : ε}

theorem avoids_pure {a : α} : Avoids (pure a : Program I ε α) e := by
  intro l h
  cases (run_pure.mp h).2

theorem avoids_halt (h : e' ≠ e) : Avoids (halt e' : Program I ε α) e := by
  intro l hrun
  exact h (Except.error.inj (run_halt.mp hrun).2).symm

theorem avoids_lift {x : Except ε α} (h : x ≠ .error e) : Avoids (lift x : Program I ε α) e := by
  intro l hrun
  exact h (run_lift.mp hrun).2.symm

theorem avoids_perform {c : I.Call} : Avoids (perform c : Program I ε (I.Answer c)) e := by
  intro l h
  obtain ⟨ans, -, hr⟩ := run_perform.mp h
  cases hr

theorem Avoids.bind (h : Avoids p e) (hf : ∀ l a, Run p l (.ok a) → Avoids (f a) e) :
    Avoids (p >>= f) e := by
  intro l hrun
  rcases run_bind.mp hrun with ⟨a, l₁, l₂, -, h₁, h₂⟩ | ⟨e', he, h'⟩
  · exact hf l₁ a h₁ l₂ h₂
  · rw [← Except.error.inj he] at h'
    exact h l h'

theorem avoids_ite {c : Prop} [Decidable c] {q : Program I ε α} (hp : c → Avoids p e)
    (hq : ¬c → Avoids q e) : Avoids (if c then p else q) e := by
  by_cases h : c
  · rw [if_pos h]
    exact hp h
  · rw [if_neg h]
    exact hq h

end

/-! ### What is called -/

/-- Whatever the environment does, each call that the program makes satisfies `Q`. -/
def Makes (p : Program I ε α) (Q : I.Call → Prop) : Prop := ∀ l r, Run p l r → ∀ e ∈ l, Q e.call

section
variable {p : Program I ε α} {f : α → Program I ε β} {Q : I.Call → Prop}

theorem makes_pure {a : α} : Makes (pure a : Program I ε α) Q := by
  intro l r h e he
  rw [(run_pure.mp h).1] at he
  cases he

theorem makes_halt {e : ε} : Makes (halt e : Program I ε α) Q := by
  intro l r h e he
  rw [(run_halt.mp h).1] at he
  cases he

theorem makes_lift {x : Except ε α} : Makes (lift x : Program I ε α) Q := by
  intro l r h e he
  rw [(run_lift.mp h).1] at he
  cases he

theorem makes_perform {c : I.Call} (h : Q c) : Makes (perform c : Program I ε (I.Answer c)) Q := by
  intro l r hrun e he
  obtain ⟨ans, hl, -⟩ := run_perform.mp hrun
  rw [hl] at he
  rw [List.mem_singleton.mp he]
  exact h

theorem Makes.bind (h : Makes p Q) (hf : ∀ a, Makes (f a) Q) : Makes (p >>= f) Q := by
  intro l r hrun e he
  rcases run_bind.mp hrun with ⟨a, l₁, l₂, hl, h₁, h₂⟩ | ⟨e', -, he'⟩
  · rw [hl] at he
    rcases List.mem_append.mp he with he | he
    · exact h _ _ h₁ e he
    · exact hf a _ _ h₂ e he
  · exact h _ _ he' e he

theorem makes_ite {c : Prop} [Decidable c] {q : Program I ε α} (hp : Makes p Q) (hq : Makes q Q) :
    Makes (if c then p else q) Q := by
  split_ifs
  · exact hp
  · exact hq

theorem Makes.mono {Q' : I.Call → Prop} (h : Makes p Q) (hQ : ∀ c, Q c → Q' c) : Makes p Q' :=
  fun l r hrun e he => hQ e.call (h l r hrun e he)

end

/-- An environment: how each call is answered from the state it is in. -/
structure Machine (I : Interface) (σ : Type) where
  answer : (c : I.Call) → σ → I.Answer c × σ

/-- Run a program against an environment: the outcome, the calls made and the final state. -/
def Machine.exec (m : Machine I σ) : Program I ε α → σ → Except ε α × List (Event I) × σ
  | .ret a, s => (.ok a, [], s)
  | .halt e, s => (.error e, [], s)
  | .call c next, s =>
    let a := m.answer c s
    let out := m.exec (next a.1) a.2
    (out.1, ⟨c, a.1⟩ :: out.2.1, out.2.2)

/-- `m.Plays s l t`: asked the calls of `l` in order from `s`, the environment gives the
answers of `l` and is then in state `t`. -/
inductive Machine.Plays (m : Machine I σ) : σ → List (Event I) → σ → Prop
  | nil (s : σ) : m.Plays s [] s
  | cons {s t : σ} {c : I.Call} {l : List (Event I)} :
      m.Plays (m.answer c s).2 l t → m.Plays s (⟨c, (m.answer c s).1⟩ :: l) t

namespace Machine
variable {m : Machine I σ} {s t u : σ} {l l' : List (Event I)} {p : Program I ε α} {r : Except ε α}

theorem Plays.append (h : m.Plays s l t) (h' : m.Plays t l' u) : m.Plays s (l ++ l') u := by
  induction h with
  | nil s => exact h'
  | cons _ ih => exact .cons (ih h')

theorem plays_append : m.Plays s (l ++ l') u ↔ ∃ t, m.Plays s l t ∧ m.Plays t l' u := by
  constructor
  · intro h
    induction l generalizing s with
    | nil => exact ⟨s, .nil s, h⟩
    | cons e l ih =>
      cases h with
      | cons h =>
        obtain ⟨t, h₁, h₂⟩ := ih h
        exact ⟨t, .cons h₁, h₂⟩
  · rintro ⟨t, h₁, h₂⟩
    exact h₁.append h₂

theorem plays_cons {c : I.Call} {ans : I.Answer c} :
    m.Plays s (⟨c, ans⟩ :: l) u ↔ ans = (m.answer c s).1 ∧ m.Plays (m.answer c s).2 l u := by
  constructor
  · rintro ⟨⟩
    exact ⟨rfl, ‹_›⟩
  · rintro ⟨rfl, h⟩
    exact .cons h

theorem plays_nil : m.Plays s [] u ↔ u = s := by
  constructor
  · rintro ⟨⟩
    rfl
  · rintro rfl
    exact .nil _

/-- What the executor computes is the one run that the environment plays. -/
theorem exec_eq_iff : m.exec p s = (r, l, t) ↔ Run p l r ∧ m.Plays s l t := by
  induction p generalizing s l with
  | ret a =>
    simp only [exec, Prod.mk.injEq, run_ret]
    constructor
    · rintro ⟨rfl, rfl, rfl⟩
      exact ⟨⟨rfl, rfl⟩, .nil _⟩
    · rintro ⟨⟨rfl, rfl⟩, h⟩
      exact ⟨rfl, rfl, (plays_nil.mp h).symm⟩
  | halt e =>
    simp only [exec, Prod.mk.injEq, run_halt]
    constructor
    · rintro ⟨rfl, rfl, rfl⟩
      exact ⟨⟨rfl, rfl⟩, .nil _⟩
    · rintro ⟨⟨rfl, rfl⟩, h⟩
      exact ⟨rfl, rfl, (plays_nil.mp h).symm⟩
  | call c next ih =>
    simp only [exec, Prod.mk.injEq, run_call]
    constructor
    · rintro ⟨rfl, rfl, rfl⟩
      obtain ⟨h, hp⟩ := (ih (m.answer c s).1).mp rfl
      exact ⟨⟨_, _, rfl, h⟩, .cons hp⟩
    · rintro ⟨⟨ans, l', rfl, h⟩, hp⟩
      obtain ⟨rfl, hp'⟩ := plays_cons.mp hp
      have hx := (ih _).mpr ⟨h, hp'⟩
      exact ⟨by rw [hx], by rw [hx], by rw [hx]⟩

theorem exec_run (m : Machine I σ) (p : Program I ε α) (s : σ) :
    Run p (m.exec p s).2.1 (m.exec p s).1 := (exec_eq_iff.mp rfl).1

theorem exists_run_bind (m : Machine I σ) (s : σ) {f : α → Program I ε β} (h : Run p l r) :
    ∃ l' r', Run (p >>= f) (l ++ l') r' := by
  cases r with
  | ok a => exact ⟨_, _, h.bind_ok (exec_run m (f a) s)⟩
  | error e =>
    refine ⟨[], .error e, ?_⟩
    rw [List.append_nil]
    exact h.bind_error

theorem exec_plays (m : Machine I σ) (p : Program I ε α) (s : σ) :
    m.Plays s (m.exec p s).2.1 (m.exec p s).2.2 := (exec_eq_iff.mp rfl).2

theorem exec_bind (m : Machine I σ) (p : Program I ε α) (f : α → Program I ε β) (s : σ) :
    m.exec (p >>= f) s = match m.exec p s with
      | (.ok a, l, t) => ((m.exec (f a) t).1, l ++ (m.exec (f a) t).2.1, (m.exec (f a) t).2.2)
      | (.error e, l, t) => (.error e, l, t) := by
  rcases hp : m.exec p s with ⟨r, l, t⟩
  obtain ⟨hrun, hplays⟩ := exec_eq_iff.mp hp
  cases r with
  | ok a =>
    exact exec_eq_iff.mpr ⟨hrun.bind_ok (exec_run m (f a) t), hplays.append (exec_plays m (f a) t)⟩
  | error e => exact exec_eq_iff.mpr ⟨hrun.bind_error, hplays⟩

theorem exec_bind_pure (m : Machine I σ) (p : Program I ε α) (f : α → β) (s : σ) :
    m.exec (p >>= fun a => pure (f a)) s =
      ((m.exec p s).1.map f, (m.exec p s).2.1, (m.exec p s).2.2) := by
  rw [exec_bind]
  rcases m.exec p s with ⟨r, l, t⟩
  cases r with
  | ok a => exact congrArg (fun l => (_, l, t)) (List.append_nil l)
  | error e => rfl

end Machine
end Interaction
