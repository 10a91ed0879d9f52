import SecureDebug.Interaction.Program

/-! Programs whose calls other programs answer, and monitors that follow what is called. A run of
the answered program is a run of the program with a run of its server in the place of each call, and
a monitor of the server's calls goes along as long as one of the program's calls does. -/

namespace Interaction
open Program

variable {I J : Interface} {ε α β S T : Type}

/-! ### Serving -/

/-- Programs that answer the calls of an interface with calls of another one. -/
abbrev Server (I J : Interface) (ε : Type) := (c : I.Call) → Program J ε (I.Answer c)

def Program.serve (h : Server I J ε) : Program I ε α → Program J ε α
  | ret a => ret a
  | halt e => halt e
  | call c next => h c >>= fun ans => (next ans).serve h

/-- Answering the events of the first list, one after the other, the server made the second. -/
inductive Serves (h : Server I J ε) : List (Event I) → List (Event J) → Prop
  | nil : Serves h [] []
  | cons {c : I.Call} {ans : I.Answer c} {es : List (Event I)} {l l' : List (Event J)} :
      Run (h c) l (.ok ans) → Serves h es l' → Serves h (⟨c, ans⟩ :: es) (l ++ l')

section
variable {h : Server I J ε} {p : Program I ε α} {f : α → Program I ε β} {es es' : List (Event I)}
  {l l' : List (Event J)} {r : Except ε α}

/-- A run of the served program is a run of the program, each of its calls answered by a run of
the server. -/
theorem run_serve (htotal : ∀ c e, Avoids (h c) e) :
    Run (p.serve h) l r ↔ ∃ es, Serves h es l ∧ Run p es r := by
  constructor
  · intro hrun
    induction p generalizing l with
    | ret a =>
      obtain ⟨rfl, rfl⟩ := run_ret.mp hrun
      exact ⟨[], .nil, .ret a⟩
    | halt e =>
      obtain ⟨rfl, rfl⟩ := run_halt.mp hrun
      exact ⟨[], .nil, .halt e⟩
    | call c next ih =>
      rcases run_bind.mp hrun with ⟨ans, l₁, l₂, rfl, h₁, h₂⟩ | ⟨e, -, he⟩
      · obtain ⟨es, hserves, hes⟩ := ih ans h₂
        exact ⟨⟨c, ans⟩ :: es, .cons h₁ hserves, .call ans hes⟩
      · exact absurd he (htotal c e l)
  · intro hserved
    obtain ⟨es, hserves, hrun⟩ := hserved
    induction hserves generalizing p with
    | nil =>
      cases hrun with
      | ret a => exact .ret a
      | halt e => exact .halt e
    | cons hans _ ih =>
      cases hrun with
      | call ans hnext => exact hans.bind_ok (ih hnext)

end

/-! ### Monitors -/

/-- A monitor moves on with each event, or objects to it. -/
abbrev Monitor (I : Interface) (S : Type) := S → Event I → Option S

def Monitor.follow (m : Monitor I S) : S → List (Event I) → Option S
  | s, [] => some s
  | s, e :: l => (m s e).bind (m.follow · l)

section
variable {m : Monitor I S} {s t u : S} {e : Event I} {l l' : List (Event I)}

theorem follow_append : m.follow s (l ++ l') = some u ↔
    ∃ t, m.follow s l = some t ∧ m.follow t l' = some u := by
  induction l generalizing s with
  | nil =>
    constructor
    · exact fun h => ⟨s, rfl, h⟩
    · rintro ⟨t, ht, h⟩
      rwa [Option.some.inj ht]
  | cons e l ih =>
    rw [List.cons_append, Monitor.follow, Monitor.follow]
    cases m s e with
    | none => simp
    | some v => exact ih

theorem follow_cons : m.follow s (e :: l) = some u ↔ ∃ t, m s e = some t ∧ m.follow t l = some u :=
  Option.bind_eq_some_iff

end

/-- The monitor objects to no call that the program makes from `s` on, and is in a state that `Q`
relates the value to when it returns. -/
def Abides (m : Monitor I S) (Q : α → S → Prop) : Program I ε α → S → Prop
  | .ret a, s => Q a s
  | .halt _, _ => True
  | .call c next, s => ∀ ans, ∃ t, m s ⟨c, ans⟩ = some t ∧ Abides m Q (next ans) t

section
variable {m : Monitor I S} {m' : Monitor J T} {Q Q' : α → S → Prop} {R : β → S → Prop}
  {p : Program I ε α} {f : α → Program I ε β} {s t : S} {e : Event I}

theorem abides_pure {a : α} (h : Q a s) : Abides m Q (pure a : Program I ε α) s := h

theorem abides_halt {e : ε} : Abides m Q (halt e : Program I ε α) s := trivial

theorem abides_lift {x : Except ε α} (h : ∀ a, x = .ok a → Q a s) :
    Abides m Q (lift x : Program I ε α) s := by
  cases x with
  | ok a => exact h a rfl
  | error e => trivial

theorem abides_call {c : I.Call} {next : I.Answer c → Program I ε α}
    (h : ∀ ans, ∃ t, m s ⟨c, ans⟩ = some t ∧ Abides m Q (next ans) t) :
    Abides m Q (call c next) s := h

theorem abides_perform {c : I.Call} {Q : I.Answer c → S → Prop}
    (h : ∀ ans, ∃ t, m s ⟨c, ans⟩ = some t ∧ Q ans t) :
    Abides m Q (perform c : Program I ε (I.Answer c)) s := h

theorem abides_ite {c : Prop} [Decidable c] {q : Program I ε α} (hp : c → Abides m Q p s)
    (hq : ¬c → Abides m Q q s) : Abides m Q (if c then p else q) s := by
  by_cases h : c
  · rw [if_pos h]
    exact hp h
  · rw [if_neg h]
    exact hq h

theorem Abides.mono (h : Abides m Q p s) (hQ : ∀ a t, Q a t → Q' a t) : Abides m Q' p s := by
  induction p generalizing s with
  | ret a => exact hQ a s h
  | halt e => trivial
  | call c next ih =>
    intro ans
    obtain ⟨t, ht, hnext⟩ := h ans
    exact ⟨t, ht, ih ans hnext⟩

theorem Abides.bind (h : Abides m Q p s) (hf : ∀ a t, Q a t → Abides m R (f a) t) :
    Abides m R (p >>= f) s := by
  induction p generalizing s with
  | ret a => exact hf a s h
  | halt e => trivial
  | call c next ih =>
    intro ans
    obtain ⟨t, ht, hnext⟩ := h ans
    exact ⟨t, ht, ih ans hnext⟩

theorem Abides.and_returns {P : α → Prop} (h : Abides m Q p s) (hp : Returns p P) :
    Abides m (fun a t => Q a t ∧ P a) p s := by
  induction p generalizing s with
  | ret a => exact ⟨h, hp [] a (.ret a)⟩
  | halt e => trivial
  | call c next ih =>
    intro ans
    obtain ⟨t, ht, hnext⟩ := h ans
    refine ⟨t, ht, ih ans hnext ?_⟩
    intro l a hrun
    exact hp _ a (.call ans hrun)

theorem Abides.follow {l : List (Event I)} {r : Except ε α} (h : Abides m Q p s) (hrun : Run p l r) :
    ∃ t, m.follow s l = some t ∧ ∀ a, r = .ok a → Q a t := by
  induction hrun generalizing s with
  | ret a => exact ⟨s, rfl, fun b hb => Except.ok.inj hb ▸ h⟩
  | halt e => exact ⟨s, rfl, fun b hb => nomatch hb⟩
  | call ans _ ih =>
    obtain ⟨t, ht, hnext⟩ := h ans
    obtain ⟨u, hu, hQ⟩ := ih hnext
    refine ⟨u, ?_, hQ⟩
    rw [Monitor.follow, ht]
    exact hu

/-- In a state in which the monitor stays put for all calls that the program makes, it stays put. The
machine shows that each of the calls is in some run. -/
theorem abides_of_makes {R : I.Call → Prop} {σ : Type} (machine : Machine I σ) (x : σ)
    (hp : Makes p R) (hm : ∀ c ans, R c → m s ⟨c, ans⟩ = some s) : Abides m (fun _ t => t = s) p s := by
  induction p with
  | ret a => exact rfl
  | halt e => trivial
  | call c next ih =>
    intro ans
    have hrest (ans : I.Answer c) : Makes (next ans) R := by
      intro l r hrun e he
      exact hp _ r (.call ans hrun) e (List.mem_cons_of_mem _ he)
    have hcall : R c := hp _ _ (.call ans (machine.exec_run (next ans) x)) _ List.mem_cons_self
    exact ⟨s, hm c ans hcall, ih ans (hrest ans)⟩

def Monitor.prod (m : Monitor I S) (n : Monitor I T) : Monitor I (S × T) := fun s e =>
  (m s.1 e).bind fun t => (n s.2 e).map fun u => (t, u)

theorem prod_eq_some {n : Monitor I T} {s t : S × T} :
    m.prod n s e = some t ↔ m s.1 e = some t.1 ∧ n s.2 e = some t.2 := by
  rw [Monitor.prod]
  cases m s.1 e with
  | none => simp
  | some v =>
    cases n s.2 e with
    | none => simp
    | some w => simp [Prod.ext_iff]

theorem Abides.prod {n : Monitor I T} {R : α → T → Prop} {u : T} (h : Abides m Q p s)
    (h' : Abides n R p u) : Abides (m.prod n) (fun a t => Q a t.1 ∧ R a t.2) p (s, u) := by
  induction p generalizing s u with
  | ret a => exact ⟨h, h'⟩
  | halt e => trivial
  | call c next ih =>
    intro ans
    obtain ⟨t, ht, hnext⟩ := h ans
    obtain ⟨v, hv, hnext'⟩ := h' ans
    exact ⟨(t, v), prod_eq_some.mpr ⟨ht, hv⟩, ih ans hnext hnext'⟩

theorem follow_some {f : S → Event I → S} {l : List (Event I)} :
    Monitor.follow (fun s e => some (f s e)) s l = some (l.foldl f s) := by
  induction l generalizing s with
  | nil => rfl
  | cons e l ih => exact ih

def Monitor.record {O : Type} (f : Event I → List O) : Monitor I (List O) := fun s e => some (s ++ f e)

theorem follow_record {O : Type} {f : Event I → List O} {s : List O} {l : List (Event I)} :
    (Monitor.record f).follow s l = some (s ++ l.flatMap f) := by
  induction l generalizing s with
  | nil => rw [List.flatMap_nil, List.append_nil, Monitor.follow]
  | cons e l ih =>
    rw [List.flatMap_cons, ← List.append_assoc]
    exact ih

/-- Where each answer to a call that the program's monitor allows keeps the two monitors related,
so does the served program. -/
theorem Abides.serve {h : Server I J ε} {K : S → T → Prop} {u : T}
    (hserver : ∀ c s u, K s u → (∀ ans, (m s ⟨c, ans⟩).isSome) →
      Abides m' (fun ans u' => ∃ s', m s ⟨c, ans⟩ = some s' ∧ K s' u') (h c) u)
    (hp : Abides m Q p s) (hK : K s u) :
    Abides m' (fun a u' => ∃ s', Q a s' ∧ K s' u') (p.serve h) u := by
  induction p generalizing s u with
  | ret a => exact ⟨s, hp, hK⟩
  | halt e => trivial
  | call c next ih =>
    have hallowed (ans : I.Answer c) : (m s ⟨c, ans⟩).isSome := by
      obtain ⟨t, ht, -⟩ := hp ans
      rw [ht]
      rfl
    refine (hserver c s u hK hallowed).bind fun ans u' hans => ?_
    obtain ⟨s', hs', hK'⟩ := hans
    obtain ⟨t, ht, hnext⟩ := hp ans
    obtain rfl := Option.some.inj (hs'.symm.trans ht)
    exact ih ans hnext hK'

/-- A server that keeps a state of its monitor keeps it for every program. -/
theorem abides_serve {h : Server I J ε} {K : T → Prop} {u : T} (p : Program I ε α)
    (hserver : ∀ c u, K u → Abides m' (fun _ u' => K u') (h c) u) (hK : K u) :
    Abides m' (fun _ u' => K u') (p.serve h) u := by
  induction p generalizing u with
  | ret a => exact hK
  | halt e => trivial
  | call c next ih => exact (hserver c u hK).bind fun ans u' hu' => ih ans hu'

end
end Interaction
