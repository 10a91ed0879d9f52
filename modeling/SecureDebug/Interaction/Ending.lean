import SecureDebug.Interaction.Program

/-! Procedures that are given a number of turns and halt when these run out. More turns only
continue what fewer turns began, so a procedure that ends does so from some number of turns on, in
one way, and one that does not is cut off however many turns it is given. -/

namespace Interaction
open Program

variable {I : Interface} {ε α β σ : Type} {stuck : ε}

/-- The second program goes on where the first halts for the reason `stuck`. -/
inductive Extends (stuck : ε) : Program I ε α → Program I ε α → Prop
  | ret (a : α) : Extends stuck (ret a) (ret a)
  | halt (e : ε) : Extends stuck (halt e) (halt e)
  | stuck (q : Program I ε α) : Extends stuck (halt stuck) q
  | call {c : I.Call} {next next' : I.Answer c → Program I ε α} :
      (∀ ans, Extends stuck (next ans) (next' ans)) → Extends stuck (call c next) (call c next')

section
variable {p q : Program I ε α}

theorem extends_refl (p : Program I ε α) : Extends stuck p p := by
  induction p with
  | ret a => exact .ret a
  | halt e => exact .halt e
  | call c next ih => exact .call ih

theorem Extends.bind {f g : α → Program I ε β} (h : Extends stuck p q)
    (hfg : ∀ a, Extends stuck (f a) (g a)) : Extends stuck (p >>= f) (q >>= g) := by
  induction h with
  | ret a => exact hfg a
  | halt e => exact .halt e
  | stuck q => exact .stuck _
  | call _ ih => exact .call ih

theorem Extends.bind_refl {f g : α → Program I ε β} (p : Program I ε α)
    (hfg : ∀ a, Extends stuck (f a) (g a)) : Extends stuck (p >>= f) (p >>= g) :=
  (extends_refl p).bind hfg

theorem extends_ite {c : Prop} [Decidable c] {p' q' : Program I ε α} (hp : Extends stuck p p')
    (hq : Extends stuck q q') : Extends stuck (if c then p else q) (if c then p' else q') := by
  by_cases h : c
  · rw [if_pos h, if_pos h]
    exact hp
  · rw [if_neg h, if_neg h]
    exact hq

/-- What a program does that is not stuck, its extension does as well. -/
theorem Extends.exec_eq (h : Extends stuck p q) (m : Machine I σ) (s : σ)
    (hp : (m.exec p s).1 ≠ .error stuck) : m.exec q s = m.exec p s := by
  induction h generalizing s with
  | ret a => rfl
  | halt e => rfl
  | stuck q => exact absurd rfl hp
  | @call c next next' _ ih =>
    have hnext := ih (m.answer c s).1 (m.answer c s).2 hp
    unfold Machine.exec
    dsimp only
    rw [hnext]

end

def Leads (m : Machine I σ) (p : Program I ε α) (s : σ) (a : α) (t : σ) : Prop :=
  ∃ l, m.exec p s = (.ok a, l, t)

section
variable {m : Machine I σ} {p : Program I ε α} {f : α → Program I ε β} {s t t' u : σ} {a a' : α}
  {b : β}

theorem leads_pure : Leads m (pure a : Program I ε α) s a' t ↔ a' = a ∧ t = s := by
  constructor
  · intro h
    obtain ⟨l, h⟩ := h
    obtain ⟨ha, hrest⟩ := Prod.mk.inj h
    exact ⟨(Except.ok.inj ha).symm, (Prod.mk.inj hrest).2.symm⟩
  · intro h
    obtain ⟨rfl, rfl⟩ := h
    exact ⟨[], rfl⟩

theorem leads_bind : Leads m (p >>= f) s b u ↔ ∃ a t, Leads m p s a t ∧ Leads m (f a) t b u := by
  constructor
  · intro h
    obtain ⟨l, h⟩ := h
    rw [Machine.exec_bind] at h
    rcases hout : m.exec p s with ⟨r, l', t⟩
    rw [hout] at h
    cases r with
    | error e => cases h
    | ok a =>
      rcases hout' : m.exec (f a) t with ⟨r', l'', u'⟩
      simp only [hout'] at h
      obtain ⟨hr, hrest⟩ := Prod.mk.inj h
      rw [hr, (Prod.mk.inj hrest).2] at hout'
      exact ⟨a, t, ⟨l', hout⟩, ⟨l'', hout'⟩⟩
  · intro h
    obtain ⟨a, t, ⟨l, hp⟩, ⟨l', hf⟩⟩ := h
    refine ⟨l ++ l', ?_⟩
    rw [Machine.exec_bind, hp]
    dsimp only
    rw [hf]

theorem Leads.unique (h : Leads m p s a t) (h' : Leads m p s a' t') : a = a' ∧ t = t' := by
  obtain ⟨l, h⟩ := h
  obtain ⟨l', h'⟩ := h'
  rw [h] at h'
  obtain ⟨ha, hrest⟩ := Prod.mk.inj h'
  exact ⟨Except.ok.inj ha, (Prod.mk.inj hrest).2⟩

end

/-- The programs for more and more turns continue each other. -/
def Fueled (stuck : ε) (p : Nat → Program I ε α) : Prop := ∀ n k, n ≤ k → Extends stuck (p n) (p k)

/-- With enough turns the procedure returns, always in the same way. -/
def Completes (m : Machine I σ) (p : Nat → Program I ε α) (s : σ) : Prop :=
  ∃ n a l t, ∀ k, n ≤ k → m.exec (p k) s = (.ok a, l, t)

section
variable {p : Nat → Program I ε α} {f : Nat → α → Program I ε β} {m : Machine I σ} {s t t' : σ}
  {n k : Nat} {a a' : α} {l l' : List (Event I)}

theorem fueled_const (q : Program I ε α) : Fueled stuck fun _ => q := fun _ _ _ => extends_refl q

theorem Fueled.bind (hp : Fueled stuck p) (hf : ∀ a, Fueled stuck fun n => f n a) :
    Fueled stuck fun n => p n >>= f n := fun n k hnk =>
  (hp n k hnk).bind fun a => hf a n k hnk

theorem fueled_ite {c : Prop} [Decidable c] {q : Nat → Program I ε α} (hp : Fueled stuck p)
    (hq : Fueled stuck q) : Fueled stuck fun n => if c then p n else q n := fun n k hnk =>
  extends_ite (hp n k hnk) (hq n k hnk)

theorem Fueled.exec_eq (hp : Fueled stuck p) (h : m.exec (p n) s = (.ok a, l, t)) (hnk : n ≤ k) :
    m.exec (p k) s = (.ok a, l, t) := by
  rw [← h]
  refine (hp n k hnk).exec_eq m s ?_
  rw [h]
  intro hstuck
  cases hstuck

theorem Fueled.completes_iff (hp : Fueled stuck p) :
    Completes m p s ↔ ∃ n a t, Leads m (p n) s a t := by
  constructor
  · intro h
    obtain ⟨n, a, l, t, hall⟩ := h
    exact ⟨n, a, t, l, hall n (Nat.le_refl n)⟩
  · intro h
    obtain ⟨n, a, t, l, hn⟩ := h
    exact ⟨n, a, l, t, fun k hk => hp.exec_eq hn hk⟩

theorem Fueled.exec_unique (hp : Fueled stuck p) (hn : m.exec (p n) s = (.ok a, l, t))
    (hk : m.exec (p k) s = (.ok a', l', t')) : a = a' ∧ l = l' ∧ t = t' := by
  have hn' := hp.exec_eq hn (Nat.le_max_left n k)
  have hk' := hp.exec_eq hk (Nat.le_max_right n k)
  rw [hn'] at hk'
  obtain ⟨ha, hrest⟩ := Prod.mk.inj hk'
  obtain ⟨hl, ht⟩ := Prod.mk.inj hrest
  exact ⟨Except.ok.inj ha, hl, ht⟩

theorem Fueled.leads_of_le (hp : Fueled stuck p) (h : Leads m (p n) s a t) (hnk : n ≤ k) :
    Leads m (p k) s a t := by
  obtain ⟨l, h⟩ := h
  exact ⟨l, hp.exec_eq h hnk⟩

theorem Fueled.leads_unique (hp : Fueled stuck p) (h : Leads m (p n) s a t)
    (h' : Leads m (p k) s a' t') : a = a' ∧ t = t' :=
  (hp.leads_of_le h (Nat.le_max_left n k)).unique (hp.leads_of_le h' (Nat.le_max_right n k))

/-- Where two environments lead to the same outcome, however many turns from some number on, the
procedure returns in both or in none. -/
theorem Fueled.completes_of_eq {σ' : Type} {m' : Machine I σ'} {s' : σ'} (hp : Fueled stuck p)
    (heq : ∀ j, n ≤ j → (m.exec (p j) s).1 = (m'.exec (p j) s').1) (h : Completes m p s) :
    Completes m' p s' := by
  obtain ⟨k, a, l, t, hall⟩ := h
  have hm := heq (max n k) (Nat.le_max_left n k)
  rw [hall _ (Nat.le_max_right n k)] at hm
  exact hp.completes_iff.mpr ⟨max n k, a, _, _, Prod.ext hm.symm rfl⟩

/-- A sequence returns just if its first part does and, from where that leaves, its second part. -/
theorem Fueled.completes_bind (hp : Fueled stuck p) (hf : ∀ a, Fueled stuck fun n => f n a) :
    Completes m (fun n => p n >>= f n) s ↔
      ∃ n a t, Leads m (p n) s a t ∧ Completes m (fun k => f k a) t := by
  rw [(hp.bind hf).completes_iff]
  constructor
  · intro h
    obtain ⟨n, b, u, hn⟩ := h
    obtain ⟨a, t, hfirst, hrest⟩ := leads_bind.mp hn
    exact ⟨n, a, t, hfirst, (hf a).completes_iff.mpr ⟨n, b, u, hrest⟩⟩
  · intro h
    obtain ⟨n, a, t, hfirst, hends⟩ := h
    obtain ⟨k, b, u, hrest⟩ := (hf a).completes_iff.mp hends
    exact ⟨max n k, b, u, leads_bind.mpr ⟨a, t, hp.leads_of_le hfirst (Nat.le_max_left n k),
      (hf a).leads_of_le hrest (Nat.le_max_right n k)⟩⟩

end
end Interaction
