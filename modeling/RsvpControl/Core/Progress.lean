import Mathlib.Algebra.GroupWithZero.Nat
import RsvpControl.Core.Simulation

/-! # Progress by counting steps

A measure that no step raises and every counted step lowers is used up after that many
counted steps, whatever else the run does in between. Nothing is assumed about how often
they come: where they do not come the run says nothing.
-/

namespace RsvpControl.Core.Machine

universe u v

variable {σ : Type u} {α : Type v} {m : Machine σ α}

theorem exec_measure {J : σ → Prop} {μ : σ → Nat} {c : α → Bool}
    (hJ : ∀ s a s', J s → m.step s a = some s' → J s')
    (hstep : ∀ s a s', J s → m.step s a = some s' → μ s' ≤ μ s - if c a then 1 else 0)
    {s t : σ} {as : List α} (hs : J s) (hrun : m.exec s as = some t) :
    J t ∧ μ t ≤ μ s - as.countP c := by
  induction as generalizing s with
  | nil =>
      cases hrun
      exact ⟨hs, Nat.le_refl _⟩
  | cons a as ih =>
      rw [exec_cons] at hrun
      obtain ⟨s', hs', hrest⟩ := Option.bind_eq_some_iff.mp hrun
      have hone := hstep s a s' hs hs'
      obtain ⟨ht, hmore⟩ := ih (hJ s a s' hs hs') hrest
      refine ⟨ht, ?_⟩
      rw [List.countP_cons]
      omega

/-- As many counted steps as the measure says use it up. -/
theorem exec_measure_zero {J : σ → Prop} {μ : σ → Nat} {c : α → Bool}
    (hJ : ∀ s a s', J s → m.step s a = some s' → J s')
    (hstep : ∀ s a s', J s → m.step s a = some s' → μ s' ≤ μ s - if c a then 1 else 0)
    {s t : σ} {as : List α} (hs : J s) (hrun : m.exec s as = some t)
    (hmany : μ s ≤ as.countP c) : J t ∧ μ t = 0 := by
  obtain ⟨ht, hle⟩ := exec_measure hJ hstep hs hrun
  exact ⟨ht, by omega⟩

/-- Where every counted step lowers the measure, no more of them come than it says. -/
theorem exec_count_le {J : σ → Prop} {μ : σ → Nat} {p : α → Prop} {c : α → Bool}
    (hJ : ∀ s a s', J s → m.step s a = some s' → J s')
    (hstep : ∀ s a s', J s → p a → m.step s a = some s' → μ s' + (if c a then 1 else 0) ≤ μ s)
    {s t : σ} {as : List α} (hs : J s) (has : ∀ a ∈ as, p a) (hrun : m.exec s as = some t) :
    as.countP c + μ t ≤ μ s := by
  induction as generalizing s with
  | nil =>
      cases hrun
      exact Nat.le_of_eq (Nat.zero_add _)
  | cons a as ih =>
      rw [exec_cons] at hrun
      obtain ⟨s', hs', hrest⟩ := Option.bind_eq_some_iff.mp hrun
      have hone := hstep s a s' hs (has a List.mem_cons_self) hs'
      have hmore := ih (hJ s a s' hs hs') (fun b hb => has b (List.mem_cons_of_mem a hb)) hrest
      rw [List.countP_cons]
      omega

theorem exec_length_le {J : σ → Prop} {μ : σ → Nat} {p : α → Prop}
    (hJ : ∀ s a s', J s → m.step s a = some s' → J s')
    (hstep : ∀ s a s', J s → p a → m.step s a = some s' → μ s' < μ s)
    {s t : σ} {as : List α} (hs : J s) (has : ∀ a ∈ as, p a) (hrun : m.exec s as = some t) :
    as.length + μ t ≤ μ s := by
  have hcount := exec_count_le (c := fun _ => true) hJ hstep hs has hrun
  rwa [List.countP_true] at hcount

/-- Where some step always lowers the measure until `Q`, some run leads to `Q`. -/
theorem exists_reaches_of_measure {J Q : σ → Prop} (μ : σ → Nat)
    (hstep : ∀ s, J s → ¬ Q s → ∃ a s', m.step s a = some s' ∧ J s' ∧ μ s' < μ s) {s : σ}
    (hs : J s) : ∃ t, m.Reaches s t ∧ J t ∧ Q t := by
  induction hn : μ s using Nat.strongRecOn generalizing s with
  | _ n ih =>
      by_cases hq : Q s
      · exact ⟨s, Relation.ReflTransGen.refl, hs, hq⟩
      · obtain ⟨a, s', hs', hJ, hless⟩ := hstep s hs hq
        obtain ⟨t, hrun, ht⟩ := ih (μ s') (hn ▸ hless) hJ rfl
        exact ⟨t, Relation.ReflTransGen.head ⟨a, trivial, hs'⟩ hrun, ht⟩

/-- A run that leads back to where it starts can be repeated. -/
theorem exec_repeat {s : σ} {as : List α} (h : m.exec s as = some s) (n : Nat) :
    m.exec s (List.replicate n as).flatten = some s := by
  induction n with
  | zero => rfl
  | succ n ih =>
      rw [List.replicate_succ, List.flatten_cons, exec_append, h, Option.bind_some, ih]

end RsvpControl.Core.Machine

namespace RsvpControl.Core

/-- The measure of a list of threads when one of them moves. -/
theorem sum_map_set {α : Type*} {threads : List α} {t : Nat} {pc pc' : α}
    (h : threads[t]? = some pc) (f : α → Nat) :
    ((threads.set t pc').map f).sum + f pc = (threads.map f).sum + f pc' := by
  induction threads generalizing t with
  | nil => cases h
  | cons head rest ih =>
      cases t with
      | zero =>
          simp only [List.getElem?_cons_zero, Option.some.injEq] at h
          subst h
          simp only [List.set_cons_zero, List.map_cons, List.sum_cons]
          omega
      | succ t =>
          have hrest := ih (t := t) h
          simp only [List.set_cons_succ, List.map_cons, List.sum_cons]
          omega

end RsvpControl.Core
