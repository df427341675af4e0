import RsvpControl.Core.Machine

/-! # Simulations between machines

A simulation names, for every step of one machine, the actions of another that match it,
and a relation the two keep. A whole run of the first is then matched by the run of the
second over what its steps name, and results about the second hold of the first as far as
the relation carries them.
-/

namespace RsvpControl.Core.Machine

universe u v

variable {σ τ : Type u} {α β : Type v} {m : Machine σ α} {n : Machine τ β}

/-! ## Runs and their action lists -/

theorem exec_append (s : σ) (as bs : List α) :
    m.exec s (as ++ bs) = (m.exec s as).bind fun t => m.exec t bs := by
  induction as generalizing s with
  | nil => rfl
  | cons a as ih =>
      rw [List.cons_append, exec_cons, exec_cons, Option.bind_assoc]
      exact congrArg (Option.bind (m.step s a)) (funext ih)

theorem exec_singleton (s : σ) (a : α) : m.exec s [a] = m.step s a := by
  rw [exec_cons]
  cases m.step s a <;> rfl

theorem Reaches.exists_exec {s t : σ} (h : m.Reaches s t) : ∃ as, m.exec s as = some t := by
  induction h with
  | refl => exact ⟨[], rfl⟩
  | tail _ hlast ih =>
      obtain ⟨as, has⟩ := ih
      obtain ⟨a, _, hstep⟩ := hlast
      exact ⟨as ++ [a], by rw [exec_append, has, Option.bind_some, exec_singleton, hstep]⟩

theorem Reaches.trans {s t r : σ} (h : m.Reaches s t) (h' : m.Reaches t r) : m.Reaches s r :=
  Relation.ReflTransGen.trans h h'

/-- What `f` forgets no step depends on, so runs of states that agree up to it do. -/
theorem exec_of_forget {f : σ → σ} (h : ∀ s a, (m.step (f s) a).map f = (m.step s a).map f)
    {s r : σ} (hsr : f s = f r) (as : List α) : (m.exec s as).map f = (m.exec r as).map f := by
  induction as generalizing s r with
  | nil => exact congrArg some hsr
  | cons a as ih =>
      have hstep : (m.step s a).map f = (m.step r a).map f := by
        rw [← h s a, hsr, h r a]
      rw [exec_cons, exec_cons]
      cases hs : m.step s a with
      | none =>
          rw [hs, Option.map_none] at hstep
          rw [Option.map_eq_none_iff.mp hstep.symm]
      | some s' =>
          rw [hs, Option.map_some] at hstep
          obtain ⟨r', hr, hforget⟩ := Option.map_eq_some_iff.mp hstep.symm
          rw [hr]
          exact ih hforget.symm

/-! ## Simulations -/

/-- Every step of `m` from a reachable state is matched by the actions `label` names. -/
structure Simulation (m : Machine σ α) (n : Machine τ β) (label : σ → α → List β)
    (R : σ → τ → Prop) : Prop where
  start : ∃ t, n.Reachable t ∧ R m.start t
  step : ∀ s a s' t, m.Reachable s → n.Reachable t → R s t → m.step s a = some s' →
    ∃ t', n.exec t (label s a) = some t' ∧ R s' t'

namespace Simulation

variable {label : σ → α → List β} {R : σ → τ → Prop}

/-- The run of `n` over what the steps of a run of `m` name. -/
theorem run (h : Simulation m n label R) {s s' : σ} {t : τ} {as : List α} (hs : m.Reachable s)
    (ht : n.Reachable t) (hR : R s t) (hrun : m.exec s as = some s') :
    ∃ t', n.exec t (m.observed label s as) = some t' ∧ R s' t' := by
  induction as generalizing s t with
  | nil =>
      cases hrun
      exact ⟨t, rfl, hR⟩
  | cons a as ih =>
      rw [exec_cons] at hrun
      cases hstep : m.step s a with
      | none => simp [hstep] at hrun
      | some r =>
          rw [hstep, Option.bind_some] at hrun
          obtain ⟨t₁, ht₁, hR₁⟩ := h.step s a r t hs ht hR hstep
          obtain ⟨t₂, ht₂, hR₂⟩ :=
            ih (hs.trans (Reaches.of_step a hstep)) (ht.trans (Reaches.of_exec ht₁)) hR₁ hrun
          refine ⟨t₂, ?_, hR₂⟩
          simp only [observed, hstep]
          rw [exec_append, ht₁, Option.bind_some, ht₂]

theorem exists_of_reachable (h : Simulation m n label R) {s : σ} (hs : m.Reachable s) :
    ∃ t, n.Reachable t ∧ R s t := by
  obtain ⟨as, has⟩ := Reaches.exists_exec hs
  obtain ⟨t, ht, hR⟩ := h.start
  obtain ⟨t', hrun, hR'⟩ := h.run ReachableUnder.start ht hR has
  exact ⟨t', ht.trans (Reaches.of_exec hrun), hR'⟩

end Simulation

end RsvpControl.Core.Machine
