import Mathlib.Logic.Relation

/-! # Machines with labelled partial steps

A machine has one start state and a step function that is partial in the
action: `none` means that the action is not enabled. Runs may be restricted to
the steps a predicate on the state before the step and the action allows, so
that a conditional safety result is an invariant of the allowed runs.
-/

namespace RsvpControl.Core

universe u v

structure Machine (σ : Type u) (α : Type v) where
  start : σ
  step : σ → α → Option σ

namespace Machine

variable {σ : Type u} {α : Type v} {m : Machine σ α} {ok ok' : σ → α → Prop}

/-! ## Reachability under a condition on steps -/

/-- One enabled step whose pre-state and action satisfy `ok`. -/
def StepUnder (m : Machine σ α) (ok : σ → α → Prop) (s s' : σ) : Prop :=
  ∃ a, ok s a ∧ m.step s a = some s'

def ReachesUnder (m : Machine σ α) (ok : σ → α → Prop) : σ → σ → Prop :=
  Relation.ReflTransGen (m.StepUnder ok)

def ReachableUnder (m : Machine σ α) (ok : σ → α → Prop) (s : σ) : Prop :=
  m.ReachesUnder ok m.start s

def free (_ : σ) (_ : α) : Prop := True

abbrev Reaches (m : Machine σ α) : σ → σ → Prop := m.ReachesUnder free

abbrev Reachable (m : Machine σ α) : σ → Prop := m.ReachableUnder free

theorem ReachableUnder.start : m.ReachableUnder ok m.start := Relation.ReflTransGen.refl

theorem ReachesUnder.step {s s' t : σ} {a : α} (h : m.ReachesUnder ok s s') (ha : ok s' a)
    (hs : m.step s' a = some t) : m.ReachesUnder ok s t :=
  Relation.ReflTransGen.tail h ⟨a, ha, hs⟩

theorem ReachesUnder.of_step {s t : σ} {a : α} (ha : ok s a) (hs : m.step s a = some t) :
    m.ReachesUnder ok s t :=
  Relation.ReflTransGen.single ⟨a, ha, hs⟩

theorem Reaches.of_step {s t : σ} (a : α) (hs : m.step s a = some t) : m.Reaches s t :=
  ReachesUnder.of_step trivial hs

theorem ReachesUnder.mono (hok : ∀ s a, ok s a → ok' s a) {s t : σ}
    (h : m.ReachesUnder ok s t) : m.ReachesUnder ok' s t :=
  Relation.ReflTransGen.mono (fun _ _ ⟨a, ha, hs⟩ => ⟨a, hok _ _ ha, hs⟩) s t h

theorem ReachableUnder.reachable {s : σ} (h : m.ReachableUnder ok s) : m.Reachable s :=
  ReachesUnder.mono (fun _ _ _ => trivial) h

/-! ## Invariants -/

/-- A property kept by every allowed step holds after every allowed run. The
step may use that its pre-state is itself reachable. -/
theorem ReachesUnder.invariant {I : σ → Prop} {s : σ} (hs : I s)
    (hstep : ∀ t a t', m.ReachesUnder ok s t → I t → ok t a → m.step t a = some t' → I t')
    {t : σ} (h : m.ReachesUnder ok s t) : I t := by
  induction h with
  | refl => exact hs
  | tail hrun hlast ih =>
      obtain ⟨a, ha, hst⟩ := hlast
      exact hstep _ a _ hrun ih ha hst

theorem ReachableUnder.invariant {I : σ → Prop} (hstart : I m.start)
    (hstep : ∀ s a s', m.ReachableUnder ok s → I s → ok s a → m.step s a = some s' → I s')
    {s : σ} (h : m.ReachableUnder ok s) : I s :=
  ReachesUnder.invariant hstart hstep h

/-- The unconditional form: an inductive property holds in every reachable state. -/
theorem Reachable.invariant {I : σ → Prop} (hstart : I m.start)
    (hstep : ∀ s a s', I s → m.step s a = some s' → I s') {s : σ} (h : m.Reachable s) : I s :=
  ReachableUnder.invariant hstart (fun s a s' _ hi _ hs => hstep s a s' hi hs) h

/-! ## Executing a list of actions -/

/-- The state after performing the actions in order, `none` as soon as one is
not enabled. -/
def exec (m : Machine σ α) : σ → List α → Option σ
  | s, [] => some s
  | s, a :: as => (m.step s a).bind fun s' => m.exec s' as

@[simp] theorem exec_nil (s : σ) : m.exec s [] = some s := rfl

theorem exec_cons (s : σ) (a : α) (as : List α) :
    m.exec s (a :: as) = (m.step s a).bind fun s' => m.exec s' as := rfl

theorem Reaches.of_exec {s t : σ} {as : List α} (h : m.exec s as = some t) : m.Reaches s t := by
  induction as generalizing s with
  | nil =>
      cases h
      exact Relation.ReflTransGen.refl
  | cons a as ih =>
      rw [exec_cons] at h
      cases hs : m.step s a with
      | none => simp [hs] at h
      | some s' =>
          rw [hs] at h
          exact Relation.ReflTransGen.head ⟨a, trivial, hs⟩ (ih h)

theorem Reachable.of_exec {s : σ} {as : List α} (h : m.exec m.start as = some s) :
    m.Reachable s :=
  Reaches.of_exec h

theorem Reachable.exists_of_exec {p : σ → Bool} {as : List α}
    (h : (m.exec m.start as).any p = true) : ∃ s, m.Reachable s ∧ p s = true := by
  obtain ⟨s, hs, hp⟩ := (Option.any_eq_true _ _).mp h
  exact ⟨s, Reachable.of_exec hs, hp⟩

/-- Execution that stops at the first action the test does not allow. -/
def execUnder (m : Machine σ α) (test : σ → α → Bool) : σ → List α → Option σ
  | s, [] => some s
  | s, a :: as =>
      if test s a then (m.step s a).bind fun s' => m.execUnder test s' as else none

theorem ReachesUnder.of_exec {test : σ → α → Bool} {s t : σ} {as : List α}
    (h : m.execUnder test s as = some t) : m.ReachesUnder (fun s a => test s a = true) s t := by
  induction as generalizing s with
  | nil =>
      cases h
      exact Relation.ReflTransGen.refl
  | cons a as ih =>
      rw [execUnder] at h
      split at h
      · next ha =>
          cases hs : m.step s a with
          | none => simp [hs] at h
          | some s' =>
              rw [hs] at h
              exact Relation.ReflTransGen.head ⟨a, ha, hs⟩ (ih h)
      · cases h

theorem ReachableUnder.exists_of_exec {test : σ → α → Bool} {p : σ → Bool} {as : List α}
    (h : (m.execUnder test m.start as).any p = true) :
    ∃ s, m.ReachableUnder (fun s a => test s a = true) s ∧ p s = true := by
  obtain ⟨s, hs, hp⟩ := (Option.any_eq_true _ _).mp h
  exact ⟨s, ReachesUnder.of_exec hs, hp⟩

/-! ## Runs all of whose steps are allowed -/

/-- The states a list of actions visits, the first one included. -/
def states (m : Machine σ α) : σ → List α → List σ
  | s, [] => [s]
  | s, a :: as =>
      match m.step s a with
      | none => [s]
      | some s' => s :: m.states s' as

/-- Every step the list of actions performs satisfies `ok`. -/
def Allowed (m : Machine σ α) (ok : σ → α → Prop) : σ → List α → Prop
  | _, [] => True
  | s, a :: as =>
      match m.step s a with
      | none => True
      | some s' => ok s a ∧ m.Allowed ok s' as

instance decidableAllowed [∀ s a, Decidable (ok s a)] :
    (as : List α) → (s : σ) → Decidable (m.Allowed ok s as)
  | [], _ => isTrue trivial
  | a :: as, s =>
      match h : m.step s a with
      | none => isTrue (by simp [Allowed, h])
      | some s' =>
          have : Decidable (m.Allowed ok s' as) := decidableAllowed as s'
          decidable_of_iff (ok s a ∧ m.Allowed ok s' as) (by simp [Allowed, h])

theorem mem_states_self (s : σ) (as : List α) : s ∈ m.states s as := by
  cases as with
  | nil => exact List.mem_singleton.mpr rfl
  | cons a as =>
      rw [states]
      cases m.step s a with
      | none => exact List.mem_singleton.mpr rfl
      | some s' => exact List.mem_cons_self

/-- When, from a good state, a step leads to a good state exactly if it is
allowed, a run visits good states only exactly if all its steps are allowed.
`J` is an unconditional invariant the step equivalence may use. -/
theorem forall_states_iff_allowed {J P : σ → Prop}
    (hJ : ∀ s a s', J s → m.step s a = some s' → J s')
    (hexact : ∀ s a s', J s → P s → m.step s a = some s' → (P s' ↔ ok s a))
    {s : σ} (hs : J s) (hp : P s) (as : List α) :
    (∀ t ∈ m.states s as, P t) ↔ m.Allowed ok s as := by
  induction as generalizing s with
  | nil => simpa [states, Allowed] using hp
  | cons a as ih =>
      cases hst : m.step s a with
      | none => simpa [states, Allowed, hst] using hp
      | some s' =>
          have hstep := hexact s a s' hs hp hst
          simp only [states, Allowed, hst, List.mem_cons, forall_eq_or_imp, hp, true_and]
          constructor
          · intro hall
            have hp' : P s' := hall s' (mem_states_self s' as)
            exact ⟨hstep.mp hp', (ih (hJ s a s' hs hst) hp').mp hall⟩
          · rintro ⟨hok, hrest⟩
            have hp' : P s' := hstep.mpr hok
            exact (ih (hJ s a s' hs hst) hp').mpr hrest

theorem states_invariant {J : σ → Prop} (hJ : ∀ s a s', J s → m.step s a = some s' → J s')
    {s : σ} (hs : J s) {as : List α} {t : σ} (ht : t ∈ m.states s as) : J t := by
  induction as generalizing s with
  | nil =>
      rw [states, List.mem_singleton] at ht
      exact ht ▸ hs
  | cons a as ih =>
      cases hst : m.step s a with
      | none =>
          rw [states, hst, List.mem_singleton] at ht
          exact ht ▸ hs
      | some s' =>
          rw [states, hst, List.mem_cons] at ht
          rcases ht with rfl | ht
          · exact hs
          · exact ih (hJ s a s' hs hst) ht

/-! ## Observations -/

/-- What a list of actions lets one observe, step by step. -/
def observed {β : Type*} (m : Machine σ α) (f : σ → α → List β) : σ → List α → List β
  | _, [] => []
  | s, a :: as =>
      match m.step s a with
      | none => []
      | some s' => f s a ++ m.observed f s' as

end Machine

end RsvpControl.Core
