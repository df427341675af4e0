import Mathlib.Data.List.Count
import Mathlib.Data.List.Perm.Basic

/-! # Inventories of resources and tasks

A trace of what a process acquires, releases, creates and joins. What is right
about a trace is said by counting what stands before each event; an inventory of
what is held and unjoined follows it in one pass.
-/

namespace RsvpControl.Core.Inventory

universe u v

/-- An event of a process that acquires resources `ρ` and creates tasks `τ`. -/
inductive Event (ρ : Type u) (τ : Type v) where
  | acquire (resource : ρ)
  | release (resource : ρ)
  | create (task : τ)
  | join (task : τ)
deriving DecidableEq, Repr

variable {ρ : Type u} {τ : Type v} [DecidableEq ρ] [DecidableEq τ] {shared : ρ → Bool}

/-! ## Balanced traces -/

/-- What comes before an event allows it: a resource is acquired once and released
while held, a task joined while unjoined, and a resource that tasks share is
released when every task is joined. -/
def Justified (shared : ρ → Bool) (before : List (Event ρ τ)) : Event ρ τ → Prop
  | .acquire r => before.count (.acquire r) = 0
  | .release r => before.count (.release r) < before.count (.acquire r) ∧
      (shared r = true → ∀ t, before.count (.join t) = before.count (.create t))
  | .create _ => True
  | .join t => before.count (.join t) < before.count (.create t)

def Balanced (shared : ρ → Bool) (events : List (Event ρ τ)) : Prop :=
  ∀ before e after, events = before ++ e :: after → Justified shared before e

/-- Nothing is held or unjoined at the end. -/
def Settled (events : List (Event ρ τ)) : Prop :=
  (∀ r, events.count (.release r) = events.count (.acquire r)) ∧
    ∀ t, events.count (.join t) = events.count (.create t)

theorem balanced_nil : Balanced shared ([] : List (Event ρ τ)) := by
  intro before e after h
  cases before <;> cases h

theorem balanced_concat {events : List (Event ρ τ)} {e : Event ρ τ} :
    Balanced shared (events ++ [e]) ↔ Balanced shared events ∧ Justified shared events e := by
  constructor
  · intro h
    refine ⟨fun before e' after hsplit => h before e' (after ++ [e]) ?_, h events e [] rfl⟩
    rw [hsplit, List.append_assoc, List.cons_append]
  · rintro ⟨hevents, he⟩ before e' after hsplit
    rcases List.eq_nil_or_concat after with rfl | ⟨rest, last, rfl⟩
    · obtain ⟨rfl, hlast⟩ := List.append_inj' hsplit rfl
      cases hlast
      exact he
    · rw [List.concat_eq_append, ← List.cons_append, ← List.append_assoc] at hsplit
      exact hevents before e' rest (List.append_inj' hsplit rfl).1

/-! ## The inventory -/

structure Stock (ρ : Type u) (τ : Type v) where
  held : List ρ
  released : List ρ
  unjoined : List τ
deriving DecidableEq, Repr

namespace Stock

def empty : Stock ρ τ := ⟨[], [], []⟩

/-- The stock after one event, `none` if it does not allow the event. -/
def record (shared : ρ → Bool) (l : Stock ρ τ) : Event ρ τ → Option (Stock ρ τ)
  | .acquire r =>
      if r ∈ l.held ∨ r ∈ l.released then none else some { l with held := r :: l.held }
  | .release r =>
      if r ∈ l.held ∧ (shared r = true → l.unjoined = []) then
        some { l with held := l.held.erase r, released := r :: l.released }
      else none
  | .create t => some { l with unjoined := t :: l.unjoined }
  | .join t => if t ∈ l.unjoined then some { l with unjoined := l.unjoined.erase t } else none

def replay (shared : ρ → Bool) : Stock ρ τ → List (Event ρ τ) → Option (Stock ρ τ)
  | l, [] => some l
  | l, e :: es => (l.record shared e).bind fun l' => replay shared l' es

theorem replay_append (l : Stock ρ τ) (as bs : List (Event ρ τ)) :
    l.replay shared (as ++ bs) = (l.replay shared as).bind fun l' => l'.replay shared bs := by
  induction as generalizing l with
  | nil => rfl
  | cons a as ih =>
      simp only [List.cons_append, replay, Option.bind_assoc]
      exact congrArg _ (funext fun l' => ih l')

/-! ## What replays is balanced -/

/-- The stock counts what the trace has left open. -/
structure Matches (l : Stock ρ τ) (events : List (Event ρ τ)) : Prop where
  held : ∀ r, l.held.count r + events.count (.release r) = events.count (.acquire r)
  released : ∀ r, l.released.count r = events.count (.release r)
  unjoined : ∀ t, l.unjoined.count t + events.count (.join t) = events.count (.create t)

theorem matches_empty : (empty : Stock ρ τ).Matches [] := by
  constructor <;> simp [empty]

theorem Matches.unjoined_eq_nil {l : Stock ρ τ} {events : List (Event ρ τ)}
    (h : l.Matches events) :
    l.unjoined = [] ↔ ∀ t, events.count (.join t) = events.count (.create t) := by
  constructor
  · intro hnil t
    simpa [hnil] using h.unjoined t
  · intro hall
    refine List.eq_nil_iff_forall_not_mem.mpr fun t ht => ?_
    have hpos := List.count_pos_iff.mpr ht
    have hcount := h.unjoined t
    have hequal := hall t
    omega

theorem Matches.acquire {l : Stock ρ τ} {events : List (Event ρ τ)} (h : l.Matches events)
    (r : ρ) : Matches { l with held := r :: l.held } (events ++ [.acquire r]) := by
  refine ⟨fun r' => ?_, by simpa using h.released, by simpa using h.unjoined⟩
  have hcount := h.held r'
  by_cases heq : r = r' <;> simp [heq] <;> omega

theorem Matches.release {l : Stock ρ τ} {events : List (Event ρ τ)} {r : ρ}
    (h : l.Matches events) (hmem : r ∈ l.held) :
    Matches { l with held := l.held.erase r, released := r :: l.released }
      (events ++ [.release r]) := by
  refine ⟨fun r' => ?_, fun r' => ?_, by simpa using h.unjoined⟩
  · have hcount := h.held r'
    have hpos := List.count_pos_iff.mpr hmem
    by_cases heq : r = r'
    · subst heq
      simp [List.count_erase_self]
      omega
    · simp [List.count_erase_of_ne (Ne.symm heq), heq]
      omega
  · have hcount := h.released r'
    by_cases heq : r = r' <;> simp [heq] <;> omega

theorem Matches.create {l : Stock ρ τ} {events : List (Event ρ τ)} (h : l.Matches events)
    (t : τ) : Matches { l with unjoined := t :: l.unjoined } (events ++ [.create t]) := by
  refine ⟨by simpa using h.held, by simpa using h.released, fun t' => ?_⟩
  have hcount := h.unjoined t'
  by_cases heq : t = t' <;> simp [heq] <;> omega

theorem Matches.join {l : Stock ρ τ} {events : List (Event ρ τ)} {t : τ}
    (h : l.Matches events) (hmem : t ∈ l.unjoined) :
    Matches { l with unjoined := l.unjoined.erase t } (events ++ [.join t]) := by
  refine ⟨by simpa using h.held, by simpa using h.released, fun t' => ?_⟩
  have hcount := h.unjoined t'
  have hpos := List.count_pos_iff.mpr hmem
  by_cases heq : t = t'
  · subst heq
    simp [List.count_erase_self]
    omega
  · simp [List.count_erase_of_ne (Ne.symm heq), heq]
    omega

theorem Matches.record {l l' : Stock ρ τ} {events : List (Event ρ τ)} {e : Event ρ τ}
    (h : l.Matches events) (hs : l.record shared e = some l') :
    l'.Matches (events ++ [e]) ∧ Justified shared events e := by
  cases e with
  | acquire r =>
      simp only [Stock.record] at hs
      split at hs
      · cases hs
      · next hfresh =>
          cases hs
          rw [not_or, ← List.count_eq_zero, ← List.count_eq_zero] at hfresh
          refine ⟨h.acquire r, ?_⟩
          rw [Justified, ← h.held r, ← h.released r]
          omega
  | release r =>
      simp only [Stock.record] at hs
      split at hs
      · next hmem =>
          cases hs
          have hpos := List.count_pos_iff.mpr hmem.1
          refine ⟨h.release hmem.1, ?_, fun hshared => h.unjoined_eq_nil.mp (hmem.2 hshared)⟩
          rw [← h.held r]
          omega
      · cases hs
  | create t =>
      cases hs
      exact ⟨h.create t, trivial⟩
  | join t =>
      simp only [Stock.record] at hs
      split at hs
      · next hmem =>
          cases hs
          have hpos := List.count_pos_iff.mpr hmem
          refine ⟨h.join hmem, ?_⟩
          rw [Justified, ← h.unjoined t]
          omega
      · cases hs

theorem Matches.replay {l l' : Stock ρ τ} {before events : List (Event ρ τ)}
    (h : l.Matches before) (hbalanced : Balanced shared before)
    (hs : l.replay shared events = some l') :
    l'.Matches (before ++ events) ∧ Balanced shared (before ++ events) := by
  induction events generalizing l before with
  | nil =>
      cases hs
      rw [List.append_nil]
      exact ⟨h, hbalanced⟩
  | cons e es ih =>
      obtain ⟨mid, hrecord, hrest⟩ := Option.bind_eq_some_iff.mp hs
      obtain ⟨hmid, hjustified⟩ := h.record hrecord
      have hnext := ih hmid (balanced_concat.mpr ⟨hbalanced, hjustified⟩) hrest
      rwa [List.append_assoc, List.singleton_append] at hnext

theorem balanced_of_replay {events : List (Event ρ τ)} {l : Stock ρ τ}
    (h : (empty : Stock ρ τ).replay shared events = some l) : Balanced shared events :=
  (matches_empty.replay balanced_nil h).2

theorem settled_of_replay {events : List (Event ρ τ)} {l : Stock ρ τ}
    (h : (empty : Stock ρ τ).replay shared events = some l) (hheld : l.held = [])
    (hunjoined : l.unjoined = []) : Settled events := by
  have hmatches := (matches_empty.replay balanced_nil h).1
  refine ⟨fun r => ?_, hmatches.unjoined_eq_nil.mp hunjoined⟩
  simpa [hheld] using hmatches.held r

theorem not_balanced_of_join {events : List (Event ρ τ)} {l : Stock ρ τ} {t : τ}
    (h : (empty : Stock ρ τ).replay shared events = some l) (ht : t ∉ l.unjoined) :
    ¬ Balanced shared (events ++ [.join t]) := by
  intro hbalanced
  have hmatches : l.Matches events := (matches_empty.replay balanced_nil h).1
  have hjoin : events.count (.join t) < events.count (.create t) := (balanced_concat.mp hbalanced).2
  rw [← hmatches.unjoined t, List.count_eq_zero.mpr ht] at hjoin
  omega

/-! ## Lists of resources -/

theorem replay_concat {events more : List (Event ρ τ)} {l l' : Stock ρ τ}
    (h : (empty : Stock ρ τ).replay shared events = some l)
    (hmore : l.replay shared more = some l') :
    (empty : Stock ρ τ).replay shared (events ++ more) = some l' := by
  rw [replay_append, h]
  exact hmore

theorem replay_acquires (shared : ρ → Bool) {l : Stock ρ τ} (rs : List ρ) (hnodup : rs.Nodup)
    (hfresh : ∀ r ∈ rs, r ∉ l.held ∧ r ∉ l.released) :
    ∃ l', l.replay shared (rs.map .acquire) = some l' ∧ l'.held.Perm (rs ++ l.held) ∧
      l'.released = l.released ∧ l'.unjoined = l.unjoined := by
  induction rs generalizing l with
  | nil => exact ⟨l, rfl, List.Perm.refl _, rfl, rfl⟩
  | cons r rs ih =>
      obtain ⟨hnotin, hrest⟩ := List.nodup_cons.mp hnodup
      obtain ⟨l', hreplay, hheld, hsame⟩ := ih (l := { l with held := r :: l.held }) hrest (by
        intro r' hr'
        obtain ⟨hheld, hreleased⟩ := hfresh r' (List.mem_cons_of_mem r hr')
        refine ⟨fun hmem => ?_, hreleased⟩
        rcases List.mem_cons.mp hmem with rfl | hmem
        · exact hnotin hr'
        · exact hheld hmem)
      refine ⟨l', ?_, hheld.trans List.perm_middle, hsame⟩
      rw [List.map_cons, replay, record, if_neg (not_or.mpr (hfresh r List.mem_cons_self))]
      exact hreplay

/-- The resources of a list are released in its order, with none of them shared by an
unjoined task. -/
theorem replay_releases (shared : ρ → Bool) {l : Stock ρ τ} (rs rest : List ρ)
    (hheld : l.held.Perm (rs ++ rest))
    (hfree : ∀ r ∈ rs, shared r = true → l.unjoined = []) :
    ∃ l', l.replay shared (rs.map .release) = some l' ∧ l'.held.Perm rest ∧
      l'.unjoined = l.unjoined := by
  induction rs generalizing l with
  | nil => exact ⟨l, rfl, hheld, rfl⟩
  | cons r rs ih =>
      have hmem : r ∈ l.held := hheld.mem_iff.mpr List.mem_cons_self
      have hperm : (l.held.erase r).Perm (rs ++ rest) := by
        simpa using hheld.erase r
      obtain ⟨l', hreplay, hheld', hunjoined⟩ :=
        ih (l := { l with held := l.held.erase r, released := r :: l.released }) hperm
          fun r' hr' => hfree r' (List.mem_cons_of_mem r hr')
      refine ⟨l', ?_, hheld', hunjoined⟩
      rw [List.map_cons, replay, record, if_pos ⟨hmem, hfree r List.mem_cons_self⟩]
      exact hreplay

end Stock

end RsvpControl.Core.Inventory
