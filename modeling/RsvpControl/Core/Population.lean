import Mathlib.Data.List.Basic

/-! # Counting the members of a list of threads

A list of threads changes by one thread moving, by one being created, or by all
being marked. The number of those in some class follows, and when it is at most
one the class has one index.
-/

namespace RsvpControl.Core.Population

variable {α : Type*} {p : α → Bool} {l : List α}

theorem countP_set_getElem? {i : Nat} {a : α} (b : α) (h : l[i]? = some a) :
    (l.set i b).countP p + (if p a then 1 else 0) = l.countP p + (if p b then 1 else 0) := by
  obtain ⟨hlt, ha⟩ := List.getElem?_eq_some_iff.mp h
  rw [List.countP_set hlt, ha]
  by_cases hp : p a = true
  · have hpos : 0 < l.countP p :=
      List.countP_pos_iff.mpr ⟨a, List.mem_of_getElem? h, hp⟩
    simp only [hp, if_true]
    omega
  · simp [hp]

theorem not_of_countP_eq_zero {i : Nat} {a : α} (hzero : l.countP p = 0) (h : l[i]? = some a) :
    p a = false := by
  have hnone := List.countP_eq_zero.mp hzero a (List.mem_of_getElem? h)
  simpa using hnone

theorem index_unique {i j : Nat} {a b : α} (hone : l.countP p ≤ 1) (hi : l[i]? = some a)
    (ha : p a = true) (hj : l[j]? = some b) (hb : p b = true) : i = j := by
  induction l generalizing i j with
  | nil => simp at hi
  | cons x xs ih =>
      rw [List.countP_cons] at hone
      cases i with
      | zero =>
          cases j with
          | zero => rfl
          | succ j =>
              simp only [List.getElem?_cons_zero, Option.some.injEq] at hi
              subst hi
              rw [if_pos ha] at hone
              have hzero : xs.countP p = 0 := by omega
              rw [not_of_countP_eq_zero hzero hj] at hb
              cases hb
      | succ i =>
          cases j with
          | zero =>
              simp only [List.getElem?_cons_zero, Option.some.injEq] at hj
              subst hj
              rw [if_pos hb] at hone
              have hzero : xs.countP p = 0 := by omega
              rw [not_of_countP_eq_zero hzero hi] at ha
              cases ha
          | succ j =>
              have heq := ih (by omega) hi hj
              rw [heq]

/-- Marking the members of one class adds at most these to another. -/
theorem countP_map_mark {q : α → Bool} (f : α → α) :
    (l.map fun a => if q a then f a else a).countP p ≤ l.countP p + l.countP q := by
  induction l with
  | nil => exact Nat.le_refl 0
  | cons a l ih =>
      rw [List.map_cons, List.countP_cons, List.countP_cons, List.countP_cons]
      by_cases hq : q a = true
      · simp only [hq, if_true]
        split <;> omega
      · simp only [hq, Bool.false_eq_true, if_false]
        omega

/-- A thread of the list after one has moved is that one or an old one elsewhere. -/
theorem getElem?_set_cases {i j : Nat} {b c : α} (h : (l.set i b)[j]? = some c) :
    (j = i ∧ c = b) ∨ (j ≠ i ∧ l[j]? = some c) := by
  by_cases hij : j = i
  · subst hij
    rw [List.getElem?_set] at h
    split at h
    · split at h <;> cases h
      exact Or.inl ⟨rfl, rfl⟩
    · next hne => exact absurd rfl hne
  · rw [List.getElem?_set_ne (Ne.symm hij)] at h
    exact Or.inr ⟨hij, h⟩

end RsvpControl.Core.Population
