import Mathlib.Data.List.Basic

/-! # Descriptor tables

A process's descriptors, by number. What is opened takes the lowest number that is
free, so which number a file gets depends on what has been closed before it; `dup2`
takes the number it is told.
-/

namespace RsvpControl.Core

universe u

structure Descriptors (F : Type u) where
  slots : List (Option F)
deriving DecidableEq, Repr

namespace Descriptors

variable {F : Type u} {t : Descriptors F}

def get (t : Descriptors F) (d : Nat) : Option F := (t.slots[d]?).getD none

/-- The table grows to the number that is put. -/
def put (t : Descriptors F) (d : Nat) (file : Option F) : Descriptors F :=
  ⟨(t.slots ++ List.replicate (d + 1 - t.slots.length) none).set d file⟩

def lowest (t : Descriptors F) : Nat := t.slots.findIdx (·.isNone)

/-- What `open` does with a number. -/
def allocate (t : Descriptors F) (file : F) : Descriptors F := t.put t.lowest (some file)

def close (t : Descriptors F) (d : Nat) : Descriptors F := t.put d none

/-- A free `d` leaves the table alone. -/
def dup2 (t : Descriptors F) (d d' : Nat) : Descriptors F :=
  match t.get d with
  | none => t
  | some file => t.put d' (some file)

def map {G : Type*} (f : F → G) (t : Descriptors F) : Descriptors G := ⟨t.slots.map (·.map f)⟩

/-! ## What is where -/

theorem get_put (t : Descriptors F) (d : Nat) (file : Option F) (e : Nat) :
    (t.put d file).get e = if e = d then file else t.get e := by
  have hlength : d < (t.slots ++ List.replicate (d + 1 - t.slots.length) none).length := by
    rw [List.length_append, List.length_replicate]
    omega
  by_cases he : e = d
  · subst he
    simp [get, put, List.getElem?_set_self hlength]
  · rw [if_neg he, get, put, get, List.getElem?_set_ne (Ne.symm he)]
    by_cases hlt : e < t.slots.length
    · rw [List.getElem?_append_left hlt]
    · rw [List.getElem?_append_right (Nat.le_of_not_lt hlt),
        List.getElem?_eq_none (Nat.le_of_not_lt hlt), List.getElem?_replicate]
      split <;> rfl

@[simp] theorem get_put_self (d : Nat) (file : Option F) : (t.put d file).get d = file := by
  rw [get_put, if_pos rfl]

theorem get_lowest (t : Descriptors F) : t.get t.lowest = none := by
  unfold get lowest
  by_cases hlt : t.slots.findIdx (·.isNone) < t.slots.length
  · have hnone := List.findIdx_getElem (w := hlt)
    rw [List.getElem?_eq_getElem hlt, Option.getD_some]
    exact Option.isNone_iff_eq_none.mp hnone
  · rw [List.getElem?_eq_none (Nat.le_of_not_lt hlt)]
    rfl

theorem lowest_le {d : Nat} (h : t.get d = none) : t.lowest ≤ d := by
  by_cases hlt : d < t.slots.length
  · rw [get, List.getElem?_eq_getElem hlt, Option.getD_some] at h
    by_contra hlow
    have hsome := List.not_of_lt_findIdx (Nat.lt_of_not_le hlow)
    rw [h] at hsome
    cases hsome
  · exact Nat.le_trans List.findIdx_le_length (Nat.le_of_not_lt hlt)

/-- With every number below `n` taken, nothing is opened below it. -/
theorem le_lowest {n : Nat} (h : ∀ d < n, t.get d ≠ none) : n ≤ t.lowest := by
  by_contra hlt
  exact h t.lowest (Nat.lt_of_not_le hlt) (get_lowest t)

theorem lowest_eq {n : Nat} (hfree : t.get n = none) (htaken : ∀ d < n, t.get d ≠ none) :
    t.lowest = n :=
  Nat.le_antisymm (lowest_le hfree) (le_lowest htaken)

theorem get_allocate (t : Descriptors F) (file : F) (e : Nat) :
    (t.allocate file).get e = if e = t.lowest then some file else t.get e :=
  get_put t t.lowest (some file) e

theorem get_close (t : Descriptors F) (d e : Nat) :
    (t.close d).get e = if e = d then none else t.get e :=
  get_put t d none e

theorem get_dup2 {d : Nat} {file : F} (h : t.get d = some file) (d' e : Nat) :
    (t.dup2 d d').get e = if e = d' then some file else t.get e := by
  rw [dup2, h]
  exact get_put t d' (some file) e

/-- The number copied from keeps its file, also when it is copied to itself. -/
theorem get_dup2_source {d : Nat} {file : F} (h : t.get d = some file) (d' : Nat) :
    (t.dup2 d d').get d = some file := by
  rw [get_dup2 h]
  split
  · rfl
  · exact h

theorem get_map {G : Type*} (f : F → G) (t : Descriptors F) (d : Nat) :
    (t.map f).get d = (t.get d).map f := by
  simp only [get, map, List.getElem?_map]
  cases t.slots[d]? <;> rfl

end Descriptors

end RsvpControl.Core
