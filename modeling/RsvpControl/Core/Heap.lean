import Mathlib.Data.List.Basic

/-! # A heap of blocks with their release history

Blocks are named by allocation order and a name is never reused, so a block
that is released twice, or read after its release, stays visible in the heap
itself instead of being confused with a later allocation.
-/

namespace RsvpControl.Core

universe u

/-- A block's contents and how often it has been released. -/
structure Block (β : Type u) where
  value : β
  frees : Nat
deriving DecidableEq, Repr

abbrev Heap (β : Type u) := List (Block β)

namespace Heap

variable {β : Type u} {h : Heap β} {a b : Nat} {v : β}

/-- A fresh live block holding `v`. -/
def alloc (h : Heap β) (v : β) : Heap β × Nat := (h ++ [⟨v, 0⟩], h.length)

def free (h : Heap β) (a : Nat) : Heap β :=
  h.modify a fun block => { block with frees := block.frees + 1 }

/-- The contents of a live block; `none` for a released or unknown one. -/
def deref (h : Heap β) (a : Nat) : Option β :=
  match h[a]? with
  | some ⟨v, 0⟩ => some v
  | _ => none

def frees (h : Heap β) (a : Nat) : Nat :=
  match h[a]? with
  | some block => block.frees
  | none => 0

theorem deref_eq_some_iff : h.deref a = some v ↔ h[a]? = some ⟨v, 0⟩ := by
  unfold deref
  constructor
  · intro hd
    split at hd
    · next heq =>
        cases hd
        exact heq
    · cases hd
  · intro hg
    simp [hg]

theorem lt_length_of_deref (hd : h.deref a = some v) : a < h.length :=
  (List.getElem?_eq_some_iff.mp (deref_eq_some_iff.mp hd)).1

theorem frees_of_deref (hd : h.deref a = some v) : h.frees a = 0 := by
  simp [frees, deref_eq_some_iff.mp hd]

/-! ## Allocation -/

@[simp] theorem alloc_length : (h.alloc v).1.length = h.length + 1 := by simp [alloc]

theorem alloc_deref_new : (h.alloc v).1.deref (h.alloc v).2 = some v := by
  simp [alloc, deref]

theorem alloc_deref_of_some {w : β} (hd : h.deref a = some w) :
    (h.alloc v).1.deref a = some w := by
  have ha := lt_length_of_deref hd
  rw [deref_eq_some_iff] at hd ⊢
  rw [alloc, List.getElem?_append_left ha, hd]

theorem alloc_frees (a : Nat) : (h.alloc v).1.frees a = h.frees a := by
  unfold frees alloc
  by_cases ha : a < h.length
  · rw [List.getElem?_append_left ha]
  · rw [List.getElem?_append_right (by omega), List.getElem?_eq_none (l := h) (by omega)]
    cases hk : a - h.length with
    | zero => rfl
    | succ k => rfl

/-! ## Release -/

@[simp] theorem free_length : (h.free a).length = h.length := by simp [free]

theorem free_getElem? (b : Nat) :
    (h.free a)[b]? =
      if a = b then h[b]?.map (fun block => { block with frees := block.frees + 1 })
      else h[b]? := by
  simp only [free, List.getElem?_modify]
  split <;> simp

theorem free_frees_of_ne (hne : a ≠ b) : (h.free a).frees b = h.frees b := by
  simp only [frees, free_getElem?, if_neg hne]

theorem free_frees_self (ha : a < h.length) : (h.free a).frees a = h.frees a + 1 := by
  unfold frees
  rw [free_getElem?, if_pos rfl, List.getElem?_eq_getElem ha]
  rfl

end Heap

end RsvpControl.Core
