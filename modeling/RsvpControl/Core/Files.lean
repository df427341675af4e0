import Mathlib.Data.List.Basic

/-! # A name and the files it has stood for

Processes that open one name hold on to the file it stood for then: opening for
writing empties the file in place or creates one, and an unlinked file can still be
read and written by those who have it open.
-/

namespace RsvpControl.Core

universe u

structure Files (α : Type u) where
  inodes : List (List α)
  name : Option Nat
  linked : ∀ inode, name = some inode → inode < inodes.length
deriving DecidableEq, Repr

namespace Files

variable {α : Type u} {f : Files α}

/-- Holding what an earlier program has left under the name, if anything. -/
def leaving : Option (List α) → Files α
  | none => ⟨[], none, fun _ h => nomatch h⟩
  | some content => ⟨[content], some 0, fun _ h => by cases h; exact Nat.zero_lt_one⟩

def read (f : Files α) (inode : Nat) : List α := f.inodes[inode]?.getD []

def content (f : Files α) : Option (List α) := f.name.map f.read

/-- `fopen` with mode `w`. -/
def openWrite (f : Files α) : Files α × Nat :=
  match h : f.name with
  | some inode =>
      (⟨f.inodes.set inode [], some inode, fun i hi => by
        cases hi
        rw [List.length_set]
        exact f.linked inode h⟩, inode)
  | none =>
      (⟨f.inodes ++ [[]], some f.inodes.length, fun i hi => by
        cases hi
        rw [List.length_append]
        exact Nat.lt_succ_self _⟩, f.inodes.length)

/-- At offset 0, over what is there. -/
def write (f : Files α) (inode : Nat) (text : List α) : Files α :=
  ⟨f.inodes.modify inode fun old => text ++ old.drop text.length, f.name, fun i hi => by
    rw [List.length_modify]
    exact f.linked i hi⟩

def unlink (f : Files α) : Files α := ⟨f.inodes, none, fun _ h => nomatch h⟩

theorem openWrite_name (f : Files α) : f.openWrite.1.name = some f.openWrite.2 := by
  unfold openWrite
  split <;> rfl

theorem openWrite_read (f : Files α) : f.openWrite.1.read f.openWrite.2 = [] := by
  unfold openWrite
  split
  · next inode h => simp [read, f.linked inode h]
  · simp [read]

@[simp] theorem write_name (inode : Nat) (text : List α) :
    (f.write inode text).name = f.name := rfl

theorem write_read {inode : Nat} (h : f.name = some inode) (text : List α) :
    (f.write inode text).read inode = text ++ (f.read inode).drop text.length := by
  simp [read, write, f.linked inode h]

@[simp] theorem unlink_name (f : Files α) : f.unlink.name = none := rfl

end Files

end RsvpControl.Core
