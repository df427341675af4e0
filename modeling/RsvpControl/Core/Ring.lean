import Mathlib.Data.List.Basic

/-! # Cyclic windows and the bounded FIFO they implement

A cyclic array represents a list when the slot at cyclic distance `k` from the
front holds the list's `k`-th element and nothing beyond its end. This one
equation says both what the occupied slots contain and that every other slot is
empty, so it tells a full window from an empty one although front and rear
coincide in both.
-/

namespace RsvpControl.Core

universe u

/-! ## The abstract bounded queue -/

namespace Fifo

variable {α : Type u}

def push (capacity : Nat) (xs : List α) (x : α) : Option (List α) :=
  if xs.length < capacity then some (xs ++ [x]) else none

def pop : List α → Option (α × List α)
  | [] => none
  | x :: xs => some (x, xs)

end Fifo

/-! ## Cyclic distance -/

/-- Cyclic distance from `front` to slot `i` in an array of `n` slots. -/
def offset (n front i : Nat) : Nat := (i + n - front) % n

theorem offset_of_le {n front i : Nat} (hi : i < n) (hle : front ≤ i) :
    offset n front i = i - front := by
  unfold offset
  rw [show i + n - front = (i - front) + n by omega, Nat.add_mod_right, Nat.mod_eq_of_lt (by omega)]

theorem offset_of_lt {n front i : Nat} (hf : front < n) (hlt : i < front) :
    offset n front i = i + n - front := by
  unfold offset
  rw [Nat.mod_eq_of_lt (by omega)]

theorem add_mod_of_lt {n front k : Nat} (hf : front < n) (hk : k < n) :
    (front + k) % n = if front + k < n then front + k else front + k - n := by
  split
  · next h => exact Nat.mod_eq_of_lt h
  · next h =>
      rw [Nat.mod_eq_sub_mod (by omega), Nat.mod_eq_of_lt (by omega)]

theorem offset_slot {n front k : Nat} (hf : front < n) (hk : k < n) :
    offset n front ((front + k) % n) = k := by
  rw [add_mod_of_lt hf hk]
  split
  · next h => rw [offset_of_le h (by omega)]; omega
  · next h => rw [offset_of_lt hf (by omega)]; omega

theorem offset_eq_iff {n front i k : Nat} (hf : front < n) (hi : i < n) (hk : k < n) :
    offset n front i = k ↔ i = (front + k) % n := by
  constructor
  · intro h
    subst h
    by_cases hle : front ≤ i
    · rw [offset_of_le hi hle, Nat.mod_eq_of_lt (by omega)]
      omega
    · rw [offset_of_lt hf (by omega), show front + (i + n - front) = i + n by omega,
        Nat.add_mod_right, Nat.mod_eq_of_lt hi]
  · rintro rfl
    exact offset_slot hf hk

/-- Moving the front one slot on brings every other slot one step nearer. -/
theorem offset_succ {n front i : Nat} (hf : front < n) (hi : i < n) (hne : i ≠ front) :
    offset n ((front + 1) % n) i + 1 = offset n front i := by
  by_cases hwrap : front + 1 = n
  · rw [hwrap, Nat.mod_self, offset_of_le hi (by omega), offset_of_lt hf (by omega)]
    omega
  · rw [Nat.mod_eq_of_lt (show front + 1 < n by omega)]
    by_cases hle : front ≤ i
    · rw [offset_of_le hi (by omega), offset_of_le hi hle]
      omega
    · rw [offset_of_lt (by omega) (by omega), offset_of_lt hf (by omega)]
      omega

/-! ## Windows -/

/-- The slots hold exactly `xs`, laid out cyclically from `front`. -/
def Window {α : Type u} (slots : List (Option α)) (front : Nat) (xs : List α) : Prop :=
  ∀ i, i < slots.length → slots[i]? = some xs[offset slots.length front i]?

namespace Window

variable {α : Type u} {slots : List (Option α)} {front : Nat} {xs : List α} {x : α}

theorem empty (n front : Nat) : Window (List.replicate n (none : Option α)) front [] := by
  intro i hi
  rw [List.length_replicate] at hi
  simp [hi]

theorem read (h : Window slots front xs) (hf : front < slots.length) {k : Nat}
    (hk : k < slots.length) : slots[(front + k) % slots.length]? = some xs[k]? := by
  rw [h _ (Nat.mod_lt _ (by omega)), offset_slot hf hk]

theorem push (h : Window slots front xs) (hf : front < slots.length)
    (hroom : xs.length < slots.length) :
    Window (slots.set ((front + xs.length) % slots.length) (some x)) front (xs ++ [x]) := by
  intro i hi
  rw [List.length_set] at hi ⊢
  rw [List.getElem?_set]
  by_cases hrear : (front + xs.length) % slots.length = i
  · have hoff : offset slots.length front i = xs.length :=
      (offset_eq_iff hf hi hroom).mpr hrear.symm
    simp [hrear, hi, hoff]
  · have hoff : offset slots.length front i ≠ xs.length :=
      fun heq => hrear ((offset_eq_iff hf hi hroom).mp heq).symm
    rw [if_neg hrear, h i hi]
    by_cases hlt : offset slots.length front i < xs.length
    · rw [List.getElem?_append_left hlt]
    · rw [List.getElem?_eq_none (by omega), List.getElem?_eq_none (by simp; omega)]

theorem pop (h : Window slots front (x :: xs)) (hf : front < slots.length)
    (hlen : (x :: xs).length ≤ slots.length) :
    slots[front]? = some (some x) ∧
      Window (slots.set front none) ((front + 1) % slots.length) xs := by
  have hhead : offset slots.length front front = 0 := by
    rw [offset_of_le hf (Nat.le_refl _)]
    omega
  refine ⟨by rw [h front hf, hhead]; rfl, ?_⟩
  intro i hi
  rw [List.length_set] at hi ⊢
  rw [List.getElem?_set]
  by_cases hfront : front = i
  · -- the slot just vacated is now the farthest one, beyond the shorter list
    subst hfront
    have hfar : offset slots.length ((front + 1) % slots.length) front = slots.length - 1 := by
      by_cases hwrap : front + 1 = slots.length
      · rw [hwrap, Nat.mod_self, offset_of_le hf (by omega)]
        omega
      · rw [Nat.mod_eq_of_lt (show front + 1 < slots.length by omega),
          offset_of_lt (by omega) (by omega)]
        omega
    rw [List.length_cons] at hlen
    rw [hfar, List.getElem?_eq_none (l := xs) (by omega)]
    simp [hf]
  · have hnear := offset_succ hf hi (fun heq => hfront heq.symm)
    rw [if_neg hfront, h i hi, ← hnear, List.getElem?_cons_succ]

end Window

end RsvpControl.Core
