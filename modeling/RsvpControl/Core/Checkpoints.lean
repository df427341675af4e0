import Mathlib.Algebra.Ring.Int.Defs
import Mathlib.Data.List.Basic

/-! # Scripts with checkpoints

A script is a fixed sequence of actions with checkpoints in between. Whoever
follows it looks at each checkpoint whether to stop, and stops with some closing
actions. A schedule gives the answer at every checkpoint, counted from the start.
-/

namespace RsvpControl.Core

universe u

inductive Point (ε : Type u) where
  /-- A checkpoint, and what was seen there. -/
  | check (stop : Bool)
  | act (e : ε)
deriving DecidableEq, Repr

namespace Point

variable {ε : Type u}

def act? : Point ε → Option ε
  | .check _ => none
  | .act e => some e

def isCheck : Point ε → Bool
  | .check _ => true
  | .act _ => false

def acts (points : List (Point ε)) : List ε := points.filterMap act?

def checks (points : List (Point ε)) : Nat := points.countP isCheck

@[simp] theorem acts_nil : acts ([] : List (Point ε)) = [] := rfl

@[simp] theorem acts_check (stop : Bool) (rest : List (Point ε)) :
    acts (.check stop :: rest) = acts rest := rfl

@[simp] theorem acts_act (e : ε) (rest : List (Point ε)) :
    acts (.act e :: rest) = e :: acts rest := rfl

@[simp] theorem acts_append (s t : List (Point ε)) : acts (s ++ t) = acts s ++ acts t :=
  List.filterMap_append

@[simp] theorem acts_map_act (es : List ε) : acts (es.map .act) = es := by
  induction es with
  | nil => rfl
  | cons e es ih => rw [List.map_cons, acts_act, ih]

@[simp] theorem checks_nil : checks ([] : List (Point ε)) = 0 := rfl

@[simp] theorem checks_check (stop : Bool) (rest : List (Point ε)) :
    checks (.check stop :: rest) = checks rest + 1 := List.countP_cons_of_pos rfl

@[simp] theorem checks_act (e : ε) (rest : List (Point ε)) :
    checks (.act e :: rest) = checks rest := List.countP_cons_of_neg (by simp [isCheck])

/-- The points in front of checkpoint number `k`. -/
def before : Nat → List (Point ε) → List (Point ε)
  | _, [] => []
  | k, .act e :: rest => .act e :: before k rest
  | 0, .check _ :: _ => []
  | k + 1, .check stop :: rest => .check stop :: before k rest

/-! ## Following a script -/

/-- The points passed from checkpoint number `k` on, and whether one of them
stopped. -/
def follow (closing : List ε) (stops : Nat → Bool) : Nat → List (Point ε) → List (Point ε) × Bool
  | _, [] => ([], false)
  | k, .act e :: rest =>
      let (trace, stopped) := follow closing stops k rest
      (.act e :: trace, stopped)
  | k, .check _ :: rest =>
      if stops k then (.check true :: closing.map .act, true)
      else
        let (trace, stopped) := follow closing stops (k + 1) rest
        (.check false :: trace, stopped)

variable {closing : List ε} {stops : Nat → Bool}

/-- A script with no stop written into it is what is passed when nothing stops. -/
theorem follow_self {script : List (Point ε)} (h : ∀ stop, Point.check stop ∈ script → stop = false)
    (k : Nat) : follow closing (fun _ => false) k script = (script, false) := by
  induction script generalizing k with
  | nil => rfl
  | cons point rest ih =>
      have hrest := ih fun stop hmem => h stop (List.mem_cons_of_mem _ hmem)
      cases point with
      | act e => simp [follow, hrest]
      | check stop => simp [follow, hrest, h stop List.mem_cons_self]

/-- Without a stop the script is followed to its end. -/
theorem follow_unstopped {script : List (Point ε)} {k : Nat}
    (h : ∀ j, j < checks script → stops (k + j) = false) :
    acts (follow closing stops k script).1 = acts script ∧
      (follow closing stops k script).2 = false := by
  induction script generalizing k with
  | nil => exact ⟨rfl, rfl⟩
  | cons point rest ih =>
      cases point with
      | act e =>
          obtain ⟨hacts, hend⟩ := ih (k := k) (by simpa using h)
          simp [follow, hacts, hend]
      | check stop =>
          rw [checks_check] at h
          have hhere : stops k = false := h 0 (Nat.succ_pos _)
          obtain ⟨hacts, hend⟩ := ih (k := k + 1) (by
            intro j hj
            have hnext := h (j + 1) (Nat.succ_lt_succ hj)
            rwa [Nat.add_assoc, Nat.add_comm 1])
          simp [follow, hhere, hacts, hend]

/-- At the first checkpoint that stops, the script is cut and closed. -/
theorem follow_stopped {script : List (Point ε)} {k n : Nat} (hn : n < checks script)
    (hstop : stops (k + n) = true) (hfirst : ∀ j, j < n → stops (k + j) = false) :
    acts (follow closing stops k script).1 = acts (before n script) ++ closing ∧
      (follow closing stops k script).2 = true := by
  induction script generalizing k n with
  | nil => exact absurd hn (Nat.not_lt_zero n)
  | cons point rest ih =>
      cases point with
      | act e =>
          rw [checks_act] at hn
          obtain ⟨hacts, hend⟩ := ih hn hstop hfirst
          simp [follow, before, hacts, hend]
      | check stop =>
          cases n with
          | zero =>
              rw [Nat.add_zero] at hstop
              simp [follow, before, hstop]
          | succ n =>
              rw [checks_check] at hn
              have hhere : stops k = false := hfirst 0 (Nat.succ_pos n)
              obtain ⟨hacts, hend⟩ := ih (k := k + 1) (Nat.lt_of_succ_lt_succ hn)
                (by rwa [Nat.add_assoc, Nat.add_comm 1]) (by
                  intro j hj
                  have hnext := hfirst (j + 1) (Nat.succ_lt_succ hj)
                  rwa [Nat.add_assoc, Nat.add_comm 1])
              simp [follow, before, hhere, hacts, hend]

theorem follow_closed (body : List (Point ε)) (k : Nat) :
    ∃ done, acts (follow closing stops k (body ++ closing.map .act)).1 = done ++ closing := by
  induction body generalizing k with
  | nil =>
      refine ⟨[], ?_⟩
      have hnone : checks (closing.map Point.act) = 0 := by
        induction closing with
        | nil => rfl
        | cons e es ih => rw [List.map_cons, checks_act, ih]
      have hall : acts (follow closing stops k (closing.map .act)).1 = acts (closing.map .act) :=
        (follow_unstopped (by simp [hnone])).1
      rw [List.nil_append, hall, acts_map_act, List.nil_append]
  | cons point rest ih =>
      cases point with
      | act e =>
          obtain ⟨done, hdone⟩ := ih k
          exact ⟨e :: done, by simp [follow, hdone]⟩
      | check stop =>
          obtain ⟨done, hdone⟩ := ih (k + 1)
          cases hstop : stops k with
          | true => exact ⟨[], by simp [follow, hstop]⟩
          | false => exact ⟨done, by simp [follow, hstop, hdone]⟩

/-! ## The distance between checkpoints -/

/-- From `used` on, the cost between two checkpoints stays within the limit. -/
def Spaced (cost : ε → Int) (limit : Int) : Int → List (Point ε) → Prop
  | _, [] => True
  | used, .act e :: rest => Spaced cost limit (used + cost e) rest
  | used, .check _ :: rest => used ≤ limit ∧ Spaced cost limit 0 rest

variable {cost : ε → Int} {limit : Int}

theorem spaced_acts (used : Int) (es : List ε) : Spaced cost limit used (es.map .act) := by
  induction es generalizing used with
  | nil => trivial
  | cons e es ih => exact ih (used + cost e)

theorem Spaced.follow {script : List (Point ε)} {used : Int} (h : Spaced cost limit used script)
    (k : Nat) : Spaced cost limit used (Point.follow closing stops k script).1 := by
  induction script generalizing used k with
  | nil => trivial
  | cons point rest ih =>
      cases point with
      | act e =>
          have hrest : Spaced cost limit (used + cost e) rest := h
          exact ih hrest k
      | check stop =>
          obtain ⟨hused, hrest⟩ := h
          cases hstop : stops k with
          | true =>
              simp only [Point.follow, hstop, if_true]
              exact ⟨hused, spaced_acts 0 closing⟩
          | false =>
              simp only [Point.follow, hstop, Bool.false_eq_true, if_false]
              exact ⟨hused, ih hrest (k + 1)⟩

theorem Spaced.drop {first rest : List (Point ε)} {used : Int}
    (h : Spaced cost limit used (first ++ rest)) : ∃ used', Spaced cost limit used' rest := by
  induction first generalizing used with
  | nil => exact ⟨used, h⟩
  | cons point first ih =>
      cases point with
      | act e => exact ih h
      | check stop => exact ih h.2

theorem Spaced.upToCheck {mid rest : List (Point ε)} {used : Int} {stop : Bool}
    (h : Spaced cost limit used (mid ++ .check stop :: rest))
    (hmid : ∀ s, Point.check s ∉ mid) : used + ((acts mid).map cost).sum ≤ limit := by
  induction mid generalizing used with
  | nil => simpa using h.1
  | cons point mid ih =>
      cases point with
      | act e =>
          have htail : Spaced cost limit (used + cost e) (mid ++ .check stop :: rest) := h
          have hbound := ih htail fun s hs => hmid s (List.mem_cons_of_mem _ hs)
          rw [acts_act, List.map_cons, List.sum_cons]
          omega
      | check s => exact absurd List.mem_cons_self (hmid s)

/-- What two consecutive checkpoints have between them is within the limit. -/
theorem Spaced.between {first mid rest : List (Point ε)} {used : Int} {stop stop' : Bool}
    (h : Spaced cost limit used (first ++ .check stop :: (mid ++ .check stop' :: rest)))
    (hmid : ∀ s, Point.check s ∉ mid) : ((acts mid).map cost).sum ≤ limit := by
  obtain ⟨used', htail⟩ := h.drop
  have hbound := Spaced.upToCheck htail.2 hmid
  rwa [Int.zero_add] at hbound

end Point

end RsvpControl.Core
