import Mathlib.Algebra.GroupWithZero.Nat
import Mathlib.Data.List.Infix

/-! # Streams cut at a delimiter

A reader that cuts a stream at the occurrences of a delimiter, leftmost first. What it
has cut off does not depend on what comes later, so the stream may arrive in pieces of any
sizes. A delimiter whose first symbol does not come again in it never overlaps itself:
then the occurrences in a text that is written piece by piece with the delimiter between
are those and the ones inside the pieces.
-/

namespace RsvpControl.Core.Delimited

universe u

variable {α : Type u} {d x y s : List α}

/-- The first symbol of a delimiter does not come again. -/
def Fresh (d : List α) : Prop := ∃ a t, d = a :: t ∧ a ∉ t

theorem Fresh.ne_nil (h : Fresh d) : d ≠ [] := by
  obtain ⟨a, t, rfl, -⟩ := h
  exact List.cons_ne_nil a t

variable [DecidableEq α]

/-- Before and after the first occurrence. -/
def cut (d : List α) : List α → Option (List α × List α)
  | [] => if d <+: [] then some ([], []) else none
  | b :: s =>
      if d <+: b :: s then some ([], (b :: s).drop d.length)
      else (cut d s).map fun (before, after) => (b :: before, after)

/-- The pieces up to the last of at most so many occurrences, and what follows it. -/
def splitUpTo (d : List α) : Nat → List α → List (List α) × List α
  | 0, s => ([], s)
  | n + 1, s =>
      match cut d s with
      | none => ([], s)
      | some (before, after) =>
          let (pieces, rest) := splitUpTo d n after
          (before :: pieces, rest)

/-- Each occurrence uses up symbols, so the length bounds how many there are. -/
def split (d s : List α) : List (List α) × List α := splitUpTo d s.length s

/-- Pieces with the delimiter after each, and what is behind the last one. -/
def join (d : List α) (pieces : List (List α)) (rest : List α) : List α :=
  (pieces.map fun x => x ++ d).flatten ++ rest

/-! ## The first occurrence -/

theorem cut_eq (h : cut d s = some (x, y)) : s = x ++ (d ++ y) := by
  induction s generalizing x with
  | nil =>
      rw [cut] at h
      split at h <;> cases h
      next hnil => rw [List.prefix_nil.mp hnil]; rfl
  | cons b s ih =>
      rw [cut] at h
      split at h
      · next hfront =>
          cases h
          obtain ⟨rest, hrest⟩ := hfront
          rw [← hrest, List.drop_left]
          rfl
      · obtain ⟨⟨before, after⟩, hcut, heq⟩ := Option.map_eq_some_iff.mp h
        cases heq
        rw [ih hcut]
        rfl

theorem cut_isSome_iff : (cut d s).isSome = true ↔ d <:+: s := by
  induction s with
  | nil =>
      rw [cut]
      split
      · next hnil => simp [List.prefix_nil.mp hnil]
      · next hne => simpa using hne
  | cons b s ih =>
      rw [cut, List.infix_cons_iff]
      split
      · next hfront => simp [hfront]
      · next hfront => simp [hfront, ih]

theorem cut_eq_none_iff : cut d s = none ↔ ¬ d <:+: s := by
  rw [← cut_isSome_iff]
  simp

/-- What comes later does not change the first occurrence. -/
theorem cut_append (h : cut d s = some (x, y)) (more : List α) :
    cut d (s ++ more) = some (x, y ++ more) := by
  induction s generalizing x with
  | nil =>
      rw [cut] at h
      split at h <;> cases h
      next hnil =>
        rw [List.prefix_nil.mp hnil]
        cases more <;> simp [cut]
  | cons b s ih =>
      have hlength : d.length ≤ (b :: s).length := by
        rw [cut_eq h]
        simp only [List.length_append]
        omega
      rw [cut] at h
      split at h
      · next hfront =>
          cases h
          have hlonger : d <+: b :: (s ++ more) :=
            hfront.trans (List.prefix_append (b :: s) more)
          rw [List.cons_append, cut, if_pos hlonger, ← List.cons_append,
            List.drop_append_of_le_length hlength]
      · next hfront =>
          obtain ⟨⟨before, after⟩, hcut, heq⟩ := Option.map_eq_some_iff.mp h
          cases heq
          have hlater : ¬ d <+: b :: (s ++ more) := fun hlong =>
            hfront (List.prefix_of_prefix_length_le hlong (List.prefix_append (b :: s) more) hlength)
          rw [List.cons_append, cut, if_neg hlater, ih hcut]
          rfl

/-! ## Splitting -/

theorem cut_length (hd : d ≠ []) (h : cut d s = some (x, y)) : y.length < s.length := by
  have hpos := List.length_pos_iff.mpr hd
  rw [cut_eq h]
  simp only [List.length_append]
  omega

theorem splitUpTo_eq (hd : d ≠ []) {n m : Nat} (hn : s.length ≤ n) (hm : s.length ≤ m) :
    splitUpTo d n s = splitUpTo d m s := by
  induction n generalizing s m with
  | zero =>
      have hnil : s = [] := List.length_eq_zero_iff.mp (Nat.le_zero.mp hn)
      subst hnil
      cases m with
      | zero => rfl
      | succ m => simp [splitUpTo, cut, hd]
  | succ n ih =>
      cases m with
      | zero =>
          have hnil : s = [] := List.length_eq_zero_iff.mp (Nat.le_zero.mp hm)
          subst hnil
          simp [splitUpTo, cut, hd]
      | succ m =>
          simp only [splitUpTo]
          cases hcut : cut d s with
          | none => rfl
          | some r =>
              have hless : r.2.length < s.length := cut_length hd (x := r.1) (y := r.2) hcut
              simp only [ih (s := r.2) (m := m) (by omega) (by omega)]

theorem split_of_none (h : cut d s = none) : split d s = ([], s) := by
  unfold split
  cases s.length with
  | zero => rfl
  | succ n => simp only [splitUpTo, h]

theorem split_of_some (hd : d ≠ []) (h : cut d s = some (x, y)) :
    split d s = (x :: (split d y).1, (split d y).2) := by
  have hless := cut_length hd h
  unfold split
  cases hlength : s.length with
  | zero => omega
  | succ n =>
      rw [hlength] at hless
      simp only [splitUpTo, h, splitUpTo_eq hd (s := y) (n := n) (m := y.length) (by omega) (Nat.le_refl _)]

theorem cut_split_rest (hd : d ≠ []) (s : List α) : cut d (split d s).2 = none := by
  induction hlength : s.length using Nat.strongRecOn generalizing s with
  | ind n ih =>
      cases hcut : cut d s with
      | none => rwa [split_of_none hcut]
      | some r =>
          have hless := cut_length hd (x := r.1) (y := r.2) hcut
          rw [split_of_some hd (x := r.1) (y := r.2) hcut]
          exact ih r.2.length (hlength ▸ hless) r.2 rfl

/-- To split what has arrived, then what is left of it with what comes next. -/
theorem split_append (hd : d ≠ []) (s more : List α) :
    split d (s ++ more) =
      ((split d s).1 ++ (split d ((split d s).2 ++ more)).1, (split d ((split d s).2 ++ more)).2) := by
  induction hlength : s.length using Nat.strongRecOn generalizing s with
  | ind n ih =>
      cases hcut : cut d s with
      | none =>
          rw [split_of_none hcut]
          rfl
      | some r =>
          have hless := cut_length hd (x := r.1) (y := r.2) hcut
          rw [split_of_some hd (x := r.1) (y := r.2) hcut,
            split_of_some hd (cut_append (x := r.1) (y := r.2) hcut more),
            ih r.2.length (hlength ▸ hless) r.2 rfl]
          rfl

/-! ## Arriving in chunks -/

/-- The pieces so far and what has not been cut off yet, with one more chunk. -/
def feed (d : List α) (state : List (List α) × List α) (chunk : List α) :
    List (List α) × List α :=
  let (pieces, rest) := split d (state.2 ++ chunk)
  (state.1 ++ pieces, rest)

/-- However the stream arrives, it is split as if it had come at once. -/
theorem foldl_feed (hd : d ≠ []) (chunks : List (List α)) (start : List α) :
    chunks.foldl (feed d) (split d start) = split d (start ++ chunks.flatten) := by
  induction chunks generalizing start with
  | nil => rw [List.foldl_nil, List.flatten_nil, List.append_nil]
  | cons chunk chunks ih =>
      have hone : feed d (split d start) chunk = split d (start ++ chunk) :=
        (split_append hd start chunk).symm
      rw [List.foldl_cons, hone, ih, List.flatten_cons, List.append_assoc]

/-! ## Joined pieces -/

/-- A fresh delimiter is first found at the end of a piece that has no occurrence. -/
theorem cut_piece (hd : Fresh d) (hx : ¬ d <:+: x) (s : List α) :
    cut d (x ++ (d ++ s)) = some (x, s) := by
  obtain ⟨a, t, rfl, ha⟩ := hd
  induction x with
  | nil =>
      have hfirst : a :: t <+: a :: (t ++ s) := List.prefix_append (a :: t) s
      rw [List.nil_append, List.cons_append, cut, if_pos hfirst]
      simp
  | cons b x ih =>
      have hrest : ¬ (a :: t) <:+: x := fun hpart => hx (List.infix_cons hpart)
      have hlater : ¬ (a :: t) <+: b :: (x ++ (a :: t ++ s)) := by
        intro hfront
        rcases List.prefix_or_prefix_of_prefix hfront
          (List.prefix_append (b :: x) (a :: t ++ s)) with hinside | ⟨more, hmore⟩
        · exact hx hinside.isInfix
        · cases more with
          | nil => exact hx ⟨[], [], by rw [← hmore]; simp⟩
          | cons c more =>
              -- the first symbol behind the piece would be inside the delimiter
              have hsame : (b :: x) ++ (c :: more) <+: (b :: x) ++ (a :: t ++ s) := hmore ▸ hfront
              obtain ⟨after, hafter⟩ := (List.prefix_append_right_inj _).mp hsame
              have hc : c = a := (List.cons.inj hafter).1
              have ht : x ++ c :: more = t := (List.cons.inj hmore).2
              have hmem : c ∈ t := ht ▸ List.mem_append_right x List.mem_cons_self
              exact ha (hc ▸ hmem)
      rw [List.cons_append, cut, if_neg hlater, ih hrest]
      rfl

theorem split_piece (hd : Fresh d) (x s : List α) :
    split d (x ++ (d ++ s)) =
      ((split d x).1 ++ (split d x).2 :: (split d s).1,
        (split d s).2) := by
  have hfree := cut_eq_none_iff.mp (cut_split_rest hd.ne_nil x)
  rw [split_append hd.ne_nil, split_of_some hd.ne_nil (cut_piece hd hfree s)]

theorem split_of_free (h : ¬ d <:+: s) : split d s = ([], s) := split_of_none (cut_eq_none_iff.mpr h)

theorem split_join (hd : Fresh d) {pieces : List (List α)} {rest : List α}
    (hpieces : ∀ x ∈ pieces, ¬ d <:+: x) (hrest : ¬ d <:+: rest) :
    split d (join d pieces rest) = (pieces, rest) := by
  induction pieces with
  | nil => exact split_of_free hrest
  | cons x pieces ih =>
      have hmore := ih fun y hy => hpieces y (List.mem_cons_of_mem x hy)
      have hjoin : join d (x :: pieces) rest =
          x ++ (d ++ join d pieces rest) := by
        simp [join]
      rw [hjoin, split_piece hd, split_of_free (hpieces x List.mem_cons_self), hmore]
      rfl

/-- One piece for each delimiter between them and one for each inside them. -/
theorem split_join_length (hd : Fresh d) (pieces : List (List α))
    (rest : List α) :
    (split d (join d pieces rest)).1.length =
      pieces.length + (pieces.map fun x => (split d x).1.length).sum +
        (split d rest).1.length := by
  induction pieces with
  | nil => simp [join]
  | cons x pieces ih =>
      have hjoin : join d (x :: pieces) rest =
          x ++ (d ++ join d pieces rest) := by
        simp [join]
      rw [hjoin, split_piece hd, List.length_append, List.length_cons, ih]
      simp only [List.length_cons, List.map_cons, List.sum_cons]
      omega

theorem split_length_eq_zero (hd : d ≠ []) : (split d s).1.length = 0 ↔ ¬ d <:+: s := by
  constructor
  · intro hzero hpart
    cases hcut : cut d s with
    | none => exact cut_eq_none_iff.mp hcut hpart
    | some r =>
        rw [split_of_some hd (x := r.1) (y := r.2) hcut] at hzero
        cases hzero
  · intro hfree
    rw [split_of_free hfree]
    rfl

/-- Only pieces without the delimiter are read back as many as they were. -/
theorem split_join_length_eq_iff (hd : Fresh d) {pieces : List (List α)} {rest : List α} :
    (split d (join d pieces rest)).1.length = pieces.length ↔
      (∀ x ∈ pieces, ¬ d <:+: x) ∧ ¬ d <:+: rest := by
  constructor
  · intro hlength
    rw [split_join_length hd] at hlength
    have hsum : (pieces.map fun x => (split d x).1.length).sum = 0 := by omega
    have hrest : (split d rest).1.length = 0 := by omega
    refine ⟨fun x hx => (split_length_eq_zero hd.ne_nil).mp ?_,
      (split_length_eq_zero hd.ne_nil).mp hrest⟩
    exact List.sum_eq_zero_iff_forall_eq_nat.mp hsum _ (List.mem_map_of_mem hx)
  · intro hfree
    rw [split_join hd hfree.1 hfree.2]

end RsvpControl.Core.Delimited
