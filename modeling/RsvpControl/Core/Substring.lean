import Mathlib.Data.List.Chain
import RsvpControl.Core.Bytes

/-! # Substring search

That a text does not occur is shown by a pair of neighbouring bytes it has and the
searched string has not: this is kept by concatenation, by cuts and by the
insertion of bytes that are not in the pair.
-/

namespace RsvpControl.Core

/-- `p` is nowhere directly followed by `q`. -/
def NoPair (p q : UInt8) (s : Bytes) : Prop := s.IsChain fun x y => ¬ (x = p ∧ y = q)

instance (p q : UInt8) (s : Bytes) : Decidable (NoPair p q s) :=
  inferInstanceAs (Decidable (s.IsChain fun x y => ¬ (x = p ∧ y = q)))

namespace NoPair

variable {p q : UInt8} {s t : Bytes}

theorem of_part (h : NoPair p q s) (hpart : t <:+: s) : NoPair p q t := by
  obtain ⟨before, after, rfl⟩ := hpart
  exact (List.IsChain.left_of_append h).right_of_append

/-- At the seam either the pair's first byte is missing or its second. -/
theorem append (hs : NoPair p q s) (ht : NoPair p q t)
    (hseam : s.getLast? ≠ some p ∨ t.head? ≠ some q) : NoPair p q (s ++ t) := by
  refine List.IsChain.append hs ht ?_
  rintro x hx y hy ⟨rfl, rfl⟩
  rcases hseam with hlast | hhead
  · exact hlast hx
  · exact hhead hy

theorem of_not_mem (h : q ∉ s) : NoPair p q s := by
  induction s with
  | nil => exact List.isChain_nil
  | cons b bs ih =>
      rw [List.mem_cons, not_or] at h
      refine List.IsChain.cons (ih h.2) ?_
      rintro y hy ⟨-, rfl⟩
      exact h.2 (List.mem_of_mem_head? hy)

/-- A stretch without either byte of the pair may stand anywhere. -/
theorem append_foreign {u : Bytes} (hs : NoPair p q s) (ht : NoPair p q t) (hp : p ∉ u)
    (hq : q ∉ u) (hne : u ≠ []) : NoPair p q (s ++ u ++ t) := by
  have hhead : u.head? ≠ some q := fun h => hq (List.mem_of_mem_head? h)
  have hlast : (s ++ u).getLast? ≠ some p := by
    rw [List.getLast?_append_of_ne_nil _ hne]
    exact fun h => hp (List.mem_of_mem_getLast? h)
  exact (hs.append (of_not_mem hq) (Or.inr hhead)).append ht (Or.inl hlast)

end NoPair

theorem part_of_strstr {haystack needle : Bytes} (h : strstr haystack needle = true) :
    needle <:+: haystack := by
  induction haystack with
  | nil =>
      rw [strstr, List.isEmpty_iff] at h
      rw [h]
  | cons b rest ih =>
      rw [strstr, Bool.or_eq_true] at h
      rcases h with h | h
      · exact (List.isPrefixOf_iff_prefix.mp h).isInfix
      · exact (ih h).trans (List.suffix_cons b rest).isInfix

theorem strstr_of_part {haystack needle : Bytes} (h : needle <:+: haystack) :
    strstr haystack needle = true := by
  induction haystack with
  | nil =>
      rw [List.infix_nil] at h
      rw [h]
      rfl
  | cons b rest ih =>
      rw [strstr, Bool.or_eq_true]
      rcases List.infix_cons_iff.mp h with h | h
      · exact Or.inl (List.isPrefixOf_iff_prefix.mpr h)
      · exact Or.inr (ih h)

theorem part_append {needle s t : Bytes} (h : needle <:+: s ++ t) :
    needle <:+: s ∨ needle <:+: t ∨ ∃ b ∈ needle.tail, t.head? = some b := by
  induction s with
  | nil => exact Or.inr (Or.inl h)
  | cons b rest ih =>
      rcases List.infix_cons_iff.mp h with hprefix | hrest
      · rcases List.prefix_or_prefix_of_prefix hprefix (List.prefix_append (b :: rest) t) with
          hleft | ⟨more, hmore⟩
        · exact Or.inl hleft.isInfix
        · cases more with
          | nil => exact Or.inl (by rw [← hmore, List.append_nil])
          | cons c more =>
              refine Or.inr (Or.inr ⟨c, ?_, ?_⟩)
              · rw [← hmore]
                simp
              · have hneedle : (b :: rest) ++ (c :: more) <+: (b :: rest) ++ t := by
                  rw [hmore]
                  exact hprefix
                obtain ⟨after, hafter⟩ := (List.prefix_append_right_inj _).mp hneedle
                rw [← hafter]
                rfl
      · rcases ih hrest with hpart | hcase
        · exact Or.inl (hpart.trans (List.suffix_cons b rest).isInfix)
        · exact Or.inr hcase

/-- A string without the pair does not contain a text with it. -/
theorem strstr_eq_false {p q : UInt8} {haystack needle : Bytes} (h : NoPair p q haystack)
    (hneedle : ¬ NoPair p q needle) : strstr haystack needle = false := by
  cases hfound : strstr haystack needle with
  | false => rfl
  | true => exact absurd (h.of_part (part_of_strstr hfound)) hneedle

/-! ## Cuts -/

section Cuts

variable {word s lead rest : Bytes} {n : Nat}

/-- A cut of `s` at `n` is strictly inside an occurrence of `word`. -/
def CutInside (word s : Bytes) (n : Nat) : Prop :=
  ∃ i, i < word.length ∧ 0 < i ∧ word.take i <:+ s.take n ∧ word.drop i <+: s.drop n

instance (word s : Bytes) (n : Nat) : Decidable (CutInside word s n) :=
  inferInstanceAs (Decidable (∃ i, i < word.length ∧ _))

theorem CutInside.occurrence (h : CutInside word s n) :
    ∃ before after i, s = before ++ word ++ after ∧ 0 < i ∧ i < word.length ∧
      n = before.length + i := by
  obtain ⟨i, hi, hpos, ⟨before, hbefore⟩, ⟨after, hafter⟩⟩ := h
  refine ⟨before, after, i, ?_, hpos, hi, ?_⟩
  · calc s = s.take n ++ s.drop n := (List.take_append_drop n s).symm
      _ = (before ++ word.take i) ++ (word.drop i ++ after) := by rw [hbefore, hafter]
      _ = before ++ (word.take i ++ word.drop i) ++ after := by simp only [List.append_assoc]
      _ = before ++ word ++ after := by rw [List.take_append_drop]
  · have htaken := congrArg List.length hbefore
    have hleft := congrArg List.length hafter
    simp only [List.length_append, List.length_take, List.length_drop] at htaken hleft
    omega

theorem CutInside.part (h : CutInside word s n) : word <:+: s := by
  obtain ⟨before, after, -, hs, -⟩ := h.occurrence
  exact ⟨before, after, hs.symm⟩

theorem cutInside_of_between (hlow : lead.length < n) (hhigh : n < lead.length + word.length) :
    CutInside word (lead ++ (word ++ rest)) n := by
  obtain ⟨i, rfl⟩ := Nat.exists_eq_add_of_lt hlow
  have hi : i + 1 ≤ word.length := by omega
  refine ⟨i + 1, by omega, Nat.succ_pos i, ?_, ?_⟩
  · rw [Nat.add_assoc, List.take_length_add_append, List.take_append_of_le_length hi]
    exact List.suffix_append _ _
  · rw [Nat.add_assoc, List.drop_length_add_append, List.drop_append_of_le_length hi]
    exact List.prefix_append _ _

/-- An occurrence that starts earlier than a given one, but not whole before it,
has the first byte again behind its own first. -/
theorem not_overlapping {x after : Bytes} (hx : x ≠ []) (hshort : ¬ word <:+: x)
    (hhead : ∀ b ∈ word.tail, word.head? ≠ some b) : word ++ after ≠ x ++ (word ++ rest) := by
  intro heq
  rcases List.append_eq_append_iff.mp heq with ⟨y, hxy, -⟩ | ⟨y, hword, hy⟩
  · exact hshort (hxy ▸ (List.prefix_append word y).isInfix)
  · cases x with
    | nil => exact hx rfl
    | cons c x =>
        cases y with
        | nil =>
            rw [List.append_nil] at hword
            exact hshort (hword ▸ List.infix_rfl)
        | cons b y =>
            refine hhead b ?_ ?_
            · rw [hword]
              simp
            · rw [hword] at hy ⊢
              simpa using congrArg List.head? hy

/-- The only occurrence is the given one. -/
theorem CutInside.between (h : CutInside word (lead ++ (word ++ rest)) n)
    (hlead : ¬ word <:+: lead) (hrest : ¬ word <:+: (word ++ rest).tail)
    (hhead : ∀ b ∈ word.tail, word.head? ≠ some b) :
    lead.length < n ∧ n < lead.length + word.length := by
  obtain ⟨before, after, i, hs, hpos, hi, rfl⟩ := h.occurrence
  rw [List.append_assoc] at hs
  have hsame : before.length = lead.length := by
    rcases List.append_eq_append_iff.mp hs with ⟨x, hbefore, hx⟩ | ⟨x, hx, hafter⟩
    · cases x with
      | nil => rw [hbefore, List.append_nil]
      | cons c x =>
          rw [hx] at hrest
          exact absurd ⟨x, after, by simp⟩ hrest
    · cases x with
      | nil => rw [hx, List.append_nil]
      | cons c x =>
          refine absurd hafter (not_overlapping (by simp) ?_ hhead)
          exact fun hin => hlead (hx ▸ hin.trans (List.suffix_append before _).isInfix)
  omega

end Cuts

end RsvpControl.Core
