import Mathlib.Data.List.TakeWhile
import RsvpControl.Core.Decimal

/-! # Decimal fields of a line

A line taken apart at its white space, and the fields that are whole decimal
numerals. Nothing here follows a scanner: a numeral is its sign and its digits and
nothing else. The results say what the scanner makes of a line in these terms.
-/

namespace RsvpControl.Core.Decimal

/-! ## Fields and numerals -/

/-- The runs between white space. -/
def fields (line : Bytes) : List Bytes :=
  (line.splitOnP isSpace).filter fun field => !field.isEmpty

/-- The value of a field of digits: each counts with the power of ten of its place. -/
def digitsValue : Bytes → Nat
  | [] => 0
  | b :: bs => digitValue b * 10 ^ bs.length + digitsValue bs

def unsigned (field : Bytes) : Option Nat :=
  if field ≠ [] ∧ field.all isDigit = true then some (digitsValue field) else none

/-- The value of a field that is a decimal integer with at most one sign. -/
def numeral : Bytes → Option Int
  | [] => none
  | b :: bs =>
      if b = 45 then (unsigned bs).map fun n : Nat => -(n : Int)
      else if b = 43 then (unsigned bs).map fun n : Nat => (n : Int)
      else (unsigned (b :: bs)).map fun n : Nat => (n : Int)

/-- A digit in front, or one behind a sign. -/
def leadsNumber : Bytes → Bool
  | [] => false
  | [b] => isDigit b
  | b :: c :: _ => isDigit b || ((b = 45 || b = 43) && isDigit c)

/-- The first field begins with a number. -/
def startsWithNumber (line : Bytes) : Bool :=
  match fields line with
  | [] => false
  | field :: _ => leadsNumber field

/-! ## Taking a line apart -/

/-- Nothing or white space follows. -/
def Ends (rest : Bytes) : Prop := ∀ b, rest.head? = some b → isSpace b = true

theorem Ends.stops {rest : Bytes} (h : Ends rest) : Stops rest := by
  intro b hb
  cases hdigit : isDigit b with
  | false => rfl
  | true =>
      have hspace := h b hb
      rw [isSpace_of_isDigit hdigit] at hspace
      cases hspace

@[simp] theorem fields_nil : fields [] = [] := rfl

theorem fields_space {b : UInt8} (hb : isSpace b = true) (bs : Bytes) :
    fields (b :: bs) = fields bs := by
  rw [fields, List.splitOnP_cons_eq_if_modifyHead, if_pos hb]
  rfl

theorem fields_append {word rest : Bytes} (hne : word ≠ [])
    (hword : ∀ b ∈ word, isSpace b = false) (hrest : Ends rest) :
    fields (word ++ rest) = word :: fields rest := by
  have hsolid : (!word.isEmpty) = true := by simpa using hne
  cases rest with
  | nil =>
      rw [List.append_nil, fields, List.splitOnP_eq_singleton hword, List.filter_singleton,
        hsolid]
      rfl
  | cons b bs =>
      have hb : isSpace b = true := hrest b rfl
      rw [fields_space hb, fields, List.splitOnP_append_cons _ _ hb,
        List.splitOnP_eq_singleton hword, List.filter_append, List.filter_singleton, hsolid]
      rfl

theorem skipSpace_word {word : Bytes} (hne : word ≠ [])
    (hword : ∀ b ∈ word, isSpace b = false) (rest : Bytes) :
    skipSpace (word ++ rest) = word ++ rest := by
  cases word with
  | nil => exact absurd rfl hne
  | cons b bs => simp [skipSpace, hword b List.mem_cons_self]

theorem cut_word (line : Bytes) : ∃ word rest, line = word ++ rest ∧
    (∀ b ∈ word, isSpace b = false) ∧ Ends rest := by
  refine ⟨line.takeWhile fun b => !isSpace b, line.dropWhile fun b => !isSpace b,
    List.takeWhile_append_dropWhile.symm, ?_, ?_⟩
  · intro b hb
    simpa using List.mem_takeWhile_imp hb
  · intro b hb
    have hstop := List.head?_dropWhile_not (fun b => !isSpace b) line
    rw [hb] at hstop
    simpa using hstop

/-- A line is white space, or white space in front of its first field. -/
theorem fields_cases (line : Bytes) :
    (skipSpace line = [] ∧ fields line = []) ∨
      ∃ word rest, word ≠ [] ∧ (∀ b ∈ word, isSpace b = false) ∧ Ends rest ∧
        skipSpace line = word ++ rest ∧ fields line = word :: fields rest := by
  induction line with
  | nil => exact Or.inl ⟨rfl, rfl⟩
  | cons b bs ih =>
      cases hb : isSpace b with
      | true =>
          rw [fields_space hb]
          simpa only [skipSpace, List.dropWhile_cons, hb, if_true] using ih
      | false =>
          obtain ⟨word, rest, hcut, hword, hrest⟩ := cut_word (b :: bs)
          have hne : word ≠ [] := by
            rintro rfl
            rw [List.nil_append] at hcut
            have hspace : isSpace b = true := hrest b (hcut ▸ rfl)
            rw [hb] at hspace
            cases hspace
          refine Or.inr ⟨word, rest, hne, hword, hrest, ?_, ?_⟩
          · rw [hcut, skipSpace_word hne hword]
          · rw [hcut, fields_append hne hword hrest]

/-! ## Scanning a line -/

theorem scanInt_skipSpace (line : Bytes) : scanInt line = scanInt (skipSpace line) := by
  induction line with
  | nil => rfl
  | cons b bs ih =>
      cases hb : isSpace b with
      | true => rw [scanInt_space hb, ih, skipSpace, skipSpace, List.dropWhile_cons, if_pos hb]
      | false => simp [skipSpace, hb]

theorem scanDigits_append {digits rest : Bytes} (hdigits : ∀ b ∈ digits, isDigit b = true)
    (hrest : Stops rest) (acc : Nat) :
    scanDigits acc (digits ++ rest) = (acc * 10 ^ digits.length + digitsValue digits, rest) := by
  induction digits generalizing acc with
  | nil =>
      have hstop : scanDigits acc rest = (acc, rest) := scanDigits_stops hrest
      simpa [digitsValue] using hstop
  | cons b bs ih =>
      have hb : isDigit b = true := hdigits b List.mem_cons_self
      rw [List.cons_append, scanDigits, if_pos hb,
        ih (fun c hc => hdigits c (List.mem_cons_of_mem _ hc)), digitsValue, List.length_cons,
        Nat.pow_succ]
      congr 1
      rw [Nat.add_mul, Nat.mul_assoc, Nat.mul_comm 10]
      omega

theorem scanNat_unsigned {field rest : Bytes} {n : Nat} (h : unsigned field = some n)
    (hrest : Stops rest) : scanNat (field ++ rest) = some (n, rest) := by
  unfold unsigned at h
  split at h
  · next hfield =>
      obtain ⟨hne, hall⟩ := hfield
      cases h
      have hdigits := List.all_eq_true.mp hall
      have hscan := scanDigits_append hdigits hrest 0
      cases field with
      | nil => exact absurd rfl hne
      | cons b bs =>
          rw [List.cons_append] at hscan ⊢
          rw [scanNat, if_pos (hdigits b List.mem_cons_self), hscan, Nat.zero_mul, Nat.zero_add]
  · cases h

/-- A whole numeral scans to its value, up to where it ends. -/
theorem scanInt_numeral {word rest : Bytes} {z : Int} (hz : numeral word = some z)
    (hword : ∀ b ∈ word, isSpace b = false) (hrest : Ends rest) :
    scanInt (word ++ rest) = some (z, rest) := by
  cases word with
  | nil => cases hz
  | cons b bs =>
      have hb : isSpace b = false := hword b List.mem_cons_self
      rw [numeral] at hz
      unfold scanInt
      simp only [List.cons_append, skipSpace, List.dropWhile_cons, hb, Bool.false_eq_true, if_false,
        scanSign]
      by_cases hminus : b = 45
      · rw [if_pos hminus] at hz ⊢
        obtain ⟨n, hn, rfl⟩ := Option.map_eq_some_iff.mp hz
        simp only [scanNat_unsigned hn hrest.stops, if_true]
      · rw [if_neg hminus] at hz ⊢
        by_cases hplus : b = 43
        · rw [if_pos hplus] at hz ⊢
          obtain ⟨n, hn, rfl⟩ := Option.map_eq_some_iff.mp hz
          simp only [scanNat_unsigned hn hrest.stops, Bool.false_eq_true, if_false]
        · rw [if_neg hplus] at hz ⊢
          obtain ⟨n, hn, rfl⟩ := Option.map_eq_some_iff.mp hz
          have hscan := scanNat_unsigned hn hrest.stops
          rw [List.cons_append] at hscan
          simp only [hscan, Bool.false_eq_true, if_false]

theorem scanNat_cons_isSome (b : UInt8) (bs : Bytes) : (scanNat (b :: bs)).isSome = isDigit b := by
  rw [scanNat]
  cases isDigit b <;> rfl

theorem scanNat_isSome_of_ends {rest : Bytes} (h : Ends rest) : (scanNat rest).isSome = false := by
  cases rest with
  | nil => rfl
  | cons b bs => rw [scanNat_cons_isSome, h.stops b rfl]

theorem scanInt_isSome (input : Bytes) :
    (scanInt input).isSome = (scanNat (scanSign (skipSpace input)).2).isSome := by
  unfold scanInt
  cases hscan : scanNat (scanSign (skipSpace input)).2 with
  | none => simp [hscan]
  | some r => simp [hscan]

/-- The scanner finds an integer exactly in front of a first field that begins
with one. -/
theorem scanInt_isSome_iff (line : Bytes) : (scanInt line).isSome = startsWithNumber line := by
  rw [scanInt_isSome]
  rcases fields_cases line with ⟨hskip, hfields⟩ | ⟨word, rest, hne, hword, hrest, hskip, hfields⟩
  · rw [startsWithNumber, hskip, hfields]
    rfl
  · rw [startsWithNumber, hskip, hfields]
    cases word with
    | nil => exact absurd rfl hne
    | cons b bs =>
        have hsign : b = 45 ∨ b = 43 → isDigit b = false := by
          rintro (rfl | rfl)
          all_goals rfl
        by_cases hb : b = 45 ∨ b = 43
        · have hscanned : (scanSign (b :: bs ++ rest)).2 = bs ++ rest := by
            rcases hb with rfl | rfl
            all_goals rfl
          rw [hscanned]
          cases bs with
          | nil => simpa [leadsNumber, hsign hb] using scanNat_isSome_of_ends hrest
          | cons c cs =>
              rw [List.cons_append, scanNat_cons_isSome]
              simp [leadsNumber, hsign hb, hb]
        · obtain ⟨hminus, hplus⟩ := not_or.mp hb
          rw [List.cons_append, scanSign, if_neg hminus, if_neg hplus, scanNat_cons_isSome]
          cases bs with
          | nil => rfl
          | cons c cs => simp [leadsNumber, hminus, hplus]

theorem scanInt_field {line field : Bytes} {more : List Bytes} {z : Int}
    (hfields : fields line = field :: more) (hz : numeral field = some z) :
    ∃ rest, scanInt line = some (z, rest) ∧ fields rest = more := by
  rcases fields_cases line with ⟨-, hnone⟩ | ⟨word, rest, -, hword, hrest, hskip, hcut⟩
  · rw [hnone] at hfields
    cases hfields
  · rw [hcut] at hfields
    obtain ⟨rfl, rfl⟩ := List.cons.inj hfields
    refine ⟨rest, ?_, rfl⟩
    rw [scanInt_skipSpace, hskip, scanInt_numeral hz hword hrest]

theorem scanInt_of_fields_nil {line : Bytes} (h : fields line = []) : scanInt line = none := by
  have hsome := scanInt_isSome_iff line
  rw [startsWithNumber, h] at hsome
  exact Option.not_isSome_iff_eq_none.mp (by simp [hsome])

/-! ## What the scanner leaves -/

theorem scanSign_suffix (input : Bytes) : (scanSign input).2 <:+ input := by
  cases input with
  | nil => exact List.suffix_rfl
  | cons b bs =>
      rw [scanSign]
      repeat' split
      all_goals first
        | exact List.suffix_cons b bs
        | exact List.suffix_rfl

theorem scanDigits_suffix (acc : Nat) (input : Bytes) : (scanDigits acc input).2 <:+ input := by
  induction input generalizing acc with
  | nil => exact List.suffix_rfl
  | cons b bs ih =>
      rw [scanDigits]
      split
      · exact (ih _).trans (List.suffix_cons b bs)
      · exact List.suffix_rfl

/-- An integer takes at least one byte from the front of the input. -/
theorem scanInt_suffix {input rest : Bytes} {z : Int} (h : scanInt input = some (z, rest)) :
    rest <:+ input ∧ rest.length < input.length := by
  have hfront : (scanSign (skipSpace input)).2 <:+ input :=
    (scanSign_suffix _).trans (List.dropWhile_suffix Decimal.isSpace)
  unfold scanInt at h
  cases hcut : (scanSign (skipSpace input)).2 with
  | nil => simp [hcut, scanNat] at h
  | cons b bs =>
      cases hb : isDigit b with
      | false => simp [hcut, scanNat, hb] at h
      | true =>
          simp only [hcut, scanNat, hb, if_true, Option.some.injEq, Prod.mk.injEq] at h
          obtain ⟨-, rfl⟩ := h
          rw [hcut] at hfront
          have hdigits : (scanDigits 0 (b :: bs)).2 <:+ bs := by
            rw [scanDigits, if_pos hb]
            exact scanDigits_suffix _ bs
          have hlength := hdigits.length_le
          have hwhole := hfront.length_le
          rw [List.length_cons] at hwhole
          exact ⟨(hdigits.trans (List.suffix_cons b bs)).trans hfront, by omega⟩

end RsvpControl.Core.Decimal
