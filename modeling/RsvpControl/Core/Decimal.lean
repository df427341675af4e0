import Mathlib.Algebra.Group.Nat.Defs
import Mathlib.Data.List.Basic
import RsvpControl.Core.Bytes

/-! # Decimal integers on byte strings

The printer writes the shortest decimal form. The scanner skips white space,
takes one optional sign and the longest run of digits, and returns the exact
integer with the bytes it left unread; narrowing to a machine type is up to its
callers. Scanning a printed integer gives it back, whatever follows it.
-/

namespace RsvpControl.Core.Decimal

def digitByte (d : Nat) : UInt8 := UInt8.ofNat (48 + d)

def isDigit (b : UInt8) : Bool := 48 ≤ b.toNat && b.toNat ≤ 57

def digitValue (b : UInt8) : Nat := b.toNat - 48

/-- The white space of `isspace`. -/
def isSpace (b : UInt8) : Bool := b.toNat = 32 || (9 ≤ b.toNat && b.toNat ≤ 13)

/-! ## Printing -/

def printAux : Nat → Nat → Bytes → Bytes
  | 0, _, acc => acc
  | fuel + 1, n, acc =>
      if n < 10 then digitByte n :: acc
      else printAux fuel (n / 10) (digitByte (n % 10) :: acc)

def printNat (n : Nat) : Bytes := printAux (n + 1) n []

def printInt (z : Int) : Bytes :=
  if z < 0 then 45 :: printNat z.natAbs else printNat z.natAbs

/-! ## Scanning -/

def scanDigits : Nat → Bytes → Nat × Bytes
  | acc, [] => (acc, [])
  | acc, b :: bs =>
      if isDigit b then scanDigits (acc * 10 + digitValue b) bs else (acc, b :: bs)

def skipSpace (input : Bytes) : Bytes := input.dropWhile isSpace

/-- One optional sign: whether it is a minus, and the rest. -/
def scanSign : Bytes → Bool × Bytes
  | [] => (false, [])
  | b :: bs => if b = 45 then (true, bs) else if b = 43 then (false, bs) else (false, b :: bs)

/-- An unsigned run of digits, `none` when there is no digit. -/
def scanNat : Bytes → Option (Nat × Bytes)
  | [] => none
  | b :: bs => if isDigit b then some (scanDigits 0 (b :: bs)) else none

def scanInt (input : Bytes) : Option (Int × Bytes) :=
  let (negative, rest) := scanSign (skipSpace input)
  match scanNat rest with
  | none => none
  | some (n, rest') => some (if negative then -(n : Int) else n, rest')

/-! ## Digits -/

theorem digitByte_toNat {d : Nat} (hd : d < 10) : (digitByte d).toNat = 48 + d := by
  simp only [digitByte, UInt8.toNat_ofNat']
  omega

theorem isDigit_digitByte {d : Nat} (hd : d < 10) : isDigit (digitByte d) = true := by
  simp only [isDigit, digitByte_toNat hd, Bool.and_eq_true, decide_eq_true_eq]
  omega

theorem digitValue_digitByte {d : Nat} (hd : d < 10) : digitValue (digitByte d) = d := by
  simp only [digitValue, digitByte_toNat hd]
  omega

theorem isSpace_of_isDigit {b : UInt8} (hb : isDigit b = true) : isSpace b = false := by
  simp only [isDigit, Bool.and_eq_true, decide_eq_true_eq] at hb
  simp only [isSpace, Bool.or_eq_false_iff, Bool.and_eq_false_iff, decide_eq_false_iff_not]
  omega

theorem ne_sign_of_isDigit {b : UInt8} (hb : isDigit b = true) : b ≠ 45 ∧ b ≠ 43 := by
  constructor
  · rintro rfl
    exact absurd hb (by decide)
  · rintro rfl
    exact absurd hb (by decide)

theorem printAux_append (fuel n : Nat) (acc : Bytes) :
    printAux fuel n acc = printAux fuel n [] ++ acc := by
  induction fuel generalizing n acc with
  | zero => rfl
  | succ fuel ih =>
      simp only [printAux]
      split
      · rfl
      · rw [ih, ih (n / 10) [digitByte (n % 10)], List.append_assoc]
        rfl

theorem isDigit_of_mem_printAux {fuel n : Nat} {b : UInt8} (hb : b ∈ printAux fuel n []) :
    isDigit b = true := by
  induction fuel generalizing n with
  | zero => simp [printAux] at hb
  | succ fuel ih =>
      simp only [printAux] at hb
      split at hb
      · next hlt =>
          rw [List.mem_singleton] at hb
          rw [hb]
          exact isDigit_digitByte hlt
      · rw [printAux_append] at hb
        rcases List.mem_append.mp hb with hb | hb
        · exact ih hb
        · rw [List.mem_singleton] at hb
          rw [hb]
          exact isDigit_digitByte (Nat.mod_lt _ (by decide))

theorem printAux_ne_nil (fuel n : Nat) (acc : Bytes) : printAux (fuel + 1) n acc ≠ [] := by
  induction fuel generalizing n acc with
  | zero =>
      simp only [printAux]
      split <;> simp
  | succ fuel ih =>
      rw [printAux]
      split
      · simp
      · exact ih _ _

theorem printNat_ne_nil (n : Nat) : printNat n ≠ [] := printAux_ne_nil n n []

theorem isDigit_of_mem_printInt {z : Int} {b : UInt8} (hb : b ∈ printInt z) :
    isDigit b = true ∨ b = 45 := by
  unfold printInt at hb
  split at hb
  · rcases List.mem_cons.mp hb with rfl | hb
    · exact Or.inr rfl
    · exact Or.inl (isDigit_of_mem_printAux hb)
  · exact Or.inl (isDigit_of_mem_printAux hb)

theorem printInt_ne_nil (z : Int) : printInt z ≠ [] := by
  unfold printInt
  split
  · simp
  · exact printNat_ne_nil _

theorem printAux_length_le {fuel n k : Nat} (hn : n < 10 ^ k) (hk : 1 ≤ k) :
    (printAux fuel n []).length ≤ k := by
  induction fuel generalizing n k with
  | zero => exact Nat.zero_le k
  | succ fuel ih =>
      simp only [printAux]
      split
      · simpa using hk
      · next hge =>
          cases k with
          | zero => omega
          | succ k =>
              have hquot : n / 10 < 10 ^ k := by
                rw [Nat.div_lt_iff_lt_mul (by decide)]
                rw [Nat.pow_succ] at hn
                exact hn
              have hk' : 1 ≤ k := by
                cases k with
                | zero => simp at hn; omega
                | succ k => omega
              rw [printAux_append, List.length_append, List.length_singleton]
              have hrec := ih hquot hk'
              omega

theorem printInt_length_le {z : Int} {k : Nat} (hz : z.natAbs < 10 ^ k) (hk : 1 ≤ k) :
    (printInt z).length ≤ k + 1 := by
  have hnat : (printNat z.natAbs).length ≤ k := printAux_length_le hz hk
  unfold printInt
  split
  · rw [List.length_cons]
    omega
  · omega

/-! ## Scanning what was printed -/

/-- Reading the digits of `n` onto `acc` shifts `acc` by their number. -/
theorem scanDigits_printAux {fuel n : Nat} (hfuel : n < fuel) (acc : Nat) (rest : Bytes) :
    scanDigits acc (printAux fuel n [] ++ rest) =
      scanDigits (acc * 10 ^ (printAux fuel n []).length + n) rest := by
  induction fuel generalizing n acc rest with
  | zero => omega
  | succ fuel ih =>
      simp only [printAux]
      split
      · next hlt =>
          simp [scanDigits, isDigit_digitByte hlt, digitValue_digitByte hlt]
      · next hge =>
          have hmod : n % 10 < 10 := Nat.mod_lt _ (by decide)
          rw [printAux_append, List.append_assoc, ih (by omega)]
          simp only [List.singleton_append, scanDigits, isDigit_digitByte hmod, if_true,
            digitValue_digitByte hmod, List.length_append, List.length_singleton, Nat.pow_succ]
          congr 1
          rw [Nat.add_mul, Nat.mul_assoc]
          omega

/-- No digit follows. -/
def Stops (rest : Bytes) : Prop := ∀ b, rest.head? = some b → isDigit b = false

theorem scanDigits_stops {acc : Nat} {rest : Bytes} (h : Stops rest) :
    scanDigits acc rest = (acc, rest) := by
  cases rest with
  | nil => rfl
  | cons b bs => simp [scanDigits, h b rfl]

theorem scanNat_printNat (n : Nat) {rest : Bytes} (h : Stops rest) :
    scanNat (printNat n ++ rest) = some (n, rest) := by
  have hscan := scanDigits_printAux (Nat.lt_succ_self n) 0 rest
  rw [Nat.zero_mul, Nat.zero_add, scanDigits_stops h] at hscan
  unfold printNat
  cases hp : printAux (n + 1) n [] with
  | nil => exact absurd hp (printAux_ne_nil n n [])
  | cons b bs =>
      have hb : isDigit b = true := isDigit_of_mem_printAux (hp ▸ List.mem_cons_self)
      rw [hp, List.cons_append] at hscan
      rw [List.cons_append, scanNat, if_pos hb, hscan]

theorem skipSpace_printNat (n : Nat) (rest : Bytes) :
    skipSpace (printNat n ++ rest) = printNat n ++ rest ∧
      scanSign (printNat n ++ rest) = (false, printNat n ++ rest) := by
  unfold printNat
  cases hp : printAux (n + 1) n [] with
  | nil => exact absurd hp (printAux_ne_nil n n [])
  | cons b bs =>
      have hb : isDigit b = true := isDigit_of_mem_printAux (hp ▸ List.mem_cons_self)
      have hs := ne_sign_of_isDigit hb
      simp [skipSpace, scanSign, isSpace_of_isDigit hb, hs.1, hs.2]

/-- A printed integer scans back exactly and leaves what follows it. -/
theorem scanInt_printInt (z : Int) {rest : Bytes} (h : Stops rest) :
    scanInt (printInt z ++ rest) = some (z, rest) := by
  unfold printInt scanInt
  by_cases hz : z < 0
  · have hspace : isSpace 45 = false := by decide
    simp only [if_pos hz, List.cons_append, skipSpace, List.dropWhile_cons, hspace,
      Bool.false_eq_true, if_false,
      scanSign, if_true, scanNat_printNat _ h]
    congr 2
    omega
  · simp only [if_neg hz, (skipSpace_printNat z.natAbs rest).1,
      (skipSpace_printNat z.natAbs rest).2, scanNat_printNat _ h, Bool.false_eq_true, if_false]
    congr 2
    omega

theorem scanInt_space {b : UInt8} (hb : isSpace b = true) (bs : Bytes) :
    scanInt (b :: bs) = scanInt bs := by
  unfold scanInt
  rw [skipSpace, List.dropWhile_cons_of_pos hb]
  rfl

@[simp] theorem scanInt_nil : scanInt [] = none := rfl

end RsvpControl.Core.Decimal
