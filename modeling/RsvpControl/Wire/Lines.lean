import Mathlib.Data.List.TakeWhile
import RsvpControl.Server.Requests

/-! # Lines on the wire

The client writes a command as three integers and a reply as one, each line ended
by a newline. What the server makes of such a text, with or without the end of its
line and whatever follows it, is the basis of every statement about a stream.
-/

namespace RsvpControl.Wire

open RsvpControl.Core Server

/-! ## Texts -/

/-- The line of `client_send_command` without its newline. -/
def commandText (cmd_type param1 param2 : Int) : Bytes :=
  Decimal.printInt cmd_type ++ 32 :: (Decimal.printInt param1 ++ 32 :: Decimal.printInt param2)

/-- The line of a parameter reply without its newline. -/
def replyText (param : Int) : Bytes := Decimal.printInt param

/-- A byte that ends neither a C string nor a line. -/
def inLine (b : UInt8) : Bool := b != 0 && b != 10 && b != 13

theorem inLine_digit {b : UInt8} (hb : Decimal.isDigit b = true) : inLine b = true := by
  simp only [Decimal.isDigit, Bool.and_eq_true, decide_eq_true_eq] at hb
  have hne : ∀ c : UInt8, c.toNat < 48 → b ≠ c := by
    rintro c hc rfl
    omega
  simp [inLine, hne 0 (by decide), hne 10 (by decide), hne 13 (by decide)]

theorem inLine_printInt {z : Int} {b : UInt8} (hb : b ∈ Decimal.printInt z) : inLine b = true := by
  rcases Decimal.isDigit_of_mem_printInt hb with hdigit | rfl
  · exact inLine_digit hdigit
  · rfl

theorem inLine_commandText {t a b : Int} {c : UInt8} (hc : c ∈ commandText t a b) :
    inLine c = true := by
  simp only [commandText, List.mem_append, List.mem_cons] at hc
  rcases hc with hc | rfl | hc | rfl | hc
  · exact inLine_printInt hc
  · rfl
  · exact inLine_printInt hc
  · rfl
  · exact inLine_printInt hc

/-! ## Stripping -/

theorem takeWhile_line {p : UInt8 → Bool} {line rest : Bytes} (hline : ∀ b ∈ line, p b = true)
    (hrest : ∀ b, rest.head? = some b → p b = false) : (line ++ rest).takeWhile p = line := by
  induction line with
  | nil =>
      cases rest with
      | nil => rfl
      | cons b bs => simp [hrest b rfl]
  | cons b bs ih =>
      rw [List.cons_append, List.takeWhile_cons, if_pos (hline b List.mem_cons_self),
        ih fun c hc => hline c (List.mem_cons_of_mem _ hc)]

theorem inLine_parts {b : UInt8} (hb : inLine b = true) :
    (b != 0) = true ∧ (b != 10) = true ∧ (b != 13) = true := by
  simpa only [inLine, Bool.and_eq_true, and_assoc] using hb

theorem cString_line {line : Bytes} (hline : ∀ b ∈ line, inLine b = true) (rest : Bytes) :
    ∃ more, cString (line ++ 10 :: rest) = line ++ 10 :: more := by
  refine ⟨rest.takeWhile fun b => b != 0, ?_⟩
  rw [cString, List.takeWhile_append_of_pos fun b hb => (inLine_parts (hline b hb)).1]
  rfl

/-- Stripping keeps a line and drops its end with all that follows. -/
theorem stripNewline_line {line : Bytes} (hline : ∀ b ∈ line, inLine b = true) (rest : Bytes) :
    stripNewline (line ++ 10 :: rest) = line ∧ stripNewline line = line := by
  have hnewline : ∀ b ∈ line, (b != 10) = true := fun b hb => (inLine_parts (hline b hb)).2.1
  have hreturn : ∀ b ∈ line, (b != 13) = true := fun b hb => (inLine_parts (hline b hb)).2.2
  constructor
  · obtain ⟨more, hmore⟩ := cString_line hline rest
    rw [stripNewline, hmore, takeWhile_line hnewline (by simp),
      List.takeWhile_eq_self_iff.mpr hreturn]
  · have hzero : ∀ b ∈ line, (b != 0) = true := fun b hb => (inLine_parts (hline b hb)).1
    rw [stripNewline, cString, List.takeWhile_eq_self_iff.mpr hzero,
      List.takeWhile_eq_self_iff.mpr hnewline, List.takeWhile_eq_self_iff.mpr hreturn]

theorem stripNewline_newline (rest : Bytes) : stripNewline (10 :: rest) = [] := by
  simp [stripNewline, cString]

/-! ## Parsing -/

theorem stops_nil : Decimal.Stops [] := by
  intro b hb
  cases hb

theorem stops_cons {b : UInt8} (hb : Decimal.isDigit b = false) (rest : Bytes) :
    Decimal.Stops (b :: rest) := by
  intro c hc
  cases hc
  exact hb

theorem scanD_printInt {z : Int} (hz : IsInt z) {rest : Bytes} (hrest : Decimal.Stops rest) :
    scanD (Decimal.printInt z ++ rest) = some (z, rest) := by
  simp only [scanD, Decimal.scanInt_printInt z hrest, Option.map_some, narrow_of_isInt hz]

theorem scanD_space {b : UInt8} (hb : Decimal.isSpace b = true) (rest : Bytes) :
    scanD (b :: rest) = scanD rest := by
  rw [scanD, Decimal.scanInt_space hb, scanD]

@[simp] theorem scanD_nil : scanD [] = none := rfl

theorem scanD_field {z : Int} (hz : IsInt z) {rest : Bytes} (hrest : Decimal.Stops rest) :
    scanD (32 :: (Decimal.printInt z ++ rest)) = some (z, rest) := by
  rw [scanD_space (by decide), scanD_printInt hz hrest]

theorem scanD_last {z : Int} (hz : IsInt z) :
    scanD (32 :: Decimal.printInt z) = some (z, []) := by
  have h := scanD_field hz stops_nil
  rwa [List.append_nil] at h

theorem parseCommand_commandText {t a b : Int} (ht : IsInt t) (ha : IsInt a) (hb : IsInt b) :
    parseCommand (commandText t a b) = some ⟨.ofInt t, a, b⟩ := by
  have hspace : ∀ rest, Decimal.Stops (32 :: rest) := stops_cons (by decide)
  simp only [parseCommand, commandText, scanD_printInt ht (hspace _), scanD_field ha (hspace _),
    scanD_last hb]

/-- A line that breaks off after its second field still parses. -/
theorem parseCommand_two_fields {t a : Int} (ht : IsInt t) (ha : IsInt a) :
    parseCommand (Decimal.printInt t ++ 32 :: Decimal.printInt a) = some ⟨.ofInt t, a, 0⟩ := by
  have hspace : ∀ rest, Decimal.Stops (32 :: rest) := stops_cons (by decide)
  simp only [parseCommand, scanD_printInt ht (hspace _), scanD_last ha, scanD_nil]

/-- Whatever follows a leading zero, the command is EXIT. -/
theorem parseCommand_zero {rest : Bytes} (hrest : Decimal.Stops rest) :
    ∃ param1 param2, parseCommand (48 :: rest) = some ⟨.exit, param1, param2⟩ := by
  have hzero : scanD (48 :: rest) = some (0, rest) := by
    have h := scanD_printInt (z := 0) (by decide) hrest
    exact h
  simp only [parseCommand, hzero]
  cases hfirst : scanD rest with
  | none => exact ⟨0, 0, rfl⟩
  | some first =>
      obtain ⟨param1, rest'⟩ := first
      cases hsecond : scanD rest' with
      | none => exact ⟨param1, 0, by simp [CommandType.ofInt, hsecond]⟩
      | some second => exact ⟨param1, second.1, by simp [CommandType.ofInt, hsecond]⟩

/-! ## Replies -/

theorem newline_isSpace : Decimal.isSpace 10 = true := rfl

theorem atoi_newline (text : Bytes) : atoi (10 :: text) = atoi text := by
  rw [atoi, atoi, cString, List.takeWhile_cons_of_pos (by decide), scanD_space newline_isSpace,
    cString]

theorem atoi_reply {r : Int} (hr : IsInt r) (rest : Bytes) :
    atoi (replyText r ++ 10 :: rest) = r ∧ atoi (replyText r) = r := by
  have hline : ∀ b ∈ replyText r, inLine b = true := fun b hb => inLine_printInt hb
  have hzero : ∀ b ∈ replyText r, (b != 0) = true := fun b hb => (inLine_parts (hline b hb)).1
  have hscan : scanD (replyText r) = some (r, []) := by
    have h := scanD_printInt hr stops_nil
    rwa [List.append_nil] at h
  constructor
  · obtain ⟨more, hmore⟩ := cString_line hline rest
    rw [atoi, hmore, replyText, scanD_printInt hr (stops_cons (by decide) _)]
  · rw [atoi, cString, List.takeWhile_eq_self_iff.mpr hzero, hscan]

/-! ## Lengths -/

theorem printInt_length_of_isInt {z : Int} (hz : IsInt z) : (Decimal.printInt z).length ≤ 11 := by
  unfold IsInt at hz
  exact Decimal.printInt_length_le (by omega) (by decide)

theorem commandText_length {t a b : Int} (ht : IsInt t) (ha : IsInt a) (hb : IsInt b) :
    (commandText t a b).length ≤ 35 := by
  have hlt := printInt_length_of_isInt ht
  have hla := printInt_length_of_isInt ha
  have hlb := printInt_length_of_isInt hb
  simp only [commandText, List.length_append, List.length_cons]
  omega

end RsvpControl.Wire
