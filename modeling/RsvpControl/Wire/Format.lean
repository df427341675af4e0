import RsvpControl.Core.Fields
import RsvpControl.Wire.Lines

/-! # The documented command format

A command line is `[CMD_TYPE] [PARAM1] [PARAM2]`, one to three integers. `sscanf`
reads as many as it finds and does not look at the rest, so what decides about a
line outside the format is its first field alone: the server takes the line as soon
as that begins with a number.
-/

namespace RsvpControl.Wire

open RsvpControl.Core Server

/-! ## The format -/

def intField (field : Bytes) : Option Int :=
  (Decimal.numeral field).filter fun z => decide (IsInt z)

/-- The command a line stands for, `none` for a line that is not in the format. -/
def documentedCommand (line : Bytes) : Option Command :=
  match (Decimal.fields line).mapM intField with
  | some [type] => some ⟨.ofInt type, 0, 0⟩
  | some [type, param1] => some ⟨.ofInt type, param1, 0⟩
  | some [type, param1, param2] => some ⟨.ofInt type, param1, param2⟩
  | _ => none

/-- The server takes a received buffer for the command its line stands for, and
rejects it when its line is not in the format. -/
def FollowsFormat (buffer : Bytes) : Prop :=
  parseCommand (stripNewline buffer) = documentedCommand (stripNewline buffer) ∧
    (commandReceived buffer = .invalid ↔ documentedCommand (stripNewline buffer) = none)

instance (buffer : Bytes) : Decidable (FollowsFormat buffer) :=
  inferInstanceAs (Decidable (_ ∧ (_ ↔ _)))

/-! ## Lines in the format -/

theorem intField_eq_some {field : Bytes} {z : Int} (h : intField field = some z) :
    Decimal.numeral field = some z ∧ IsInt z := by
  obtain ⟨hnumeral, hint⟩ := Option.filter_eq_some_iff.mp h
  exact ⟨hnumeral, of_decide_eq_true hint⟩

theorem scanD_intField {line field : Bytes} {more : List Bytes} {z : Int}
    (hfields : Decimal.fields line = field :: more) (hz : intField field = some z) :
    ∃ rest, scanD line = some (z, rest) ∧ Decimal.fields rest = more := by
  obtain ⟨hnumeral, hint⟩ := intField_eq_some hz
  obtain ⟨rest, hscan, hrest⟩ := Decimal.scanInt_field hfields hnumeral
  refine ⟨rest, ?_, hrest⟩
  simp only [scanD, hscan, Option.map_some, narrow_of_isInt hint]

theorem scanD_of_fields_nil {line : Bytes} (h : Decimal.fields line = []) : scanD line = none := by
  rw [scanD, Decimal.scanInt_of_fields_nil h, Option.map_none]

theorem scanD_isSome (line : Bytes) : (scanD line).isSome = Decimal.startsWithNumber line := by
  rw [scanD, Option.isSome_map, Decimal.scanInt_isSome_iff]

theorem mapM_cons_eq_some {fields : List Bytes} {z : Int} {zs : List Int}
    (h : fields.mapM intField = some (z :: zs)) :
    ∃ field more, fields = field :: more ∧ intField field = some z ∧
      more.mapM intField = some zs := by
  cases fields with
  | nil => cases h
  | cons field more =>
      rw [List.mapM_cons] at h
      cases hfield : intField field with
      | none => simp [hfield] at h
      | some y =>
          cases hmore : more.mapM intField with
          | none => simp [hfield, hmore] at h
          | some ys =>
              simp only [hfield, hmore, Option.pure_def, Option.bind_eq_bind, Option.bind_some,
                Option.some.injEq] at h
              obtain ⟨rfl, rfl⟩ := List.cons.inj h
              exact ⟨field, more, rfl, hfield, hmore⟩

theorem mapM_nil_eq_some {fields : List Bytes} (h : fields.mapM intField = some []) :
    fields = [] := by
  cases fields with
  | nil => rfl
  | cons field more =>
      rw [List.mapM_cons] at h
      cases hfield : intField field <;> cases hmore : more.mapM intField <;>
        simp [hfield, hmore] at h

/-- The reading of a line whose fields all are `int`s, field by field. -/
theorem scanD_fields {line : Bytes} {z : Int} {zs : List Int}
    (h : (Decimal.fields line).mapM intField = some (z :: zs)) :
    ∃ rest, scanD line = some (z, rest) ∧ (Decimal.fields rest).mapM intField = some zs := by
  obtain ⟨field, more, hfields, hz, hmore⟩ := mapM_cons_eq_some h
  obtain ⟨rest, hscan, hrest⟩ := scanD_intField hfields hz
  exact ⟨rest, hscan, by rw [hrest, hmore]⟩

theorem scanD_no_fields {line : Bytes} (h : (Decimal.fields line).mapM intField = some []) :
    scanD line = none :=
  scanD_of_fields_nil (mapM_nil_eq_some h)

theorem parseCommand_documented {line : Bytes} {cmd : Command}
    (h : documentedCommand line = some cmd) : parseCommand line = some cmd := by
  unfold documentedCommand at h
  split at h
  · next type hfields =>
      cases h
      obtain ⟨rest, hscan, hrest⟩ := scanD_fields hfields
      simp only [parseCommand, hscan, scanD_no_fields hrest]
  · next type param1 hfields =>
      cases h
      obtain ⟨rest, hscan, hrest⟩ := scanD_fields hfields
      obtain ⟨rest', hscan', hrest'⟩ := scanD_fields hrest
      simp only [parseCommand, hscan, hscan', scanD_no_fields hrest']
  · next type param1 param2 hfields =>
      cases h
      obtain ⟨rest, hscan, hrest⟩ := scanD_fields hfields
      obtain ⟨rest', hscan', hrest'⟩ := scanD_fields hrest
      obtain ⟨rest'', hscan'', -⟩ := scanD_fields hrest'
      simp only [parseCommand, hscan, hscan', hscan'']
  · cases h

/-! ## All lines -/

theorem parseCommand_isSome (line : Bytes) :
    (parseCommand line).isSome = Decimal.startsWithNumber line := by
  rw [← scanD_isSome]
  unfold parseCommand
  repeat' split
  all_goals simp_all

theorem commandReceived_eq_invalid_iff (buffer : Bytes) :
    commandReceived buffer = .invalid ↔ parseCommand (stripNewline buffer) = none := by
  unfold commandReceived
  repeat' split
  all_goals simp_all

theorem followsFormat_iff_parse (buffer : Bytes) :
    FollowsFormat buffer ↔
      parseCommand (stripNewline buffer) = documentedCommand (stripNewline buffer) := by
  constructor
  · exact fun h => h.1
  · intro h
    exact ⟨h, by rw [commandReceived_eq_invalid_iff, h]⟩

/-- The server keeps to the format on the lines in the format and on the lines that
do not begin with a number, and on no other. -/
theorem followsFormat_iff (buffer : Bytes) :
    FollowsFormat buffer ↔
      (documentedCommand (stripNewline buffer)).isSome = true ∨
        Decimal.startsWithNumber (stripNewline buffer) = false := by
  rw [followsFormat_iff_parse]
  have haccepted := parseCommand_isSome (stripNewline buffer)
  cases hdocumented : documentedCommand (stripNewline buffer) with
  | some cmd =>
      rw [parseCommand_documented hdocumented]
      simp
  | none =>
      rw [← haccepted, ← Option.not_isSome_iff_eq_none]
      simp

/-- A letter behind the number, a fourth field, a parameter that is none, and a type
beyond `int` that comes out as EXIT. -/
theorem followsFormat_fails :
    commandReceived (text "1abc\n") = .push ⟨.ledOn, 0, 0⟩ ∧
      commandReceived (text "1 2 3 4\n") = .push ⟨.ledOn, 2, 3⟩ ∧
      commandReceived (text "1 x\n") = .push ⟨.ledOn, 0, 0⟩ ∧
      commandReceived (text "4294967296\n") = .exit ∧
      ¬ (∀ buffer, FollowsFormat buffer) := by
  have hletter : commandReceived (text "1abc\n") = .push ⟨.ledOn, 0, 0⟩ ∧
      ¬ FollowsFormat (text "1abc\n") := by decide +kernel
  refine ⟨hletter.1, by decide +kernel, by decide +kernel, by decide +kernel, ?_⟩
  exact fun h => hletter.2 (h _)

end RsvpControl.Wire
