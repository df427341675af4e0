import RsvpControl.Core.Substring
import RsvpControl.Wire.Lines

/-! # The client

`client_run` between two receives: which texts make it ask the user, and what it
sends for the user's answer. It looks for `Select:` first and for `Enter` only in
a text without it; every other text is printed and nothing follows. The user's
input does not end.
-/

namespace RsvpControl.Client

open RsvpControl.Core Server Wire

inductive ClientPc where
  /-- The `recv` of the welcome in `client_connect`. -/
  | connect
  /-- The `select` and `recv` of the loop. -/
  | receive
  /-- The `scanf` of `choice`. -/
  | choice
  /-- The `scanf` of `param`. -/
  | param
  /-- Out of the loop. -/
  | disconnect
  | closed
deriving DecidableEq, Repr

/-- What the user types for one `scanf("%d")`: a number, or text that is not one and
is discarded up to its newline. -/
inductive Input where
  | number (typed : Int)
  | text
deriving DecidableEq, Repr

def sendCommand (cmd_type param1 param2 : Int) : Bytes := commandText cmd_type param1 param2 ++ [10]

def sendParam (param : Int) : Bytes := replyText param ++ [10]

def onReceived (buffer : Bytes) : ClientPc :=
  if strstr (cString buffer) (text "Select:") then .choice
  else if strstr (cString buffer) (text "Enter") then .param
  else .receive

def onChoice : Input → ClientPc × Option Bytes
  | .text => (.receive, none)
  | .number typed =>
      let choice := narrow typed
      if choice = 0 then (.disconnect, some (sendCommand choice 0 0))
      else if choice = 3 then (.receive, some (sendCommand choice 0 0))
      else if choice = 4 then (.receive, some (sendCommand choice 0 0))
      else if choice = 8 then (.receive, some (sendCommand choice 0 0))
      else if 1 ≤ choice ∧ choice ≤ 9 then (.receive, some (sendCommand choice 0 0))
      else (.receive, none)

def onParam : Input → ClientPc × Option Bytes
  | .text => (.receive, none)
  | .number typed => (.receive, some (sendParam (narrow typed)))

/-! ## Texts without a prompt -/

/-- Without the pair `t:` of `Select:` and the pair `En` of `Enter`. -/
def Plain (message : Bytes) : Prop := NoPair 116 58 message ∧ NoPair 69 110 message

instance (message : Bytes) : Decidable (Plain message) := inferInstanceAs (Decidable (_ ∧ _))

theorem Plain.of_part {message part : Bytes} (h : Plain message) (hpart : part <:+: message) :
    Plain part :=
  ⟨h.1.of_part hpart, h.2.of_part hpart⟩

theorem Plain.append_printInt {before after : Bytes} (hbefore : Plain before)
    (hafter : Plain after) (z : Int) : Plain (before ++ Decimal.printInt z ++ after) := by
  have hforeign : ∀ b : UInt8, Decimal.isDigit b = false → b ≠ 45 → b ∉ Decimal.printInt z := by
    intro b hdigit hminus hmem
    rcases Decimal.isDigit_of_mem_printInt hmem with h | h
    · rw [hdigit] at h
      cases h
    · exact hminus h
  have hne := Decimal.printInt_ne_nil z
  exact ⟨hbefore.1.append_foreign hafter.1 (hforeign _ (by decide) (by decide))
      (hforeign _ (by decide) (by decide)) hne,
    hbefore.2.append_foreign hafter.2 (hforeign _ (by decide) (by decide))
      (hforeign _ (by decide) (by decide)) hne⟩

theorem onReceived_plain {message : Bytes} (h : Plain message) : onReceived message = .receive := by
  have hstring : Plain (cString message) :=
    h.of_part (List.takeWhile_prefix fun b => b != 0).isInfix
  have hselect : strstr (cString message) (text "Select:") = false :=
    strstr_eq_false hstring.1 (by decide +kernel)
  have henter : strstr (cString message) (text "Enter") = false :=
    strstr_eq_false hstring.2 (by decide +kernel)
  rw [onReceived, hselect, henter]
  rfl

theorem onReceived_menu : onReceived menu = .choice := by decide +kernel

theorem onReceived_prompt {type : CommandType} {prompt : Bytes}
    (h : parameterPrompt type = some prompt) : onReceived prompt = .param := by
  unfold parameterPrompt at h
  split at h <;> cases h
  all_goals decide +kernel

/-! ## Answers that send -/

def Input.isChoice : Input → Bool
  | .number typed => 0 ≤ narrow typed && narrow typed ≤ 9
  | .text => false

def Input.isNumber : Input → Bool
  | .number _ => true
  | .text => false

/-- A message that one `recv` of the server returns. -/
def FitsRecv (message : Bytes) : Prop := 0 < message.length ∧ message.length < BUFFER_SIZE

theorem fits_sendCommand {choice : Int} (h : IsInt choice) : FitsRecv (sendCommand choice 0 0) := by
  have hle := commandText_length h (show IsInt 0 by decide) (show IsInt 0 by decide)
  constructor
  · simp [sendCommand]
  · simp only [sendCommand, List.length_append, List.length_singleton, BUFFER_SIZE]
    omega

theorem fits_sendParam {param : Int} (h : IsInt param) : FitsRecv (sendParam param) := by
  have hle := printInt_length_of_isInt h
  constructor
  · simp [sendParam]
  · simp only [sendParam, replyText, List.length_append, List.length_singleton, BUFFER_SIZE]
    omega

theorem onChoice_of_isChoice {i : Input} (h : i.isChoice = true) :
    ∃ pc message, onChoice i = (pc, some message) ∧ (pc = .receive ∨ pc = .disconnect) ∧
      FitsRecv message := by
  cases i with
  | text => cases h
  | number typed =>
      simp only [Input.isChoice, Bool.and_eq_true, decide_eq_true_eq] at h
      have hfits := fits_sendCommand (narrow_isInt typed)
      simp only [onChoice]
      split
      · exact ⟨_, _, rfl, Or.inr rfl, hfits⟩
      · next hzero =>
          repeat' split
          all_goals first
            | exact ⟨_, _, rfl, Or.inl rfl, hfits⟩
            | omega

theorem onChoice_of_not_isChoice {i : Input} (h : i.isChoice = false) :
    onChoice i = (.receive, none) := by
  cases i with
  | text => rfl
  | number typed =>
      simp only [Input.isChoice, Bool.and_eq_false_iff, decide_eq_false_iff_not] at h
      have hne : narrow typed ≠ 0 ∧ narrow typed ≠ 3 ∧ narrow typed ≠ 4 ∧ narrow typed ≠ 8 := by
        omega
      have hrange : ¬ (1 ≤ narrow typed ∧ narrow typed ≤ 9) := by omega
      simp only [onChoice, if_neg hne.1, if_neg hne.2.1, if_neg hne.2.2.1, if_neg hne.2.2.2,
        if_neg hrange]

theorem onParam_cases (i : Input) :
    (i.isNumber = true ∧ ∃ message, onParam i = (.receive, some message) ∧ FitsRecv message) ∨
      (i.isNumber = false ∧ onParam i = (.receive, none)) := by
  cases i with
  | number typed => exact Or.inl ⟨rfl, _, rfl, fits_sendParam (narrow_isInt typed)⟩
  | text => exact Or.inr ⟨rfl, rfl⟩

end RsvpControl.Client
