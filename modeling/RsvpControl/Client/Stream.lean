import RsvpControl.Client.Conversation

/-! # The server's stream in the client's receives

TCP hands the messages of a session to the client as one stream of bytes. A `recv`
returns some of those that have arrived, at most `BUFFER_SIZE - 1`, wherever that
ends: `client_connect` receives once and only prints, and the loop of `client_run`
looks for its two words in each buffer by itself.
-/

namespace RsvpControl.Client

open RsvpControl.Core Server

/-! ## Prompts -/

inductive PromptKind where
  /-- `Select: ` of the menu. -/
  | choice
  /-- `Enter ...: ` for a parameter. -/
  | param
deriving DecidableEq, Repr

def PromptKind.word : PromptKind → Bytes
  | .choice => text "Select:"
  | .param => text "Enter"

/-- The prompt whose answer is received here. -/
def receives : CommPc → Option PromptKind
  | .recvCommand => some .choice
  | .recvReply _ => some .param
  | _ => none

/-- The prompt that the user is asked to answer here. -/
def ClientPc.reading : ClientPc → Option PromptKind
  | .choice => some .choice
  | .param => some .param
  | _ => none

def parameterPrompts : List Bytes :=
  [CommandType.setBrightness, .buzzerOn, .segmentDisplay].filterMap parameterPrompt

def kindOf (message : Bytes) : Option PromptKind :=
  if message = menu then some .choice
  else if message ∈ parameterPrompts then some .param
  else none

def prompts (messages : List Bytes) : List PromptKind := messages.filterMap kindOf

@[simp] theorem prompts_append (messages more : List Bytes) :
    prompts (messages ++ more) = prompts messages ++ prompts more :=
  List.filterMap_append

theorem prompts_singleton (m : Bytes) : prompts [m] = (kindOf m).toList := by
  cases h : kindOf m <;> simp [prompts, h]

theorem prompts_mono {messages more : List Bytes} (h : messages <+: more) :
    prompts messages <+: prompts more :=
  h.filterMap kindOf

/-! ## Positions in the stream -/

def started : Nat → List Bytes → List Bytes
  | _, [] => []
  | position, m :: more =>
      if position = 0 then [] else m :: started (position - m.length) more

def finished : Nat → List Bytes → List Bytes
  | _, [] => []
  | position, m :: more =>
      if m.length ≤ position then m :: finished (position - m.length) more else []

theorem started_mono {position later : Nat} (h : position ≤ later) (sent : List Bytes) :
    started position sent <+: started later sent := by
  induction sent generalizing position later with
  | nil => exact List.prefix_rfl
  | cons m more ih =>
      unfold started
      by_cases hzero : position = 0
      · rw [if_pos hzero]
        exact List.nil_prefix
      · rw [if_neg hzero, if_neg (show later ≠ 0 by omega)]
        exact List.cons_prefix_cons.mpr ⟨rfl, ih (by omega)⟩

theorem started_append (position : Nat) (sent more : List Bytes) :
    started position sent <+: started position (sent ++ more) := by
  induction sent generalizing position with
  | nil => exact List.nil_prefix
  | cons m rest ih =>
      rw [List.cons_append]
      simp only [started]
      split
      · exact List.nil_prefix
      · exact List.cons_prefix_cons.mpr ⟨rfl, ih _⟩

theorem started_last {position : Nat} {front : List Bytes} (m : Bytes)
    (h : front.flatten.length < position) :
    started position (front ++ [m]) = front ++ [m] := by
  induction front generalizing position with
  | nil =>
      have hpos : position ≠ 0 := Nat.ne_of_gt h
      simp [started, hpos]
  | cons p rest ih =>
      rw [List.flatten_cons, List.length_append] at h
      rw [List.cons_append, started, if_neg (show position ≠ 0 by omega), ih (by omega)]

theorem finished_initial (position : Nat) (sent : List Bytes) :
    finished position sent <+: sent := by
  induction sent generalizing position with
  | nil => exact List.prefix_rfl
  | cons m more ih =>
      unfold finished
      split
      · exact List.cons_prefix_cons.mpr ⟨rfl, ih _⟩
      · exact List.nil_prefix

/-- Before its last byte the last message has not ended. -/
theorem finished_front {position : Nat} {front : List Bytes} {m : Bytes}
    (h : position < (front ++ [m]).flatten.length) :
    finished position (front ++ [m]) <+: front := by
  induction front generalizing position with
  | nil =>
      have hlt : ¬ m.length ≤ position := by
        simp only [List.nil_append, List.flatten_singleton] at h
        omega
      simp [finished, hlt]
  | cons p rest ih =>
      rw [List.cons_append, List.flatten_cons, List.length_append] at h
      rw [List.cons_append, finished]
      split
      · exact List.cons_prefix_cons.mpr ⟨rfl, ih (by omega)⟩
      · exact List.nil_prefix

theorem finished_all {position : Nat} {sent : List Bytes} (h : sent.flatten.length ≤ position) :
    finished position sent = sent := by
  induction sent generalizing position with
  | nil => rfl
  | cons m more ih =>
      rw [List.flatten_cons, List.length_append] at h
      rw [finished, if_pos (by omega), ih (by omega)]

theorem prompts_finished_zero (sent : List Bytes) : prompts (finished 0 sent) = [] := by
  induction sent with
  | nil => rfl
  | cons m more ih =>
      simp only [finished]
      split
      · next hlen =>
          have hnil : m = [] := List.length_eq_zero_iff.mp (Nat.le_zero.mp hlen)
          have hkind : kindOf [] = none := by decide +kernel
          rw [hnil, prompts, List.filterMap_cons_none hkind, List.length_nil]
          exact ih
      · rfl

/-- What is sent later ends later. -/
theorem prompts_finished_append {position : Nat} {sent : List Bytes} (more : List Bytes)
    (h : position ≤ sent.flatten.length) :
    prompts (finished position (sent ++ more)) = prompts (finished position sent) := by
  induction sent generalizing position with
  | nil =>
      rw [Nat.le_zero.mp h, List.nil_append]
      exact prompts_finished_zero more
  | cons p rest ih =>
      rw [List.flatten_cons, List.length_append] at h
      rw [List.cons_append]
      simp only [finished]
      split
      · have hrest := @ih (position - p.length) (by omega)
        simp only [prompts, List.filterMap_cons] at hrest ⊢
        rw [hrest]
      · rfl

/-! ## The composition -/

structure Streaming where
  server : System
  client : ClientPc
  /-- Bytes of the stream that the client has received. -/
  taken : Nat
  /-- The prompts for which the client has read user input. -/
  asked : List PromptKind
deriving DecidableEq, Repr

inductive StreamEvent where
  | server (a : Action)
  /-- The client's `recv` returns `size` bytes. -/
  | receive (size : Nat)
  /-- The user answers the `scanf`. -/
  | answer (i : Input)
  /-- The client's `recv` returns 0. -/
  | serverClosed
  /-- `client_disconnect`. -/
  | close
deriving DecidableEq, Repr

namespace Streaming

def sent (socket : Nat) (c : Streaming) : List Bytes :=
  match c.server.sockets[socket]? with
  | some k => k.sent
  | none => []

def unread (socket : Nat) (c : Streaming) : Bytes := (c.sent socket).flatten.drop c.taken

def sessionOpen (socket : Nat) (c : Streaming) : Bool :=
  match c.server.sockets[socket]? with
  | some k => k.closes = 0
  | none => false

def received (c : Streaming) (size : Nat) (pc : ClientPc) : Streaming :=
  { c with client := pc, taken := c.taken + size, asked := c.asked ++ pc.reading.toList }

def answered (socket : Nat) (c : Streaming) : ClientPc × Option Bytes → Option Streaming
  | (pc, none) => some { c with client := pc }
  | (pc, some message) =>
      (c.server.step (.arrive socket message)).map fun s => { c with server := s, client := pc }

def step (socket : Nat) (c : Streaming) : StreamEvent → Option Streaming
  | .server a =>
      if byServer socket c.server a then
        (c.server.step a).map fun s => { c with server := s }
      else none
  | .receive size =>
      if 0 < size ∧ size < BUFFER_SIZE ∧ size ≤ (c.unread socket).length then
        match c.client with
        | .connect => some (c.received size .receive)
        | .receive => some (c.received size (onReceived ((c.unread socket).take size)))
        | _ => none
      else none
  | .answer i =>
      match c.client with
      | .choice => c.answered socket (onChoice i)
      | .param => c.answered socket (onParam i)
      | _ => none
  | .serverClosed =>
      match c.client, c.unread socket, c.sessionOpen socket with
      | .connect, [], false => some { c with client := .receive }
      | .receive, [], false => some { c with client := .disconnect }
      | _, _, _ => none
  | .close =>
      match c.client with
      | .disconnect =>
          (c.server.step (.hangUp socket)).map fun s => { c with server := s, client := .closed }
      | _ => none

/-- The `recv` does not end inside a word the client looks for. -/
def keepsWords (socket : Nat) (c : Streaming) : StreamEvent → Bool
  | .receive size =>
      !decide (CutInside (text "Select:") (c.unread socket) size) &&
        !decide (CutInside (text "Enter") (c.unread socket) size)
  | _ => true

end Streaming

/-- A session from the start of its communication thread. -/
def streamMachine (accepted : System) (socket : Nat) : Machine Streaming StreamEvent :=
  ⟨⟨accepted, .connect, 0, []⟩, Streaming.step socket⟩

/-- The communication thread is in the `recv` after a prompt of this kind, and
nothing is there to be received. -/
def Awaits (s : System) (kind : PromptKind) : Prop := receives s.comm = some kind ∧ s.inbox = []

/-- User input is read once for each prompt, and the answer is for that prompt. -/
structure PromptsServed (socket : Nat) (c : Streaming) : Prop where
  asked : prompts (finished c.taken (c.sent socket)) <+: c.asked
  only : c.asked <+: prompts (started c.taken (c.sent socket))
  replies : ∀ kind, c.client.reading = some kind →
    c.asked = prompts (c.sent socket) ∧ c.asked.getLast? = some kind ∧
      c.server.commSocket = socket ∧ Awaits c.server kind

end RsvpControl.Client
