import RsvpControl.Client.Messages
import RsvpControl.Server.Shutdown

/-! # Client and server in conversation

The client of one session composed with the whole server. The channel to the
client is what the server has sent on the session's socket and the client has not
read; the channel to the server is the inbox of that socket.
-/

namespace RsvpControl.Client

open RsvpControl.Core Server

/-! ## The composition -/

structure Conversation where
  server : System
  client : ClientPc
  /-- Messages of the server that the client has read. -/
  read : Nat
deriving DecidableEq, Repr

inductive Event where
  | server (a : Action)
  /-- The client receives the next message. -/
  | receive
  /-- The user answers the `scanf`. -/
  | answer (i : Input)
  /-- The client's `recv` returns 0. -/
  | serverClosed
  /-- `client_disconnect`. -/
  | close
deriving DecidableEq, Repr

/-- The server acts without this client, and what it sends arrives whole. -/
def byServer (socket : Nat) (s : System) : Action → Bool
  | .arrive k _ => k != socket
  | .hangUp k => k != socket
  | .comm ok => ok || !sends s.comm
  | _ => true

namespace Conversation

/-- In flight to the client. -/
def unread (socket : Nat) (c : Conversation) : List Bytes :=
  match c.server.sockets[socket]? with
  | some k => k.sent.drop c.read
  | none => []

/-- The server has not closed its end. -/
def sessionOpen (socket : Nat) (c : Conversation) : Bool :=
  match c.server.sockets[socket]? with
  | some k => k.closes = 0
  | none => false

def answered (socket : Nat) (c : Conversation) : ClientPc × Option Bytes → Option Conversation
  | (pc, none) => some { c with client := pc }
  | (pc, some message) =>
      (c.server.step (.arrive socket message)).map fun s => { c with server := s, client := pc }

def step (socket : Nat) (c : Conversation) : Event → Option Conversation
  | .server a =>
      if byServer socket c.server a then
        (c.server.step a).map fun s => { c with server := s }
      else none
  | .receive =>
      match c.client, c.unread socket with
      | .connect, _ :: _ => some { c with client := .receive, read := c.read + 1 }
      | .receive, message :: _ =>
          some { c with client := onReceived message, read := c.read + 1 }
      | _, _ => none
  | .answer i =>
      match c.client with
      | .choice => c.answered socket (onChoice i)
      | .param => c.answered socket (onParam i)
      | _ => none
  | .serverClosed =>
      match c.client, c.unread socket, c.sessionOpen socket with
      | .connect, [], false => some { c with client := .receive }
      | .receive, [], false => some { c with client := .disconnect }
      | _, _, _ => none
  | .close =>
      match c.client with
      | .disconnect =>
          (c.server.step (.hangUp socket)).map fun s => { c with server := s, client := .closed }
      | _ => none

end Conversation

def ClientPc.left : ClientPc → Bool
  | .disconnect | .closed => true
  | _ => false

/-- The client waits for bytes of the server. -/
def ClientPc.waits : ClientPc → Bool
  | .connect | .receive => true
  | _ => false

namespace Conversation

def live (socket : Nat) (c : Conversation) : Bool :=
  c.server.server_running && c.sessionOpen socket

/-- Client and server both wait to receive, and nothing is in flight. -/
def deadlocked (socket : Nat) (c : Conversation) : Bool :=
  c.live socket && c.client.waits && c.server.commSocket == socket &&
    c.server.blockedInRecv && (c.unread socket).isEmpty

/-- Unless the session is over, the user chooses a number from 0 to 9 and gives a
number for a parameter. -/
def answersPrompt (socket : Nat) (c : Conversation) : Event → Bool
  | .answer i =>
      match c.client with
      | .choice => !c.live socket || i.isChoice
      | .param => !c.live socket || i.isNumber
      | _ => true
  | _ => true

end Conversation

/-- A session from the start of its communication thread. -/
def conversationMachine (accepted : System) (socket : Nat) : Machine Conversation Event :=
  ⟨⟨accepted, .connect, 0⟩, Conversation.step socket⟩

end RsvpControl.Client
