import RsvpControl.Client.Run
import RsvpControl.Server.Shutdown

/-! # From the client's integers to the server's command

What `client_send_command` and the prompt branch of `client_run` put into their
buffers is what the server reads back: `sscanf` the three fields of a command,
`atoi` the reply. A parameter sent with its command and one sent for the prompt
therefore end in the same command.
-/

namespace RsvpControl.Client

open RsvpControl.Core Server Wire

/-! ## The client's buffers -/

/-- The `strlen(buffer)` bytes `client_send_command` sends after its `snprintf`. -/
def clientSendCommand (cmd_type param1 param2 : Int) : Bytes :=
  cString (truncated BUFFER_SIZE (sendCommand cmd_type param1 param2))

/-- What `client_run` sends for a parameter. -/
def clientSendParam (param : Int) : Bytes :=
  cString (truncated BUFFER_SIZE (sendParam param))

theorem cString_truncated {line : Bytes} (hline : ∀ b ∈ line, inLine b = true)
    (hlength : (line ++ [10]).length < BUFFER_SIZE) :
    cString (truncated BUFFER_SIZE (line ++ [10])) = line ++ [10] := by
  have hfits : (line ++ [10]).length ≤ BUFFER_SIZE - 1 := Nat.le_sub_one_of_lt hlength
  rw [truncated, List.take_of_length_le hfits, cString]
  apply List.takeWhile_eq_self_iff.mpr
  intro b hb
  rcases List.mem_append.mp hb with hb | hb
  · exact (inLine_parts (hline b hb)).1
  · rw [List.mem_singleton.mp hb]
    decide

theorem sendCommand_length {t a b : Int} (ht : IsInt t) (ha : IsInt a) (hb : IsInt b) :
    (sendCommand t a b).length < BUFFER_SIZE := by
  have hle := commandText_length ht ha hb
  simp only [sendCommand, List.length_append, List.length_singleton, BUFFER_SIZE]
  omega

theorem clientSendCommand_eq {t a b : Int} (ht : IsInt t) (ha : IsInt a) (hb : IsInt b) :
    clientSendCommand t a b = sendCommand t a b :=
  cString_truncated (fun _ hc => inLine_commandText hc) (sendCommand_length ht ha hb)

theorem clientSendParam_eq {p : Int} (hp : IsInt p) : clientSendParam p = sendParam p :=
  cString_truncated (fun _ hb => inLine_printInt hb) (fits_sendParam hp).2

/-! ## Decoding -/

/-- The bits of a command type. -/
def commandPattern : CommandType → BitVec 32
  | .ledOn => 1
  | .ledOff => 2
  | .setBrightness => 3
  | .buzzerOn => 4
  | .buzzerOff => 5
  | .sensorOn => 6
  | .sensorOff => 7
  | .segmentDisplay => 8
  | .segmentStop => 9
  | .exit => 0
  | .other pattern => BitVec.ofInt 32 pattern

/-- The cast to `CommandType` keeps the bits. -/
theorem commandPattern_ofInt (t : Int) : commandPattern (.ofInt t) = BitVec.ofInt 32 t := by
  unfold CommandType.ofInt
  repeat' split
  all_goals first
    | rfl
    | (next h => rw [h]; rfl)

theorem parseCommand_sendCommand {t a b : Int} (ht : IsInt t) (ha : IsInt a) (hb : IsInt b) :
    parseCommand (stripNewline (sendCommand t a b)) = some ⟨.ofInt t, a, b⟩ := by
  have hstrip := (stripNewline_line (fun c hc => inLine_commandText (t := t) (a := a) (b := b) hc)
    []).1
  rw [sendCommand, hstrip, parseCommand_commandText ht ha hb]

theorem atoi_sendParam {p : Int} (hp : IsInt p) : atoi (sendParam p) = p := (atoi_reply hp []).1

/-! ## With and without a prompt -/

theorem prompted_cases {t : Int} (h : t = 3 ∨ t = 4 ∨ t = 8) :
    ∃ prompt, parameterPrompt (.ofInt t) = some prompt ∧ CommandType.ofInt t ≠ .exit ∧
      onChoice (.number t) = (.receive, some (sendCommand t 0 0)) := by
  rcases h with rfl | rfl | rfl
  all_goals exact ⟨_, rfl, by decide, by decide⟩

theorem commandReceived_prompted {t p : Int} (h : t = 3 ∨ t = 4 ∨ t = 8) (hp : IsInt p)
    {prompt : Bytes} (hprompt : parameterPrompt (.ofInt t) = some prompt)
    (hexit : CommandType.ofInt t ≠ .exit) :
    commandReceived (sendCommand t p 0) =
      if p = 0 then .askParameter ⟨.ofInt t, 0, 0⟩ prompt else .push ⟨.ofInt t, p, 0⟩ := by
  have ht : IsInt t := by
    rcases h with rfl | rfl | rfl
    all_goals decide
  simp only [commandReceived, parseCommand_sendCommand ht hp (show IsInt 0 by decide),
    if_neg hexit, hprompt]
  split
  · next hzero => rw [hzero]
  · rfl

theorem stepComm_push {s : System} {buffer : Bytes} {rest : List Bytes} {cmd : Command}
    (hcomm : s.comm = .recvCommand) (hinbox : s.inbox = buffer :: rest)
    (hpush : commandReceived buffer = .push cmd) (ok : Bool) :
    (s.stepComm ok).map System.comm = some (.lock cmd) := by
  simp only [System.stepComm, hcomm, System.recv, hinbox, hpush, Option.map_some]

theorem exec_prompted {server_ip : Bytes} {s : System} {buffer reply prompt : Bytes}
    {rest : List Bytes} {cmd : Command} (hcomm : s.comm = .recvCommand)
    (hinbox : s.inbox = buffer :: reply :: rest)
    (hask : commandReceived buffer = .askParameter cmd prompt) (ok : Bool) :
    ((serverMachine server_ip).exec s [Action.comm ok, .comm ok, .comm ok]).map System.comm =
      some (.lock (replyReceived cmd reply)) := by
  obtain ⟨sockets, hrecv⟩ : ∃ sockets, s.recv = some (sockets, some buffer) := by
    simp [System.recv, hinbox]
  -- After the first step the reply is at the front, and the prompt leaves it there.
  let asked : System := { s with sockets := sockets, comm := .sendPrompt cmd prompt }
  have hfirst : s.stepComm ok = some asked := by
    simp only [System.stepComm, hcomm, hrecv, hask, asked]
  have hreply : asked.inbox = reply :: rest := by
    have htake := (recv_some hrecv (.sendPrompt cmd prompt)).1
    rw [hinbox] at htake
    exact (List.cons.inj htake).2.symm
  let sent : System := { asked.send asked.commSocket prompt ok with comm := .recvReply cmd }
  have hsecond : asked.stepComm ok = some sent := rfl
  have hwaiting : sent.inbox = reply :: rest := by
    have hsame : sent.inbox = asked.inbox := (inbox_send asked asked.commSocket prompt ok).1
    rw [hsame, hreply]
  have hthird : (sent.stepComm ok).map System.comm = some (.lock (replyReceived cmd reply)) := by
    simp only [System.stepComm, sent, System.recv]
    simp only [sent] at hwaiting
    rw [hwaiting]
    rfl
  simp only [Machine.exec, serverMachine, System.step, hfirst, hsecond, Option.bind_some,
    Option.bind_fun_some]
  exact hthird

/-- The line of any command and the reply of any parameter are sent whole and read
back exactly; a command that takes a parameter is pushed with it however it was
given. -/
theorem wire_round_trip :
    (∀ t a b : Int, IsInt t → IsInt a → IsInt b →
      (sendCommand t a b).length < BUFFER_SIZE ∧
      clientSendCommand t a b = sendCommand t a b ∧
      parseCommand (stripNewline (clientSendCommand t a b)) = some ⟨.ofInt t, a, b⟩ ∧
      commandPattern (.ofInt t) = BitVec.ofInt 32 t) ∧
    (∀ p : Int, IsInt p → atoi (clientSendParam p) = p) ∧
    (∀ t p : Int, (t = 3 ∨ t = 4 ∨ t = 8) → IsInt p → p ≠ 0 →
      ∃ prompt, onReceived prompt = .param ∧
        onChoice (.number t) = (.receive, some (clientSendCommand t 0 0)) ∧
        onParam (.number p) = (.receive, some (clientSendParam p)) ∧
        commandReceived (clientSendCommand t p 0) = .push ⟨.ofInt t, p, 0⟩ ∧
        commandReceived (clientSendCommand t 0 0) = .askParameter ⟨.ofInt t, 0, 0⟩ prompt ∧
        replyReceived ⟨.ofInt t, 0, 0⟩ (clientSendParam p) = ⟨.ofInt t, p, 0⟩ ∧
        ∀ (server_ip : Bytes) (s : System) (rest : List Bytes) (ok : Bool),
          s.comm = .recvCommand →
          (s.inbox = clientSendCommand t p 0 :: rest →
            ((serverMachine server_ip).exec s [Action.comm ok]).map System.comm =
              some (.lock ⟨.ofInt t, p, 0⟩)) ∧
          (s.inbox = clientSendCommand t 0 0 :: clientSendParam p :: rest →
            ((serverMachine server_ip).exec s [Action.comm ok, .comm ok, .comm ok]).map
                System.comm = some (.lock ⟨.ofInt t, p, 0⟩))) := by
  refine ⟨?_, ?_, ?_⟩
  · intro t a b ht ha hb
    have hsent := clientSendCommand_eq ht ha hb
    refine ⟨sendCommand_length ht ha hb, hsent, ?_, commandPattern_ofInt t⟩
    rw [hsent, parseCommand_sendCommand ht ha hb]
  · intro p hp
    rw [clientSendParam_eq hp, atoi_sendParam hp]
  · intro t p h hp hne
    have hzero : IsInt 0 := by decide
    have ht : IsInt t := by
      rcases h with rfl | rfl | rfl
      all_goals decide
    obtain ⟨prompt, hprompt, hexit, hchoice⟩ := prompted_cases h
    have honeline : commandReceived (clientSendCommand t p 0) = .push ⟨.ofInt t, p, 0⟩ := by
      rw [clientSendCommand_eq ht hp hzero, commandReceived_prompted h hp hprompt hexit,
        if_neg hne]
    have hask : commandReceived (clientSendCommand t 0 0) =
        .askParameter ⟨.ofInt t, 0, 0⟩ prompt := by
      rw [clientSendCommand_eq ht hzero hzero, commandReceived_prompted h hzero hprompt hexit,
        if_pos rfl]
    have hreply : replyReceived ⟨.ofInt t, 0, 0⟩ (clientSendParam p) = ⟨.ofInt t, p, 0⟩ := by
      rw [replyReceived, clientSendParam_eq hp, atoi_sendParam hp]
    refine ⟨prompt, onReceived_prompt hprompt, ?_, ?_, honeline, hask, hreply, ?_⟩
    · rw [clientSendCommand_eq ht hzero hzero, hchoice]
    · rw [clientSendParam_eq hp, onParam, narrow_of_isInt hp]
    · intro server_ip s rest ok hcomm
      constructor
      · intro hinbox
        have hpushed := stepComm_push hcomm hinbox honeline ok
        simpa only [Machine.exec, serverMachine, System.step, Option.bind_fun_some] using hpushed
      · intro hinbox
        rw [exec_prompted hcomm hinbox hask, hreply]

/-- At the two ends of the range of `int`. -/
theorem wire_round_trip_extreme :
    parseCommand (stripNewline (clientSendCommand (-2147483648) 2147483647 (-1))) =
        some ⟨.other (-2147483648), 2147483647, -1⟩ ∧
      atoi (clientSendParam (-2147483648)) = -2147483648 ∧
      commandReceived (clientSendCommand 4 (-2147483648) 0) =
        .push ⟨.buzzerOn, -2147483648, 0⟩ := by
  obtain ⟨hcommand, hparam, hprompted⟩ := wire_round_trip
  have hline := hcommand (-2147483648) 2147483647 (-1) (by decide) (by decide) (by decide)
  obtain ⟨-, -, -, -, honeline, -⟩ :=
    hprompted 4 (-2147483648) (by decide) (by decide) (by decide)
  exact ⟨hline.2.2.1, hparam (-2147483648) (by decide), honeline⟩

end RsvpControl.Client
