import RsvpControl.Client.Texts
import RsvpControl.Server.Protocol

/-! # Nothing the server sends is cut

`snprintf` cuts what does not fit its buffer. The message of a response, the line it is
sent in, the URL and the welcome are built that way. In every run and for every address
they fit, and whatever is sent fits the buffer the client receives into.
-/

namespace RsvpControl.Client

open RsvpControl.Core Server Device Wire

/-! ## Numbers -/

theorem scanD_isInt {input rest : Bytes} {z : Int} (h : scanD input = some (z, rest)) :
    IsInt z := by
  obtain ⟨⟨scanned, left⟩, -, heq⟩ := Option.map_eq_some_iff.mp h
  cases heq
  exact narrow_isInt scanned

theorem atoi_isInt (buffer : Bytes) : IsInt (atoi buffer) := by
  unfold atoi
  split
  · decide
  · next z rest hscan => exact scanD_isInt hscan

theorem parseCommand_isInt {buffer : Bytes} {cmd : Command} (h : parseCommand buffer = some cmd) :
    IsInt cmd.param1 := by
  unfold parseCommand at h
  split at h
  · cases h
  · split at h
    · cases h
      show IsInt 0
      decide
    · next param1 rest hscan =>
        split at h <;> cases h <;> exact scanD_isInt hscan

theorem commandReceived_isInt {buffer : Bytes} {cmd : Command}
    (h : (∃ prompt, commandReceived buffer = .askParameter cmd prompt) ∨
      commandReceived buffer = .push cmd) : IsInt cmd.param1 := by
  unfold commandReceived at h
  split at h
  · simp at h
  · next parsed hparse =>
      have hint := parseCommand_isInt hparse
      repeat' split at h
      all_goals simp_all

def carried : CommPc → Option Command
  | .sendPrompt cmd _ | .recvReply cmd | .lock cmd | .push cmd => some cmd
  | _ => none

theorem carried_signalled (pc : CommPc) : carried pc.signalled = carried pc := by
  cases pc <;> rfl

/-- Parameters are the `int`s that `sscanf` and `atoi` make of what is received. -/
structure Ints (s : System) : Prop where
  carried : ∀ cmd, carried s.comm = some cmd → IsInt cmd.param1
  pushed : ∀ e ∈ s.pushed, IsInt e.2.param1

theorem ints_init (server_ip : Bytes) : Ints (System.init server_ip) where
  carried cmd h := by cases h
  pushed e he := by cases he

section Steps

variable {s s' : System}

theorem carried_step {a : Action} (hs : s.step a = some s')
    (h : ∀ cmd, carried s.comm = some cmd → IsInt cmd.param1) (cmd : Command)
    (hcmd : carried s'.comm = some cmd) : IsInt cmd.param1 := by
  have hkept : s'.comm = s.comm ∨ s'.comm = s.comm.signalled → IsInt cmd.param1 := by
    rintro (heq | heq)
    · exact h cmd (heq ▸ hcmd)
    · exact h cmd ((carried_signalled s.comm).symm.trans (heq ▸ hcmd))
  cases a with
  | main accepted ok =>
      rcases (stepMain_control hs).2.2.2.2.2.2.2.2 with heq | heq | ⟨heq, -⟩ | ⟨heq, -⟩
      · exact hkept (.inl heq)
      · exact hkept (.inr heq)
      · rw [heq] at hcmd
        cases hcmd
      · rw [heq] at hcmd
        cases hcmd
  | comm ok =>
      revert hs
      simp only [System.step]
      fun_cases System.stepComm s ok
      all_goals intro hs
      all_goals cases hs
      all_goals simp_all [carried]
      · exact commandReceived_isInt (.inl ⟨_, by assumption⟩)
      · exact commandReceived_isInt (.inr (by assumption))
      · subst hcmd
        exact atoi_isInt _
  | commWake wake =>
      obtain ⟨_, _, rfl⟩ := wakeComm_eq hs
      cases hcmd
  | device mallocOk createOk level => exact hkept (stepDevice_control hs).2.2.2.2
  | deviceWake wake =>
      obtain ⟨_, rfl⟩ := wakeDevice_eq hs
      exact hkept (.inl rfl)
  | interrupt | hangUp socket | libraries devices =>
      cases hs
      exact hkept (.inl rfl)
  | arrive socket chunk =>
      simp only [System.step] at hs
      repeat' split at hs
      all_goals cases hs
      exact hkept (.inl rfl)

theorem Ints.step {a : Action} {queued dropped : List Nat} (h : Ints s)
    (hledger : Ledger s queued dropped) (hs : s.step a = some s') : Ints s' := by
  refine ⟨carried_step hs h.carried, ?_⟩
  cases step_blocks hs with
  | same hsame => exact hsame.pushed ▸ h.pushed
  | push cmd hcomm _ hpushed _ _ _ _ =>
      intro e he
      rw [hpushed] at he
      rcases List.mem_append.mp he with hold | hnew
      · exact h.pushed e hold
      · rw [List.mem_singleton.mp hnew]
        exact h.carried cmd (by rw [hcomm]; rfl)
  | popNull hne hpop => exact absurd hpop (hledger.pop_some hne)
  | pop _ _ _ _ _ hpushed | dispatch _ _ _ _ _ _ _ hpushed | free _ _ _ _ hpushed
  | clean _ _ hpushed => exact hpushed ▸ h.pushed

theorem read_pushed {queued dropped : List Nat} (h : Ledger s queued dropped) {block frees : Nat}
    {cmd : Command} (hread : s.heap[block]? = some ⟨cmd, frees⟩) : (block, cmd) ∈ s.pushed := by
  have hmem : block ∈ s.pushed.map Prod.fst := by
    rw [h.names, List.mem_range]
    exact (List.getElem?_eq_some_iff.mp hread).1
  obtain ⟨e, he, rfl⟩ := List.mem_map.mp hmem
  obtain ⟨frees', hcontents⟩ := h.contents e he
  rw [hread, Option.some.injEq, Block.mk.injEq] at hcontents
  rw [hcontents.1]
  exact he

end Steps

/-! ## Messages -/

/-- In the 256 bytes of `CommandResponse`, its terminator included. -/
def Brief (message : Bytes) : Prop := message.length < 256

instance (message : Bytes) : Decidable (Brief message) := inferInstanceAs (Decidable (_ < _))

theorem brief_number {before after : Bytes} (h : before.length + after.length ≤ 64) {z : Int}
    (hz : IsInt z) : Brief (before ++ Decimal.printInt z ++ after) := by
  have hle := printInt_length_of_isInt hz
  simp only [Brief, List.length_append]
  omega

theorem brief_last {before : Bytes} (h : before.length ≤ 64) {z : Int} (hz : IsInt z) :
    Brief (before ++ Decimal.printInt z) := by
  have hle := printInt_length_of_isInt hz
  simp only [Brief, List.length_append]
  omega

theorem brief_dispatch {cmd : Command} (hcmd : IsInt cmd.param1) (mallocOk createOk : Bool)
    (state : DeviceState) : Brief (dispatch cmd mallocOk createOk state).2.message := by
  have hparts : (text "Invalid brightness level: ").length + (text " (use 1-3)").length ≤ 64 ∧
      (text "Brightness set to ").length ≤ 64 ∧ (text "Playing music ").length ≤ 64 ∧
      (text "Invalid countdown seconds: ").length + (text " (use 1-9)").length ≤ 64 ∧
      (text "Countdown started from ").length + (text " (will play music at 0)").length ≤ 64 := by
    decide +kernel
  obtain ⟨hlevel, hset, hplaying, hseconds, hstarted⟩ := hparts
  have hfixed : ∀ message ∈ [text "LED turned ON", text "Failed to turn ON LED",
      text "LED turned OFF", text "Failed to turn OFF LED", text "Failed to set brightness",
      text "Music already playing", text "Failed to start music", text "No music playing",
      text "Music stopped", text "Failed to stop music", text "Sensor monitoring started",
      text "Sensor monitoring stopped", text "Countdown already in progress",
      text "Failed to start countdown", text "No countdown in progress", text "Countdown stopped",
      text "Failed to stop countdown", text "Unknown command"], Brief message := by
    decide +kernel
  unfold dispatch
  cases cmd.type with
  | ledOn =>
      simp only [processLedOn]
      split <;> exact hfixed _ (by simp [success, Device.failure])
  | ledOff =>
      simp only [processLedOff]
      split <;> exact hfixed _ (by simp [success, Device.failure])
  | setBrightness =>
      simp only [processSetBrightness]
      split
      · exact brief_number hlevel hcmd
      · split
        · exact brief_last hset hcmd
        · exact hfixed _ (by simp [Device.failure])
  | buzzerOn =>
      have hnumber : IsInt (if cmd.param1 < MUSIC_SCHOOL_BELL ∨ cmd.param1 > MUSIC_BUTTERFLY then
          MUSIC_SCHOOL_BELL else cmd.param1) := by
        split
        · decide
        · exact hcmd
      simp only [processBuzzerOn]
      generalize (if cmd.param1 < MUSIC_SCHOOL_BELL ∨ cmd.param1 > MUSIC_BUTTERFLY then
        MUSIC_SCHOOL_BELL else cmd.param1) = music_num at hnumber ⊢
      split
      · exact hfixed _ (by simp [Device.failure])
      · split
        · exact brief_last hplaying hnumber
        · exact hfixed _ (by simp [Device.failure])
  | buzzerOff =>
      simp only [processBuzzerOff]
      repeat' split
      all_goals exact hfixed _ (by simp [success, Device.failure])
  | sensorOn | sensorOff => exact hfixed _ (by simp [processSensorOn, processSensorOff, success])
  | segmentDisplay =>
      simp only [processSegmentDisplay]
      split
      · exact brief_number hseconds hcmd
      · repeat' split
        all_goals first
          | exact brief_number hstarted hcmd
          | exact hfixed _ (by simp [Device.failure])
  | segmentStop =>
      simp only [processSegmentStop]
      repeat' split
      all_goals exact hfixed _ (by simp [success, Device.failure])
  | exit | other pattern => exact hfixed _ (by simp [Device.failure])

/-- Every message of a run is printed whole into its response. -/
structure Messages (s : System) : Prop where
  ints : Ints s
  printed : Answers Printed s
  brief : Answers Brief s

theorem messages_of_reachable {server_ip : Bytes} {s : System}
    (h : (serverMachine server_ip).Reachable s) : Messages s := by
  refine Machine.ReachableUnder.invariant ?_ ?_ h
  · exact ⟨ints_init server_ip, answers_init server_ip (by decide), answers_init server_ip (by decide)⟩
  · intro t a t' ht hmessages _ hs
    obtain ⟨queued, dropped, hledger⟩ := ledger_of_reachable ht
    refine ⟨hmessages.ints.step hledger hs, hmessages.printed.step printed_dispatch hs,
      hmessages.brief.step_of_read ?_ hs⟩
    intro block cmd frees hread
    exact brief_dispatch (hmessages.ints.pushed _ (read_pushed hledger hread))

/-! ## What is sent -/

/-- What the server may be about to send. -/
def Utters (s : System) (message : Bytes) : Prop :=
  utterance s.comm = some message ∨ message = welcome s.server_ip ∨ message = serverBusy

theorem sent_send_cases (s : System) (k : Nat) (message : Bytes) (ok : Bool) :
    (s.send k message ok).sent = s.sent ∨
      (s.send k message ok).sent = s.sent.modify k (· ++ [message]) := by
  cases ok with
  | false => exact .inl rfl
  | true => exact .inr (sent_send s k message true)

section Sent

variable {s s' : System}

theorem sent_of_send {k : Nat} {message : Bytes} {ok : Bool}
    (hsent : s'.sent = (s.send k message ok).sent) (hutters : Utters s message) :
    s'.sent = s.sent ∨ s'.sent = s.sent ++ [[]] ∨
      ∃ k message, Utters s message ∧ s'.sent = s.sent.modify k (· ++ [message]) := by
  rw [hsent]
  rcases sent_send_cases s k message ok with hsame | hone
  · exact .inl hsame
  · exact .inr (.inr ⟨k, message, hutters, hone⟩)

/-- A step opens a connection, or sends one text on one, or neither. -/
theorem sent_step {a : Action} (hs : s.step a = some s') :
    s'.sent = s.sent ∨ s'.sent = s.sent ++ [[]] ∨
      ∃ k message, Utters s message ∧ s'.sent = s.sent.modify k (· ++ [message]) := by
  cases a with
  | main accepted ok =>
      revert hs
      simp only [System.step]
      fun_cases System.stepMain s accepted ok
      all_goals intro hs
      all_goals cases hs
      all_goals first
        | exact .inl rfl
        | exact .inl (sent_close _ _)
        | exact .inr (.inl List.map_append)
        | exact sent_of_send (sent_close _ _) (.inr (.inr rfl))
  | comm ok =>
      revert hs
      simp only [System.step]
      fun_cases System.stepComm s ok
      all_goals intro hs
      all_goals cases hs
      all_goals first
        | exact .inl rfl
        | exact .inl (sent_recv (by assumption))
        | exact .inl (sent_close _ _)
        | refine sent_of_send rfl ?_
          simp_all [Utters, utterance]
        | refine @sent_of_send s _ _ _ true rfl ?_
          simp_all [Utters, utterance]
  | commWake wake =>
      obtain ⟨_, _, rfl⟩ := wakeComm_eq hs
      exact .inl rfl
  | device mallocOk createOk level =>
      left
      rw [System.sent, (stepDevice_frame hs).2.1, System.sent]
  | deviceWake wake =>
      obtain ⟨_, rfl⟩ := wakeDevice_eq hs
      exact .inl rfl
  | interrupt | libraries devices =>
      cases hs
      exact .inl rfl
  | hangUp socket =>
      cases hs
      exact .inl (map_modify_same _ _ fun _ => rfl)
  | arrive socket chunk =>
      simp only [System.step] at hs
      repeat' split at hs
      all_goals cases hs
      exact .inl (map_modify_same _ _ fun _ => rfl)

end Sent

/-! ## Whole texts -/

/-- A text of the server with nothing cut off. -/
inductive Told (server_ip : Bytes) : Bytes → Prop
  /-- The line with the URL, in its frame. -/
  | welcome {top bottom : Bytes} (hend : text "╝\n\n" <:+ bottom) :
      Told server_ip (top ++
        padRight 48 (text "http://" ++ server_ip ++ text ":" ++
          Decimal.printNat WEB_SERVER_PORT) ++ bottom)
  | menu : Told server_ip Server.menu
  | prompt {type : CommandType} {message : Bytes} (h : parameterPrompt type = some message) :
      Told server_ip message
  | notice {message : Bytes}
      (h : message ∈ [invalidFormat, disconnecting, queueFull, commandTimeout, serverBusy]) :
      Told server_ip message
  | response {status : Int} {message : Bytes} (hbrief : Brief message) :
      Told server_ip ((if status = 0 then text "[SUCCESS] " else text "[ERROR] ") ++ message ++
        text "\n")

instance (message : Bytes) : Decidable (FitsRecv message) := inferInstanceAs (Decidable (_ ∧ _))

theorem truncated_of_lt {size : Nat} {m : Bytes} (h : m.length < size) : truncated size m = m :=
  List.take_of_length_le (by omega)

theorem serverIp_length (ifaddr : Option (List Interface)) : (serverIp ifaddr).length < 64 := by
  have hdefault : (text "127.0.0.1").length < 64 ∧ (text "localhost").length < 64 := by
    decide +kernel
  unfold serverIp getServerIp
  cases ifaddr with
  | none => exact hdefault.2
  | some interfaces =>
      simp only [Option.map_some]
      split
      · rw [List.length_take]
        omega
      · rw [List.length_take]
        omega

theorem welcome_told {server_ip : Bytes} (h : server_ip.length < 64) :
    Told server_ip (welcome server_ip) ∧ FitsRecv (welcome server_ip) := by
  obtain ⟨top, bottom, hwelcome, -, -, -, -, hlength, hend⟩ := welcome_parts
  have hfixed : (text "http://").length + (text ":").length +
      (Decimal.printNat WEB_SERVER_PORT).length = 12 := by
    decide +kernel
  have hurl : (text "http://" ++ server_ip ++ text ":" ++
      Decimal.printNat WEB_SERVER_PORT).length ≤ 75 := by
    simp only [List.length_append]
    omega
  have hwhole : welcomeUrl server_ip = text "http://" ++ server_ip ++ text ":" ++
      Decimal.printNat WEB_SERVER_PORT :=
    truncated_of_lt (by omega)
  have hsize : (top ++ padRight 48 (welcomeUrl server_ip) ++ bottom).length ≤ 993 := by
    rw [hwhole]
    simp only [padRight, List.length_append, List.length_replicate] at hurl ⊢
    omega
  rw [hwelcome, truncated_of_lt (by omega)]
  refine ⟨hwhole ▸ .welcome hend, ?_, Nat.lt_of_le_of_lt hsize (by decide)⟩
  simp only [padRight, List.length_append, List.length_replicate]
  omega

theorem responseLine_told {server_ip : Bytes} {response : CommandResponse}
    (h : Brief response.message) :
    Told server_ip (responseLine response) ∧ FitsRecv (responseLine response) := by
  have hlabels : (text "[SUCCESS] ").length = 10 ∧ (text "[ERROR] ").length = 8 ∧
      (text "\n").length = 1 := by
    decide +kernel
  have hline : 0 < ((if response.status = 0 then text "[SUCCESS] " else text "[ERROR] ") ++
      response.message ++ text "\n").length ∧
      ((if response.status = 0 then text "[SUCCESS] " else text "[ERROR] ") ++
        response.message ++ text "\n").length < 512 := by
    unfold Brief at h
    simp only [List.length_append]
    split <;> omega
  rw [responseLine, truncated_of_lt hline.2]
  exact ⟨.response h, hline.1, Nat.lt_trans hline.2 (by decide)⟩

theorem utters_told {ifaddr : Option (List Interface)} {s : System} {message : Bytes}
    (hmessages : Messages s) (hspoken : Spoken s) (hip : s.server_ip = serverIp ifaddr)
    (h : Utters s message) :
    Told (serverIp ifaddr) message ∧ FitsRecv message ∧ 0 ∉ message := by
  have hnotice : ∀ m ∈ [invalidFormat, disconnecting, queueFull, commandTimeout, serverBusy],
      FitsRecv m ∧ 0 ∉ m := by
    decide +kernel
  have hnoticed : ∀ m ∈ [invalidFormat, disconnecting, queueFull, commandTimeout, serverBusy],
      Told (serverIp ifaddr) m ∧ FitsRecv m ∧ 0 ∉ m := fun m hm => ⟨.notice hm, hnotice m hm⟩
  rcases h with hpc | rfl | rfl
  · cases hcomm : s.comm with
    | sendMenu =>
        rw [hcomm] at hpc
        cases hpc
        exact ⟨.menu, by decide +kernel, by decide +kernel⟩
    | sendPrompt cmd prompt =>
        rw [hcomm] at hpc
        cases hpc
        have hasked := hspoken.prompting cmd message hcomm
        refine ⟨.prompt hasked, ?_⟩
        unfold parameterPrompt at hasked
        split at hasked <;> cases hasked <;> exact ⟨by decide +kernel, by decide +kernel⟩
    | sendResponse response =>
        rw [hcomm] at hpc
        cases hpc
        have htold : Told (serverIp ifaddr) (responseLine response) ∧
            FitsRecv (responseLine response) :=
          responseLine_told (hmessages.brief.sending response hcomm)
        exact ⟨htold.1, htold.2, (printed_responseLine (hmessages.printed.sending response hcomm)).2⟩
    | _ =>
        rw [hcomm] at hpc
        cases hpc
        all_goals exact hnoticed _ (by simp)
  · rw [hip]
    exact ⟨(welcome_told (serverIp_length ifaddr)).1, (welcome_told (serverIp_length ifaddr)).2,
      (calm_welcome ifaddr).nul⟩
  · exact hnoticed _ (by simp)

structure SentWhole (ip : Bytes) (s : System) : Prop where
  server_ip : s.server_ip = ip
  sent : ∀ texts ∈ s.sent, ∀ message ∈ texts, Told ip message ∧ FitsRecv message ∧ 0 ∉ message

theorem SentWhole.step {ifaddr : Option (List Interface)} {s s' : System} {a : Action}
    (h : SentWhole (serverIp ifaddr) s) (hmessages : Messages s) (hspoken : Spoken s)
    (hs : s.step a = some s') : SentWhole (serverIp ifaddr) s' := by
  refine ⟨(step_server_ip hs).trans h.server_ip, ?_⟩
  intro texts htexts message hmessage
  rcases sent_step hs with hsame | hopened | ⟨k, text, hutters, hone⟩
  · exact h.sent texts (hsame ▸ htexts) message hmessage
  · rw [hopened] at htexts
    rcases List.mem_append.mp htexts with hold | hnew
    · exact h.sent texts hold message hmessage
    · rw [List.mem_singleton.mp hnew] at hmessage
      cases hmessage
  · rw [hone] at htexts
    obtain ⟨i, hi⟩ := List.mem_iff_getElem?.mp htexts
    rw [List.getElem?_modify] at hi
    obtain ⟨before, hbefore, heq⟩ := Option.map_eq_some_iff.mp hi
    have hold : ∀ m ∈ before, Told (serverIp ifaddr) m ∧ FitsRecv m ∧ 0 ∉ m :=
      h.sent before (List.mem_of_getElem? hbefore)
    split at heq
    · subst heq
      rcases List.mem_append.mp hmessage with hpast | hnow
      · exact hold message hpast
      · rw [List.mem_singleton.mp hnow]
        exact utters_told hmessages hspoken h.server_ip hutters
    · subst heq
      exact hold message hmessage

/-- In every run of the server, whatever its interfaces and whatever the clients send: the
message of a response fits its 256 bytes, and each text sent is one of the server's
texts with nothing cut off, without a NUL, and fits one `recv` of the client. -/
theorem texts_sent_whole {ifaddr : Option (List Interface)} {s : System}
    (h : (serverMachine (serverIp ifaddr)).Reachable s) :
    Brief s.response.message ∧ ∀ socket ∈ s.sockets, ∀ message ∈ socket.sent,
      Told (serverIp ifaddr) message ∧ FitsRecv message ∧ 0 ∉ message := by
  refine ⟨(messages_of_reachable h).brief.slot, ?_⟩
  have hsent : SentWhole (serverIp ifaddr) s := by
    refine Machine.ReachableUnder.invariant ⟨rfl, fun _ ht => nomatch ht⟩ ?_ h
    intro t a t' ht hi _ hs
    exact hi.step (messages_of_reachable ht) (spoken_of_reachable ht) hs
  intro socket hsocket
  exact hsent.sent socket.sent (List.mem_map_of_mem hsocket)

/-- The longest message there is, from the longest parameter. -/
theorem longest_parameter_sent :
    ∃ s socket, (serverMachine (serverIp none)).Reachable s ∧ socket ∈ s.sockets ∧
      socket.sent.getLast? =
        some (text "[ERROR] Invalid countdown seconds: -2147483648 (use 1-9)\n") ∧
      ∀ message ∈ socket.sent,
        Told (serverIp none) message ∧ FitsRecv message ∧ 0 ∉ message := by
  have hrun : ((serverMachine (serverIp none)).exec (System.init (serverIp none))
      (connect ++ pushLine (text "8 -2147483648 0\n") ++ deviceSteps 6 ++ commSteps 3)).any
        (fun s => decide (s.sockets.map (fun socket => socket.sent.getLast?) =
          [some (text "[ERROR] Invalid countdown seconds: -2147483648 (use 1-9)\n")])) = true := by
    decide +kernel
  obtain ⟨s, hreach, hfacts⟩ := Machine.Reachable.exists_of_exec hrun
  have hlast := of_decide_eq_true hfacts
  cases hsockets : s.sockets with
  | nil =>
      rw [hsockets] at hlast
      cases hlast
  | cons socket rest =>
      rw [hsockets, List.map_cons, List.cons.injEq] at hlast
      have hmem : socket ∈ s.sockets := hsockets ▸ List.mem_cons_self
      exact ⟨s, socket, hreach, hmem, hlast.1, (texts_sent_whole hreach).2 socket hmem⟩

end RsvpControl.Client
