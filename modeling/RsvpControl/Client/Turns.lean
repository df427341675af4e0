import RsvpControl.Client.Conversation

/-! # Turns

While a session is open, exactly one of the server, the client and the user has
the turn: the server works and what it has sent is plain, or its menu or prompt is
on the way, or the user is asked, or the client's message is on the way. Every
event passes the turn on, except an answer for which the client sends nothing.
-/

namespace RsvpControl.Client

open RsvpControl.Core Server

/-! ## Whose turn it is -/

/-- The client's program point, the server's, the bytes in flight to the server and
the messages in flight to the client after the welcome. -/
inductive Turn : ClientPc → CommPc → List Bytes → List Bytes → Prop
  | serverWorks {client : ClientPc} {comm : CommPc} {pending : List Bytes}
      (waits : client.waits = true) (works : inRecv comm = false)
      (plain : ∀ m ∈ pending, Plain m) : Turn client comm [] pending
  | clientReads {client : ClientPc} {comm : CommPc} {pending : List Bytes} {prompt : Bytes}
      (waits : client.waits = true) (asked : Asked comm prompt)
      (plain : ∀ m ∈ pending, Plain m) : Turn client comm [] (pending ++ [prompt])
  | userChooses : Turn .choice .recvCommand [] []
  | userReplies {cmd : Command} : Turn .param (.recvReply cmd) [] []
  | serverReads {client : ClientPc} {comm : CommPc} {message : Bytes}
      (waits : client.waits = true) (receives : inRecv comm = true) :
      Turn client comm [message] []

theorem inRecv_of_asked {pc : CommPc} {m : Bytes} (h : Asked pc m) : inRecv pc = true := by
  cases pc with
  | recvCommand => rfl
  | recvReply cmd => rfl
  | _ => cases h

/-- A thread that is not in `recv` has the turn. -/
theorem Turn.working {client : ClientPc} {comm : CommPc} {inbox pending : List Bytes}
    (h : Turn client comm inbox pending) (hworks : inRecv comm = false) :
    client.waits = true ∧ inbox = [] ∧ ∀ m ∈ pending, Plain m := by
  cases h with
  | serverWorks waits _ plain => exact ⟨waits, rfl, plain⟩
  | clientReads _ asked _ =>
      rw [inRecv_of_asked asked] at hworks
      cases hworks
  | userChooses => cases hworks
  | userReplies => cases hworks
  | serverReads _ receives =>
      rw [receives] at hworks
      cases hworks

/-- When both wait to receive, something is in flight. -/
theorem Turn.in_flight {client : ClientPc} {comm : CommPc} {inbox pending : List Bytes}
    (h : Turn client comm inbox pending) (hwaits : client.waits = true)
    (hrecv : inRecv comm = true) : inbox ≠ [] ∨ pending ≠ [] := by
  cases h with
  | serverWorks _ works _ =>
      rw [works] at hrecv
      cases hrecv
  | clientReads => exact Or.inr (by simp)
  | userChooses => cases hwaits
  | userReplies => cases hwaits
  | serverReads => exact Or.inl (by simp)

/-- The welcome is read whatever it contains. -/
theorem Turn.greet {comm : CommPc} {inbox pending : List Bytes}
    (h : Turn .connect comm inbox pending) : Turn .receive comm inbox pending := by
  cases h with
  | serverWorks _ works plain => exact .serverWorks rfl works plain
  | clientReads _ asked plain => exact .clientReads rfl asked plain
  | serverReads _ receives => exact .serverReads rfl receives

theorem onReceived_ne_connect (m : Bytes) : onReceived m ≠ .connect := by
  unfold onReceived
  repeat' split
  all_goals simp

theorem Turn.user {client : ClientPc} {comm : CommPc} {inbox pending : List Bytes}
    (h : Turn client comm inbox pending) (hclient : client = .choice ∨ client = .param) :
    inRecv comm = true ∧ inbox = [] ∧ pending = [] := by
  have hwaits : client.waits = false := by rcases hclient with rfl | rfl <;> rfl
  cases h with
  | serverWorks waits _ _ =>
      rw [hwaits] at waits
      cases waits
  | clientReads waits _ _ =>
      rw [hwaits] at waits
      cases waits
  | userChooses => exact ⟨rfl, rfl, rfl⟩
  | userReplies => exact ⟨rfl, rfl, rfl⟩
  | serverReads waits _ =>
      rw [hwaits] at waits
      cases waits

theorem Turn.not_left {client : ClientPc} {comm : CommPc} {inbox pending : List Bytes}
    (h : Turn client comm inbox pending) : client.left = false := by
  have hwaits : client.waits = true → client.left = false := by
    cases client <;> simp [ClientPc.waits, ClientPc.left]
  cases h with
  | serverWorks waits _ _ => exact hwaits waits
  | clientReads waits _ _ => exact hwaits waits
  | userChooses => rfl
  | userReplies => rfl
  | serverReads waits _ => exact hwaits waits

theorem Turn.read_message {client : ClientPc} {comm : CommPc} {m : Bytes}
    {rest pending : List Bytes} (h : Turn client comm (m :: rest) pending) :
    client.waits = true ∧ rest = [] ∧ pending = [] := by
  cases h with
  | serverReads waits _ => exact ⟨waits, rfl, rfl⟩

theorem Turn.receive {comm : CommPc} {m : Bytes} {inbox pending : List Bytes}
    (h : Turn .receive comm inbox (m :: pending)) : Turn (onReceived m) comm inbox pending := by
  generalize hall : m :: pending = messages at h
  cases h with
  | serverWorks _ works plain =>
      subst hall
      rw [onReceived_plain (plain m List.mem_cons_self)]
      exact .serverWorks rfl works fun p hp => plain p (List.mem_cons_of_mem _ hp)
  | @clientReads _ _ plains prompt _ asked plain =>
      cases plains with
      | nil =>
          obtain ⟨rfl, rfl⟩ := List.cons.inj hall
          cases comm with
          | recvCommand =>
              rw [show m = menu from asked, onReceived_menu]
              exact .userChooses
          | recvReply cmd =>
              rw [onReceived_prompt asked]
              exact .userReplies
          | _ => cases asked
      | cons p plains =>
          obtain ⟨rfl, rfl⟩ := List.cons.inj hall
          rw [onReceived_plain (plain _ List.mem_cons_self)]
          exact .clientReads rfl asked fun q hq => plain q (List.mem_cons_of_mem _ hq)
  | serverReads => cases hall

theorem Turn.of_frame {client : ClientPc} {comm comm' : CommPc} {inbox pending : List Bytes}
    (h : Turn client comm inbox pending)
    (hcomm : comm' = comm ∨ comm' = comm.signalled ∨
      ∃ block inTime, comm = .waiting block ∧ comm' = .woken block inTime) :
    Turn client comm' inbox pending ∧ (comm' = .start ↔ comm = .start) ∧
      comm'.inSession = comm.inSession := by
  have hwaiting : ∀ block inTime, comm = .waiting block → comm' = .woken block inTime →
      Turn client comm' inbox pending ∧ (comm' = .start ↔ comm = .start) ∧
        comm'.inSession = comm.inSession := by
    rintro block inTime rfl rfl
    obtain ⟨waits, rfl, plain⟩ := h.working rfl
    exact ⟨.serverWorks waits rfl plain, by simp, rfl⟩
  rcases hcomm with rfl | hcomm | ⟨block, inTime, hcomm, hcomm'⟩
  · exact ⟨h, Iff.rfl, rfl⟩
  · cases hpc : comm with
    | waiting block => exact hpc ▸ hwaiting block true hpc (by rw [hcomm, hpc]; rfl)
    | _ =>
        rw [hpc] at hcomm h
        rw [hcomm]
        exact ⟨h, Iff.rfl, rfl⟩
  · exact hwaiting block inTime hcomm hcomm'

/-- A step of the communication thread passes the turn on, unless it closes. -/
theorem Turn.speaks {client : ClientPc} {comm comm' : CommPc} {k k' : Socket} {n : Nat}
    (h : Turn client comm k.inbox (k.sent.drop n)) (hn : n ≤ k.sent.length)
    (hup : k.hungUp = false) (hspeaks : Speaks k comm comm' k') :
    k'.closes = k.closes + 1 ∨
      (Turn client comm' k'.inbox (k'.sent.drop n) ∧ k'.closes = k.closes ∧
        k'.hungUp = false ∧ k.sent <+: k'.sent) := by
  cases hspeaks with
  | silent before after =>
      obtain ⟨waits, hinbox, plain⟩ := h.working before
      rw [hinbox]
      exact Or.inr ⟨.serverWorks waits after plain, rfl, hup, List.prefix_rfl⟩
  | tells before after hplain =>
      obtain ⟨waits, hinbox, plain⟩ := h.working before
      refine Or.inr ⟨?_, rfl, hup, List.prefix_append _ _⟩
      simp only [hinbox, List.drop_append_of_le_length hn]
      refine .serverWorks waits after fun p hp => ?_
      rcases List.mem_append.mp hp with hp | hp
      · exact plain p hp
      · rw [List.mem_singleton.mp hp]
        exact hplain
  | asks before asked =>
      obtain ⟨waits, hinbox, plain⟩ := h.working before
      refine Or.inr ⟨?_, rfl, hup, List.prefix_append _ _⟩
      simp only [hinbox, List.drop_append_of_le_length hn]
      exact .clientReads waits asked plain
  | reads before inbox after =>
      rw [inbox] at h
      obtain ⟨waits, hrest, hpending⟩ := h.read_message
      refine Or.inr ⟨?_, rfl, hup, List.prefix_rfl⟩
      simp only [hrest, hpending]
      exact .serverWorks waits after (by simp)
  | hangs hungUp =>
      rw [hup] at hungUp
      cases hungUp
  | closes => exact Or.inl rfl

/-! ## The open session -/

theorem byServer_frame {socket : Nat} {s s' : System} {a : Action} (hinv : SessionInv s)
    (hin : s.comm.inSession = true) (hby : byServer socket s a = true)
    (hs : s.step a = some s') (ha : ∀ ok, a ≠ .comm ok) :
    (s'.comm = s.comm ∨ s'.comm = s.comm.signalled ∨
      ∃ block inTime, s.comm = .waiting block ∧ s'.comm = .woken block inTime) ∧
    s'.client_socket = s.client_socket ∧ s'.commSocket = s.commSocket ∧
      s'.sockets[socket]? = s.sockets[socket]? := by
  have hreturned : s.comm ≠ .returned := by
    intro hpc
    rw [hpc] at hin
    cases hin
  obtain ⟨hcomm, hclient, hsocket, -, hsockets⟩ :=
    hinv.step_frame hs (inSession_ne_absent hin) (fun hpc => absurd hpc hreturned) ha
  refine ⟨hcomm, hclient, hsocket, hsockets socket ?_ ?_⟩
  · rintro chunk rfl
    simp [byServer] at hby
  · rintro rfl
    simp [byServer] at hby

/-- An open session whose client is still in the loop. -/
structure Held (socket : Nat) (c : Conversation) (k : Socket) : Prop where
  found : c.server.sockets[socket]? = some k
  unclosed : k.closes = 0
  connected : k.hungUp = false
  inSession : c.server.comm.inSession = true
  client_socket : c.server.client_socket = some socket
  commSocket : c.server.comm ≠ .start → c.server.commSocket = socket
  read_le : c.read ≤ k.sent.length
  greeted : c.client = .connect ↔ c.read = 0
  begun : c.server.comm = .start ↔ k.sent = []
  turn : Turn c.client c.server.comm k.inbox (k.sent.drop (max c.read 1))

namespace Held

variable {socket : Nat} {c : Conversation} {k : Socket}

theorem unread_eq (h : Held socket c k) : c.unread socket = k.sent.drop c.read := by
  simp [Conversation.unread, h.found]

theorem sessionOpen (h : Held socket c k) : c.sessionOpen socket = true := by
  simp [Conversation.sessionOpen, h.found, h.unclosed]

/-- Once the client is in its loop, all unread messages come after the welcome. -/
theorem pending_eq (h : Held socket c k) (hclient : c.client ≠ .connect) :
    k.sent.drop (max c.read 1) = k.sent.drop c.read := by
  have hread : c.read ≠ 0 := fun hzero => hclient (h.greeted.mpr hzero)
  rw [Nat.max_eq_left (Nat.one_le_iff_ne_zero.mpr hread)]

theorem inbox_eq (h : Held socket c k) (hstart : c.server.comm ≠ .start) :
    c.server.inbox = k.inbox ∧ c.server.hungUp = false := by
  simp [System.inbox, System.hungUp, h.commSocket hstart, h.found, h.connected]

theorem not_deadlocked (h : Held socket c k) : c.deadlocked socket = false := by
  cases hdead : c.deadlocked socket with
  | false => rfl
  | true =>
      simp only [Conversation.deadlocked, Bool.and_eq_true, List.isEmpty_iff] at hdead
      obtain ⟨⟨⟨⟨-, hwaits⟩, -⟩, hblocked⟩, hunread⟩ := hdead
      have hrecv : inRecv c.server.comm = true ∧ c.server.inbox = [] := by
        unfold System.blockedInRecv at hblocked
        cases hpc : c.server.comm <;> simp_all [inRecv]
      have hstart : c.server.comm ≠ .start := by
        intro hpc
        rw [hpc] at hrecv
        cases hrecv.1
      rw [(h.inbox_eq hstart).1] at hrecv
      rw [h.unread_eq, List.drop_eq_nil_iff] at hunread
      have hpending : k.sent.drop (max c.read 1) = [] := List.drop_eq_nil_iff.mpr (by omega)
      rcases h.turn.in_flight hwaits hrecv.1 with hinbox | hflight
      · exact absurd hrecv.2 hinbox
      · exact absurd hpending hflight

theorem start (h : Held socket c k) (hpc : c.server.comm = .start) {s' : System} {ok : Bool}
    (hok : (ok || !sends c.server.comm) = true) (hs : c.server.stepComm ok = some s') :
    ∃ k', Held socket { c with server := s' } k' := by
  have hsent := h.begun.mp hpc
  have hread : c.read = 0 := by
    have hle := h.read_le
    rw [hsent] at hle
    exact Nat.le_zero.mp hle
  obtain rfl : ok = true := by simpa [hpc, sends] using hok
  have hworks : inRecv c.server.comm = false := by rw [hpc]; rfl
  obtain ⟨hwaits, hinbox, -⟩ := h.turn.working hworks
  simp only [System.stepComm, hpc, h.client_socket] at hs
  cases hs
  refine ⟨{ k with sent := k.sent ++ [welcome c.server.server_ip] }, ?_, h.unclosed, h.connected,
    rfl, h.client_socket, fun _ => rfl, ?_, h.greeted, ?_, ?_⟩
  · simp [System.send, h.found]
  · simp [hread]
  · simp
  · simp only [hinbox, hread, hsent]
    exact .serverWorks hwaits rfl (by simp)

theorem comm (h : Held socket c k) (hspoken : Spoken c.server) {s' : System} {ok : Bool}
    (hok : (ok || !sends c.server.comm) = true) (hs : c.server.stepComm ok = some s')
    (hopen : Conversation.sessionOpen socket { c with server := s' } = true) :
    ∃ k', Held socket { c with server := s' } k' := by
  by_cases hstart : c.server.comm = .start
  · exact h.start hstart hok hs
  · have hsocket := h.commSocket hstart
    have hk : c.server.sockets[c.server.commSocket]? = some k := by rw [hsocket]; exact h.found
    rcases stepComm_speaks hspoken hk hstart hok hs with
      ⟨hstart', hsocket', -, k', hk', hspeaks, hreturned⟩
    rw [hsocket] at hk'
    have hsent : k.sent ≠ [] := fun hnil => hstart (h.begun.mpr hnil)
    have hbound : max c.read 1 ≤ k.sent.length := by
      have hpos := List.length_pos_iff.mpr hsent
      have hle := h.read_le
      omega
    have hunclosed : k'.closes = 0 := by
      simpa [Conversation.sessionOpen, hk'] using hopen
    rcases h.turn.speaks hbound h.connected hspeaks with hcloses | ⟨hturn, hcloses, hup, hprefix⟩
    · omega
    · have hcontrol := (stepComm_control hs).2.2.2
      have hsession : s'.comm.inSession = true ∧ s'.client_socket = c.server.client_socket := by
        rcases hcontrol with ⟨hin, -, hclient⟩ | ⟨hpc, -⟩
        · exact ⟨hin, hclient⟩
        · have hcount := hreturned hpc
          omega
      refine ⟨k', hk', hunclosed, hup, hsession.1, hsession.2.trans h.client_socket,
        fun _ => hsocket'.trans hsocket, h.read_le.trans hprefix.length_le, h.greeted, ?_, hturn⟩
      have hsent' : k'.sent ≠ [] := fun hnil => hsent (List.prefix_nil.mp (hnil ▸ hprefix))
      simp [hstart', hsent']

theorem others (h : Held socket c k) (hinv : SessionInv c.server) {s' : System} {a : Action}
    (hby : byServer socket c.server a = true) (hs : c.server.step a = some s')
    (ha : ∀ ok, a ≠ .comm ok) : Held socket { c with server := s' } k := by
  obtain ⟨hcomm, hclient, hsocket, hfound⟩ := byServer_frame hinv h.inSession hby hs ha
  obtain ⟨hturn, hstart, hin⟩ := h.turn.of_frame hcomm
  exact ⟨hfound.trans h.found, h.unclosed, h.connected, hin.trans h.inSession,
    hclient.trans h.client_socket,
    fun hne => hsocket.trans (h.commSocket fun hpc => hne (hstart.mpr hpc)),
    h.read_le, h.greeted, hstart.trans h.begun, hturn⟩

theorem greet (h : Held socket c k) (hclient : c.client = .connect) {m : Bytes}
    {rest : List Bytes} (hunread : c.unread socket = m :: rest) :
    Held socket { c with client := .receive, read := c.read + 1 } k := by
  have hread := h.greeted.mp hclient
  have hpos : 0 < k.sent.length := by
    rw [h.unread_eq, hread, List.drop_zero] at hunread
    rw [hunread]
    exact Nat.succ_pos _
  have hturn := h.turn
  rw [hclient, hread] at hturn
  refine ⟨h.found, h.unclosed, h.connected, h.inSession, h.client_socket, h.commSocket, ?_, ?_,
    h.begun, ?_⟩
  · simp only [hread]
    omega
  · simp
  · simp only [hread]
    exact hturn.greet

theorem receive (h : Held socket c k) (hclient : c.client = .receive) {m : Bytes}
    {rest : List Bytes} (hunread : c.unread socket = m :: rest) :
    Held socket { c with client := onReceived m, read := c.read + 1 } k := by
  have hread : c.read ≠ 0 := by
    intro hzero
    have hconnect := h.greeted.mpr hzero
    rw [hclient] at hconnect
    cases hconnect
  rw [h.unread_eq] at hunread
  have hlt : c.read < k.sent.length := by
    by_contra hge
    rw [List.drop_eq_nil_of_le (by omega)] at hunread
    cases hunread
  have hrest : k.sent.drop (max (c.read + 1) 1) = rest := by
    rw [Nat.max_eq_left (by omega), ← List.tail_drop, hunread, List.tail_cons]
  have hturn := h.turn
  rw [h.pending_eq (by simp [hclient]), hunread, hclient] at hturn
  refine ⟨h.found, h.unclosed, h.connected, h.inSession, h.client_socket, h.commSocket, hlt, ?_,
    h.begun, ?_⟩
  · simp [onReceived_ne_connect]
  · rw [hrest]
    exact hturn.receive

/-- Nothing is sent for the answer: both parties wait for each other. -/
theorem unanswered (h : Held socket c k) (hrunning : c.server.server_running = true)
    (hclient : c.client ≠ .connect) (hrecv : inRecv c.server.comm = true)
    (hinbox : k.inbox = []) (hpending : k.sent.drop (max c.read 1) = []) :
    Conversation.deadlocked socket { c with client := .receive } = true := by
  have hstart : c.server.comm ≠ .start := by
    intro hpc
    rw [hpc] at hrecv
    cases hrecv
  have hblocked : c.server.blockedInRecv = true := by
    have hopen := h.inbox_eq hstart
    rw [hinbox] at hopen
    unfold System.blockedInRecv
    cases hpc : c.server.comm <;> simp_all [inRecv]
  have hunread : c.unread socket = [] := by
    rw [h.unread_eq, ← h.pending_eq hclient, hpending]
  have hopen := h.sessionOpen
  simp only [Conversation.deadlocked, Conversation.live, Bool.and_eq_true, List.isEmpty_iff]
  exact ⟨⟨⟨⟨⟨hrunning, hopen⟩, rfl⟩, by simpa using h.commSocket hstart⟩, hblocked⟩, hunread⟩

theorem sent (h : Held socket c k) (hclient : c.client ≠ .connect)
    (hrecv : inRecv c.server.comm = true) (hinbox : k.inbox = [])
    (hpending : k.sent.drop (max c.read 1) = []) {message : Bytes} {s' : System}
    (hs : c.server.step (.arrive socket message) = some s') :
    Held socket { c with server := s', client := .receive } { k with inbox := [message] } := by
  simp only [System.step, h.found] at hs
  split at hs <;> cases hs
  have hread : c.read ≠ 0 := fun hzero => hclient (h.greeted.mpr hzero)
  refine ⟨?_, h.unclosed, h.connected, h.inSession, h.client_socket, h.commSocket, h.read_le, ?_,
    h.begun, ?_⟩
  · simp [h.found, hinbox]
  · simp [hread]
  · simp only [hpending]
    exact .serverReads rfl hrecv

end Held

/-! ## Runs of a conversation -/

/-- One answer: with one the client sends something for, the conversation goes on
or the client leaves; with any other it is stuck. -/
theorem Held.answer {socket : Nat} {c c' : Conversation} {k : Socket} {i : Input}
    (h : Held socket c k) (hrunning : c.server.server_running = true)
    (hs : c.step socket (.answer i) = some c') :
    (c.answersPrompt socket (.answer i) = true ∧
      (c'.client.left = true ∨ ∃ k', Held socket c' k')) ∨
    (c.answersPrompt socket (.answer i) = false ∧ c'.deadlocked socket = true) := by
  have hlive : c.live socket = true := by
    simp [Conversation.live, hrunning, h.sessionOpen]
  simp only [Conversation.step] at hs
  split at hs
  · next hclient =>
      have hne : c.client ≠ .connect := by simp [hclient]
      obtain ⟨hrecv, hinbox, hpending⟩ := h.turn.user (Or.inl hclient)
      simp only [Conversation.answersPrompt, hclient, hlive, Bool.not_true, Bool.false_or]
      cases hchoice : i.isChoice with
      | true =>
          obtain ⟨pc, message, honChoice, hpc, -⟩ := onChoice_of_isChoice hchoice
          rw [honChoice] at hs
          obtain ⟨s', harrive, rfl⟩ := Option.map_eq_some_iff.mp hs
          rcases hpc with rfl | rfl
          · exact Or.inl ⟨rfl, Or.inr ⟨_, h.sent hne hrecv hinbox hpending harrive⟩⟩
          · exact Or.inl ⟨rfl, Or.inl rfl⟩
      | false =>
          rw [onChoice_of_not_isChoice hchoice] at hs
          cases hs
          exact Or.inr ⟨rfl, h.unanswered hrunning hne hrecv hinbox hpending⟩
  · next hclient =>
      have hne : c.client ≠ .connect := by simp [hclient]
      obtain ⟨hrecv, hinbox, hpending⟩ := h.turn.user (Or.inr hclient)
      simp only [Conversation.answersPrompt, hclient, hlive, Bool.not_true, Bool.false_or]
      rcases onParam_cases i with ⟨hnumber, message, honParam, -⟩ | ⟨hnumber, honParam⟩
      · rw [honParam] at hs
        obtain ⟨s', harrive, rfl⟩ := Option.map_eq_some_iff.mp hs
        exact Or.inl ⟨hnumber, Or.inr ⟨_, h.sent hne hrecv hinbox hpending harrive⟩⟩
      · rw [honParam] at hs
        cases hs
        exact Or.inr ⟨hnumber, h.unanswered hrunning hne hrecv hinbox hpending⟩
  · cases hs

/-- Every other event of an open session keeps it, or closes it. -/
theorem Held.event {socket : Nat} {c c' : Conversation} {k : Socket} {e : Event}
    (h : Held socket c k) (hinv : SessionInv c.server) (hspoken : Spoken c.server)
    (he : ∀ i, e ≠ .answer i) (hs : c.step socket e = some c')
    (hopen : c'.sessionOpen socket = true) : ∃ k', Held socket c' k' := by
  cases e with
  | server a =>
      simp only [Conversation.step] at hs
      split at hs
      · next hby =>
          obtain ⟨s', hstep, rfl⟩ := Option.map_eq_some_iff.mp hs
          by_cases ha : ∃ ok, a = .comm ok
          · obtain ⟨ok, rfl⟩ := ha
            exact h.comm hspoken hby hstep hopen
          · exact ⟨k, h.others hinv hby hstep fun ok heq => ha ⟨ok, heq⟩⟩
      · cases hs
  | receive =>
      simp only [Conversation.step] at hs
      split at hs
      · next hclient hunread =>
          cases hs
          exact ⟨k, h.greet hclient hunread⟩
      · next hclient hunread =>
          cases hs
          exact ⟨k, h.receive hclient hunread⟩
      · cases hs
  | answer i => exact absurd rfl (he i)
  | serverClosed =>
      simp only [Conversation.step, h.sessionOpen] at hs
      split at hs <;> simp_all
  | close =>
      simp only [Conversation.step] at hs
      split at hs
      · next hclient =>
          have hstay := h.turn.not_left
          rw [hclient] at hstay
          cases hstay
      · cases hs

end RsvpControl.Client
