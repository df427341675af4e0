import RsvpControl.Client.Deadlock
import RsvpControl.Client.Texts
import RsvpControl.Server.Lifecycle

/-! # Reading user input for prompts

While no `recv` ends inside a word, the client is at its welcome, or has read user
input for every prompt sent and only calm bytes are on the way, or has read for
all but the last, whose word is still on the way. The last prompt is the one the
server waits for an answer to. The welcome alone is nearly as long as the one
`recv` that ignores prompts, so the menu's word never falls into it.
-/

namespace RsvpControl.Client

open RsvpControl.Core Server

/-! ## The server's part of a session -/

structure OpenSession (socket : Nat) (s : System) (k : Socket) : Prop where
  unclosed : k.closes = 0
  connected : k.hungUp = false
  inSession : s.comm.inSession = true
  client_socket : s.client_socket = some socket
  commSocket : s.comm ≠ .start → s.commSocket = socket

/-- What the thread has sent, up to the first command it receives. -/
def Greeted (server_ip : Bytes) : CommPc → List Bytes → Prop
  | .start, sent => sent = []
  | .loopTest, sent => sent = [welcome server_ip]
  | .sendMenu, sent => sent = [welcome server_ip]
  | .teardown, sent => sent = [welcome server_ip]
  | .recvCommand, sent => sent = [welcome server_ip] ++ [menu]
  | _, _ => False

theorem inRecv_of_receives {pc : CommPc} {kind : PromptKind} (h : receives pc = some kind) :
    inRecv pc = true := by
  cases pc with
  | recvCommand | recvReply cmd => rfl
  | _ => cases h

theorem comm_frame {comm comm' : CommPc}
    (hcomm : comm' = comm ∨ comm' = comm.signalled ∨
      ∃ block inTime, comm = .waiting block ∧ comm' = .woken block inTime) :
    comm' = comm ∨ ∃ block inTime, comm = .waiting block ∧ comm' = .woken block inTime := by
  rcases hcomm with hcomm | hcomm | hcomm
  · exact Or.inl hcomm
  · cases hpc : comm with
    | waiting block => exact Or.inr ⟨block, true, rfl, by rw [hcomm, hpc]; rfl⟩
    | _ => exact Or.inl (by rw [hcomm, hpc]; rfl)
  · exact Or.inr hcomm

/-- What the server keeps to in every session. -/
structure ServerInv (s : System) : Prop where
  sessions : SessionInv s
  connections : ConnectionInv s
  spoken : Spoken s
  answers : Answers Printed s
  welcome : Calm (welcome s.server_ip)

theorem ServerInv.step {s s' : System} {a : Action} (h : ServerInv s) (hs : s.step a = some s') :
    ServerInv s' :=
  ⟨h.sessions.step hs, h.connections.step h.sessions hs, h.spoken.step hs,
    h.answers.step printed_dispatch hs, (step_server_ip hs).symm ▸ h.welcome⟩

theorem stepComm_sent {s s' : System} {k : Socket} {ok : Bool}
    (hk : s.sockets[s.commSocket]? = some k) (hstart : s.comm ≠ .start)
    (hok : (ok || !sends s.comm) = true) (hs : s.stepComm ok = some s') :
    s'.sockets[s.commSocket]?.map Socket.sent = some (k.sent ++ (utterance s.comm).toList) := by
  have hrecv : ∀ sockets result, s.recv = some (sockets, result) →
      sockets[s.commSocket]?.map Socket.sent = some k.sent := by
    intro sockets result hrecv
    rcases recv_socket hk hrecv with ⟨-, hsame, -⟩ | ⟨_, _, -, -, hfound⟩
    · rw [hsame, hk]
      rfl
    · rw [hfound]
      rfl
  cases hpc : s.comm with
  | start => exact absurd hpc hstart
  | recvCommand | recvReply cmd =>
      simp only [System.stepComm, hpc] at hs
      repeat' split at hs
      all_goals cases hs
      all_goals
        simpa [utterance] using hrecv _ _ (by assumption)
  | sendMenu | sendInvalid | sendBye | sendPrompt cmd prompt | sendFull | sendResponse response
  | sendTimeout =>
      obtain rfl : ok = true := by simpa [hpc, sends] using hok
      simp only [System.stepComm, hpc] at hs
      cases hs
      simp [getElem?_send _ hk, utterance]
  | teardown =>
      simp only [System.stepComm, hpc] at hs
      cases hs
      simp [System.close, hk, utterance]
  | _ =>
      simp only [System.stepComm, hpc] at hs
      repeat' split at hs
      all_goals cases hs
      all_goals simp [System.signalNotEmpty, hk, utterance]

theorem stepComm_prompting {s s' : System} {ok : Bool} (hprompting : prompting s.comm = true)
    (hs : s.stepComm ok = some s') : inRecv s'.comm = true := by
  cases hpc : s.comm with
  | sendMenu | sendPrompt cmd prompt =>
      simp only [System.stepComm, hpc] at hs
      cases hs
      rfl
  | _ =>
      rw [hpc] at hprompting
      cases hprompting

theorem Speaks.hung_up_eq {k k' : Socket} {pc pc' : CommPc} (h : Speaks k pc pc' k') :
    k'.hungUp = k.hungUp := by
  cases h <;> rfl

theorem OpenSession.comm {socket : Nat} {s s' : System} {k k' : Socket} {ok : Bool}
    (h : OpenSession socket s k) (hs : s.stepComm ok = some s') (hsocket : s'.commSocket = socket)
    (hconnected : k'.hungUp = k.hungUp)
    (hreturned : s'.comm = .returned → k'.closes = k.closes + 1) (hcloses : k'.closes = 0) :
    OpenSession socket s' k' := by
  have hstays : s'.comm.inSession = true ∧ s'.client_socket = s.client_socket := by
    rcases (stepComm_control hs).2.2.2 with ⟨hin, -, hclient⟩ | ⟨hpc, -⟩
    · exact ⟨hin, hclient⟩
    · have hcount := hreturned hpc
      omega
  exact ⟨hcloses, hconnected.trans h.connected, hstays.1, hstays.2.trans h.client_socket,
    fun _ => hsocket⟩

/-! ## Client and server -/

/-- How far the client is with the prompts of an open session. -/
inductive Phase (c : Streaming) (k : Socket) : Prop
  | greeting (client : c.client = .connect) (taken : c.taken = 0) (asked : c.asked = [])
      (inbox : k.inbox = []) (greeted : Greeted c.server.server_ip c.server.comm k.sent)
  | quiet (client : c.client = .receive) (begun : c.server.comm ≠ .start)
      (inbox : k.inbox.length ≤ 1) (idle : inRecv c.server.comm = false → k.inbox = [])
      (calm : Calm (k.sent.flatten.drop c.taken)) (all : c.asked = prompts k.sent)
  | prompting {front : List Bytes} {lead before after : Bytes} {kind : PromptKind}
      (client : c.client = .receive) (receiving : receives c.server.comm = some kind)
      (inbox : k.inbox = []) (sent : k.sent = front ++ [before ++ (kind.word ++ after)])
      (kindOf : kindOf (before ++ (kind.word ++ after)) = some kind)
      (parts : Parts kind before after) (calm : Calm lead)
      (unread : k.sent.flatten.drop c.taken = lead ++ (kind.word ++ after))
      (earlier : c.asked = prompts front)
  | user {kind : PromptKind} (reading : c.client.reading = some kind)
      (receiving : receives c.server.comm = some kind) (inbox : k.inbox = [])
      (calm : Calm (k.sent.flatten.drop c.taken)) (all : c.asked = prompts k.sent)
      (last : c.asked.getLast? = some kind)

inductive Stage (socket : Nat) (c : Streaming) (k : Socket) : Prop
  | opened (session : OpenSession socket c.server k) (phase : Phase c k)
  | ended (closed : k.closes ≠ 0) (waits : c.client.waits = true)
      (calm : Calm (k.sent.flatten.drop c.taken)) (all : c.asked = prompts k.sent)
  | left (out : c.client.left = true) (asked : prompts (finished c.taken k.sent) <+: c.asked)

/-- The client and its end of the connection. -/
structure Served (socket : Nat) (c : Streaming) (k : Socket) : Prop where
  found : c.server.sockets[socket]? = some k
  taken_le : c.taken ≤ k.sent.flatten.length
  only : c.asked <+: prompts (started c.taken k.sent)
  stage : Stage socket c k

structure StreamInv (socket : Nat) (c : Streaming) : Prop where
  server : ServerInv c.server
  served : ∃ k, Served socket c k

theorem Stage.asked {socket : Nat} {c : Streaming} {k : Socket} (h : Stage socket c k) :
    prompts (finished c.taken k.sent) <+: c.asked := by
  have hall : c.asked = prompts k.sent → prompts (finished c.taken k.sent) <+: c.asked :=
    fun heq => heq ▸ prompts_mono (finished_initial _ _)
  cases h with
  | opened session phase =>
      cases phase with
      | greeting _ taken _ _ _ =>
          rw [taken, prompts_finished_zero]
          exact List.nil_prefix
      | quiet _ _ _ _ _ all => exact hall all
      | @prompting front lead before after kind _ _ _ sent _ _ _ unread earlier =>
          rw [earlier, sent]
          refine prompts_mono (finished_front ?_)
          have hlength := congrArg List.length unread
          have hword := List.length_pos_iff.mpr (word_ne_nil kind)
          rw [sent] at hlength
          simp only [List.length_drop, List.length_append] at hlength
          omega
      | user _ _ _ _ all _ => exact hall all
  | ended _ _ _ all => exact hall all
  | left _ asked => exact asked

namespace Served

variable {socket : Nat} {c : Streaming} {k : Socket}

theorem sent_eq (h : Served socket c k) : c.sent socket = k.sent := by
  simp [Streaming.sent, h.found]

theorem unread_eq (h : Served socket c k) : c.unread socket = k.sent.flatten.drop c.taken := by
  rw [Streaming.unread, h.sent_eq]

/-- What has been read for stays so when the server sends more. -/
theorem grow (h : Served socket c k) {s' : System} {k' : Socket}
    (hfound : s'.sockets[socket]? = some k') (hsent : k.sent <+: k'.sent)
    (hstage : Stage socket { c with server := s' } k') :
    Served socket { c with server := s' } k' := by
  obtain ⟨more, hmore⟩ := hsent
  refine ⟨hfound, ?_, ?_, hstage⟩
  · have hle := h.taken_le
    rw [← hmore, List.flatten_append, List.length_append]
    exact Nat.le_add_right_of_le hle
  · rw [← hmore]
    exact h.only.trans (prompts_mono (started_append _ _ _))

end Served

/-! ## Steps of the server -/

section ServerSteps

variable {socket : Nat} {c : Streaming} {k : Socket} {s' : System}

theorem OpenSession.recv_eq_none (h : OpenSession socket c.server k)
    (hfound : c.server.sockets[socket]? = some k) (hstart : c.server.comm ≠ .start)
    (hinbox : k.inbox = []) : c.server.recv = none := by
  simp [System.recv, System.inbox, System.hungUp, h.commSocket hstart, hfound, hinbox,
    h.connected]

theorem OpenSession.blocked (h : OpenSession socket c.server k)
    (hfound : c.server.sockets[socket]? = some k) (hrecv : inRecv c.server.comm = true)
    (hinbox : k.inbox = []) (ok : Bool) : c.server.stepComm ok = none := by
  cases hpc : c.server.comm with
  | recvCommand | recvReply cmd =>
      have hnone := h.recv_eq_none hfound (by simp [hpc]) hinbox
      simp only [System.stepComm, hpc, hnone]
  | _ =>
      rw [hpc] at hrecv
      cases hrecv

/-- The first steps of the thread, while the client waits for the welcome. -/
theorem OpenSession.welcoming (h : OpenSession socket c.server k)
    (hfound : c.server.sockets[socket]? = some k) (hwelcome : Calm (welcome c.server.server_ip))
    (hclient : c.client = .connect) (htaken : c.taken = 0) (hasked : c.asked = [])
    (hinbox : k.inbox = []) (hgreeted : Greeted c.server.server_ip c.server.comm k.sent)
    {ok : Bool} (hok : (ok || !sends c.server.comm) = true)
    (hs : c.server.stepComm ok = some s') :
    ∃ k', s'.sockets[socket]? = some k' ∧ Stage socket { c with server := s' } k' := by
  have hsocket : c.server.comm ≠ .start →
      c.server.sockets[c.server.commSocket]? = some k := by
    intro hstart
    rw [h.commSocket hstart, hfound]
  cases hpc : c.server.comm with
  | start =>
      obtain rfl : ok = true := by simpa [hpc, sends] using hok
      have hnil : k.sent = [] := by simpa only [hpc, Greeted] using hgreeted
      simp only [System.stepComm, hpc, h.client_socket] at hs
      cases hs
      refine ⟨{ k with sent := k.sent ++ [welcome c.server.server_ip] },
        by simp [System.send, hfound], .opened ?_ (.greeting hclient htaken hasked hinbox ?_)⟩
      · exact ⟨h.unclosed, h.connected, rfl, h.client_socket, fun _ => rfl⟩
      · simp [Greeted, hnil, System.send]
  | loopTest =>
      have hsent : k.sent = [welcome c.server.server_ip] := by
        simpa only [hpc, Greeted] using hgreeted
      have hkept : c.server.commSocket = socket := h.commSocket (by simp [hpc])
      simp only [System.stepComm, hpc] at hs
      split at hs
      all_goals cases hs
      all_goals
        exact ⟨k, hfound, .opened ⟨h.unclosed, h.connected, rfl, h.client_socket, fun _ => hkept⟩
          (.greeting hclient htaken hasked hinbox hsent)⟩
  | sendMenu =>
      obtain rfl : ok = true := by simpa [hpc, sends] using hok
      have hsent : k.sent = [welcome c.server.server_ip] := by
        simpa only [hpc, Greeted] using hgreeted
      have hkept : c.server.commSocket = socket := h.commSocket (by simp [hpc])
      have hmenu := getElem?_send menu (hsocket (by simp [hpc]))
      simp only [System.stepComm, hpc] at hs
      cases hs
      rw [hkept] at hmenu ⊢
      refine ⟨{ k with sent := k.sent ++ [menu] }, hmenu,
        .opened ?_ (.greeting hclient htaken hasked hinbox ?_)⟩
      · exact ⟨h.unclosed, h.connected, rfl, h.client_socket, fun _ => hkept⟩
      · simp [Greeted, hsent, System.send]
  | recvCommand =>
      have hnone := h.blocked hfound (by rw [hpc]; rfl) hinbox ok
      rw [hnone] at hs
      cases hs
  | teardown =>
      have hsent : k.sent = [welcome c.server.server_ip] := by
        simpa only [hpc, Greeted] using hgreeted
      have hkept : c.server.commSocket = socket := h.commSocket (by simp [hpc])
      simp only [System.stepComm, hpc] at hs
      cases hs
      refine ⟨{ k with closes := k.closes + 1 }, by simp [System.close, hkept, hfound],
        .ended (Nat.succ_ne_zero _) (by simp [hclient, ClientPc.waits]) ?_ ?_⟩
      · simpa [hsent, htaken] using hwelcome
      · simp [hsent, hasked, prompts_singleton, hwelcome.kindOf_eq]
  | _ =>
      rw [hpc] at hgreeted
      cases hgreeted

theorem OpenSession.working (h : OpenSession socket c.server k)
    (hfound : c.server.sockets[socket]? = some k) (hspoken : Spoken c.server)
    (hanswers : Answers Printed c.server) (htaken : c.taken ≤ k.sent.flatten.length)
    (hclient : c.client = .receive) (hbegun : c.server.comm ≠ .start)
    (hfew : k.inbox.length ≤ 1) (hidle : inRecv c.server.comm = false → k.inbox = [])
    (hcalm : Calm (k.sent.flatten.drop c.taken)) (hall : c.asked = prompts k.sent)
    {ok : Bool} (hok : (ok || !sends c.server.comm) = true)
    (hs : c.server.stepComm ok = some s') :
    ∃ k', s'.sockets[socket]? = some k' ∧ Stage socket { c with server := s' } k' := by
  have hkept := h.commSocket hbegun
  have hk : c.server.sockets[c.server.commSocket]? = some k := by rw [hkept, hfound]
  obtain ⟨hbegun', hsocket', -, k', hk', hspeaks, hreturned⟩ :=
    stepComm_speaks hspoken hk hbegun hok hs
  have hsent' := stepComm_sent hk hbegun hok hs
  rw [hk', Option.map_some, Option.some.injEq] at hsent'
  rw [hkept] at hk'
  have hopen : k'.closes = 0 → OpenSession socket s' k' :=
    h.comm hs (hsocket'.trans hkept) hspeaks.hung_up_eq hreturned
  refine ⟨k', hk', ?_⟩
  cases hspeaks with
  | silent before after =>
      exact .opened (hopen h.unclosed)
        (.quiet hclient hbegun' hfew (fun _ => hidle before) hcalm hall)
  | @tells m before after _ =>
      have hm : utterance c.server.comm = some m := by
        have htold := List.append_cancel_left hsent'
        cases hu : utterance c.server.comm <;> simp_all
      have hnot : prompting c.server.comm = false := by
        cases hprompting : prompting c.server.comm with
        | false => rfl
        | true =>
            rw [stepComm_prompting hprompting hs] at after
            cases after
      obtain ⟨hcalm', hstart⟩ := calm_utterance hanswers hnot hm
      refine .opened (hopen h.unclosed)
        (.quiet hclient hbegun' hfew (fun _ => hidle before) ?_ ?_)
      · simp only [List.flatten_append, List.flatten_singleton]
        rw [List.drop_append_of_le_length htaken]
        exact hcalm.append hcalm' hstart
      · simp [hall, prompts_singleton, hcalm'.kindOf_eq]
  | asks before asked =>
      obtain ⟨kind, front, after, rfl, hparts, hkind, hreceives⟩ := parts_of_asked asked
      refine .opened (hopen h.unclosed)
        (.prompting hclient hreceives (hidle before) rfl hkind hparts
          (hcalm.append hparts.calm hparts.starts) ?_ hall)
      simp only [List.flatten_append, List.flatten_singleton]
      rw [List.drop_append_of_le_length htaken, List.append_assoc]
  | @reads m rest before inbox after =>
      have hrest : rest = [] := by
        rw [inbox, List.length_cons] at hfew
        exact List.length_eq_zero_iff.mp (by omega)
      exact .opened (hopen h.unclosed)
        (.quiet hclient hbegun' (by simp [hrest]) (fun _ => hrest) hcalm hall)
  | hangs hungUp =>
      rw [h.connected] at hungUp
      cases hungUp
  | closes =>
      exact .ended (Nat.succ_ne_zero _) (by simp [hclient, ClientPc.waits]) hcalm hall

theorem OpenSession.phase (h : OpenSession socket c.server k) (hinv : ServerInv c.server)
    (hserved : Served socket c k) (hphase : Phase c k) {ok : Bool}
    (hok : (ok || !sends c.server.comm) = true) (hs : c.server.stepComm ok = some s') :
    ∃ k', s'.sockets[socket]? = some k' ∧ Stage socket { c with server := s' } k' := by
  cases hphase with
  | greeting client taken asked inbox greeted =>
      exact h.welcoming hserved.found hinv.welcome client taken asked inbox greeted hok hs
  | quiet client begun inbox idle calm all =>
      exact h.working hserved.found hinv.spoken hinv.answers hserved.taken_le client begun inbox
        idle calm all hok hs
  | prompting _ receiving inbox _ _ _ _ _ _ =>
      rw [h.blocked hserved.found (inRecv_of_receives receiving) inbox ok] at hs
      cases hs
  | user _ receiving inbox _ _ _ =>
      rw [h.blocked hserved.found (inRecv_of_receives receiving) inbox ok] at hs
      cases hs

/-- Between the end of a wait and its start only the client's part counts. -/
theorem Phase.of_frame (h : Phase c k)
    (hcomm : s'.comm = c.server.comm ∨
      ∃ block inTime, c.server.comm = .waiting block ∧ s'.comm = .woken block inTime)
    (hip : s'.server_ip = c.server.server_ip) : Phase { c with server := s' } k := by
  rcases hcomm with hcomm | ⟨block, inTime, hwaiting, hwoken⟩
  · cases h with
    | greeting client taken asked inbox greeted =>
        exact .greeting client taken asked inbox (by simpa only [hcomm, hip] using greeted)
    | quiet client begun inbox idle calm all =>
        exact .quiet client (hcomm ▸ begun) inbox (fun hworks => idle (hcomm ▸ hworks)) calm all
    | prompting client receiving inbox sent kindOf parts calm unread earlier =>
        exact .prompting client (hcomm ▸ receiving) inbox sent kindOf parts calm unread earlier
    | user reading receiving inbox calm all last =>
        exact .user reading (hcomm ▸ receiving) inbox calm all last
  · cases h with
    | greeting _ _ _ _ greeted =>
        rw [hwaiting] at greeted
        cases greeted
    | quiet client begun inbox idle calm all =>
        exact .quiet client (by simp [hwoken]) inbox
          (fun _ => idle (by rw [hwaiting]; rfl)) calm all
    | prompting _ receiving =>
        rw [hwaiting] at receiving
        cases receiving
    | user _ receiving =>
        rw [hwaiting] at receiving
        cases receiving

/-- Nothing in the server touches the connection once it is closed. -/
theorem closed_kept (hconn : ConnectionInv c.server) (hfound : c.server.sockets[socket]? = some k)
    (hclosed : k.closes ≠ 0) {a : Action} (hby : byServer socket c.server a = true)
    (hs : c.server.step a = some s') : s'.sockets[socket]? = some k := by
  have hunused : c.server.uses a ≠ some socket := by
    intro huses
    have hopen := (hconn.isOpen_iff socket).mpr (hconn.uses_owned hs huses)
    simp [System.isOpen, hfound, hclosed] at hopen
  cases a with
  | arrive j chunk =>
      have hne : j ≠ socket := by simpa [byServer] using hby
      simp only [System.step] at hs
      repeat' split at hs
      all_goals cases hs
      simp [hne, hfound]
  | hangUp j =>
      have hne : j ≠ socket := by simpa [byServer] using hby
      cases hs
      simp [hne, hfound]
  | _ => exact uses_frame hs rfl hfound hunused

theorem OpenSession.others (h : OpenSession socket c.server k) (hinv : SessionInv c.server)
    (hfound : c.server.sockets[socket]? = some k) (hphase : Phase c k) {a : Action}
    (hby : byServer socket c.server a = true) (hs : c.server.step a = some s')
    (ha : ∀ ok, a ≠ .comm ok) :
    s'.sockets[socket]? = some k ∧ Stage socket { c with server := s' } k := by
  obtain ⟨hcomm, hclient, hsocket, hsame⟩ := byServer_frame hinv h.inSession hby hs ha
  have hframe := comm_frame hcomm
  have hpc : s'.comm.inSession = true ∧ (s'.comm ≠ .start → c.server.comm ≠ .start) := by
    rcases hframe with heq | ⟨block, inTime, hwaiting, hwoken⟩
    · rw [heq]
      exact ⟨h.inSession, id⟩
    · simp [hwoken, hwaiting, CommPc.inSession]
  refine ⟨hsame.trans hfound, .opened ?_ (hphase.of_frame hframe (step_server_ip hs))⟩
  exact ⟨h.unclosed, h.connected, hpc.1, hclient.trans h.client_socket,
    fun hne => hsocket.trans (h.commSocket (hpc.2 hne))⟩

theorem StreamInv.serverStep (h : StreamInv socket c) {a : Action}
    (hby : byServer socket c.server a = true) (hs : c.server.step a = some s') :
    StreamInv socket { c with server := s' } := by
  obtain ⟨k, hserved⟩ := h.served
  obtain ⟨k', hfound, -, hsent⟩ := SocketsGrow.step hs socket k hserved.found
  have hstage : ∀ k'', s'.sockets[socket]? = some k'' → Stage socket { c with server := s' } k'' →
      StreamInv socket { c with server := s' } := by
    intro k'' hfound'' hstage
    rw [hfound] at hfound''
    cases hfound''
    exact ⟨h.server.step hs, k', hserved.grow hfound hsent hstage⟩
  cases hserved.stage with
  | left out asked =>
      obtain ⟨more, hmore⟩ := hsent
      refine hstage k' hfound (.left out ?_)
      rw [← hmore, prompts_finished_append more hserved.taken_le]
      exact asked
  | ended closed waits calm all =>
      exact hstage k (closed_kept h.server.connections hserved.found closed hby hs)
        (.ended closed waits calm all)
  | opened session phase =>
      by_cases ha : ∃ ok, a = .comm ok
      · obtain ⟨ok, rfl⟩ := ha
        obtain ⟨k'', hfound'', hstage''⟩ := session.phase h.server hserved phase hby hs
        exact hstage k'' hfound'' hstage''
      · obtain ⟨hfound'', hstage''⟩ := session.others h.server.sessions hserved.found phase hby hs
          fun ok heq => ha ⟨ok, heq⟩
        exact hstage k hfound'' hstage''

end ServerSteps

/-! ## Steps of the client -/

section ClientSteps

variable {socket : Nat} {c c' : Streaming} {k : Socket}

theorem reading_cases {pc : ClientPc} {kind : PromptKind} (h : pc.reading = some kind) :
    pc = .choice ∨ pc = .param := by
  cases pc <;> simp_all [ClientPc.reading]

theorem keepsWords_iff (c : Streaming) (size : Nat) :
    c.keepsWords socket (.receive size) = true ↔
      ¬ ∃ kind : PromptKind, CutInside kind.word (c.unread socket) size := by
  rw [not_exists, forall_kind]
  simp [Streaming.keepsWords, PromptKind.word]

/-- A `recv` of the client, and the prompt that it makes the client read for. -/
theorem step_receive {size : Nat} (hs : c.step socket (.receive size) = some c') :
    0 < size ∧ size < BUFFER_SIZE ∧ size ≤ (c.unread socket).length ∧
      ((c.client = .connect ∧ c' = c.received size .receive) ∨
        (c.client = .receive ∧
          c' = c.received size (onReceived ((c.unread socket).take size)))) := by
  simp only [Streaming.step] at hs
  split at hs
  · next hsize =>
      refine ⟨hsize.1, hsize.2.1, hsize.2.2, ?_⟩
      split at hs
      · next hclient =>
          cases hs
          exact Or.inl ⟨hclient, rfl⟩
      · next hclient =>
          cases hs
          exact Or.inr ⟨hclient, rfl⟩
      · cases hs
  · cases hs

/-- The menu that comes with the welcome: its word is out of reach of the first
`recv`. -/
theorem greeted_menu {server_ip : Bytes} (hwelcome : Calm (welcome server_ip)) :
    Calm (welcome server_ip ++ menu.take 275) ∧
      BUFFER_SIZE ≤ (welcome server_ip ++ menu.take 275).length ∧
      ([welcome server_ip] ++ [menu]).flatten =
        (welcome server_ip ++ menu.take 275) ++ (PromptKind.choice.word ++ text " ") := by
  refine ⟨hwelcome.append menu_parts.2.calm menu_parts.2.starts, ?_, ?_⟩
  · have hlength := welcome_length server_ip
    have hmenu : (menu.take 275).length = 275 := by decide +kernel
    rw [List.length_append, hmenu, BUFFER_SIZE]
    omega
  · rw [List.append_assoc, ← menu_parts.1]
    simp

theorem Phase.greet (hwelcome : Calm (welcome c.server.server_ip)) {size : Nat}
    (hsize : 0 < size ∧ size < BUFFER_SIZE ∧ size ≤ (k.sent.flatten.drop c.taken).length)
    (htaken : c.taken = 0) (hasked : c.asked = []) (hinbox : k.inbox = [])
    (hgreeted : Greeted c.server.server_ip c.server.comm k.sent) :
    Phase (c.received size .receive) k := by
  obtain ⟨hpos, hlt, hle⟩ := hsize
  rw [htaken, List.drop_zero] at hle
  have hsame : c.asked ++ ClientPc.receive.reading.toList = [] := by
    rw [hasked]
    rfl
  have hsingle : k.sent = [welcome c.server.server_ip] → c.server.comm ≠ .start →
      Phase (c.received size .receive) k := by
    intro hsent hbegun
    refine .quiet rfl hbegun (by simp [hinbox]) (fun _ => hinbox) ?_ ?_
    · rw [hsent]
      exact hwelcome.of_part (by simpa using (List.drop_suffix _ _).isInfix)
    · rw [hsent, prompts_singleton, hwelcome.kindOf_eq]
      exact hsame
  cases hpc : c.server.comm with
  | start =>
      rw [hpc] at hgreeted
      rw [show k.sent = [] from hgreeted] at hle
      simp only [List.flatten_nil, List.length_nil] at hle
      omega
  | loopTest | sendMenu | teardown =>
      rw [hpc] at hgreeted
      exact hsingle hgreeted (by simp [hpc])
  | recvCommand =>
      rw [hpc] at hgreeted
      have hsent : k.sent = [welcome c.server.server_ip] ++ [menu] := hgreeted
      obtain ⟨hlead, hlong, hflatten⟩ := greeted_menu hwelcome
      have hreceiving : receives (c.received size .receive).server.comm = some .choice := by
        simp [Streaming.received, hpc, receives]
      refine .prompting rfl hreceiving hinbox (hsent.trans (by rw [← menu_parts.1]))
        (by rw [← menu_parts.1]; decide +kernel) menu_parts.2
        (hlead.of_part (List.drop_suffix size _).isInfix) ?_ ?_
      · rw [hsent, hflatten]
        simp only [Streaming.received, htaken, Nat.zero_add]
        rw [List.drop_append_of_le_length (by omega)]
      · rw [prompts_singleton, hwelcome.kindOf_eq]
        exact hsame
  | _ =>
      rw [hpc] at hgreeted
      cases hgreeted

/-- The word of the last message is received only after its first byte. -/
theorem started_word {position : Nat} {front : List Bytes} {lead before after word : Bytes}
    (hunread : (front ++ [before ++ (word ++ after)]).flatten.drop position =
      lead ++ (word ++ after)) (hword : word ≠ []) {size : Nat}
    (hsize : lead.length + word.length ≤ size) :
    started (position + size) (front ++ [before ++ (word ++ after)]) =
      front ++ [before ++ (word ++ after)] := by
  have hlength := congrArg List.length hunread
  have hpos := List.length_pos_iff.mpr hword
  simp only [List.length_drop, List.flatten_append, List.flatten_singleton,
    List.length_append] at hlength
  exact started_last _ (by omega)

/-- A `recv` in an open session after the welcome that ends in no word. -/
theorem Phase.receive (hphase : Phase c k) (hclient : c.client = .receive) {size : Nat}
    (hkeeps : ¬ ∃ kind : PromptKind, CutInside kind.word (k.sent.flatten.drop c.taken) size) :
    Phase (c.received size (onReceived ((k.sent.flatten.drop c.taken).take size))) k ∧
      ((onReceived ((k.sent.flatten.drop c.taken).take size)).reading = none ∨
        started (c.taken + size) k.sent = k.sent) := by
  have hunread : k.sent.flatten.drop (c.taken + size) =
      (k.sent.flatten.drop c.taken).drop size := (List.drop_drop).symm
  cases hphase with
  | greeting client =>
      rw [client] at hclient
      cases hclient
  | quiet _ begun inbox idle calm all =>
      rw [onReceived_calm (calm.of_part (List.take_prefix _ _).isInfix)]
      refine ⟨.quiet rfl begun inbox idle ?_ ?_, Or.inl rfl⟩
      · simp only [Streaming.received, hunread]
        exact calm.of_part (List.drop_suffix _ _).isInfix
      · simpa [Streaming.received, ClientPc.reading] using all
  | @prompting front lead before after kind _ receiving inbox sent kindOf parts calm unread
      earlier =>
      rw [unread] at hkeeps hunread ⊢
      rw [parts.cutInside_iff calm] at hkeeps
      by_cases hword : size ≤ lead.length
      · have hpos := List.length_pos_iff.mpr (word_ne_nil kind)
        rw [onReceived_calm (Parts.take_calm calm (by omega))]
        refine ⟨.prompting rfl receiving inbox sent kindOf parts
          (calm.of_part (List.drop_suffix size _).isInfix) ?_ ?_, Or.inl rfl⟩
        · simp only [Streaming.received, hunread]
          exact List.drop_append_of_le_length hword
        · simpa [Streaming.received, ClientPc.reading] using earlier
      · have hsize : lead.length + kind.word.length ≤ size := by omega
        have hreading := parts.onReceived_take calm hsize
        have hstarted := started_word (sent ▸ unread) (word_ne_nil kind) hsize
        refine ⟨.user hreading receiving inbox ?_ ?_ ?_, Or.inr (sent ▸ hstarted)⟩
        · simp only [Streaming.received, hunread]
          rw [List.drop_append, List.drop_eq_nil_of_le (by omega), List.nil_append]
          exact parts.drop_calm (by omega)
        · simp [Streaming.received, hreading, earlier, sent, prompts_singleton, kindOf]
        · simp [Streaming.received, hreading]
  | user reading =>
      rcases reading_cases reading with hpc | hpc
      · rw [hpc] at hclient
        cases hclient
      · rw [hpc] at hclient
        cases hclient

theorem Phase.asked_initial (h : Phase c k) : c.asked <+: prompts k.sent := by
  cases h with
  | greeting _ _ asked =>
      rw [asked]
      exact List.nil_prefix
  | quiet _ _ _ _ _ all => exact all ▸ List.prefix_rfl
  | prompting _ _ _ sent _ _ _ _ earlier =>
      rw [earlier, sent]
      exact prompts_mono (List.prefix_append _ _)
  | user _ _ _ _ all _ => exact all ▸ List.prefix_rfl

theorem StreamInv.receive (h : StreamInv socket c) {size : Nat}
    (hkeeps : c.keepsWords socket (.receive size) = true)
    (hs : c.step socket (.receive size) = some c') : StreamInv socket c' := by
  obtain ⟨k, hserved⟩ := h.served
  rw [keepsWords_iff] at hkeeps
  obtain ⟨hpos, hlt, hle, hcase⟩ := step_receive hs
  rw [hserved.unread_eq] at hkeeps hle hcase
  have hserver : ∀ pc, (c.received size pc).taken ≤ k.sent.flatten.length →
      (c.received size pc).asked <+: prompts (started (c.taken + size) k.sent) →
      Stage socket (c.received size pc) k → StreamInv socket (c.received size pc) := by
    intro pc htaken honly hstage
    exact ⟨h.server, k, hserved.found, htaken, honly, hstage⟩
  have htaken : c.taken + size ≤ k.sent.flatten.length := by
    have hbound := hserved.taken_le
    rw [List.length_drop] at hle
    omega
  have honly : c.asked <+: prompts (started (c.taken + size) k.sent) :=
    hserved.only.trans (prompts_mono (started_mono (Nat.le_add_right _ _) _))
  have hsame : (c.received size .receive).asked = c.asked := by
    simp [Streaming.received, ClientPc.reading]
  have hunread : k.sent.flatten.drop (c.taken + size) =
      (k.sent.flatten.drop c.taken).drop size := (List.drop_drop).symm
  cases hserved.stage with
  | left out _ =>
      rcases hcase with ⟨hclient, -⟩ | ⟨hclient, -⟩
      all_goals
        rw [hclient] at out
        cases out
  | ended closed waits calm all =>
      have hended : c' = c.received size .receive := by
        rcases hcase with ⟨-, rfl⟩ | ⟨-, rfl⟩
        · rfl
        · rw [onReceived_calm (calm.of_part (List.take_prefix _ _).isInfix)]
      rw [hended]
      refine hserver _ htaken (hsame ▸ honly) (.ended closed rfl ?_ (hsame.trans all))
      simp only [Streaming.received, hunread]
      exact calm.of_part (List.drop_suffix _ _).isInfix
  | opened session phase =>
      rcases hcase with ⟨hclient, rfl⟩ | ⟨hclient, rfl⟩
      · cases phase with
        | greeting _ taken asked inbox greeted =>
            have hphase := Phase.greet h.server.welcome ⟨hpos, hlt, hle⟩ taken asked inbox greeted
            exact hserver _ htaken (hsame ▸ honly) (.opened session hphase)
        | quiet client =>
            rw [client] at hclient
            cases hclient
        | prompting client =>
            rw [client] at hclient
            cases hclient
        | user reading =>
            rcases reading_cases reading with hpc | hpc
            all_goals
              rw [hpc] at hclient
              cases hclient
      · obtain ⟨hphase, hstarted⟩ := phase.receive hclient hkeeps
        refine hserver _ htaken ?_ (.opened session hphase)
        rcases hstarted with hnone | hall
        · simpa [Streaming.received, hnone] using honly
        · rw [hall]
          exact hphase.asked_initial

/-- While the user is asked, the server waits for the answer, and every prompt it has
sent has been read for. -/
theorem Served.reading (h : Served socket c k) {kind : PromptKind}
    (hreading : c.client.reading = some kind) :
    OpenSession socket c.server k ∧ receives c.server.comm = some kind ∧ k.inbox = [] ∧
      Calm (k.sent.flatten.drop c.taken) ∧ c.asked = prompts k.sent ∧
      c.asked.getLast? = some kind := by
  have hother : c.client.waits = false ∧ c.client.left = false := by
    rcases reading_cases hreading with hpc | hpc <;>
      simp [hpc, ClientPc.waits, ClientPc.left]
  have hwaits : ∀ {pc : ClientPc}, c.client = pc → pc.waits ≠ true := by
    rintro pc rfl hwaits
    rw [hother.1] at hwaits
    cases hwaits
  cases h.stage with
  | left out _ =>
      rw [hother.2] at out
      cases out
  | ended _ waits _ _ => exact absurd waits (hwaits rfl)
  | opened session phase =>
      cases phase with
      | greeting client => exact absurd rfl (hwaits client)
      | quiet client => exact absurd rfl (hwaits client)
      | prompting client => exact absurd rfl (hwaits client)
      | user reading receiving inbox calm all last =>
          rw [hreading] at reading
          cases reading
          exact ⟨session, receiving, inbox, calm, all, last⟩

theorem StreamInv.answered (h : StreamInv socket c) {kind : PromptKind}
    (hreading : c.client.reading = some kind) {outcome : ClientPc × Option Bytes}
    (hout : outcome = (.receive, none) ∨
      ∃ pc message, outcome = (pc, some message) ∧ (pc = .receive ∨ pc = .disconnect))
    (hs : c.answered socket outcome = some c') : StreamInv socket c' := by
  obtain ⟨k, hserved⟩ := h.served
  obtain ⟨session, hreceiving, hinbox, hcalm, hall, -⟩ := hserved.reading hreading
  have hrecv := inRecv_of_receives hreceiving
  have hbegun : c.server.comm ≠ .start := by
    intro hpc
    rw [hpc] at hrecv
    cases hrecv
  rcases hout with rfl | ⟨pc, message, rfl, hpc⟩
  · cases hs
    refine ⟨h.server, k, hserved.found, hserved.taken_le, hserved.only, .opened session ?_⟩
    exact .quiet rfl hbegun (by simp [hinbox]) (fun _ => hinbox) hcalm hall
  · obtain ⟨s', hstep, rfl⟩ := Option.map_eq_some_iff.mp hs
    refine ⟨h.server.step hstep, { k with inbox := [message] }, ?_⟩
    simp only [System.step, hserved.found] at hstep
    split at hstep <;> cases hstep
    refine ⟨by simp [hserved.found, hinbox], hserved.taken_le, hserved.only, ?_⟩
    rcases hpc with rfl | rfl
    · refine .opened ⟨session.unclosed, session.connected, session.inSession,
        session.client_socket, session.commSocket⟩ ?_
      refine .quiet rfl hbegun (by simp) (fun hworks => ?_) hcalm hall
      rw [show inRecv c.server.comm = false from hworks] at hrecv
      cases hrecv
    · exact .left rfl hserved.stage.asked

theorem StreamInv.answer (h : StreamInv socket c) {i : Input}
    (hs : c.step socket (.answer i) = some c') : StreamInv socket c' := by
  simp only [Streaming.step] at hs
  split at hs
  · next hclient =>
      refine h.answered (show c.client.reading = some .choice by rw [hclient]; rfl) ?_ hs
      cases hchoice : i.isChoice with
      | true =>
          obtain ⟨pc, message, honChoice, hpc, -⟩ := onChoice_of_isChoice hchoice
          exact Or.inr ⟨pc, message, honChoice, hpc⟩
      | false => exact Or.inl (onChoice_of_not_isChoice hchoice)
  · next hclient =>
      refine h.answered (show c.client.reading = some .param by rw [hclient]; rfl) ?_ hs
      rcases onParam_cases i with ⟨-, message, honParam, -⟩ | ⟨-, honParam⟩
      · exact Or.inr ⟨_, message, honParam, Or.inl rfl⟩
      · exact Or.inl honParam
  · cases hs

theorem StreamInv.serverClosed (h : StreamInv socket c)
    (hs : c.step socket .serverClosed = some c') : StreamInv socket c' := by
  obtain ⟨k, hserved⟩ := h.served
  have hstage : ∀ pc, Stage socket { c with client := pc } k →
      StreamInv socket { c with client := pc } := by
    intro pc hstage
    exact ⟨h.server, k, hserved.found, hserved.taken_le, hserved.only, hstage⟩
  have hended : c.sessionOpen socket = false → c.client.left = false →
      k.closes ≠ 0 ∧ Calm (k.sent.flatten.drop c.taken) ∧ c.asked = prompts k.sent := by
    intro hclosed hin
    cases hserved.stage with
    | left out _ =>
        rw [hin] at out
        cases out
    | ended closed _ calm all => exact ⟨closed, calm, all⟩
    | opened session _ =>
        simp [Streaming.sessionOpen, hserved.found, session.unclosed] at hclosed
  simp only [Streaming.step] at hs
  split at hs
  · next hclient _ hclosed =>
      cases hs
      obtain ⟨closed, calm, all⟩ := hended hclosed (by simp [hclient, ClientPc.left])
      exact hstage _ (.ended closed rfl calm all)
  · cases hs
    exact hstage _ (.left rfl hserved.stage.asked)
  · cases hs

theorem StreamInv.close (h : StreamInv socket c) (hs : c.step socket .close = some c') :
    StreamInv socket c' := by
  obtain ⟨k, hserved⟩ := h.served
  simp only [Streaming.step] at hs
  split at hs
  · obtain ⟨s', hstep, rfl⟩ := Option.map_eq_some_iff.mp hs
    refine ⟨h.server.step hstep, { k with hungUp := true }, ?_⟩
    cases hstep
    exact ⟨by simp [hserved.found], hserved.taken_le, hserved.only,
      .left rfl hserved.stage.asked⟩
  · cases hs

theorem StreamInv.step (h : StreamInv socket c) {e : StreamEvent}
    (hkeeps : c.keepsWords socket e = true) (hs : c.step socket e = some c') :
    StreamInv socket c' := by
  cases e with
  | server a =>
      simp only [Streaming.step] at hs
      split at hs
      · next hby =>
          obtain ⟨s', hstep, rfl⟩ := Option.map_eq_some_iff.mp hs
          exact h.serverStep hby hstep
      · cases hs
  | receive size => exact h.receive hkeeps hs
  | answer i => exact h.answer hs
  | serverClosed => exact h.serverClosed hs
  | close => exact h.close hs

/-! ## Prompts served and lost -/

theorem StreamInv.promptsServed (h : StreamInv socket c) : PromptsServed socket c := by
  obtain ⟨k, hserved⟩ := h.served
  have hsent := hserved.sent_eq
  refine ⟨hsent ▸ hserved.stage.asked, hsent ▸ hserved.only, ?_⟩
  intro kind hreading
  obtain ⟨session, receiving, inbox, -, all, last⟩ := hserved.reading hreading
  have hsocket := session.commSocket fun hpc => by
    rw [hpc] at receiving
    cases receiving
  refine ⟨hsent ▸ all, last, hsocket, receiving, ?_⟩
  simp [System.inbox, hsocket, hserved.found, inbox]

theorem keeps_greeting {server_ip : Bytes} {comm : CommPc} {sent : List Bytes} {size : Nat}
    (hwelcome : Calm (welcome server_ip)) (hgreeted : Greeted server_ip comm sent)
    (hsize : size < BUFFER_SIZE) :
    ¬ ∃ kind : PromptKind, CutInside kind.word sent.flatten size := by
  have hcalm : Calm sent.flatten → ¬ ∃ kind : PromptKind, CutInside kind.word sent.flatten size :=
    fun hcalm ⟨kind, hcut⟩ => hcalm.words kind hcut.part
  cases comm with
  | start =>
      rw [show sent = [] from hgreeted]
      exact fun ⟨kind, hcut⟩ => calm_nil.words kind hcut.part
  | loopTest | sendMenu | teardown =>
      rw [show sent = [welcome server_ip] from hgreeted] at hcalm ⊢
      exact hcalm (by simpa using hwelcome)
  | recvCommand =>
      obtain ⟨hlead, hlong, hflatten⟩ := greeted_menu hwelcome
      rw [show sent = [welcome server_ip] ++ [menu] from hgreeted, hflatten,
        menu_parts.2.cutInside_iff hlead]
      omega
  | _ => cases hgreeted

theorem not_promptsServed {front : List Bytes} {m : Bytes} {kind : PromptKind}
    (hsent : c.sent socket = front ++ [m]) (hkind : kindOf m = some kind)
    (hasked : c.asked = prompts front) (hend : (c.sent socket).flatten.length ≤ c.taken) :
    ¬ PromptsServed socket c := by
  intro hserved
  have hprefix := hserved.asked
  rw [finished_all hend, hsent, hasked, prompts_append, prompts_singleton, hkind] at hprefix
  have hle := hprefix.length_le
  simp only [List.length_append, Option.toList_some, List.length_singleton] at hle
  omega

/-- The rest of a prompt cut inside its word is received without user input being
read. -/
theorem Served.cut_lost (h : Served socket c k) {front : List Bytes} {lead before after : Bytes}
    {kind : PromptKind} (hsent : k.sent = front ++ [before ++ (kind.word ++ after)])
    (hkind : kindOf (before ++ (kind.word ++ after)) = some kind) (hparts : Parts kind before after)
    (hunread : k.sent.flatten.drop c.taken = lead ++ (kind.word ++ after))
    (hasked : c.asked = prompts front) {size : Nat} (hlow : lead.length < size)
    (hhigh : size < lead.length + kind.word.length) (hc' : c' = c.received size .receive) :
    ∃ size c'', c'.step socket (.receive size) = some c'' ∧ ¬ PromptsServed socket c'' := by
  have hsent' : c'.sent socket = k.sent := hc' ▸ h.sent_eq
  have htaken : c'.taken = c.taken + size := by rw [hc']; rfl
  have hrest : c'.unread socket = (kind.word ++ after).drop (size - lead.length) := by
    rw [Streaming.unread, hsent', htaken, ← List.drop_drop, hunread, List.drop_append,
      List.drop_eq_nil_of_le (by omega), List.nil_append]
  have hcalm : Calm (c'.unread socket) := by
    rw [hrest]
    exact hparts.drop_calm (by omega)
  have hlength : (c'.unread socket).length =
      kind.word.length + after.length - (size - lead.length) := by
    rw [hrest, List.length_drop, List.length_append]
  have hfits := hparts.fits
  rw [List.length_append] at hfits
  refine ⟨(c'.unread socket).length, c'.received (c'.unread socket).length .receive, ?_, ?_⟩
  · simp only [Streaming.step]
    rw [if_pos ⟨by omega, by omega, Nat.le_refl _⟩, List.take_length, onReceived_calm hcalm, hc']
    rfl
  · refine not_promptsServed (hsent'.trans hsent) hkind ?_ ?_
    · simp [Streaming.received, ClientPc.reading, hc', hasked]
    · have htotal := congrArg List.length hunread
      simp only [List.length_drop, List.length_append] at htotal
      change (c'.sent socket).flatten.length ≤ c'.taken + (c'.unread socket).length
      rw [hsent', htaken]
      omega

/-- A `recv` that ends inside a word loses the prompt. -/
theorem StreamInv.lost (h : StreamInv socket c) {e : StreamEvent}
    (hcut : c.keepsWords socket e = false) (hs : c.step socket e = some c') :
    ∃ size c'', c'.step socket (.receive size) = some c'' ∧ ¬ PromptsServed socket c'' := by
  obtain ⟨k, hserved⟩ := h.served
  cases e with
  | receive size =>
      have hinside : ∃ kind : PromptKind, CutInside kind.word (c.unread socket) size := by
        by_contra hnone
        rw [← keepsWords_iff] at hnone
        rw [hnone] at hcut
        cases hcut
      obtain ⟨-, hlt, -, hcase⟩ := step_receive hs
      rw [hserved.unread_eq] at hinside hcase
      have hnotCalm : ¬ Calm (k.sent.flatten.drop c.taken) := by
        obtain ⟨kind, hcut⟩ := hinside
        exact fun hcalm => hcalm.words kind hcut.part
      cases hserved.stage with
      | left out _ =>
          rcases hcase with ⟨hclient, -⟩ | ⟨hclient, -⟩
          all_goals
            rw [hclient] at out
            cases out
      | ended _ _ calm _ => exact absurd calm hnotCalm
      | opened session phase =>
          cases phase with
          | greeting _ taken _ _ greeted =>
              rw [taken, List.drop_zero] at hinside
              exact absurd hinside (keeps_greeting h.server.welcome greeted hlt)
          | quiet _ _ _ _ calm _ => exact absurd calm hnotCalm
          | user _ _ _ calm _ _ => exact absurd calm hnotCalm
          | prompting client _ _ sent kindOf parts calm unread earlier =>
              rw [unread, parts.cutInside_iff calm] at hinside
              refine hserved.cut_lost sent kindOf parts unread earlier hinside.1 hinside.2 ?_
              rcases hcase with ⟨hclient, -⟩ | ⟨-, rfl⟩
              · rw [client] at hclient
                cases hclient
              · rw [unread, onReceived_calm (Parts.take_calm calm hinside.2)]
  | _ => cases hcut

end ClientSteps

theorem streamInv_start {ifaddr : Option (List Interface)} {accepted : System} {socket : Nat}
    (hreach : (serverMachine (serverIp ifaddr)).Reachable accepted)
    (hstart : accepted.comm = .start) (hsocket : accepted.client_socket = some socket)
    (hnew : accepted.sockets[socket]? = some ⟨[], false, [], 0⟩) :
    StreamInv socket ⟨accepted, .connect, 0, []⟩ := by
  have hanswers : Answers Printed accepted :=
    hreach.invariant (answers_init _ (by decide)) fun _ _ _ hi hs => hi.step printed_dispatch hs
  have hip : accepted.server_ip = serverIp ifaddr :=
    hreach.invariant (I := fun s => s.server_ip = serverIp ifaddr) rfl
      fun _ _ _ hi hs => (step_server_ip hs).trans hi
  refine ⟨⟨sessionInv_of_reachable hreach, connectionInv_of_reachable hreach,
    spoken_of_reachable hreach, hanswers, hip ▸ calm_welcome ifaddr⟩, _, hnew, Nat.zero_le _,
    List.nil_prefix, .opened ?_ ?_⟩
  · exact ⟨rfl, rfl, by simp [hstart, CommPc.inSession], hsocket, fun hne => absurd hstart hne⟩
  · exact .greeting rfl rfl rfl rfl (by simp [hstart, Greeted])

/-- In every session whose `recv` results end in no word, user input is read once for
each prompt and answers it; a result that ends inside one loses the prompt. -/
theorem prompts_served {ifaddr : Option (List Interface)} {accepted : System} {socket : Nat}
    (hreach : (serverMachine (serverIp ifaddr)).Reachable accepted)
    (hstart : accepted.comm = .start) (hsocket : accepted.client_socket = some socket)
    (hnew : accepted.sockets[socket]? = some ⟨[], false, [], 0⟩) {c : Streaming}
    (hrun : (streamMachine accepted socket).ReachableUnder
      (fun c e => c.keepsWords socket e = true) c) :
    PromptsServed socket c ∧ ∀ e c', c.step socket e = some c' → c.keepsWords socket e = false →
      ∃ size c'', c'.step socket (.receive size) = some c'' ∧ ¬ PromptsServed socket c'' := by
  have hinv : StreamInv socket c := by
    refine hrun.invariant (streamInv_start hreach hstart hsocket hnew) ?_
    intro _ _ _ _ hi hkeeps hs
    exact hi.step hkeeps hs
  exact ⟨hinv.promptsServed, fun e c' hs hcut => hinv.lost hcut hs⟩

def brightnessInParts : List StreamEvent :=
  (commSteps 3).map StreamEvent.server ++
    [StreamEvent.receive 500, .receive 600, .receive 149, .answer (.number 3)] ++
    (commSteps 2).map StreamEvent.server ++
    [StreamEvent.receive 20, .answer (.number 2), .receive 10]

theorem prompts_served_in_parts :
    ∃ accepted c, (serverMachine (serverIp (some []))).Reachable accepted ∧
      (streamMachine accepted 0).ReachableUnder (fun c e => c.keepsWords 0 e = true) c ∧
      c.asked = [.choice, .param] ∧ c.server.inbox = [sendParam 2] ∧ PromptsServed 0 c := by
  have hrun : (((serverMachine (serverIp (some []))).exec (System.init (serverIp (some [])))
      (mainSteps 4)).any fun accepted =>
      accepted.comm = .start ∧ accepted.client_socket = some 0 ∧
      accepted.sockets[0]? = some ⟨[], false, [], 0⟩ ∧
      ((streamMachine accepted 0).execUnder (fun c e => c.keepsWords 0 e)
        ⟨accepted, .connect, 0, []⟩ brightnessInParts).any (fun c =>
          c.asked = [.choice, .param] ∧ c.server.inbox = [sendParam 2]) = true) = true := by
    decide +kernel
  obtain ⟨accepted, hreach, hfacts⟩ := Machine.Reachable.exists_of_exec hrun
  obtain ⟨hstart, hsocket, hnew, hany⟩ := of_decide_eq_true hfacts
  obtain ⟨c, hrun, hfacts⟩ := Machine.ReachableUnder.exists_of_exec hany
  obtain ⟨hasked, hinbox⟩ := of_decide_eq_true hfacts
  exact ⟨accepted, c, hreach, hrun, hasked, hinbox,
    (prompts_served hreach hstart hsocket hnew hrun).1⟩

/-- The welcome, the menu up to `Selec`, and the rest of the menu. -/
def menuCutInWord : List StreamEvent :=
  (commSteps 3).map StreamEvent.server ++ [StreamEvent.receive 966, .receive 280, .receive 3]

/-- The menu has been received, the user is not asked, and both parties wait. -/
theorem prompt_lost_in_cut :
    ∃ accepted c, (serverMachine (serverIp (some []))).Reachable accepted ∧
      accepted.comm = .start ∧ accepted.client_socket = some 0 ∧
      (streamMachine accepted 0).Reachable c ∧ c.client = .receive ∧ c.unread 0 = [] ∧
      c.server.blockedInRecv = true ∧ ¬ PromptsServed 0 c := by
  have hrun : (((serverMachine (serverIp (some []))).exec (System.init (serverIp (some [])))
      (mainSteps 4)).any fun accepted =>
      accepted.comm = .start ∧ accepted.client_socket = some 0 ∧
      ((streamMachine accepted 0).exec ⟨accepted, .connect, 0, []⟩ menuCutInWord).any (fun c =>
          c.client = .receive ∧ c.unread 0 = [] ∧ c.server.blockedInRecv = true ∧
          prompts (finished c.taken (c.sent 0)) = [.choice] ∧ c.asked = []) = true) = true := by
    decide +kernel
  obtain ⟨accepted, hreach, hfacts⟩ := Machine.Reachable.exists_of_exec hrun
  obtain ⟨hstart, hsocket, hany⟩ := of_decide_eq_true hfacts
  obtain ⟨c, hcut, hfacts⟩ := Machine.Reachable.exists_of_exec hany
  obtain ⟨hclient, hunread, hblocked, hfinished, hasked⟩ := of_decide_eq_true hfacts
  refine ⟨accepted, c, hreach, hstart, hsocket, hcut, hclient, hunread, hblocked, ?_⟩
  intro hserved
  have hprefix := hserved.asked
  rw [hfinished, hasked, List.prefix_nil] at hprefix
  cases hprefix

end RsvpControl.Client
