import RsvpControl.Client.Deadlock
import RsvpControl.Client.RoundTrip
import RsvpControl.Core.Simulation
import RsvpControl.Server.Controller
import RsvpControl.Server.Progress
import RsvpControl.Wire.Segmentation

/-! # What the user orders

The menu as its user sees it: a choice, and for some a parameter, make a command, which
is submitted once before the next choice. The conversation of client and server over
texts does that and no more, as long as each message is received whole.
-/

namespace RsvpControl.Client

open RsvpControl.Core Server Wire

/-! ## The menu -/

inductive Intent where
  | choosing
  /-- A command that the user has still to give the parameter of. -/
  | giving (cmd : Command)
  | ordered (cmd : Command)
  /-- Nothing more is ordered. -/
  | ended
deriving DecidableEq, Repr

def Intent.outstanding : Intent → List Command
  | .ordered cmd => [cmd]
  | _ => []

structure Remote where
  intent : Intent
  /-- The commands the user has completed, oldest first. -/
  orders : List Command
  /-- Those submitted, each with whether the queue has taken it. -/
  submitted : List (Command × Bool)
deriving DecidableEq, Repr

inductive Deed where
  /-- One of the numbers of the menu. -/
  | choose (choice : Int)
  | give (param : Int)
  /-- An answer that is none. -/
  | miss
  | submit (cmd : Command) (taken : Bool)
deriving DecidableEq, Repr

def takesParameter : CommandType → Bool
  | .setBrightness | .buzzerOn | .segmentDisplay => true
  | _ => false

namespace Remote

def taken (r : Remote) : List Command := (r.submitted.filter Prod.snd).map Prod.fst

def order (r : Remote) (cmd : Command) : Remote :=
  { r with intent := .ordered cmd, orders := r.orders ++ [cmd] }

/-- With the command without its parameter, unless it needs one. -/
def choose (r : Remote) (type : CommandType) : Remote :=
  if type = .exit then { r with intent := .ended }
  else if takesParameter type then { r with intent := .giving ⟨type, 0, 0⟩ }
  else r.order ⟨type, 0, 0⟩

def step (r : Remote) : Deed → Option Remote
  | .choose choice => if r.intent = .choosing then some (r.choose (.ofInt choice)) else none
  | .give param =>
      match r.intent with
      | .giving cmd => some (r.order { cmd with param1 := param })
      | _ => none
  | .miss =>
      match r.intent with
      | .choosing | .giving _ => some { r with intent := .ended }
      | _ => none
  | .submit cmd taken =>
      if r.intent = .ordered cmd then
        some { r with intent := .choosing, submitted := r.submitted ++ [(cmd, taken)] }
      else none

end Remote

def remoteMachine : Machine Remote Deed := ⟨⟨.choosing, [], []⟩, Remote.step⟩

/-- Each order is submitted once, in order, and one at most is outstanding. -/
theorem orders_eq {r : Remote} (h : remoteMachine.Reachable r) :
    r.orders = r.submitted.map Prod.fst ++ r.intent.outstanding := by
  refine Machine.Reachable.invariant
    (I := fun r => r.orders = r.submitted.map Prod.fst ++ r.intent.outstanding) rfl ?_ h
  intro r d r' hr hs
  cases d with
  | choose choice =>
      simp only [remoteMachine, Remote.step] at hs
      split at hs <;> cases hs
      next hintent =>
        rw [hintent] at hr
        unfold Remote.choose
        repeat' split
        all_goals simpa [Remote.order, Intent.outstanding] using hr
  | give param =>
      simp only [remoteMachine, Remote.step] at hs
      split at hs <;> cases hs
      next cmd hintent =>
        rw [hintent] at hr
        simpa [Remote.order, Intent.outstanding] using hr
  | miss =>
      simp only [remoteMachine, Remote.step] at hs
      split at hs <;> cases hs
      all_goals
        next hintent =>
          rw [hintent] at hr
          simpa [Intent.outstanding] using hr
  | submit cmd taken =>
      simp only [remoteMachine, Remote.step] at hs
      split at hs <;> cases hs
      next hintent =>
        rw [hintent] at hr
        simpa [Intent.outstanding] using hr

/-! ## What the messages carry -/

/-- What the user is about, by the server's program point and what it has not received. -/
def intentOf (comm : CommPc) (inbox : List Bytes) : Intent :=
  match comm, inbox with
  | .recvCommand, message :: _ =>
      match commandReceived message with
      | .invalid => .choosing
      | .exit => .ended
      | .askParameter cmd _ => .giving cmd
      | .push cmd => .ordered cmd
  | .recvReply cmd, message :: _ => .ordered (replyReceived cmd message)
  | .recvReply cmd, [] | .sendPrompt cmd _, _ => .giving cmd
  | .lock cmd, _ | .push cmd, _ => .ordered cmd
  | .sendBye, _ => .ended
  | _, _ => .choosing

/-- What an answer at the menu and at a prompt is for the user. -/
def choiceDeed : Input → Deed
  | .number typed => if (Input.number typed).isChoice then .choose (narrow typed) else .miss
  | .text => .miss

def paramDeed : Input → Deed
  | .number typed => .give (narrow typed)
  | .text => .miss

/-- What an event is for the user while the session is open. -/
def Conversation.deeds (socket : Nat) (c : Conversation) (e : Event) : List Deed :=
  if c.sessionOpen socket then
    match e with
    | .answer i =>
        match c.client with
        | .choice => [choiceDeed i]
        | .param => [paramDeed i]
        | _ => []
    | .server (.comm ok) =>
        match c.server.comm with
        | .push cmd =>
            [.submit cmd (queuePush c.server.heap c.server.cmd_queue cmd ok).2.2]
        | _ => []
    | _ => []
  else []

/-- What is received for a number of the menu is what the choice means. -/
theorem intentOf_sendCommand (r : Remote) {choice : Int} (h : 0 ≤ choice ∧ choice ≤ 9) :
    intentOf .recvCommand [sendCommand choice 0 0] = (r.choose (.ofInt choice)).intent := by
  have hcases : choice = 0 ∨ choice = 1 ∨ choice = 2 ∨ choice = 3 ∨ choice = 4 ∨ choice = 5 ∨
      choice = 6 ∨ choice = 7 ∨ choice = 8 ∨ choice = 9 := by
    omega
  have hparsed := parseCommand_sendCommand (t := choice) (a := 0) (b := 0)
    ⟨by omega, by omega⟩ (by decide) (by decide)
  rcases hcases with rfl | rfl | rfl | rfl | rfl | rfl | rfl | rfl | rfl | rfl
  all_goals
    simp only [intentOf, commandReceived, hparsed]
    rfl

/-! ## Steps of the server -/

section Steps

variable {socket : Nat} {s s' : System} {k k' : Socket}

theorem intentOf_frame {comm comm' : CommPc} (inbox : List Bytes)
    (h : comm' = comm ∨ comm' = comm.signalled ∨
      ∃ block inTime, comm = .waiting block ∧ comm' = .woken block inTime) :
    intentOf comm' inbox = intentOf comm inbox := by
  rcases h with rfl | rfl | ⟨block, inTime, rfl, rfl⟩
  · rfl
  · cases comm <;> rfl
  · rfl

theorem inbox_sent (hk : s.sockets[socket]? = some k) {message : Bytes} {ok : Bool}
    (hk' : (s.send socket message ok).sockets[socket]? = some k') : k'.inbox = k.inbox := by
  cases ok with
  | true =>
      have hsent : (s.send socket message true).sockets[socket]? =
          some { k with sent := k.sent ++ [message] } := by
        simp [System.send, hk]
      rw [hsent] at hk'
      cases hk'
      rfl
  | false =>
      simp only [System.send, Bool.false_eq_true, if_false, hk, Option.some.injEq] at hk'
      rw [hk']

theorem intentOf_stepComm (hk : s.sockets[s.commSocket]? = some k) (hup : k.hungUp = false)
    (hinbox : inRecv s.comm = false → k.inbox = []) (hpush : ∀ cmd, s.comm ≠ .push cmd)
    (hbye : s.comm ≠ .sendBye) {ok : Bool} (hs : s.stepComm ok = some s')
    (hk' : s'.sockets[s.commSocket]? = some k') :
    intentOf s'.comm k'.inbox = intentOf s.comm k.inbox := by
  unfold System.stepComm at hs
  cases hpc : s.comm with
  | push cmd => exact absurd hpc (hpush cmd)
  | sendBye => exact absurd hpc hbye
  | sendMenu =>
      simp only [hpc, Option.some.injEq] at hs
      subst hs
      rw [inbox_sent hk hk', hinbox (by rw [hpc]; rfl)]
      rfl
  | sendPrompt cmd prompt =>
      simp only [hpc, Option.some.injEq] at hs
      subst hs
      rw [inbox_sent hk hk', hinbox (by rw [hpc]; rfl)]
      rfl
  | recvCommand =>
      simp only [hpc] at hs
      split at hs
      · cases hs
      · next hrecv =>
          rcases recv_socket hk hrecv with ⟨-, -, hhung⟩ | ⟨m, rest, hnone, -⟩
          · rw [hup] at hhung
            cases hhung
          · cases hnone
      · next sockets buffer hrecv =>
          rcases recv_socket hk hrecv with ⟨hnone, -⟩ | ⟨m, rest, hsome, hcons, -⟩
          · cases hnone
          · cases hsome
            rw [hcons]
            split at hs <;> cases hs
            all_goals
              next hreceived => simp only [intentOf, hreceived]
  | recvReply cmd =>
      simp only [hpc] at hs
      split at hs
      · cases hs
      · next hrecv =>
          rcases recv_socket hk hrecv with ⟨-, -, hhung⟩ | ⟨m, rest, hnone, -⟩
          · rw [hup] at hhung
            cases hhung
          · cases hnone
      · next sockets buffer hrecv =>
          rcases recv_socket hk hrecv with ⟨hnone, -⟩ | ⟨m, rest, hsome, hcons, -⟩
          · cases hnone
          · cases hsome
            cases hs
            rw [hcons]
            rfl
  | _ =>
      simp only [hpc] at hs
      repeat' split at hs
      all_goals cases hs
      all_goals rfl

/-- The submission: the user chooses again, whether the queue has taken the command. -/
theorem stepComm_submit {cmd : Command} (hpc : s.comm = .push cmd) {ok : Bool}
    (hs : s.stepComm ok = some s') :
    (∀ inbox, intentOf s'.comm inbox = .choosing) ∧
      s'.pushed.map Prod.snd = s.pushed.map Prod.snd ++
        if (queuePush s.heap s.cmd_queue cmd ok).2.2 then [cmd] else [] := by
  simp only [System.stepComm, hpc] at hs
  split at hs
  · next heap cmd_queue hpush =>
      cases hs
      simp [hpush, intentOf]
  · next heap cmd_queue hpush =>
      cases hs
      simp [hpush, intentOf]

theorem pushed_stepComm (hpush : ∀ cmd, s.comm ≠ .push cmd) {ok : Bool}
    (hs : s.stepComm ok = some s') : s'.pushed = s.pushed := by
  refine (stepComm_unseen hs ?_).pushed
  simp only [System.orders]

theorem pushed_frame {a : Action} (hs : s.step a = some s') (ha : ∀ ok, a ≠ .comm ok) :
    s'.pushed = s.pushed := by
  cases a with
  | main accepted ok => exact (stepMain_control hs).1
  | comm ok => exact absurd rfl (ha ok)
  | commWake wake =>
      obtain ⟨block, -, rfl⟩ := wakeComm_eq hs
      rfl
  | device mallocOk createOk level =>
      revert hs
      simp only [System.step]
      fun_cases System.stepDevice s mallocOk createOk level
      all_goals intro hs
      all_goals cases hs
      all_goals rfl
  | deviceWake wake =>
      obtain ⟨-, rfl⟩ := wakeDevice_eq hs
      rfl
  | arrive k chunk =>
      simp only [System.step] at hs
      repeat' split at hs
      all_goals cases hs
      rfl
  | interrupt | hangUp k | libraries devices =>
      cases hs
      rfl

end Steps

/-! ## The open session -/

/-- How client and server stand while the user is about this. -/
inductive Session (socket : Nat) (c : Conversation) (intent : Intent) : Prop
  | held {k : Socket} (held : Held socket c k)
      (carried : intentOf c.server.comm k.inbox = intent) (going : intent ≠ .ended)
  /-- After an answer that nothing was sent for. -/
  | stuck (ended : intent = .ended) (serves : c.server.commSocket = socket)
      (blocked : c.server.blockedInRecv = true) (waits : c.client = .receive)
      (nothing : c.unread socket = [])
  /-- After the choice to leave. -/
  | left (ended : intent = .ended) (serves : c.server.commSocket = socket)
      (client : c.client.left = true)
      (leaving : c.server.comm = .recvCommand ∧ c.server.inbox = [sendCommand 0 0 0] ∨
        c.server.comm = .sendBye ∨ c.server.comm = .teardown)

section Sessions

variable {socket : Nat} {c c' : Conversation} {r : Remote}

/-- Only a submission is more than the session going on. -/
theorem Session.comm (h : Session socket c r.intent) (hspoken : Spoken c.server) {s' : System}
    {ok : Bool} (hok : (ok || !sends c.server.comm) = true) (hs : c.server.stepComm ok = some s')
    (hpush : ∀ cmd, c.server.comm ≠ .push cmd)
    (hopen : Conversation.sessionOpen socket { c with server := s' } = true) :
    Session socket { c with server := s' } r.intent := by
  cases h with
  | @held k held carried going =>
      obtain ⟨k', held'⟩ := held.comm hspoken hok hs hopen
      refine .held held' ?_ going
      rw [← carried] at going ⊢
      by_cases hstart : c.server.comm = .start
      · simp only [System.stepComm, hstart, held.client_socket, Option.some.injEq] at hs
        subst hs
        rw [hstart]
        rfl
      · have hk := held.found
        have hk' := held'.found
        rw [← held.commSocket hstart] at hk hk'
        refine intentOf_stepComm hk held.connected (fun hworks => (held.turn.working hworks).2.1)
          hpush ?_ hs hk'
        intro hbye
        rw [hbye] at going
        exact going rfl
  | stuck ended serves blocked waits nothing =>
      rw [stepComm_of_blocked blocked] at hs
      cases hs
  | left ended serves client leaving =>
      rcases leaving with ⟨hcomm, hinbox⟩ | hcomm | hcomm
      · obtain ⟨sockets, hrecv⟩ : ∃ sockets,
            c.server.recv = some (sockets, some (sendCommand 0 0 0)) := by
          simp [System.recv, hinbox]
        have hexit : commandReceived (sendCommand 0 0 0) = .exit := by decide +kernel
        simp only [System.stepComm, hcomm, hrecv, hexit, Option.some.injEq] at hs
        subst hs
        exact .left ended serves client (.inr (.inl rfl))
      · simp only [System.stepComm, hcomm, Option.some.injEq] at hs
        subst hs
        exact .left ended serves client (.inr (.inr rfl))
      · simp only [System.stepComm, hcomm, Option.some.injEq] at hs
        subst hs serves
        cases hk : c.server.sockets[c.server.commSocket]? with
        | none => simp [Conversation.sessionOpen, System.close, hk] at hopen
        | some k => simp [Conversation.sessionOpen, System.close, hk] at hopen

theorem Session.others (h : Session socket c r.intent) (hinv : SessionInv c.server) {s' : System}
    {a : Action} (hby : byServer socket c.server a = true) (hs : c.server.step a = some s')
    (ha : ∀ ok, a ≠ .comm ok) : Session socket { c with server := s' } r.intent := by
  cases h with
  | @held k held carried going =>
      have hframe := byServer_frame hinv held.inSession hby hs ha
      refine .held (held.others hinv hby hs ha) ?_ going
      rw [← carried]
      exact intentOf_frame k.inbox hframe.1
  | stuck ended serves blocked waits nothing =>
      obtain ⟨hblocked, hserves, hsockets⟩ := blocked_frame hinv blocked hs ha (serves ▸ hby)
      rw [serves] at hsockets
      refine .stuck ended (hserves.trans serves) hblocked waits ?_
      rw [← nothing]
      simp only [Conversation.unread, hsockets]
  | left ended serves client leaving =>
      have hin : c.server.comm.inSession = true := by
        rcases leaving with ⟨hcomm, -⟩ | hcomm | hcomm <;> rw [hcomm] <;> rfl
      obtain ⟨hcomm, -, hserves, hsockets⟩ := byServer_frame hinv hin hby hs ha
      have hsame : s'.comm = c.server.comm := by
        rcases hcomm with hsame | hsignalled | ⟨block, inTime, hwaiting, -⟩
        · exact hsame
        · rcases leaving with ⟨hpc, -⟩ | hpc | hpc <;> rw [hsignalled, hpc] <;> rfl
        · rcases leaving with ⟨hpc, -⟩ | hpc | hpc <;> rw [hpc] at hwaiting <;> cases hwaiting
      refine .left ended (hserves.trans serves) client ?_
      rw [serves.symm] at hsockets
      simpa only [hsame, System.inbox, hserves, hsockets] using leaving

theorem Session.receive (h : Session socket c r.intent) (hinv : SessionInv c.server)
    (hspoken : Spoken c.server) (hs : c.step socket .receive = some c')
    (hopen : c'.sessionOpen socket = true) : Session socket c' r.intent := by
  have hserver : c'.server = c.server := by
    simp only [Conversation.step] at hs
    split at hs <;> cases hs
    all_goals rfl
  cases h with
  | @held k held carried going =>
      obtain ⟨k', held'⟩ := held.event hinv hspoken (fun i heq => by cases heq) hs hopen
      have hsame : k' = k := by
        have hfound := held'.found
        rw [hserver, held.found] at hfound
        exact (Option.some.inj hfound).symm
      refine .held held' ?_ going
      rw [hsame, hserver, carried]
  | stuck ended serves blocked waits nothing =>
      simp only [Conversation.step, waits, nothing] at hs
      cases hs
  | left ended serves client leaving =>
      have hstay := (left_step client hs).2
      refine .left ended (hserver ▸ serves) hstay ?_
      rw [hserver]
      exact leaving

theorem Turn.asked {client : ClientPc} {comm : CommPc} {inbox pending : List Bytes}
    (h : Turn client comm inbox pending) (hclient : client = .choice ∨ client = .param) :
    client = .choice ∧ comm = .recvCommand ∨ client = .param ∧ ∃ cmd, comm = .recvReply cmd := by
  have hwaits : client.waits = false := by rcases hclient with rfl | rfl <;> rfl
  cases h with
  | userChooses => exact .inl ⟨rfl, rfl⟩
  | userReplies => exact .inr ⟨rfl, _, rfl⟩
  | serverWorks waits | clientReads waits | serverReads waits =>
      rw [hwaits] at waits
      cases waits

/-- An answer that sends nothing leaves both parties waiting. -/
theorem Session.miss {k : Socket} (h : Held socket c k) (hclient : c.client ≠ .connect)
    (hrecv : inRecv c.server.comm = true) (hinbox : k.inbox = [])
    (hpending : k.sent.drop (max c.read 1) = []) {intent : Intent} (hended : intent = .ended) :
    Session socket { c with client := .receive } intent := by
  have hstart : c.server.comm ≠ .start := by
    intro hpc
    rw [hpc] at hrecv
    cases hrecv
  refine .stuck hended (h.commSocket hstart) ?_ rfl ?_
  · obtain ⟨hempty, hup⟩ := h.inbox_eq hstart
    rw [hinbox] at hempty
    show c.server.blockedInRecv = true
    unfold System.blockedInRecv
    cases hpc : c.server.comm <;> simp_all [inRecv]
  · show c.unread socket = []
    rw [h.unread_eq, ← h.pending_eq hclient, hpending]

theorem arrive_control {s s' : System} {message : Bytes}
    (hs : s.step (.arrive socket message) = some s') :
    s'.comm = s.comm ∧ s'.commSocket = s.commSocket ∧
      ∀ k, s.sockets[socket]? = some k →
        s'.sockets[socket]? = some { k with inbox := k.inbox ++ [message] } := by
  simp only [System.step] at hs
  split at hs
  · cases hs
  · next k hk =>
      split at hs <;> cases hs
      refine ⟨rfl, rfl, fun k' hk' => ?_⟩
      rw [hk] at hk'
      cases hk'
      simp [hk]

theorem Session.sent {k : Socket} (h : Held socket c k) (hclient : c.client ≠ .connect)
    (hrecv : inRecv c.server.comm = true) (hinbox : k.inbox = [])
    (hpending : k.sent.drop (max c.read 1) = []) {message : Bytes} {s' : System}
    (hs : c.server.step (.arrive socket message) = some s') {intent : Intent}
    (hcarried : intentOf c.server.comm [message] = intent) (hgoing : intent ≠ .ended) :
    Session socket { c with server := s', client := .receive } intent := by
  refine .held (h.sent hclient hrecv hinbox hpending hs) ?_ hgoing
  rw [← hcarried]
  exact congrArg (intentOf · [message]) (arrive_control hs).1

theorem Session.leave {k : Socket} (h : Held socket c k) (hcomm : c.server.comm = .recvCommand)
    (hinbox : k.inbox = []) {s' : System}
    (hs : c.server.step (.arrive socket (sendCommand 0 0 0)) = some s') {intent : Intent}
    (hended : intent = .ended) :
    Session socket { c with server := s', client := .disconnect } intent := by
  obtain ⟨hsame, hsocket, hsockets⟩ := arrive_control hs
  have hserves : s'.commSocket = socket := hsocket.trans (h.commSocket (by simp [hcomm]))
  refine .left hended hserves rfl (.inl ⟨hsame.trans hcomm, ?_⟩)
  simp [System.inbox, hserves, hsockets k h.found, hinbox]

@[simp] theorem Remote.choose_submitted (r : Remote) (type : CommandType) :
    (r.choose type).submitted = r.submitted := by
  unfold Remote.choose
  repeat' split
  all_goals rfl

theorem Remote.choose_going (r : Remote) {type : CommandType} (h : type ≠ .exit) :
    (r.choose type).intent ≠ .ended := by
  unfold Remote.choose
  rw [if_neg h]
  split
  all_goals simp [Remote.order]

theorem onChoice_number {typed : Int} (h : (Input.number typed).isChoice = true) :
    onChoice (.number typed) =
      (if narrow typed = 0 then .disconnect else .receive,
        some (sendCommand (narrow typed) 0 0)) := by
  simp only [Input.isChoice, Bool.and_eq_true, decide_eq_true_eq] at h
  simp only [onChoice]
  repeat' split
  all_goals first
    | rfl
    | omega

theorem Session.choose {k : Socket} (h : Held socket c k)
    (hintent : intentOf c.server.comm k.inbox = r.intent) (hclient : c.client = .choice) {i : Input}
    (hs : c.answered socket (onChoice i) = some c') :
    ∃ r', r.step (choiceDeed i) = some r' ∧ r'.submitted = r.submitted ∧
      Session socket c' r'.intent := by
  have hne : c.client ≠ .connect := by simp [hclient]
  obtain ⟨hrecv, hinbox, hpending⟩ := h.turn.user (.inl hclient)
  have hcomm : c.server.comm = .recvCommand := by
    rcases h.turn.asked (.inl hclient) with ⟨-, hcomm⟩ | ⟨hparam, -⟩
    · exact hcomm
    · rw [hclient] at hparam
      cases hparam
  have hchoosing : r.intent = .choosing := by
    rw [← hintent, hcomm, hinbox]
    rfl
  cases hchoice : i.isChoice with
  | false =>
      have hmiss : choiceDeed i = .miss := by
        cases i with
        | text => rfl
        | number typed => simp [choiceDeed, hchoice]
      rw [onChoice_of_not_isChoice hchoice] at hs
      cases hs
      rw [hmiss]
      exact ⟨{ r with intent := .ended }, by simp [Remote.step, hchoosing], rfl,
        Session.miss h hne hrecv hinbox hpending rfl⟩
  | true =>
      cases i with
      | text => cases hchoice
      | number typed =>
          have hdeed : choiceDeed (.number typed) = .choose (narrow typed) := by
            simp [choiceDeed, hchoice]
          rw [onChoice_number hchoice] at hs
          obtain ⟨s', harrive, rfl⟩ := Option.map_eq_some_iff.mp hs
          rw [hdeed]
          refine ⟨r.choose (.ofInt (narrow typed)), by simp [Remote.step, hchoosing], by simp, ?_⟩
          simp only [Input.isChoice, Bool.and_eq_true, decide_eq_true_eq] at hchoice
          have hcarried := intentOf_sendCommand r hchoice
          by_cases hzero : narrow typed = 0
          · rw [hzero] at harrive ⊢
            exact Session.leave h hcomm hinbox harrive rfl
          · rw [if_neg hzero]
            exact Session.sent h hne hrecv hinbox hpending harrive (hcomm ▸ hcarried)
              (r.choose_going fun hexit => hzero (ofInt_eq_exit.mp hexit))

theorem Session.give {k : Socket} (h : Held socket c k)
    (hintent : intentOf c.server.comm k.inbox = r.intent) (hclient : c.client = .param) {i : Input}
    (hs : c.answered socket (onParam i) = some c') :
    ∃ r', r.step (paramDeed i) = some r' ∧ r'.submitted = r.submitted ∧
      Session socket c' r'.intent := by
  have hne : c.client ≠ .connect := by simp [hclient]
  obtain ⟨hrecv, hinbox, hpending⟩ := h.turn.user (.inr hclient)
  obtain ⟨cmd, hcomm⟩ : ∃ cmd, c.server.comm = .recvReply cmd := by
    rcases h.turn.asked (.inr hclient) with ⟨hchoice, -⟩ | ⟨-, hcomm⟩
    · rw [hclient] at hchoice
      cases hchoice
    · exact hcomm
  have hgiving : r.intent = .giving cmd := by
    rw [← hintent, hcomm, hinbox]
    rfl
  cases i with
  | text =>
      cases hs
      exact ⟨{ r with intent := .ended }, by simp [paramDeed, Remote.step, hgiving], rfl,
        Session.miss h hne hrecv hinbox hpending rfl⟩
  | number typed =>
      obtain ⟨s', harrive, rfl⟩ := Option.map_eq_some_iff.mp hs
      refine ⟨r.order { cmd with param1 := narrow typed },
        by simp [paramDeed, Remote.step, hgiving], rfl, ?_⟩
      refine Session.sent h hne hrecv hinbox hpending harrive ?_ (by simp [Remote.order])
      rw [hcomm]
      simp only [intentOf, replyReceived, atoi_sendParam (narrow_isInt typed)]
      rfl

theorem Session.answer (h : Session socket c r.intent) {i : Input}
    (hopen : c.sessionOpen socket = true) (hs : c.step socket (.answer i) = some c') :
    ∃ r', remoteMachine.exec r (c.deeds socket (.answer i)) = some r' ∧
      r'.submitted = r.submitted ∧ Session socket c' r'.intent := by
  simp only [Conversation.step] at hs
  cases h with
  | stuck ended serves blocked waits nothing => simp [waits] at hs
  | left ended serves client leaving =>
      split at hs
      · next hclient =>
          rw [hclient] at client
          cases client
      · next hclient =>
          rw [hclient] at client
          cases client
      · cases hs
  | @held k held carried going =>
      split at hs
      · next hclient =>
          simp only [Conversation.deeds, hopen, if_true, hclient, Machine.exec_singleton]
          exact Session.choose held carried hclient hs
      · next hclient =>
          simp only [Conversation.deeds, hopen, if_true, hclient, Machine.exec_singleton]
          exact Session.give held carried hclient hs
      · cases hs

end Sessions

/-! ## The simulation -/

/-- The server has got from `accepted` to here by what the user has done. -/
structure Fulfilled (server_ip : Bytes) (accepted : System) (socket : Nat) (c : Conversation)
    (r : Remote) : Prop where
  server : (serverMachine server_ip).Reachable c.server
  found : ∃ k, c.server.sockets[socket]? = some k
  pushed : accepted.pushed.map Prod.snd ++ r.taken <+: c.server.pushed.map Prod.snd
  session : c.sessionOpen socket = true →
    c.server.pushed.map Prod.snd = accepted.pushed.map Prod.snd ++ r.taken ∧
      Session socket c r.intent

section Simulation

variable {server_ip : Bytes} {accepted : System} {socket : Nat} {c c' : Conversation} {r : Remote}

theorem open_of_step {e : Event} (hfound : ∃ k, c.server.sockets[socket]? = some k)
    (hs : c.step socket e = some c') :
    (∃ k, c'.server.sockets[socket]? = some k) ∧
      (c'.sessionOpen socket = true → c.sessionOpen socket = true) := by
  rcases step_server hs with hsame | ⟨a, hstep⟩
  · rw [Conversation.sessionOpen, Conversation.sessionOpen, hsame]
    exact ⟨hfound, id⟩
  · obtain ⟨k, hk⟩ := hfound
    obtain ⟨k', hk', hle⟩ := closedKept_step hstep socket k hk
    refine ⟨⟨k', hk'⟩, ?_⟩
    simp only [Conversation.sessionOpen, hk, hk', decide_eq_true_eq]
    omega

theorem pushed_of_step {queued dropped : List Nat} (hledger : Ledger c.server queued dropped)
    {e : Event} (hs : c.step socket e = some c') : c.server.pushed <+: c'.server.pushed := by
  rcases step_server hs with hsame | ⟨a, hstep⟩
  · rw [hsame]
  · exact pushed_grows hledger hstep

/-- The client that has left closes its end: what it sent before is still received. -/
theorem Session.close (h : Session socket c r.intent) (hs : c.step socket .close = some c') :
    Session socket c' r.intent := by
  simp only [Conversation.step] at hs
  split at hs
  · next hclient =>
      obtain ⟨s', hstep, rfl⟩ := Option.map_eq_some_iff.mp hs
      cases hstep
      cases h with
      | held held =>
          have hstay := held.turn.not_left
          rw [hclient] at hstay
          cases hstay
      | stuck ended serves blocked waits =>
          rw [hclient] at waits
          cases waits
      | left ended serves client leaving =>
          refine .left ended serves rfl ?_
          rcases leaving with ⟨hcomm, hinbox⟩ | hlater
          · refine .inl ⟨hcomm, ?_⟩
            rw [← hinbox]
            cases hk : c.server.sockets[socket]? with
            | none => simp [System.inbox, serves, hk]
            | some k => simp [System.inbox, serves, hk]
          · exact .inr hlater
  · cases hs

theorem Session.submit (h : Session socket c r.intent) (hspoken : Spoken c.server) {cmd : Command}
    (hpc : c.server.comm = .push cmd) {ok : Bool} {s' : System}
    (hs : c.server.stepComm ok = some s') :
    ∃ r', r.step (.submit cmd (queuePush c.server.heap c.server.cmd_queue cmd ok).2.2) = some r' ∧
      (∃ now, r'.taken = r.taken ++ now ∧
        s'.pushed.map Prod.snd = c.server.pushed.map Prod.snd ++ now) ∧
      (Conversation.sessionOpen socket { c with server := s' } = true →
        Session socket { c with server := s' } r'.intent) := by
  obtain ⟨hchoosing, hpushed⟩ := stepComm_submit hpc hs
  have hworks : (ok || !sends c.server.comm) = true := by simp [hpc, sends]
  cases h with
  | stuck ended serves blocked => simp [System.blockedInRecv, hpc] at blocked
  | left ended serves client leaving => simp [hpc] at leaving
  | @held k held carried going =>
      have hordered : r.intent = .ordered cmd := by
        rw [← carried, hpc]
        rfl
      generalize (queuePush c.server.heap c.server.cmd_queue cmd ok).2.2 = taken at hpushed ⊢
      refine ⟨{ r with intent := .choosing, submitted := r.submitted ++ [(cmd, taken)] },
        by simp [Remote.step, hordered], ⟨_, ?_, hpushed⟩, ?_⟩
      · cases taken with
        | false => simp [Remote.taken]
        | true => simp [Remote.taken]
      · intro hopen
        obtain ⟨k', held'⟩ := held.comm hspoken hworks hs hopen
        exact .held held' (hchoosing k'.inbox) (by simp)

theorem step_answer {i : Input} (hs : c.step socket (.answer i) = some c') :
    c'.server = c.server ∨ ∃ message, c.server.step (.arrive socket message) = some c'.server := by
  have hanswered : ∀ outcome, c.answered socket outcome = some c' →
      c'.server = c.server ∨
        ∃ message, c.server.step (.arrive socket message) = some c'.server := by
    rintro ⟨pc, message⟩ hs
    cases message with
    | none =>
        cases hs
        exact .inl rfl
    | some message =>
        obtain ⟨s', hstep, rfl⟩ := Option.map_eq_some_iff.mp hs
        exact .inr ⟨message, hstep⟩
  simp only [Conversation.step] at hs
  split at hs
  · exact hanswered _ hs
  · exact hanswered _ hs
  · cases hs

/-- In an open session each event does for the user what it stands for. -/
theorem Session.event (h : Session socket c r.intent) (hinv : SessionInv c.server)
    (hspoken : Spoken c.server) {e : Event} (hopen : c.sessionOpen socket = true)
    (hs : c.step socket e = some c') :
    ∃ r', remoteMachine.exec r (c.deeds socket e) = some r' ∧
      (∃ now, r'.taken = r.taken ++ now ∧
        c'.server.pushed.map Prod.snd = c.server.pushed.map Prod.snd ++ now) ∧
      (c'.sessionOpen socket = true → Session socket c' r'.intent) := by
  have hidle : c.deeds socket e = [] → c'.server.pushed = c.server.pushed →
      (c'.sessionOpen socket = true → Session socket c' r.intent) →
      ∃ r', remoteMachine.exec r (c.deeds socket e) = some r' ∧
        (∃ now, r'.taken = r.taken ++ now ∧
          c'.server.pushed.map Prod.snd = c.server.pushed.map Prod.snd ++ now) ∧
        (c'.sessionOpen socket = true → Session socket c' r'.intent) := by
    intro hnone hpushed hsession
    rw [hnone]
    exact ⟨r, rfl, ⟨[], by simp, by rw [hpushed, List.append_nil]⟩, hsession⟩
  cases e with
  | server a =>
      simp only [Conversation.step] at hs
      split at hs
      · next hby =>
          obtain ⟨s', hstep, rfl⟩ := Option.map_eq_some_iff.mp hs
          by_cases ha : ∃ ok, a = .comm ok
          · obtain ⟨ok, rfl⟩ := ha
            by_cases hpush : ∃ cmd, c.server.comm = .push cmd
            · obtain ⟨cmd, hpc⟩ := hpush
              simp only [Conversation.deeds, hopen, if_true, hpc, Machine.exec_singleton]
              exact h.submit hspoken hpc hstep
            · have hnot : ∀ cmd, c.server.comm ≠ .push cmd := fun cmd heq => hpush ⟨cmd, heq⟩
              refine hidle ?_ (pushed_stepComm hnot hstep) (h.comm hspoken hby hstep hnot)
              simp only [Conversation.deeds, hopen, if_true]
          · have hnot : ∀ ok, a ≠ .comm ok := fun ok heq => ha ⟨ok, heq⟩
            refine hidle ?_ (pushed_frame hstep hnot) fun _ => h.others hinv hby hstep hnot
            cases a with
            | comm ok => exact absurd rfl (hnot ok)
            | _ => simp [Conversation.deeds]
      · cases hs
  | receive =>
      refine hidle (by simp [Conversation.deeds]) ?_ (h.receive hinv hspoken hs)
      simp only [Conversation.step] at hs
      split at hs <;> cases hs
      all_goals rfl
  | answer i =>
      obtain ⟨r', hexec, hsubmitted, hsession⟩ := h.answer hopen hs
      refine ⟨r', hexec, ⟨[], ?_, ?_⟩, fun _ => hsession⟩
      · rw [Remote.taken, hsubmitted, Remote.taken, List.append_nil]
      · have hpushed : c'.server.pushed = c.server.pushed := by
          rcases step_answer hs with hsame | ⟨message, harrive⟩
          · rw [hsame]
          · exact pushed_frame harrive (fun ok heq => by cases heq)
        rw [hpushed, List.append_nil]
  | serverClosed =>
      simp only [Conversation.step, hopen] at hs
      split at hs <;> simp_all
  | close =>
      refine hidle (by simp [Conversation.deeds]) ?_ fun _ => h.close hs
      simp only [Conversation.step] at hs
      split at hs
      · obtain ⟨s', hstep, rfl⟩ := Option.map_eq_some_iff.mp hs
        cases hstep
        rfl
      · cases hs

theorem Fulfilled.step (h : Fulfilled server_ip accepted socket c r) {e : Event}
    (hs : c.step socket e = some c') :
    ∃ r', remoteMachine.exec r (c.deeds socket e) = some r' ∧
      Fulfilled server_ip accepted socket c' r' := by
  have hreach : (serverMachine server_ip).Reachable c'.server := by
    rcases step_server hs with hsame | ⟨a, hstep⟩
    · rw [hsame]
      exact h.server
    · exact h.server.trans (Machine.Reaches.of_step a hstep)
  obtain ⟨hfound, hreopen⟩ := open_of_step h.found hs
  cases hopen : c.sessionOpen socket with
  | true =>
      obtain ⟨hpushed, hsession⟩ := h.session hopen
      obtain ⟨r', hexec, ⟨now, htaken, hnow⟩, hsession'⟩ :=
        hsession.event (sessionInv_of_reachable h.server) (spoken_of_reachable h.server) hopen hs
      have hall : c'.server.pushed.map Prod.snd = accepted.pushed.map Prod.snd ++ r'.taken := by
        rw [hnow, hpushed, htaken, List.append_assoc]
      exact ⟨r', hexec, hreach, hfound, hall ▸ List.prefix_rfl, fun hopen' =>
        ⟨hall, hsession' hopen'⟩⟩
  | false =>
      obtain ⟨queued, dropped, hledger⟩ := ledger_of_reachable h.server
      have hgrown := (pushed_of_step hledger hs).map Prod.snd
      refine ⟨r, by simp [Conversation.deeds, hopen], hreach, hfound, h.pushed.trans hgrown, ?_⟩
      intro hopen'
      rw [hreopen hopen'] at hopen
      cases hopen

end Simulation

theorem fulfilled_start {server_ip : Bytes} {accepted : System} {socket : Nat}
    (hreach : (serverMachine server_ip).Reachable accepted) (hstart : accepted.comm = .start)
    (hsocket : accepted.client_socket = some socket)
    (hnew : accepted.sockets[socket]? = some ⟨[], false, [], 0⟩) :
    Fulfilled server_ip accepted socket ⟨accepted, .connect, 0⟩ remoteMachine.start := by
  refine ⟨hreach, ⟨_, hnew⟩, ?_, fun _ => ⟨?_, ?_⟩⟩
  · simp [remoteMachine, Remote.taken]
  · simp [remoteMachine, Remote.taken]
  · exact .held (held_start hstart hsocket hnew) (by rw [hstart]; rfl) (by simp [remoteMachine])

theorem orders_simulation {server_ip : Bytes} {accepted : System} {socket : Nat}
    (hreach : (serverMachine server_ip).Reachable accepted) (hstart : accepted.comm = .start)
    (hsocket : accepted.client_socket = some socket)
    (hnew : accepted.sockets[socket]? = some ⟨[], false, [], 0⟩) :
    (conversationMachine accepted socket).Simulation remoteMachine (Conversation.deeds socket)
      (Fulfilled server_ip accepted socket) where
  start := ⟨_, Machine.ReachableUnder.start, fulfilled_start hreach hstart hsocket hnew⟩
  step _ _ _ _ _ _ hR hstep := hR.step hstep

/-! ## The result -/

/-- In every run of client and server the commands submitted for the session are those its
user has ordered by choices and parameters: each once, in order and unchanged, with one at
most outstanding. Those the queue has taken are what the session has added to the commands
pushed, and the device thread dispatches these in order. -/
theorem orders_submitted {server_ip : Bytes} {accepted : System} {socket : Nat}
    (hreach : (serverMachine server_ip).Reachable accepted) (hstart : accepted.comm = .start)
    (hsocket : accepted.client_socket = some socket)
    (hnew : accepted.sockets[socket]? = some ⟨[], false, [], 0⟩) {events : List Event}
    {c : Conversation}
    (hrun : (conversationMachine accepted socket).exec ⟨accepted, .connect, 0⟩ events = some c) :
    ∃ r, remoteMachine.exec remoteMachine.start
        ((conversationMachine accepted socket).observed (Conversation.deeds socket)
          ⟨accepted, .connect, 0⟩ events) = some r ∧
      r.orders = r.submitted.map Prod.fst ++ r.intent.outstanding ∧
      accepted.pushed.map Prod.snd ++ r.taken <+: c.server.pushed.map Prod.snd ∧
      (c.sessionOpen socket = true →
        c.server.pushed.map Prod.snd = accepted.pushed.map Prod.snd ++ r.taken) ∧
      c.server.dispatched <+: c.server.pushed := by
  obtain ⟨r, hr, h⟩ := (orders_simulation hreach hstart hsocket hnew).run
    Machine.ReachableUnder.start Machine.ReachableUnder.start
    (fulfilled_start hreach hstart hsocket hnew) hrun
  obtain ⟨queued, dropped, hledger⟩ := ledger_of_reachable h.server
  exact ⟨r, hr, orders_eq (Machine.Reachable.of_exec hr), h.pushed,
    fun hopen => (h.session hopen).1, hledger.dispatched_prefix⟩

def brightnessRound : List Event :=
  firstAnswer (.number 3) ++
    [.server (.comm true), .server (.comm true), .receive, .answer (.number 2)] ++
    (commSteps 3 ++ deviceSteps 6 ++ commSteps 5).map .server ++
    [.receive, .receive, .answer (.number 1)]

/-- One order executed, and one on its way. -/
theorem brightness_submitted :
    ∃ (accepted : System) (c : Conversation) (r : Remote),
      (serverMachine []).Reachable accepted ∧
      (conversationMachine accepted 0).exec ⟨accepted, .connect, 0⟩ brightnessRound = some c ∧
      remoteMachine.exec remoteMachine.start
        [.choose 3, .give 2, .submit ⟨.setBrightness, 2, 0⟩ true, .choose 1] = some r ∧
      r.orders = r.submitted.map Prod.fst ++ r.intent.outstanding ∧
      c.server.pushed.map Prod.snd = accepted.pushed.map Prod.snd ++ r.taken ∧
      c.server.dispatched.map Prod.snd = [⟨.setBrightness, 2, 0⟩] := by
  have hrun : (((serverMachine []).exec (System.init []) (mainSteps 4)).any fun accepted =>
      accepted.comm = .start ∧ accepted.client_socket = some 0 ∧
      accepted.sockets[0]? = some ⟨[], false, [], 0⟩ ∧
      (conversationMachine accepted 0).observed (Conversation.deeds 0) ⟨accepted, .connect, 0⟩
        brightnessRound =
          [.choose 3, .give 2, .submit ⟨.setBrightness, 2, 0⟩ true, .choose 1] ∧
      ((conversationMachine accepted 0).exec ⟨accepted, .connect, 0⟩ brightnessRound).any
        (fun c => c.sessionOpen 0 = true ∧
          c.server.dispatched.map Prod.snd = [⟨.setBrightness, 2, 0⟩]) = true) = true := by
    decide +kernel
  obtain ⟨accepted, hreach, hfacts⟩ := Machine.Reachable.exists_of_exec hrun
  obtain ⟨hstart, hsocket, hnew, hdeeds, hany⟩ := of_decide_eq_true hfacts
  obtain ⟨c, hexec, hdone⟩ := (Option.any_eq_true _ _).mp hany
  obtain ⟨hopen, hdispatched⟩ := of_decide_eq_true hdone
  obtain ⟨r, hr, horders, -, hpushed, -⟩ := orders_submitted hreach hstart hsocket hnew hexec
  rw [hdeeds] at hr
  exact ⟨accepted, c, r, hreach, hexec, hr, horders, hpushed hopen, hdispatched⟩

end RsvpControl.Client
