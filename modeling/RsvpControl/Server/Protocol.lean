import RsvpControl.Core.Simulation
import RsvpControl.Server.Lifecycle

/-! # The protocol of a connection

What one connection can hear from the server and when, as a machine of its own: the
welcome, then rounds of a menu, a command, perhaps a prompt and its reply, and a result,
up to the one `close`. Every connection of every run of the server is served by it.
-/

namespace RsvpControl.Server

open RsvpControl.Core

/-! ## The protocol -/

/-- What the server does towards one connection. -/
inductive Speech where
  /-- A `send` of a fixed text, with its outcome. -/
  | say (message : Bytes) (ok : Bool)
  /-- A `recv`; `none` is a result that is not positive. -/
  | hear (chunk : Option Bytes)
  /-- A `queue_push`, with its outcome. -/
  | submit (cmd : Command) (ok : Bool)
  /-- A `send_response`, with its outcome. -/
  | answer (response : CommandResponse) (ok : Bool)
  /-- The loop of the session finds `server_running` false. -/
  | stop
  | close
deriving DecidableEq, Repr

inductive Place where
  /-- Not accepted yet, or accepted and nothing said. -/
  | accepted
  | menu
  | choice
  | invalid
  | bye
  | prompt (cmd : Command) (prompt : Bytes)
  | reply (cmd : Command)
  | submit (cmd : Command)
  | full
  | result
  | over
  | closed
deriving DecidableEq, Repr

/-- What a received command leads to. -/
def Request.place : Request → Place
  | .invalid => .invalid
  | .exit => .bye
  | .askParameter cmd prompt => .prompt cmd prompt
  | .push cmd => .submit cmd

/-- A failed `send` goes unnoticed but for that of a response. -/
def Place.next (server_ip : Bytes) : Place → Speech → Option Place
  | .accepted, .say message _ => if message = welcome server_ip then some .menu else none
  | .accepted, .close => some .closed
  | .menu, .say message _ => if message = Server.menu then some .choice else none
  | .menu, .stop => some .over
  | .choice, .hear none => some .over
  | .choice, .hear (some buffer) => some (commandReceived buffer).place
  | .invalid, .say message _ => if message = invalidFormat then some .menu else none
  | .bye, .say message _ => if message = disconnecting then some .over else none
  | .prompt cmd asked, .say message _ => if message = asked then some (.reply cmd) else none
  | .reply _, .hear none => some .over
  | .reply cmd, .hear (some buffer) => some (.submit (replyReceived cmd buffer))
  | .submit cmd, .submit cmd' ok =>
      if cmd' = cmd then some (if ok then .result else .full) else none
  | .full, .say message _ => if message = queueFull then some .menu else none
  | .result, .answer _ ok => some (if ok then .menu else .over)
  | .result, .say message _ => if message = commandTimeout then some .menu else none
  | .over, .close => some .closed
  | _, _ => none

/-- What arrives at the client. -/
def Speech.said : Speech → List Bytes
  | .say message ok => if ok then [message] else []
  | .answer response ok => if ok then [responseLine response] else []
  | _ => []

def Speech.closes : Speech → Nat
  | .close => 1
  | _ => 0

structure Conversation where
  place : Place
  said : List Bytes
  closes : Nat
deriving DecidableEq, Repr

def Conversation.step (server_ip : Bytes) (c : Conversation) (e : Speech) : Option Conversation :=
  (c.place.next server_ip e).map fun place => ⟨place, c.said ++ e.said, c.closes + e.closes⟩

def protocolMachine (server_ip : Bytes) : Machine Conversation Speech :=
  ⟨⟨.accepted, [], 0⟩, Conversation.step server_ip⟩

/-! ## The server's part in it -/

/-- What a step of the server is for connection `k`. -/
def System.speech (k : Nat) (s : System) : Action → List Speech
  | .main _ ok =>
      match s.main with
      | .busy j => if j = k then [.say serverBusy ok, .close] else []
      | .create j => if j = k ∧ ok = false then [.close] else []
      | .closeSockets => if s.client_socket = some k then [.close] else []
      | _ => []
  | .comm ok =>
      if s.client_socket = some k then
        match s.comm with
        | .start => [.say (welcome s.server_ip) ok]
        | .loopTest => if s.server_running then [] else [.stop]
        | .sendMenu => [.say menu ok]
        | .recvCommand | .recvReply _ =>
            match s.recv with
            | none => []
            | some (_, chunk) => [.hear chunk]
        | .sendInvalid => [.say invalidFormat ok]
        | .sendBye => [.say disconnecting ok]
        | .sendPrompt _ prompt => [.say prompt ok]
        | .push cmd => [.submit cmd (queuePush s.heap s.cmd_queue cmd ok).2.2]
        | .sendFull => [.say queueFull ok]
        | .sendResponse response => [.answer response ok]
        | .sendTimeout => [.say commandTimeout ok]
        | .teardown => [.close]
        | _ => []
      else []
  | _ => []

def CommPc.place : CommPc → Place
  | .start => .accepted
  | .loopTest | .sendMenu => .menu
  | .recvCommand => .choice
  | .sendInvalid => .invalid
  | .sendBye => .bye
  | .sendPrompt cmd prompt => .prompt cmd prompt
  | .recvReply cmd => .reply cmd
  | .lock cmd | .push cmd => .submit cmd
  | .sendFull => .full
  | .waiting _ | .woken _ _ | .collect _ _ | .sendResponse _ | .sendTimeout => .result
  | .teardown => .over
  | .absent | .returned => .closed

/-- Where connection `k` stands. -/
def System.place (k : Nat) (s : System) : Place :=
  if s.sockets.length ≤ k ∨ s.main = .register k then .accepted
  else if s.client_socket = some k then
    if s.comm.inSession then s.comm.place else .accepted
  else .closed

def System.sent (s : System) : List (List Bytes) := s.sockets.map Socket.sent

structure Follows (server_ip : Bytes) (k : Nat) (s : System) (c : Conversation) : Prop where
  server_ip : s.server_ip = server_ip
  place : c.place = s.place k
  said : c.said = s.sent[k]?.getD []
  closes : c.closes = s.closes[k]?.getD 0

theorem follows_init (server_ip : Bytes) (k : Nat) :
    Follows server_ip k (System.init server_ip) (protocolMachine server_ip).start where
  server_ip := rfl
  place := by simp [System.place, System.init, protocolMachine]
  said := rfl
  closes := rfl

/-! ## What a step leaves alone -/

@[simp] theorem sent_close (s : System) (j : Nat) : (s.close j).sent = s.sent :=
  map_modify_same s.sockets j fun _ => rfl

theorem sent_send (s : System) (j : Nat) (message : Bytes) (ok : Bool) :
    (s.send j message ok).sent = s.sent.modify j (· ++ (Speech.say message ok).said) := by
  cases ok with
  | false =>
      have hid : (fun texts : List Bytes => texts ++ (Speech.say message false).said) = id :=
        funext fun texts => List.append_nil texts
      rw [hid, List.modify_id]
      rfl
  | true => exact map_modify s.sockets j fun _ => rfl

theorem sent_recv {s : System} {sockets : List Socket} {result : Option Bytes}
    (hs : s.recv = some (sockets, result)) : sockets.map Socket.sent = s.sent := by
  unfold System.recv at hs
  split at hs
  · cases hs
    exact map_modify_same _ _ fun _ => rfl
  · split at hs <;> cases hs
    rfl

/-! ## Steps -/

section Steps

variable {server_ip : Bytes} {k : Nat} {s s' : System} {c : Conversation}

/-- A step that is nothing to the connection. -/
theorem Follows.silent (h : Follows server_ip k s c) (hip : s'.server_ip = s.server_ip)
    (hplace : s'.place k = s.place k) (hsent : s'.sent[k]?.getD [] = s.sent[k]?.getD [])
    (hcloses : s'.closes[k]?.getD 0 = s.closes[k]?.getD 0) : Follows server_ip k s' c :=
  ⟨hip.trans h.server_ip, h.place.trans hplace.symm, h.said.trans hsent.symm,
    h.closes.trans hcloses.symm⟩

theorem Follows.event (h : Follows server_ip k s c) (hip : s'.server_ip = s.server_ip) {e : Speech}
    {place : Place} (hnext : (s.place k).next server_ip e = some place) (hplace : s'.place k = place)
    (hsent : s'.sent[k]?.getD [] = s.sent[k]?.getD [] ++ e.said)
    (hcloses : s'.closes[k]?.getD 0 = s.closes[k]?.getD 0 + e.closes) :
    ∃ c', (protocolMachine server_ip).exec c [e] = some c' ∧ Follows server_ip k s' c' := by
  refine ⟨⟨place, c.said ++ e.said, c.closes + e.closes⟩, ?_, hip.trans h.server_ip, hplace.symm,
    by rw [h.said, hsent], by rw [h.closes, hcloses]⟩
  rw [Machine.exec_singleton]
  simp only [protocolMachine, Conversation.step, h.place, hnext, Option.map_some]

theorem place_congr (hlength : s'.sockets.length = s.sockets.length) (hmain : s'.main = s.main)
    (hsocket : s'.client_socket = s.client_socket)
    (hcomm : s'.comm = s.comm ∨ s'.comm = s.comm.signalled) : s'.place k = s.place k := by
  have hplace : s'.comm.inSession = s.comm.inSession ∧ s'.comm.place = s.comm.place := by
    rcases hcomm with heq | heq
    · rw [heq]
      exact ⟨rfl, rfl⟩
    · rw [heq, inSession_signalled]
      cases s.comm <;> exact ⟨rfl, rfl⟩
  simp only [System.place, hlength, hmain, hsocket, hplace]

/-- `main` is in the join while the session of connection `k` is open. -/
structure Open (k : Nat) (s : System) : Prop where
  range : k < s.sockets.length
  joining : s.main = .joinComm
  socket : s.client_socket = some k

theorem Open.place (h : Open k s) (hin : s.comm.inSession = true) : s.place k = s.comm.place := by
  rw [System.place, if_neg, if_pos h.socket, if_pos hin]
  simp [h.joining, h.range]

theorem Follows.say (h : Follows server_ip k s c) (hopen : Open k s)
    (hin : s.comm.inSession = true) {e : Speech} {message : Bytes} {ok : Bool} (pc : CommPc)
    (hnext : s.comm.place.next server_ip e = some pc.place)
    (hsaid : e.said = (Speech.say message ok).said) (hunclosed : e.closes = 0)
    (hip : s'.server_ip = s.server_ip) (hsockets : s'.sockets = (s.send k message ok).sockets)
    (hmain : s'.main = s.main) (hsocket : s'.client_socket = s.client_socket)
    (hcomm : s'.comm = pc) (hpc : pc.inSession = true) :
    ∃ c', (protocolMachine server_ip).exec c [e] = some c' ∧ Follows server_ip k s' c' := by
  have hsent : s'.sent = s.sent.modify k (· ++ (Speech.say message ok).said) := by
    rw [← sent_send, System.sent, hsockets, System.sent]
  have hcloses : s'.closes = s.closes := by
    rw [← closes_send s k message ok, System.closes, hsockets, System.closes]
  have hlength : s'.sockets.length = s.sockets.length := by
    have hmap := congrArg List.length hcloses
    simpa [System.closes] using hmap
  have hopen' : Open k s' := ⟨hlength ▸ hopen.range, hmain.trans hopen.joining,
    hsocket.trans hopen.socket⟩
  have hrange : k < s.sent.length := by
    rw [System.sent, List.length_map]
    exact hopen.range
  refine h.event hip (by rw [hopen.place hin]; exact hnext) ?_ ?_ ?_
  · rw [hopen'.place (hcomm ▸ hpc), hcomm]
  · rw [hsent, hsaid, List.getElem?_modify, List.getElem?_eq_getElem hrange]
    simp
  · rw [hcloses, hunclosed, Nat.add_zero]

theorem Follows.hear (h : Follows server_ip k s c) (hopen : Open k s)
    (hin : s.comm.inSession = true) {e : Speech} (pc : CommPc)
    (hnext : s.comm.place.next server_ip e = some pc.place) (hsaid : e.said = [])
    (hunclosed : e.closes = 0) (hip : s'.server_ip = s.server_ip) (hsent : s'.sent = s.sent)
    (hcloses : s'.closes = s.closes) (hmain : s'.main = s.main)
    (hsocket : s'.client_socket = s.client_socket) (hcomm : s'.comm = pc)
    (hpc : pc.inSession = true) :
    ∃ c', (protocolMachine server_ip).exec c [e] = some c' ∧ Follows server_ip k s' c' := by
  have hlength : s'.sockets.length = s.sockets.length := by
    have hmap := congrArg List.length hcloses
    simpa [System.closes] using hmap
  have hopen' : Open k s' := ⟨hlength ▸ hopen.range, hmain.trans hopen.joining,
    hsocket.trans hopen.socket⟩
  refine h.event hip (by rw [hopen.place hin]; exact hnext) ?_ ?_ ?_
  · rw [hopen'.place (hcomm ▸ hpc), hcomm]
  · rw [hsent, hsaid, List.append_nil]
  · rw [hcloses, hunclosed, Nat.add_zero]

/-- A step of the session within one place of its conversation. -/
theorem Follows.inside (h : Follows server_ip k s c) (hopen : Open k s)
    (hin : s.comm.inSession = true) (hip : s'.server_ip = s.server_ip)
    (hsockets : s'.sockets = s.sockets) (hmain : s'.main = s.main)
    (hsocket : s'.client_socket = s.client_socket) (hplace : s'.comm.place = s.comm.place)
    (hin' : s'.comm.inSession = true) : Follows server_ip k s' c := by
  have hopen' : Open k s' := ⟨hsockets ▸ hopen.range, hmain.trans hopen.joining,
    hsocket.trans hopen.socket⟩
  refine h.silent hip ?_ ?_ ?_
  · rw [hopen'.place hin', hopen.place hin, hplace]
  · rw [System.sent, hsockets, System.sent]
  · rw [System.closes, hsockets, System.closes]

theorem place_closed (hrange : k < s.sockets.length) (hmain : ∀ j, s.main ≠ .register j)
    (hsocket : s.client_socket ≠ some k) : s.place k = .closed := by
  rw [System.place, if_neg, if_neg hsocket]
  rintro (hle | hregister)
  · omega
  · exact hmain k hregister

theorem Follows.closed (h : Follows server_ip k s c) (hrange : k < s.sockets.length)
    (hnext : (s.place k).next server_ip .close = some .closed) (hip : s'.server_ip = s.server_ip)
    (hsockets : s'.sockets = (s.close k).sockets) (hmain : ∀ j, s'.main ≠ .register j)
    (hsocket : s'.client_socket = none) :
    ∃ c', (protocolMachine server_ip).exec c [.close] = some c' ∧ Follows server_ip k s' c' := by
  have hsent : s'.sent = s.sent := by
    rw [← sent_close s k, System.sent, hsockets, System.sent]
  have hcloses : s'.closes = s.closes.modify k (· + 1) := by
    rw [← closes_close, System.closes, hsockets, System.closes]
  have hlength : s'.sockets.length = s.sockets.length := by
    rw [hsockets, System.close, List.length_modify]
  have hcounted : k < s.closes.length := by
    rw [System.closes, List.length_map]
    exact hrange
  refine h.event hip hnext ?_ ?_ ?_
  · exact place_closed (by omega) hmain (by simp [hsocket])
  · rw [hsent]
    exact (List.append_nil _).symm
  · rw [hcloses, List.getElem?_modify, List.getElem?_eq_getElem hcounted]
    simp [Speech.closes]

/-- A step that leaves this connection to nobody. -/
theorem Follows.elsewhere (h : Follows server_ip k s c) (hip : s'.server_ip = s.server_ip)
    (hlength : s'.sockets.length = s.sockets.length)
    (hsent : s'.sent[k]? = s.sent[k]?) (hcloses : s'.closes[k]? = s.closes[k]?)
    (hmain : ∀ j, s.main ≠ .register j) (hmain' : ∀ j, s'.main ≠ .register j)
    (hsocket : s.client_socket ≠ some k) (hsocket' : s'.client_socket ≠ some k) :
    Follows server_ip k s' c := by
  refine h.silent hip ?_ (by rw [hsent]) (by rw [hcloses])
  simp only [System.place, hlength, hmain k, hmain' k, if_neg hsocket, if_neg hsocket']

theorem Follows.session (h : Follows server_ip k s c) (hopen : Open k s)
    (hcopied : s.comm ≠ .start → s.commSocket = k) {ok : Bool} (hs : s.stepComm ok = some s') :
    ∃ c', (protocolMachine server_ip).exec c (s.speech k (.comm ok)) = some c' ∧
      Follows server_ip k s' c' := by
  have hin := (stepComm_control hs).1
  have hsocket := hopen.socket
  cases hpc : s.comm with
  | absent | returned =>
      rw [hpc] at hin
      cases hin
  | start =>
      simp only [System.stepComm, hpc, hsocket, Option.some.injEq] at hs
      subst hs
      have hspeech : s.speech k (.comm ok) = [.say (welcome s.server_ip) ok] := by
        simp [System.speech, hsocket, hpc]
      rw [hspeech]
      exact h.say hopen hin .loopTest
        (by rw [hpc, h.server_ip]; simp [CommPc.place, Place.next]) rfl rfl rfl rfl rfl rfl rfl rfl
  | sendMenu =>
      simp only [System.stepComm, hpc, Option.some.injEq] at hs
      subst hs
      have hspeech : s.speech k (.comm ok) = [.say menu ok] := by
        simp [System.speech, hsocket, hpc]
      rw [hspeech, hcopied (by simp [hpc])]
      exact h.say hopen hin .recvCommand
        (by rw [hpc]; simp [CommPc.place, Place.next]) rfl rfl rfl rfl rfl rfl
        rfl rfl
  | sendInvalid =>
      simp only [System.stepComm, hpc, Option.some.injEq] at hs
      subst hs
      have hspeech : s.speech k (.comm ok) = [.say invalidFormat ok] := by
        simp [System.speech, hsocket, hpc]
      rw [hspeech, hcopied (by simp [hpc])]
      exact h.say hopen hin .loopTest (by rw [hpc]; simp [CommPc.place, Place.next])
        rfl rfl rfl rfl rfl rfl
        rfl rfl
  | sendBye =>
      simp only [System.stepComm, hpc, Option.some.injEq] at hs
      subst hs
      have hspeech : s.speech k (.comm ok) = [.say disconnecting ok] := by
        simp [System.speech, hsocket, hpc]
      rw [hspeech, hcopied (by simp [hpc])]
      exact h.say hopen hin .teardown (by rw [hpc]; simp [CommPc.place, Place.next])
        rfl rfl rfl rfl rfl rfl
        rfl rfl
  | sendFull =>
      simp only [System.stepComm, hpc, Option.some.injEq] at hs
      subst hs
      have hspeech : s.speech k (.comm ok) = [.say queueFull ok] := by
        simp [System.speech, hsocket, hpc]
      rw [hspeech, hcopied (by simp [hpc])]
      exact h.say hopen hin .loopTest (by rw [hpc]; simp [CommPc.place, Place.next])
        rfl rfl rfl rfl rfl rfl
        rfl rfl
  | sendTimeout =>
      simp only [System.stepComm, hpc, Option.some.injEq] at hs
      subst hs
      have hspeech : s.speech k (.comm ok) = [.say commandTimeout ok] := by
        simp [System.speech, hsocket, hpc]
      rw [hspeech, hcopied (by simp [hpc])]
      exact h.say hopen hin .loopTest (by rw [hpc]; simp [CommPc.place, Place.next])
        rfl rfl rfl rfl rfl rfl
        rfl rfl
  | sendPrompt cmd prompt =>
      simp only [System.stepComm, hpc, Option.some.injEq] at hs
      subst hs
      have hspeech : s.speech k (.comm ok) = [.say prompt ok] := by
        simp [System.speech, hsocket, hpc]
      rw [hspeech, hcopied (by simp [hpc])]
      exact h.say hopen hin (.recvReply cmd) (by rw [hpc]; simp [CommPc.place, Place.next])
        rfl rfl rfl rfl rfl rfl
        rfl rfl
  | loopTest =>
      simp only [System.stepComm, hpc] at hs
      split at hs <;> cases hs
      · next hrunning =>
          have hspeech : s.speech k (.comm ok) = [] := by
            simp [System.speech, hsocket, hpc, hrunning]
          rw [hspeech]
          exact ⟨c, rfl, h.inside hopen hin rfl rfl rfl rfl (by rw [hpc]; rfl) rfl⟩
      · next hstopped =>
          have hspeech : s.speech k (.comm ok) = [.stop] := by
            simp [System.speech, hsocket, hpc, hstopped]
          rw [hspeech]
          exact h.hear hopen hin .teardown (by rw [hpc]; rfl) rfl rfl rfl rfl rfl rfl rfl
            rfl rfl
  | recvCommand =>
      have hspeech : ∀ sockets chunk, s.recv = some (sockets, chunk) →
          s.speech k (.comm ok) = [.hear chunk] := by
        intro sockets chunk hrecv
        simp [System.speech, hsocket, hpc, hrecv]
      simp only [System.stepComm, hpc] at hs
      split at hs
      · cases hs
      · next sockets hrecv =>
          cases hs
          rw [hspeech _ _ hrecv]
          exact h.hear hopen hin .teardown (by rw [hpc]; rfl) rfl rfl rfl
            (sent_recv hrecv) (closes_recv hrecv) rfl rfl rfl rfl
      · next sockets buffer hrecv =>
          rw [hspeech _ _ hrecv]
          split at hs
          all_goals
            next hreceived =>
              cases hs
              exact h.hear hopen hin _
                (by rw [hpc]; simp only [CommPc.place, Place.next, hreceived]; rfl) rfl rfl rfl
                (sent_recv hrecv) (closes_recv hrecv) rfl rfl rfl rfl
  | recvReply cmd =>
      have hspeech : ∀ sockets chunk, s.recv = some (sockets, chunk) →
          s.speech k (.comm ok) = [.hear chunk] := by
        intro sockets chunk hrecv
        simp [System.speech, hsocket, hpc, hrecv]
      simp only [System.stepComm, hpc] at hs
      split at hs
      · cases hs
      · next sockets hrecv =>
          cases hs
          rw [hspeech _ _ hrecv]
          exact h.hear hopen hin .teardown (by rw [hpc]; rfl) rfl rfl rfl
            (sent_recv hrecv) (closes_recv hrecv) rfl rfl rfl rfl
      · next sockets buffer hrecv =>
          cases hs
          rw [hspeech _ _ hrecv]
          exact h.hear hopen hin (.lock (replyReceived cmd buffer)) (by rw [hpc]; rfl) rfl rfl
            rfl (sent_recv hrecv) (closes_recv hrecv) rfl rfl rfl rfl
  | push cmd =>
      have hspeech : s.speech k (.comm ok) =
          [.submit cmd (queuePush s.heap s.cmd_queue cmd ok).2.2] := by
        simp [System.speech, hsocket, hpc]
      rw [hspeech]
      simp only [System.stepComm, hpc] at hs
      split at hs <;> cases hs
      · next hpush =>
          rw [hpush]
          exact h.hear hopen hin (.waiting s.heap.length)
            (by rw [hpc]; simp [CommPc.place, Place.next]) rfl rfl rfl rfl rfl rfl rfl rfl rfl
      · next hpush =>
          rw [hpush]
          exact h.hear hopen hin .sendFull (by rw [hpc]; simp [CommPc.place, Place.next]) rfl
            rfl rfl rfl rfl rfl rfl rfl rfl
  | sendResponse response =>
      have hspeech : s.speech k (.comm ok) = [.answer response ok] := by
        simp [System.speech, hsocket, hpc]
      rw [hspeech]
      simp only [System.stepComm, hpc] at hs
      split at hs <;> cases hs
      · next hok =>
          rw [hok, hcopied (by simp [hpc])]
          exact h.say hopen hin .loopTest (by rw [hpc]; rfl) rfl rfl rfl rfl rfl rfl rfl rfl
      · next hok =>
          rw [Bool.eq_false_iff.mpr hok]
          exact h.hear hopen hin .teardown (by rw [hpc]; rfl) rfl rfl rfl rfl rfl rfl rfl
            rfl rfl
  | teardown =>
      simp only [System.stepComm, hpc, Option.some.injEq] at hs
      subst hs
      have hspeech : s.speech k (.comm ok) = [.close] := by simp [System.speech, hsocket, hpc]
      have hsame : s.commSocket = k := hcopied (by simp [hpc])
      rw [hspeech, hsame]
      exact h.closed hopen.range (by rw [hopen.place hin, hpc]; rfl) rfl rfl
        (by simp [System.close, hopen.joining]) rfl
  | lock cmd | waiting block | woken block inTime | collect block inTime =>
      have hspeech : s.speech k (.comm ok) = [] := by simp [System.speech, hsocket, hpc]
      rw [hspeech]
      simp only [System.stepComm, hpc] at hs
      repeat' split at hs
      all_goals cases hs
      all_goals exact ⟨c, rfl, h.inside hopen hin rfl rfl rfl rfl (by rw [hpc]; rfl) rfl⟩

/-- A step of `main` that neither takes over a connection nor gives one up. -/
theorem Follows.away (h : Follows server_ip k s c) (hregister : ∀ j, s.main ≠ .register j)
    (hregister' : ∀ j, s'.main ≠ .register j) (hip : s'.server_ip = s.server_ip)
    (hsockets : s'.sockets = s.sockets) (hsocket : s'.client_socket = s.client_socket)
    (hin : s'.comm.inSession = s.comm.inSession) (hplace : s'.comm.place = s.comm.place) :
    Follows server_ip k s' c := by
  refine h.silent hip ?_ ?_ ?_
  · simp only [System.place, hsockets, hregister k, hregister' k, hsocket, hin, hplace]
  · rw [System.sent, hsockets, System.sent]
  · rw [System.closes, hsockets, System.closes]

theorem Follows.main (h : Follows server_ip k s c) (hsession : SessionInv s)
    (hconn : ConnectionInv s) {accepted : Accepted} {ok : Bool}
    (hs : s.stepMain accepted ok = some s') :
    ∃ c', (protocolMachine server_ip).exec c (s.speech k (.main accepted ok)) = some c' ∧
      Follows server_ip k s' c' := by
  cases hmain : s.main with
  | busy j => exact absurd hmain (hconn.notBusy j)
  | accept =>
      have hspeech : s.speech k (.main accepted ok) = [] := by simp [System.speech, hmain]
      rw [hspeech]
      simp only [System.stepMain, hmain] at hs
      split at hs <;> cases hs
      · have hnone := hconn.cleared (hsession.unconnected (by simp [hmain]) (by simp [hmain]))
        refine ⟨c, rfl, h.silent rfl ?_ ?_ ?_⟩
        · simp only [System.place, hmain, hnone, List.length_append, List.length_singleton,
            MainPc.register.injEq, reduceCtorEq, or_false, if_false]
          by_cases hk : s.sockets.length ≤ k
          · rw [if_pos hk, if_pos (by omega)]
          · rw [if_neg hk, if_neg (by omega)]
        · simp only [System.sent, List.map_append, List.getElem?_append]
          split
          · rfl
          · next hk =>
              rw [List.getElem?_eq_none (Nat.le_of_not_lt hk), List.map_singleton]
              cases k - (s.sockets.map Socket.sent).length <;> rfl
        · simp only [System.closes, List.map_append, List.getElem?_append]
          split
          · rfl
          · next hk =>
              rw [List.getElem?_eq_none (Nat.le_of_not_lt hk), List.map_singleton]
              cases k - (s.sockets.map Socket.closes).length <;> rfl
      all_goals exact ⟨c, rfl, h.away (by simp [hmain]) (by simp) rfl rfl rfl rfl rfl⟩
  | register j =>
      have hspeech : s.speech k (.main accepted ok) = [] := by simp [System.speech, hmain]
      rw [hspeech]
      have hoff := hsession.unconnected (by simp [hmain]) (by simp [hmain])
      have hnone := hconn.cleared hoff
      have hout := hsession.not_inSession (by simp [hmain])
      simp only [System.stepMain, hmain, hoff, Bool.false_eq_true, if_false,
        Option.some.injEq] at hs
      subst hs
      refine ⟨c, rfl, h.silent rfl ?_ rfl rfl⟩
      simp only [System.place, hmain, hnone, hout, MainPc.register.injEq, reduceCtorEq, or_false,
        if_false, Option.some.injEq, Bool.false_eq_true]
      by_cases hk : s.sockets.length ≤ k
      · rw [if_pos hk, if_pos (.inl hk)]
      · by_cases hj : j = k
        · rw [if_neg hk, if_pos hj, if_pos (.inr hj)]
        · rw [if_neg hk, if_neg hj, if_neg (by simp [hk, hj])]
  | create j =>
      have hsocket := hconn.creating j hmain
      have hout := hsession.not_inSession (by simp [hmain])
      simp only [System.stepMain, hmain] at hs
      split at hs <;> cases hs
      · next hok =>
          have hspeech : s.speech k (.main accepted ok) = [] := by
            simp [System.speech, hmain, hok]
          rw [hspeech]
          refine ⟨c, rfl, h.silent rfl ?_ rfl rfl⟩
          have hstart : CommPc.start.inSession = true ∧ CommPc.start.place = .accepted := ⟨rfl, rfl⟩
          simp only [System.place, hmain, hsocket, hout, hstart, reduceCtorEq, or_false,
            Bool.false_eq_true, if_false, if_true]
      · next hok =>
          have hrange : j < s.sockets.length := by
            have hcounted := hconn.range j (.inr hsocket)
            rwa [System.closes, List.length_map] at hcounted
          by_cases hj : j = k
          · subst hj
            have hspeech : s.speech j (.main accepted ok) = [.close] := by
              simp [System.speech, hmain, hok]
            rw [hspeech]
            have hplace : s.place j = .accepted := by
              rw [System.place, if_neg (by simp [hmain, hrange]), if_pos hsocket,
                if_neg (by simp [hout])]
            exact h.closed hrange (by rw [hplace]; rfl) rfl rfl (by simp) rfl
          · have hspeech : s.speech k (.main accepted ok) = [] := by
              simp [System.speech, hmain, hj]
            rw [hspeech]
            refine ⟨c, rfl, h.elsewhere rfl (by simp [System.close]) ?_ ?_ (by simp [hmain])
              (by simp) (by simp [hsocket, hj]) (by simp)⟩
            · exact congrArg (fun texts => texts[k]?) (sent_close s j)
            · refine (congrArg (fun counts => counts[k]?) (closes_close s j)).trans ?_
              simp [hj]
  | joinComm =>
      have hspeech : s.speech k (.main accepted ok) = [] := by simp [System.speech, hmain]
      rw [hspeech]
      simp only [System.stepMain, hmain] at hs
      split at hs <;> cases hs
      next hreturned =>
        exact ⟨c, rfl, h.away (by simp [hmain]) (by simp) rfl rfl rfl (by rw [hreturned]; rfl)
          (by rw [hreturned]; rfl)⟩
  | closeSockets =>
      have hnone := hconn.cleared (hsession.unconnected (by simp [hmain]) (by simp [hmain]))
      have hspeech : s.speech k (.main accepted ok) = [] := by simp [System.speech, hmain, hnone]
      rw [hspeech]
      simp only [System.stepMain, hmain, hnone, Option.some.injEq] at hs
      subst hs
      exact ⟨c, rfl, h.away (by simp [hmain]) (by simp) rfl rfl hnone.symm rfl rfl⟩
  | wakeDevice | wakeComm | cleanupJoinComm =>
      have hforced := hsession.unforced
      rw [hmain] at hforced
      cases hforced
  | _ =>
      have hspeech : s.speech k (.main accepted ok) = [] := by simp [System.speech, hmain]
      rw [hspeech]
      simp only [System.stepMain, hmain] at hs
      repeat' split at hs
      all_goals cases hs
      all_goals exact ⟨c, rfl, h.away (by simp [hmain]) (by simp) rfl rfl rfl rfl rfl⟩

theorem recv_length {sockets : List Socket} {result : Option Bytes}
    (hs : s.recv = some (sockets, result)) : sockets.length = s.sockets.length := by
  have hmap := congrArg List.length (closes_recv hs)
  simpa [System.closes] using hmap

theorem stepComm_frame {ok : Bool} (hs : s.stepComm ok = some s') :
    s'.server_ip = s.server_ip ∧ s'.sockets.length = s.sockets.length ∧
      (s'.client_socket = s.client_socket ∨ s'.client_socket = none) := by
  revert hs
  fun_cases System.stepComm s ok
  all_goals intro hs
  all_goals cases hs
  all_goals first
    | exact ⟨rfl, rfl, .inl rfl⟩
    | exact ⟨rfl, recv_length (by assumption), .inl rfl⟩
    | exact ⟨rfl, List.length_modify .., .inr rfl⟩
    | refine ⟨rfl, ?_, .inl rfl⟩
      simp only [System.send]
      split
      · exact List.length_modify ..
      · rfl

theorem Follows.comm (h : Follows server_ip k s c) (hsession : SessionInv s)
    (hconn : ConnectionInv s) {ok : Bool} (hs : s.stepComm ok = some s') :
    ∃ c', (protocolMachine server_ip).exec c (s.speech k (.comm ok)) = some c' ∧
      Follows server_ip k s' c' := by
  obtain ⟨hin, hmain, -, -⟩ := stepComm_control hs
  have hjoin := hsession.joining.mp (inSession_ne_absent hin)
  by_cases hsocket : s.client_socket = some k
  · have hrange := hconn.range k (.inr hsocket)
    rw [System.closes, List.length_map] at hrange
    refine h.session ⟨hrange, hjoin, hsocket⟩ (fun hne => ?_) hs
    have hcopied := hconn.copied hin hne
    rw [hsocket, Option.some.injEq] at hcopied
    exact hcopied.symm
  · have hspeech : s.speech k (.comm ok) = [] := by simp [System.speech, hsocket]
    rw [hspeech]
    obtain ⟨hip, hlength, hsocket'⟩ := stepComm_frame hs
    have huses : s.uses (.comm ok) ≠ some k := by
      by_cases hstart : s.comm = .start
      · simpa [System.uses, hstart] using hsocket
      · have hcopied := hconn.copied hin hstart
        have hne : s.commSocket ≠ k := fun heq => hsocket (heq ▸ hcopied)
        cases hpc : s.comm <;> simp_all [System.uses]
    have hsame : s'.sockets[k]? = s.sockets[k]? := by
      cases hk : s.sockets[k]? with
      | none => exact List.getElem?_eq_none (hlength ▸ List.getElem?_eq_none_iff.mp hk)
      | some socket => exact uses_frame (a := .comm ok) hs rfl hk huses
    refine ⟨c, rfl, h.elsewhere hip hlength ?_ ?_ (by simp [hjoin]) (by simp [hmain, hjoin]) hsocket
      ?_⟩
    · rw [System.sent, List.getElem?_map, hsame, System.sent, List.getElem?_map]
    · rw [System.closes, List.getElem?_map, hsame, System.closes, List.getElem?_map]
    · rcases hsocket' with heq | heq
      · rwa [heq]
      · simp [heq]

theorem Follows.device (h : Follows server_ip k s c) (hip : s'.server_ip = s.server_ip)
    (hsent : s'.sent = s.sent) (hcloses : s'.closes = s.closes) (hmain : s'.main = s.main)
    (hsocket : s'.client_socket = s.client_socket)
    (hcomm : s'.comm = s.comm ∨ s'.comm = s.comm.signalled) : Follows server_ip k s' c := by
  have hlength : s'.sockets.length = s.sockets.length := by
    have hmap := congrArg List.length hcloses
    simpa [System.closes] using hmap
  exact h.silent hip (place_congr hlength hmain hsocket hcomm) (by rw [hsent]) (by rw [hcloses])

theorem Follows.step (h : Follows server_ip k s c) (hsession : SessionInv s)
    (hconn : ConnectionInv s) {a : Action} (hs : s.step a = some s') :
    ∃ c', (protocolMachine server_ip).exec c (s.speech k a) = some c' ∧
      Follows server_ip k s' c' := by
  cases a with
  | main accepted ok => exact h.main hsession hconn hs
  | comm ok => exact h.comm hsession hconn hs
  | commWake wake =>
      obtain ⟨block, hcomm, rfl⟩ := wakeComm_eq hs
      refine ⟨c, rfl, h.silent rfl ?_ rfl rfl⟩
      simp [System.place, hcomm, CommPc.inSession, CommPc.place]
  | device mallocOk createOk level =>
      obtain ⟨-, hmain, -, hsocket, hcomm⟩ := stepDevice_control hs
      obtain ⟨-, hsockets, -⟩ := stepDevice_frame hs
      have hip : s'.server_ip = s.server_ip := by
        revert hs
        simp only [System.step]
        fun_cases System.stepDevice s mallocOk createOk level
        all_goals intro hs
        all_goals cases hs
        all_goals rfl
      refine ⟨c, rfl, h.device hip ?_ ?_ hmain hsocket hcomm⟩
      · rw [System.sent, hsockets, System.sent]
      · rw [System.closes, hsockets, System.closes]
  | deviceWake wake =>
      obtain ⟨-, rfl⟩ := wakeDevice_eq hs
      exact ⟨c, rfl, h.device rfl rfl rfl rfl rfl (.inl rfl)⟩
  | interrupt | libraries devices =>
      cases hs
      exact ⟨c, rfl, h.device rfl rfl rfl rfl rfl (.inl rfl)⟩
  | hangUp socket =>
      cases hs
      exact ⟨c, rfl, h.device rfl (map_modify_same _ _ fun _ => rfl)
        (map_modify_same _ _ fun _ => rfl) rfl rfl (.inl rfl)⟩
  | arrive socket chunk =>
      simp only [System.step] at hs
      repeat' split at hs
      all_goals cases hs
      exact ⟨c, rfl, h.device rfl (map_modify_same _ _ fun _ => rfl)
        (map_modify_same _ _ fun _ => rfl) rfl rfl (.inl rfl)⟩

end Steps

theorem protocol_simulation (server_ip : Bytes) (k : Nat) :
    (serverMachine server_ip).Simulation (protocolMachine server_ip) (System.speech k)
      (Follows server_ip k) where
  start := ⟨_, Machine.ReachableUnder.start, follows_init server_ip k⟩
  step _ _ _ _ hs _ hR hstep :=
    hR.step (sessionInv_of_reachable hs) (connectionInv_of_reachable hs) hstep

/-! ## The result -/

/-- In every run of the server each connection is served by the protocol: what it is sent,
what is read from it and its one `close` come in the order of a run of the protocol
machine, which has got as far as the server has. -/
theorem connection_follows_protocol {server_ip : Bytes} {as : List Action} {s : System}
    (hrun : (serverMachine server_ip).exec (System.init server_ip) as = some s) (k : Nat) :
    ∃ c, (protocolMachine server_ip).exec (protocolMachine server_ip).start
        ((serverMachine server_ip).observed (System.speech k) (System.init server_ip) as) = some c ∧
      c.place = s.place k ∧
      ∀ socket, s.sockets[k]? = some socket → socket.sent = c.said ∧ socket.closes = c.closes := by
  obtain ⟨c, hc, hfollows⟩ := (protocol_simulation server_ip k).run Machine.ReachableUnder.start
    Machine.ReachableUnder.start (follows_init server_ip k) hrun
  refine ⟨c, hc, hfollows.place, ?_⟩
  intro socket hsocket
  have hsaid := hfollows.said
  have hcloses := hfollows.closes
  rw [System.sent, List.getElem?_map, hsocket] at hsaid
  rw [System.closes, List.getElem?_map, hsocket] at hcloses
  exact ⟨hsaid.symm, hcloses.symm⟩

/-- One command, answered. -/
theorem one_command_spoken :
    ∃ (s : System) (c : Conversation), (protocolMachine []).exec (protocolMachine []).start
        [.say (welcome []) true, .say menu true, .hear (some (text "1 0 0\n")),
          .submit ⟨.ledOn, 0, 0⟩ true, .answer ⟨0, text "LED turned ON", 0⟩ true] = some c ∧
      c.place = s.place 0 ∧ s.place 0 = .menu ∧
      ∀ socket, s.sockets[0]? = some socket → socket.sent = c.said ∧ socket.closes = c.closes := by
  have hrun : ((serverMachine []).exec (System.init [])
      (connect ++ pushLine (text "1 0 0\n") ++ deviceSteps 6 ++ commSteps 3)).any (fun s =>
        decide (s.place 0 = .menu)) = true := by
    decide +kernel
  have hlabels : (serverMachine []).observed (System.speech 0) (System.init [])
      (connect ++ pushLine (text "1 0 0\n") ++ deviceSteps 6 ++ commSteps 3) =
      [.say (welcome []) true, .say menu true, .hear (some (text "1 0 0\n")),
        .submit ⟨.ledOn, 0, 0⟩ true, .answer ⟨0, text "LED turned ON", 0⟩ true] := by
    decide +kernel
  obtain ⟨s, hs, hplace⟩ := (Option.any_eq_true _ _).mp hrun
  obtain ⟨c, hc, hsame, hsocket⟩ := connection_follows_protocol hs 0
  rw [hlabels] at hc
  exact ⟨s, c, hc, hsame, of_decide_eq_true hplace, hsocket⟩

end RsvpControl.Server
