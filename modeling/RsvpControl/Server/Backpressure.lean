import RsvpControl.Core.Progress
import RsvpControl.Server.Shutdown

/-! # A client that does not read

The client socket is blocking in both directions: a `send` waits when the client has
left unread what fills the buffers of the connection. Here the server runs with the room
on its connections, which the clients give and take. A shutdown gets stuck in a `send`
as it does in a `recv`, and in nothing else.
-/

namespace RsvpControl.Server

open RsvpControl.Core Device

/-! ## The machine -/

structure Linked where
  server : System
  /-- Sockets on which a further message waits until the client reads. -/
  full : List Nat
deriving Repr

inductive LinkedAction where
  | server (a : Action)
  /-- What the client has not read comes to fill the buffers. -/
  | fill (socket : Nat)
  /-- The client reads. -/
  | drain (socket : Nat)
deriving DecidableEq, Repr

/-- In a `send` other than the welcome, which is the first message on its connection. -/
def CommPc.sending : CommPc → Bool
  | .sendMenu | .sendInvalid | .sendBye | .sendPrompt _ _ | .sendFull | .sendResponse _
  | .sendTimeout => true
  | _ => false

def Action.byComm : Action → Bool
  | .comm _ => true
  | _ => false

/-- The session's connection takes no further message, and its client has not closed it. -/
def Linked.choked (s : Linked) : Bool :=
  s.full.contains s.server.commSocket && !s.server.hungUp

def Linked.blockedInSend (s : Linked) : Bool := s.server.comm.sending && s.choked

def Linked.step (s : Linked) : LinkedAction → Option Linked
  | .server a =>
      if a.byComm && s.blockedInSend then none
      else (s.server.step a).map fun server => { s with server := server }
  | .fill socket =>
      if (s.server.sockets[socket]?).any (fun k => !k.sent.isEmpty) then
        some { s with full := socket :: s.full }
      else none
  | .drain socket => some { s with full := s.full.filter (· ≠ socket) }

def linkedMachine (server_ip : Bytes) : Machine Linked LinkedAction :=
  ⟨⟨System.init server_ip, []⟩, Linked.step⟩

/-! ## The condition -/

/-- Past a test of `server_running` that found it set, with a message to send before the
next one. -/
def CommPc.owesSend : CommPc → Bool
  | .absent | .start | .loopTest | .teardown | .returned => false
  | _ => true

/-- The session needs the client to read before it gets to its next test of
`server_running`. -/
def Linked.congested (s : Linked) : Bool := s.server.comm.owesSend && s.choked

/-- SIGINT comes, and a connection fills up after it, only when that does not leave the
session waiting for the client. -/
def Linked.unhindered (s : Linked) : LinkedAction → Bool
  | .server .interrupt => !s.server.starved && !s.congested
  | .fill socket =>
      s.server.server_running || !({ s with full := socket :: s.full } : Linked).congested
  | _ => true

def Linked.Progresses (s : Linked) : Prop :=
  ∃ (a : Action) (s' : Linked), a.byServer = true ∧ s.step (.server a) = some s'

/-- `main` is in the join and the thread it joins is in `recv` on an open, silent socket,
or in `send` on one whose client does not read. -/
def Linked.StuckOnClient (s : Linked) : Prop :=
  s.server.main = .joinComm ∧ (s.server.blockedInRecv = true ∨ s.blockedInSend = true)

/-! ## The server inside -/

theorem linked_server_step {s s' : Linked} {a : Action} (hs : s.step (.server a) = some s') :
    s.server.step a = some s'.server ∧ s'.full = s.full ∧
      (a.byComm = true → s.blockedInSend = false) := by
  simp only [Linked.step] at hs
  split at hs
  · cases hs
  · next hfree =>
      obtain ⟨server, hserver, rfl⟩ := Option.map_eq_some_iff.mp hs
      refine ⟨hserver, rfl, fun hcomm => ?_⟩
      rw [hcomm, Bool.true_and, Bool.not_eq_true] at hfree
      exact hfree

theorem linked_step_server {s : Linked} {a : Action} {server : System}
    (hs : s.server.step a = some server) (hfree : a.byComm = true → s.blockedInSend = false) :
    s.step (.server a) = some { s with server := server } := by
  have hnot : ¬ (a.byComm && s.blockedInSend) = true := by
    rw [Bool.and_eq_true]
    rintro ⟨hcomm, hblocked⟩
    rw [hfree hcomm] at hblocked
    cases hblocked
  simp [Linked.step, hnot, hs]

/-- The room on the connections only keeps the server from steps it could take. -/
theorem server_reachable {server_ip : Bytes} {s : Linked}
    (h : (linkedMachine server_ip).ReachableUnder (fun s a => s.unhindered a = true) s) :
    (serverMachine server_ip).ReachableUnder (fun s a => s.interruptsFed a = true) s.server := by
  refine h.invariant (I := fun s => (serverMachine server_ip).ReachableUnder
    (fun s a => s.interruptsFed a = true) s.server) Machine.ReachableUnder.start ?_
  intro s a s' _ hreach hok hs
  cases a with
  | server a =>
      refine hreach.step ?_ (linked_server_step hs).1
      cases a with
      | interrupt =>
          simp only [Linked.unhindered, Bool.and_eq_true] at hok
          exact hok.1
      | _ => rfl
  | fill socket =>
      simp only [linkedMachine, Linked.step] at hs
      split at hs <;> cases hs
      exact hreach
  | drain socket =>
      cases hs
      exact hreach

/-! ## Nothing hinders the session -/

theorem owesSend_signalled (pc : CommPc) : pc.signalled.owesSend = pc.owesSend := by
  cases pc <;> rfl

theorem owesSend_of_sending {pc : CommPc} (h : pc.sending = true) : pc.owesSend = true := by
  cases pc <;> first | rfl | cases h

theorem congested_of_blocked {s : Linked} (h : s.blockedInSend = true) : s.congested = true := by
  simp only [Linked.blockedInSend, Bool.and_eq_true] at h
  simp [Linked.congested, owesSend_of_sending h.1, h.2]

/-- Once the server stops, a step of a thread leads into no iteration of a session and
leaves its connection as it is. -/
theorem owesSend_step {s s' : System} {a : Action} (hsession : SessionInv s)
    (hstopping : s.server_running = false) (hs : s.step a = some s')
    (howes : s'.comm.owesSend = true) :
    s.comm.owesSend = true ∧ s'.commSocket = s.commSocket ∧
      (s.hungUp = true → s'.hungUp = true) := by
  cases a with
  | main accepted ok =>
      have hjoin := (stepMain_control hs).2.2.2.2.2.2.2.2
      by_cases habsent : s.comm = .absent
      · rcases hjoin with heq | heq | ⟨heq, _⟩ | ⟨heq, _⟩
        all_goals
          rw [heq] at howes
          first | cases howes | (rw [habsent] at howes; cases howes)
      · simp only [System.step, System.stepMain, hsession.joining.mp habsent] at hs
        split at hs <;> cases hs
        cases howes
  | comm ok =>
      simp only [System.step, System.stepComm] at hs
      cases hcomm : s.comm with
      | start =>
          simp only [hcomm] at hs
          split at hs <;> cases hs
          cases howes
      | loopTest =>
          simp only [hcomm, hstopping, Bool.false_eq_true, if_false, Option.some.injEq] at hs
          subst hs
          cases howes
      | absent | returned | waiting block => simp [hcomm] at hs
      | teardown =>
          simp only [hcomm, Option.some.injEq] at hs
          subst hs
          cases howes
      | recvCommand | recvReply cmd =>
          simp only [hcomm] at hs
          split at hs
          · cases hs
          · cases hs
            cases howes
          · next sockets buffer hrecv =>
              refine ⟨rfl, ?_⟩
              have hsame := fun pc => (recv_some hrecv pc).2
              first
                | (cases hs
                   exact ⟨rfl, fun h => (hsame _).trans h⟩)
                | (split at hs <;> cases hs
                   all_goals exact ⟨rfl, fun h => (hsame _).trans h⟩)
      | push cmd =>
          simp only [hcomm] at hs
          split at hs <;> cases hs
          · exact ⟨rfl, rfl, id⟩
          · exact ⟨rfl, rfl, id⟩
      | lock cmd | woken block inTime | collect block inTime =>
          simp only [hcomm] at hs
          split at hs <;> cases hs
          all_goals exact ⟨rfl, rfl, id⟩
      | sendMenu | sendPrompt cmd prompt =>
          simp only [hcomm, Option.some.injEq] at hs
          subst hs
          exact ⟨rfl, rfl, fun h => (inbox_send s _ _ ok).2.trans h⟩
      | sendInvalid | sendBye | sendFull | sendTimeout =>
          simp only [hcomm, Option.some.injEq] at hs
          subst hs
          cases howes
      | sendResponse response =>
          simp only [hcomm] at hs
          split at hs <;> cases hs
          all_goals cases howes
  | commWake wake =>
      obtain ⟨block, hcomm, rfl⟩ := wakeComm_eq hs
      exact ⟨by rw [hcomm]; rfl, rfl, id⟩
  | device mallocOk createOk level =>
      obtain ⟨-, hsockets, hsocket⟩ := stepDevice_frame hs
      refine ⟨?_, hsocket, fun h => ?_⟩
      · rcases (stepDevice_control hs).2.2.2.2 with heq | heq
        · exact heq ▸ howes
        · rw [heq, owesSend_signalled] at howes
          exact howes
      · rw [(inbox_eq hsockets hsocket).2]
        exact h
  | deviceWake wake =>
      obtain ⟨-, rfl⟩ := wakeDevice_eq hs
      exact ⟨howes, rfl, id⟩
  | interrupt | libraries devices =>
      cases hs
      exact ⟨howes, rfl, id⟩
  | arrive socket chunk =>
      simp only [System.step] at hs
      split at hs
      · cases hs
      · split at hs <;> cases hs
        exact ⟨howes, rfl, (inbox_modify (s := s) (k := socket)
          (f := fun k => { k with inbox := k.inbox ++ [chunk] })
          fun x => ⟨List.prefix_append _ _, id⟩).2⟩
  | hangUp socket =>
      cases hs
      exact ⟨howes, rfl, (inbox_modify (s := s) (k := socket)
        (f := fun k => { k with hungUp := true }) fun x => ⟨List.prefix_rfl, fun _ => rfl⟩).2⟩

theorem choked_of_step {s s' : Linked} (hfull : s'.full = s.full)
    (hsocket : s'.server.commSocket = s.server.commSocket)
    (hhung : s.server.hungUp = true → s'.server.hungUp = true) (h : s.choked = false) :
    s'.choked = false := by
  simp only [Linked.choked, hfull, hsocket, Bool.and_eq_false_iff, Bool.not_eq_false'] at h ⊢
  exact h.imp_right hhung

/-- Once the server stops the session has room for the messages it still owes. -/
theorem uncongested_of_reachable {server_ip : Bytes} {s : Linked}
    (h : (linkedMachine server_ip).ReachableUnder (fun s a => s.unhindered a = true) s) :
    s.server.server_running = false → s.congested = false := by
  refine h.invariant (I := fun s => s.server.server_running = false → s.congested = false)
    (fun hstopping => by cases hstopping) ?_
  intro s a s' hreach hinv hok hs hstopping
  have hsession := sessionInv_of_reachable (server_reachable hreach).reachable
  cases a with
  | server a =>
      obtain ⟨hserver, hfull, -⟩ := linked_server_step hs
      by_cases hsigint : a = .interrupt
      · subst hsigint
        obtain ⟨server', full'⟩ := s'
        cases hserver
        cases hfull
        simp only [Linked.unhindered, Bool.and_eq_true, Bool.not_eq_true'] at hok
        exact hok.2
      · rw [Bool.eq_false_iff]
        intro hcongested
        simp only [Linked.congested, Bool.and_eq_true] at hcongested
        by_cases hbefore : s.server.server_running = false
        · obtain ⟨howes, hsocket, hhung⟩ := owesSend_step hsession hbefore hserver hcongested.1
          have hfree := hinv hbefore
          simp only [Linked.congested, howes, Bool.true_and] at hfree
          rw [choked_of_step hfull hsocket hhung hfree] at hcongested
          cases hcongested.2
        · -- the server stops by itself only with no session left
          have hsession' := sessionInv_of_reachable
            ((server_reachable hreach).reachable.step trivial hserver)
          have hjoin := hsession'.joining.mp fun habsent => by
            rw [habsent] at hcongested
            cases hcongested.1
          have hsame := ((flags_step hserver hsigint).2.2 (by rw [hjoin]; rfl)).2
          exact hbefore (hsame ▸ hstopping)
  | fill socket =>
      simp only [linkedMachine, Linked.step] at hs
      split at hs <;> cases hs
      simp only [Linked.unhindered, Bool.or_eq_true, Bool.not_eq_true'] at hok
      rcases hok with hrunning | hfree
      · rw [show s.server.server_running = false from hstopping] at hrunning
        cases hrunning
      · exact hfree
  | drain socket =>
      cases hs
      have hfree := hinv hstopping
      rw [Bool.eq_false_iff] at hfree ⊢
      intro hcongested
      apply hfree
      simp only [Linked.congested, Linked.choked, Bool.and_eq_true, List.contains_iff_mem,
        List.mem_filter] at hcongested ⊢
      exact ⟨hcongested.1, hcongested.2.1.1, hcongested.2.2⟩

theorem progresses_of_unhindered {server_ip : Bytes} {s : Linked}
    (h : (linkedMachine server_ip).ReachableUnder (fun s a => s.unhindered a = true) s)
    (hstopping : s.server.server_running = false) (hmain : s.server.main ≠ .finished) :
    s.Progresses ∧ ¬ s.StuckOnClient := by
  have hserver := server_reachable h
  have hfree : s.blockedInSend = false := by
    rw [Bool.eq_false_iff]
    intro hblocked
    have hnot := uncongested_of_reachable h hstopping
    rw [congested_of_blocked hblocked] at hnot
    cases hnot
  have hunblocked : s.server.blockedInRecv = false := by
    rw [Bool.eq_false_iff]
    intro hblocked
    have hfed := fed_of_reachable hserver hstopping
    rw [starved_of_blocked hblocked] at hfed
    cases hfed
  constructor
  · obtain ⟨a, server, hbyServer, hs⟩ := progresses_of_unblocked
      (mutexInv_of_reachable hserver.reachable) (sessionInv_of_reachable hserver.reachable)
      (ledger_of_reachable hserver.reachable) hmain fun _ => hunblocked
    exact ⟨a, _, hbyServer, linked_step_server hs fun _ => hfree⟩
  · rintro ⟨-, hblocked | hblocked⟩
    · rw [hunblocked] at hblocked
      cases hblocked
    · rw [hfree] at hblocked
      cases hblocked

/-! ## What a hindrance leads to -/

/-- With the device thread gone nothing moves while the session waits for its client. -/
theorem not_progresses_of_blocked {s : Linked} (hmain : s.server.main = .joinComm)
    (hdevice : s.server.device = .returned)
    (hblocked : s.server.blockedInRecv = true ∨ s.blockedInSend = true) : ¬ s.Progresses := by
  rintro ⟨a, s', hserver, hs⟩
  obtain ⟨hstep, -, hfree⟩ := linked_server_step hs
  have hcomm : (∀ block, s.server.comm ≠ .waiting block) ∧ s.server.comm ≠ .returned ∧
      ∀ ok, a = .comm ok → s.server.blockedInRecv = true := by
    refine ⟨?_, ?_, ?_⟩
    · intro block hwaiting
      rcases hblocked with hrecv | hsend
      · simp [System.blockedInRecv, hwaiting] at hrecv
      · simp [Linked.blockedInSend, hwaiting, CommPc.sending] at hsend
    · intro hover
      rcases hblocked with hrecv | hsend
      · simp [System.blockedInRecv, hover] at hrecv
      · simp [Linked.blockedInSend, hover, CommPc.sending] at hsend
    · rintro ok rfl
      refine hblocked.resolve_right fun hsend => ?_
      rw [hfree rfl] at hsend
      cases hsend
  cases a with
  | main accepted ok => simp [System.step, System.stepMain, hmain, hcomm.2.1] at hstep
  | comm ok =>
      have hrecv := hcomm.2.2 ok rfl
      unfold System.blockedInRecv at hrecv
      split at hrecv
      · next hpc =>
          simp only [Bool.and_eq_true, List.isEmpty_iff, Bool.not_eq_true'] at hrecv
          simp [System.step, System.stepComm, hpc, System.recv, hrecv.1, hrecv.2] at hstep
      · next cmd hpc =>
          simp only [Bool.and_eq_true, List.isEmpty_iff, Bool.not_eq_true'] at hrecv
          simp [System.step, System.stepComm, hpc, System.recv, hrecv.1, hrecv.2] at hstep
      · cases hrecv
  | commWake wake =>
      obtain ⟨block, hwaiting, -⟩ := wakeComm_eq hstep
      exact hcomm.1 block hwaiting
  | device mallocOk createOk level => simp [System.step, System.stepDevice, hdevice] at hstep
  | deviceWake wake => simp [System.step, System.wakeDevice, hdevice] at hstep
  | interrupt | arrive | hangUp | libraries => cases hserver

/-- Steps of the device thread to its end once the server stops. -/
def DevicePc.toReturn : DevicePc → Nat
  | .returned => 0
  | .loopTest | .head => 1
  | .lock | .sensorAfterHandle | .freeSkipped _ => 2
  | .sensorInWait | .sensorAfter => 3
  | .sensorTest | .freeCmd _ => 4
  | .woken | .publish _ _ => 5
  | .waiting | .publishLock _ _ => 6
  | .dispatch _ => 7

theorem toReturn_step {s s' : System} {mallocOk createOk : Bool} {level : Int}
    (hstopping : s.server_running = false)
    (hs : s.stepDevice mallocOk createOk level = some s') :
    s'.device.toReturn < s.device.toReturn := by
  cases hpc : s.device with
  | dispatch block =>
      simp only [System.stepDevice, hpc] at hs
      split at hs <;> cases hs
      simp only [afterDispatch]
      repeat' split
      all_goals simp [DevicePc.toReturn]
  | _ =>
      simp only [System.stepDevice, hpc, hstopping] at hs
      repeat' split at hs
      all_goals cases hs
      all_goals simp_all [DevicePc.toReturn]

/-- A session that will wait for its client, in a server that stops. -/
structure Hindered (server_ip : Bytes) (s : Linked) : Prop where
  reachable : (serverMachine server_ip).Reachable s.server
  stopping : s.server.server_running = false
  joining : s.server.main = .joinComm
  waits : s.server.starved = true ∨ s.congested = true

section Hindered

variable {server_ip : Bytes} {s : Linked}

theorem Hindered.step {s' : System} (h : Hindered server_ip s) {a : Action}
    (hs : s.server.step a = some s') (hmain : s'.main = s.server.main)
    (hrunning : s'.server_running = s.server.server_running)
    (hwaits : s'.starved = true ∨ ({ s with server := s' } : Linked).congested = true) :
    Hindered server_ip { s with server := s' } where
  reachable := h.reachable.step trivial hs
  stopping := hrunning.trans h.stopping
  joining := hmain.trans h.joining
  waits := hwaits

theorem Hindered.byDevice {s' : System} (h : Hindered server_ip s) {a : Action}
    (hs : s.server.step a = some s') (hmain : s'.main = s.server.main)
    (hrunning : s'.server_running = s.server.server_running)
    (hsockets : s'.sockets = s.server.sockets) (hsocket : s'.commSocket = s.server.commSocket)
    (hcomm : s'.comm = s.server.comm ∨ s'.comm = s.server.comm.signalled) :
    Hindered server_ip { s with server := s' } := by
  obtain ⟨hinbox, hhung⟩ := inbox_eq hsockets hsocket
  refine h.step hs hmain hrunning ?_
  rcases h.waits with hstarved | hcongested
  · left
    have hreceiving : s.server.comm.receiving = true := by
      by_contra hnot
      rw [starved_of_not_receiving (by simpa using hnot)] at hstarved
      cases hstarved
    have hsame : s'.comm = s.server.comm := by
      rcases hcomm with heq | heq
      · exact heq
      · rw [heq]
        cases hpc : s.server.comm <;> simp_all [CommPc.receiving, CommPc.signalled]
    rw [starved_eq hsame hinbox hhung]
    exact hstarved
  · right
    have howes : s'.comm.owesSend = s.server.comm.owesSend := by
      rcases hcomm with heq | heq <;> rw [heq]
      exact owesSend_signalled _
    simpa [Linked.congested, Linked.choked, howes, hsocket, hhung] using hcongested

/-- Steps of the session to its next `send` or `recv` at most. -/
def CommPc.toSend : CommPc → Nat
  | .sendMenu => 9
  | .recvCommand => 8
  | .sendPrompt _ _ => 7
  | .recvReply _ => 6
  | .lock _ => 5
  | .push _ => 4
  | .waiting _ => 3
  | .woken _ _ => 2
  | .collect _ _ => 1
  | _ => 0

theorem toSend_signalled (pc : CommPc) : pc.signalled.toSend ≤ pc.toSend := by
  cases pc <;> simp [CommPc.signalled, CommPc.toSend]

theorem toReturn_signalled (pc : DevicePc) : pc.signalled.toReturn ≤ pc.toReturn := by
  cases pc <;> simp [DevicePc.signalled, DevicePc.toReturn]

/-- A step of the server brings the session and the device thread nearer to where they
wait for good. -/
def Advances (server_ip : Bytes) (s : Linked) : Prop :=
  ∃ a s', s.step (.server a) = some s' ∧ Hindered server_ip s' ∧
    s'.server.comm.toSend + s'.server.device.toReturn <
      s.server.comm.toSend + s.server.device.toReturn

theorem Hindered.device_advances (h : Hindered server_ip s)
    (hunheld : s.server.comm.holding = false) (hreturned : s.server.device ≠ .returned) :
    Advances server_ip s := by
  obtain ⟨queued, dropped, hledger⟩ := ledger_of_reachable h.reachable
  rcases device_moves (mutexInv_of_reachable h.reachable) hledger hunheld hreturned with
    ⟨s', hs⟩ | ⟨s', hs⟩
  · obtain ⟨-, hmain, -, -, hcomm⟩ := stepDevice_control hs
    obtain ⟨hrunning, hsockets, hsocket⟩ := stepDevice_frame hs
    refine ⟨.device true true 0, _, linked_step_server hs fun h => absurd h (by decide),
      h.byDevice hs hmain hrunning hsockets hsocket hcomm, ?_⟩
    have hless := toReturn_step h.stopping hs
    have hsignalled := toSend_signalled s.server.comm
    show s'.comm.toSend + s'.device.toReturn < _
    rcases hcomm with heq | heq <;> rw [heq] <;> omega
  · obtain ⟨hwaiting, rfl⟩ := wakeDevice_eq hs
    refine ⟨.deviceWake .timeout, _, linked_step_server hs fun h => absurd h (by decide),
      h.byDevice hs rfl rfl rfl rfl (.inl rfl), ?_⟩
    simp only [hwaiting, DevicePc.toReturn]
    omega

theorem Hindered.choked_of_fed (h : Hindered server_ip s) (hfed : s.server.starved = false) :
    s.choked = true := by
  rcases h.waits with hstarved | hcongested
  · rw [hfed] at hstarved
    cases hstarved
  · simp only [Linked.congested, Bool.and_eq_true] at hcongested
    exact hcongested.2

/-- A session at a `send` that does not wait will wait in a `recv`. -/
theorem Hindered.starved_of_sending (h : Hindered server_ip s) (hsend : s.blockedInSend = false)
    (hsending : s.server.comm.sending = true) : s.server.starved = true := by
  by_contra hfed
  rw [Linked.blockedInSend, hsending, h.choked_of_fed (by simpa using hfed)] at hsend
  cases hsend

/-- A step of the session that leaves its connection as it is. -/
theorem Hindered.advance_comm (h : Hindered server_ip s) (hsend : s.blockedInSend = false)
    (s' : System) (hs : s.server.step (.comm true) = some s')
    (hsocket : s'.commSocket = s.server.commSocket) (hhung : s'.hungUp = s.server.hungUp)
    (hrunning : s'.server_running = s.server.server_running)
    (hwaits : s'.starved = true ∨ s.choked = true ∧ s'.comm.owesSend = true)
    (hless : s'.comm.toSend < s.server.comm.toSend) : Advances server_ip s := by
  obtain ⟨-, hmain, hdevice, -⟩ := stepComm_control hs
  refine ⟨.comm true, _, linked_step_server hs fun _ => hsend, h.step hs hmain hrunning ?_, ?_⟩
  · refine hwaits.imp_right fun hch => ?_
    have hkept : ({ s with server := s' } : Linked).choked = s.choked := by
      simp only [Linked.choked, hsocket, hhung]
    rw [Linked.congested, hkept, hch.1, hch.2]
    rfl
  · have hsignalled := toReturn_signalled s.server.device
    show s'.comm.toSend + s'.device.toReturn < _
    rcases hdevice with heq | heq <;> rw [heq] <;> omega

theorem Hindered.advance_menu (h : Hindered server_ip s) (hsend : s.blockedInSend = false)
    (hcomm : s.server.comm = .sendMenu) : Advances server_ip s := by
  have hstarved := h.starved_of_sending hsend (by rw [hcomm]; rfl)
  have hsame := inbox_send s.server s.server.commSocket menu true
  have hs : s.server.step (.comm true) =
      some { s.server.send s.server.commSocket menu true with comm := .recvCommand } := by
    simp [System.step, System.stepComm, hcomm]
  refine h.advance_comm hsend _ hs rfl hsame.2 rfl (.inl ?_) (by simp [hcomm, CommPc.toSend])
  simp only [System.starved, hcomm] at hstarved
  rw [← hsame.1, ← hsame.2] at hstarved
  exact hstarved

theorem Hindered.advance_prompt (h : Hindered server_ip s) (hsend : s.blockedInSend = false)
    {cmd : Command} {prompt : Bytes} (hcomm : s.server.comm = .sendPrompt cmd prompt) :
    Advances server_ip s := by
  have hstarved := h.starved_of_sending hsend (by rw [hcomm]; rfl)
  have hsame := inbox_send s.server s.server.commSocket prompt true
  have hs : s.server.step (.comm true) =
      some { s.server.send s.server.commSocket prompt true with comm := .recvReply cmd } := by
    simp [System.step, System.stepComm, hcomm]
  refine h.advance_comm hsend _ hs rfl hsame.2 rfl (.inl ?_) (by simp [hcomm, CommPc.toSend])
  simp only [System.starved, hcomm] at hstarved
  rw [← hsame.1, ← hsame.2] at hstarved
  exact hstarved

theorem Hindered.not_hungUp (h : Hindered server_ip s) : s.server.hungUp = false := by
  rcases h.waits with hstarved | hcongested
  · unfold System.starved at hstarved
    split at hstarved
    all_goals simp_all
  · simp only [Linked.congested, Linked.choked, Bool.and_eq_true, Bool.not_eq_true'] at hcongested
    exact hcongested.2.2

/-- Bytes have arrived at a `recv` that does not block, for the client has not closed. -/
theorem Hindered.recv_chunk (h : Hindered server_ip s)
    (hrecv : (s.server.inbox.isEmpty && !s.server.hungUp) = false) :
    ∃ chunk rest, s.server.inbox = chunk :: rest ∧
      s.server.recv = some (s.server.sockets.modify s.server.commSocket fun k =>
        { k with inbox := rest }, some chunk) := by
  cases hinbox : s.server.inbox with
  | cons chunk rest => exact ⟨chunk, rest, rfl, by simp [System.recv, hinbox]⟩
  | nil => simp [hinbox, h.not_hungUp] at hrecv

theorem Hindered.advance_recvCommand (h : Hindered server_ip s) (hsend : s.blockedInSend = false)
    (hcomm : s.server.comm = .recvCommand) (hrecv : s.server.blockedInRecv = false) :
    Advances server_ip s := by
  obtain ⟨chunk, rest, hinbox, hchunk⟩ := h.recv_chunk
    (by simpa [System.blockedInRecv, hcomm] using hrecv)
  have hhung := fun pc => (recv_some hchunk pc).2
  have hstep := fun pc hs => h.advance_comm hsend { s.server with
    sockets := s.server.sockets.modify s.server.commSocket fun k => { k with inbox := rest }
    comm := pc } hs rfl (hhung pc) rfl
  cases hreq : commandReceived chunk with
  | askParameter cmd prompt =>
      refine hstep (.sendPrompt cmd prompt)
        (by simp [System.step, System.stepComm, hcomm, hchunk, hreq]) ?_
        (by simp [hcomm, CommPc.toSend])
      cases hfed : s.server.starved with
      | false => exact .inr ⟨h.choked_of_fed hfed, rfl⟩
      | true =>
          left
          obtain ⟨hfront, hhung'⟩ := recv_some hchunk (.sendPrompt cmd prompt)
          rw [hinbox, List.cons.injEq] at hfront
          simp only [System.starved, hcomm, hinbox, incomplete, hreq] at hfed
          simp only [System.starved, hhung', ← hfront.2]
          exact hfed
  | invalid =>
      have hch := h.choked_of_fed (by simp [System.starved, hcomm, hinbox, incomplete, hreq])
      exact hstep .sendInvalid (by simp [System.step, System.stepComm, hcomm, hchunk, hreq])
        (.inr ⟨hch, rfl⟩) (by simp [hcomm, CommPc.toSend])
  | exit =>
      have hch := h.choked_of_fed (by simp [System.starved, hcomm, hinbox, incomplete, hreq])
      exact hstep .sendBye (by simp [System.step, System.stepComm, hcomm, hchunk, hreq])
        (.inr ⟨hch, rfl⟩) (by simp [hcomm, CommPc.toSend])
  | push cmd =>
      have hch := h.choked_of_fed (by simp [System.starved, hcomm, hinbox, incomplete, hreq])
      exact hstep (.lock cmd) (by simp [System.step, System.stepComm, hcomm, hchunk, hreq])
        (.inr ⟨hch, rfl⟩) (by simp [hcomm, CommPc.toSend])

theorem Hindered.advance_recvReply (h : Hindered server_ip s) (hsend : s.blockedInSend = false)
    {cmd : Command} (hcomm : s.server.comm = .recvReply cmd)
    (hrecv : s.server.blockedInRecv = false) : Advances server_ip s := by
  have hfed : s.server.starved = false := by
    simpa [System.starved, System.blockedInRecv, hcomm] using hrecv
  have hch := h.choked_of_fed hfed
  obtain ⟨chunk, rest, -, hchunk⟩ := h.recv_chunk
    (by simpa [System.blockedInRecv, hcomm] using hrecv)
  have hs : s.server.step (.comm true) = some { s.server with
      sockets := s.server.sockets.modify s.server.commSocket fun k => { k with inbox := rest }
      comm := .lock (replyReceived cmd chunk) } := by
    simp [System.step, System.stepComm, hcomm, hchunk]
  exact h.advance_comm hsend _ hs rfl (recv_some hchunk _).2 rfl (.inr ⟨hch, rfl⟩)
    (by simp [hcomm, CommPc.toSend])

/-- From the last `recv` of an iteration on nothing is starved, so the connection is full. -/
theorem Hindered.advance_working (h : Hindered server_ip s) (hsend : s.blockedInSend = false)
    (hfed : s.server.starved = false) {s' : System}
    (hs : s.server.step (.comm true) = some s')
    (hsocket : s'.commSocket = s.server.commSocket) (hsockets : s'.sockets = s.server.sockets)
    (hrunning : s'.server_running = s.server.server_running) (howes : s'.comm.owesSend = true)
    (hless : s'.comm.toSend < s.server.comm.toSend) : Advances server_ip s :=
  h.advance_comm hsend _ hs hsocket (inbox_eq hsockets hsocket).2 hrunning
    (.inr ⟨h.choked_of_fed hfed, howes⟩) hless

theorem Hindered.advance_push (h : Hindered server_ip s) (hsend : s.blockedInSend = false)
    {cmd : Command} (hcomm : s.server.comm = .push cmd) : Advances server_ip s := by
  have hfed : s.server.starved = false := by simp [System.starved, hcomm]
  cases hpush : queuePush s.server.heap s.server.cmd_queue cmd true with
  | mk heap pushed =>
      obtain ⟨cmd_queue, accepted⟩ := pushed
      cases accepted with
      | true =>
          have hs : s.server.step (.comm true) = some { s.server.signalNotEmpty with
              heap := heap
              cmd_queue := cmd_queue
              pushed := s.server.pushed ++ [(s.server.heap.length, cmd)]
              queue_mutex := none
              comm := .waiting s.server.heap.length } := by
            simp [System.step, System.stepComm, hcomm, hpush]
          exact h.advance_working hsend hfed hs rfl rfl rfl rfl (by simp [hcomm, CommPc.toSend])
      | false =>
          have hs : s.server.step (.comm true) =
              some { s.server with queue_mutex := none, comm := .sendFull } := by
            simp [System.step, System.stepComm, hcomm, hpush]
          exact h.advance_working hsend hfed hs rfl rfl rfl rfl (by simp [hcomm, CommPc.toSend])

/-- A session that will wait for its client and does not yet comes nearer to where it
will. -/
theorem Hindered.comm_advances (h : Hindered server_ip s)
    (hfree : s.server.comm.holding = false → s.server.queue_mutex = none)
    (hrecv : s.server.blockedInRecv = false) (hsend : s.blockedInSend = false) :
    Advances server_ip s := by
  cases hcomm : s.server.comm with
  | absent | start | loopTest | teardown | returned =>
      exfalso
      rcases h.waits with hstarved | hcongested
      · simp [System.starved, hcomm] at hstarved
      · simp [Linked.congested, hcomm, CommPc.owesSend] at hcongested
  | sendInvalid | sendBye | sendFull | sendTimeout | sendResponse response =>
      have hstarved := h.starved_of_sending hsend (by rw [hcomm]; rfl)
      simp [System.starved, hcomm] at hstarved
  | sendMenu => exact h.advance_menu hsend hcomm
  | sendPrompt cmd prompt => exact h.advance_prompt hsend hcomm
  | recvCommand => exact h.advance_recvCommand hsend hcomm hrecv
  | recvReply cmd => exact h.advance_recvReply hsend hcomm hrecv
  | push cmd => exact h.advance_push hsend hcomm
  | lock cmd =>
      have hs : s.server.step (.comm true) =
          some { s.server with queue_mutex := some .comm, comm := .push cmd } := by
        simp [System.step, System.stepComm, hcomm, hfree (by rw [hcomm]; rfl)]
      exact h.advance_working hsend (by simp [System.starved, hcomm]) hs rfl rfl rfl rfl
        (by simp [hcomm, CommPc.toSend])
  | waiting block =>
      have hch := h.choked_of_fed (by simp [System.starved, hcomm])
      have hs : s.server.step (.commWake .timeout) =
          some { s.server with comm := .woken block false } := by
        simp [System.step, System.wakeComm, hcomm]
      refine ⟨.commWake .timeout, _, linked_step_server hs fun h => absurd h (by decide),
        h.step hs rfl rfl (.inr (Bool.and_eq_true_iff.mpr ⟨rfl, hch⟩)), ?_⟩
      simp [hcomm, CommPc.toSend]
  | woken block inTime =>
      have hs : s.server.step (.comm true) =
          some { s.server with queue_mutex := some .comm, comm := .collect block inTime } := by
        simp [System.step, System.stepComm, hcomm, hfree (by rw [hcomm]; rfl)]
      exact h.advance_working hsend (by simp [System.starved, hcomm]) hs rfl rfl rfl rfl
        (by simp [hcomm, CommPc.toSend])
  | collect block inTime =>
      have hfed : s.server.starved = false := by simp [System.starved, hcomm]
      have hstep : ∃ s', s.server.step (.comm true) = some s' := by
        simp only [System.step, System.stepComm, hcomm]
        split <;> exact ⟨_, rfl⟩
      obtain ⟨s', hs⟩ := hstep
      have hs' := hs
      simp only [System.step, System.stepComm, hcomm] at hs'
      split at hs' <;> cases hs'
      all_goals
        exact h.advance_working hsend hfed hs rfl rfl rfl rfl (by simp [hcomm, CommPc.toSend])

/-- A session that will wait for its client comes to wait for good. -/
theorem Hindered.stuck (h : Hindered server_ip s) :
    ∃ s', (linkedMachine server_ip).Reaches s s' ∧ s'.server.g_running = false ∧
      s'.StuckOnClient ∧ ¬ s'.Progresses := by
  obtain ⟨s', hrun, hhindered, hreturned, hblocked⟩ := Machine.exists_reaches_of_measure
    (m := linkedMachine server_ip) (J := Hindered server_ip)
    (Q := fun s => s.server.device = .returned ∧
      (s.server.blockedInRecv = true ∨ s.blockedInSend = true))
    (fun s => s.server.comm.toSend + s.server.device.toReturn) (by
      intro s h hnot
      have hmutex := mutexInv_of_reachable h.reachable
      by_cases hdevice : s.server.comm.holding = false ∧ s.server.device ≠ .returned
      · obtain ⟨a, s', hs, hnext⟩ := h.device_advances hdevice.1 hdevice.2
        exact ⟨.server a, s', hs, hnext⟩
      · have hfree : s.server.comm.holding = false → s.server.queue_mutex = none := by
          intro hunheld
          have hreturned : s.server.device = .returned := by
            by_contra hne
            exact hdevice ⟨hunheld, hne⟩
          refine (hmutex.free_or_device hunheld).resolve_right ?_
          rw [hreturned]
          exact Bool.false_ne_true
        have hopen : s.server.blockedInRecv = false ∧ s.blockedInSend = false := by
          cases hheld : s.server.comm.holding with
          | true =>
              unfold System.blockedInRecv Linked.blockedInSend
              cases hcomm : s.server.comm with
              | push | collect => exact ⟨rfl, rfl⟩
              | _ =>
                  rw [hcomm] at hheld
                  cases hheld
          | false =>
              have hreturned : s.server.device = .returned := by
                by_contra hne
                exact hdevice ⟨hheld, hne⟩
              simpa [hreturned] using hnot
        obtain ⟨a, s', hs, hnext⟩ := h.comm_advances hfree hopen.1 hopen.2
        exact ⟨.server a, s', hs, hnext⟩) h
  refine ⟨s', hrun, interrupted_of_stopping hhindered.reachable
    (by rw [hhindered.joining]; rfl) hhindered.stopping, ⟨hhindered.joining, hblocked⟩, ?_⟩
  exact not_progresses_of_blocked hhindered.joining hreturned hblocked

end Hindered

theorem comm_present {s : Linked} (h : s.server.starved = true ∨ s.congested = true) :
    s.server.comm ≠ .absent := by
  intro habsent
  rcases h with hstarved | hcongested
  · simp [System.starved, habsent] at hstarved
  · simp [Linked.congested, habsent, CommPc.owesSend] at hcongested

/-! ## The result -/

/-- As long as neither SIGINT nor a full connection finds the session waiting for the
client, the server has a step of its own in every state from there to the end of
`server_cleanup`, and `main` never joins a thread that is blocked in `recv` or `send`.
One that does find it so can leave the server stuck for good. -/
theorem shutdown_independent_of_client {server_ip : Bytes} {s : Linked}
    (h : (linkedMachine server_ip).ReachableUnder (fun s a => s.unhindered a = true) s) :
    (s.server.g_running = false → s.server.main ≠ .finished →
      s.Progresses ∧ ¬ s.StuckOnClient) ∧
      (∀ a s', (linkedMachine server_ip).step s a = some s' → s.unhindered a = false →
        ∃ s'', (linkedMachine server_ip).Reaches s' s'' ∧ s''.server.g_running = false ∧
          s''.StuckOnClient ∧ ¬ s''.Progresses) := by
  have hserver := server_reachable h
  constructor
  · intro hsigint hmain
    exact progresses_of_unhindered h (stopping_of_interrupted hserver.reachable hsigint) hmain
  · intro a s' hs hbad
    cases a with
    | server a =>
        cases a with
        | interrupt =>
            have hwaits : s.server.starved = true ∨ s.congested = true := by
              simpa [Linked.unhindered, or_iff_not_imp_left] using hbad
            have hsession := sessionInv_of_reachable hserver.reachable
            simp only [linkedMachine, Linked.step, Action.byComm, Bool.false_and,
              Bool.false_eq_true, if_false, System.step, Option.map_some,
              Option.some.injEq] at hs
            subst hs
            exact Hindered.stuck
              { reachable := hserver.reachable.step (a := .interrupt) trivial rfl
                stopping := rfl
                joining := hsession.joining.mp (comm_present hwaits)
                waits := hwaits }
        | _ => cases hbad
    | fill socket =>
        simp only [linkedMachine, Linked.step] at hs
        split at hs <;> cases hs
        simp only [Linked.unhindered, Bool.or_eq_false_iff, Bool.not_eq_false'] at hbad
        exact Hindered.stuck
          { reachable := hserver.reachable
            stopping := hbad.1
            joining := (sessionInv_of_reachable hserver.reachable).joining.mp
              (comm_present (s := { s with full := socket :: s.full }) (.inr hbad.2))
            waits := .inr hbad.2 }
    | drain socket => cases hbad

/-- SIGINT during the wait for a response, the client reading. -/
theorem shutdown_progresses_after_push :
    ∃ s, (linkedMachine []).Reachable s ∧ s.server.g_running = false ∧
      s.server.main = .joinComm ∧ s.Progresses ∧ ¬ s.StuckOnClient := by
  have hrun : (((linkedMachine []).execUnder Linked.unhindered (linkedMachine []).start
      ((connect ++ pushLine (text "1 0 0\n") ++ [Action.interrupt]).map .server)).any fun s =>
        s.server.g_running = false ∧ s.server.main = .joinComm) = true := by decide +kernel
  obtain ⟨s, hreach, hfacts⟩ := Machine.ReachableUnder.exists_of_exec hrun
  obtain ⟨hsigint, hmain⟩ := of_decide_eq_true hfacts
  have hprogress := (shutdown_independent_of_client hreach).1 hsigint (by rw [hmain]; simp)
  exact ⟨s, hreach.reachable, hsigint, hmain, hprogress⟩

/-- A connected client sends nothing, or has a command pushed and does not read: SIGINT is
delivered, and once the device thread has returned no thread of the server can move. -/
theorem shutdown_stuck_on_silent_client :
    (∃ s, (linkedMachine []).Reachable s ∧ s.server.g_running = false ∧
      s.server.main ≠ .finished ∧ s.server.blockedInRecv = true ∧ s.StuckOnClient ∧
      ¬ s.Progresses) ∧
    ∃ s, (linkedMachine []).Reachable s ∧ s.server.g_running = false ∧
      s.server.main ≠ .finished ∧ s.blockedInSend = true ∧ s.StuckOnClient ∧
      ¬ s.Progresses := by
  constructor
  · have hrun : (((linkedMachine []).exec (linkedMachine []).start
        ((connect ++ [Action.interrupt] ++ deviceSteps 1).map .server)).any fun s =>
          s.server.g_running = false ∧ s.server.main = .joinComm ∧ s.server.device = .returned ∧
            s.server.blockedInRecv = true) = true := by decide +kernel
    obtain ⟨s, hreach, hfacts⟩ := Machine.Reachable.exists_of_exec hrun
    obtain ⟨hsigint, hmain, hdevice, hblocked⟩ := of_decide_eq_true hfacts
    exact ⟨s, hreach, hsigint, by rw [hmain]; simp, hblocked, ⟨hmain, .inl hblocked⟩,
      not_progresses_of_blocked hmain hdevice (.inl hblocked)⟩
  · have hrun : (((linkedMachine []).exec (linkedMachine []).start
        ((connect ++ pushLine (text "1 0 0\n")).map .server ++
          .fill 0 :: ([Action.interrupt, .commWake .timeout] ++ commSteps 2 ++ deviceSteps 1).map
            .server)).any fun s =>
          s.server.g_running = false ∧ s.server.main = .joinComm ∧ s.server.device = .returned ∧
            s.blockedInSend = true) = true := by decide +kernel
    obtain ⟨s, hreach, hfacts⟩ := Machine.Reachable.exists_of_exec hrun
    obtain ⟨hsigint, hmain, hdevice, hblocked⟩ := of_decide_eq_true hfacts
    exact ⟨s, hreach, hsigint, by rw [hmain]; simp, hblocked, ⟨hmain, .inr hblocked⟩,
      not_progresses_of_blocked hmain hdevice (.inr hblocked)⟩

end RsvpControl.Server
