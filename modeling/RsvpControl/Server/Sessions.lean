import RsvpControl.Server.Threads

/-! # Sessions and joins

`main` waits in the join for as long as a communication thread exists, so at
most one session is open, nothing is pushed outside that wait, and the cleanup
finds no client. What runs after the join of the device thread finds it
returned.
-/

namespace RsvpControl.Server

open RsvpControl.Core

/-! ## Classes of program points -/

/-- A communication thread that has not torn its session down. -/
def CommPc.inSession : CommPc → Bool
  | .absent => false
  | .returned => false
  | _ => true

def MainPc.accepting : MainPc → Bool
  | .loopTest | .accept | .register _ | .busy _ | .create _ | .joinComm => true
  | _ => false

def MainPc.deviceJoined : MainPc → Bool
  | .stopWebServer => true
  | .closeSockets => true
  | .cleanQueue => true
  | .cleanDevices => true
  | .destroy => true
  | .finished => true
  | _ => false

def MainPc.cleaningClient : MainPc → Bool
  | .wakeDevice => true
  | .wakeComm => true
  | .cleanupJoinComm => true
  | _ => false

theorem inSession_ne_absent {pc : CommPc} (h : pc.inSession = true) : pc ≠ .absent := by
  rintro rfl
  cases h

theorem inSession_signalled (pc : CommPc) : pc.signalled.inSession = pc.inSession := by
  cases pc <;> rfl

theorem signalled_eq_absent {pc : CommPc} : pc.signalled = .absent ↔ pc = .absent := by
  cases pc <;> simp [CommPc.signalled]

theorem signalled_eq_returned {pc : DevicePc} : pc.signalled = .returned ↔ pc = .returned := by
  cases pc <;> simp [DevicePc.signalled]

/-! ## What a thread's step leaves alone -/

theorem stepMain_control {s s' : System} {accepted : Accepted} {ok : Bool}
    (hs : s.stepMain accepted ok = some s') :
    s'.pushed = s.pushed ∧ s'.answered = s.answered ∧ s'.abandoned = s.abandoned ∧
      s'.responseFor = s.responseFor ∧ s'.dispatched = s.dispatched ∧
      s'.queue_mutex = s.queue_mutex ∧ (s.server_running = false → s'.server_running = false) ∧
      (s'.device = s.device ∨ s'.device = s.device.signalled) ∧
      (s'.comm = s.comm ∨ s'.comm = s.comm.signalled ∨
        (s'.comm = .start ∧ ∃ k, s.main = .create k) ∨ (s'.comm = .absent ∧ s.comm = .returned)) := by
  revert hs
  fun_cases System.stepMain s accepted ok
  all_goals intro hs
  all_goals cases hs
  all_goals
    simp_all [System.send, System.close, System.signalNotEmpty, System.signalResponse]

theorem stepComm_control {s s' : System} {ok : Bool} (hs : s.stepComm ok = some s') :
    s.comm.inSession = true ∧ s'.main = s.main ∧
      (s'.device = s.device ∨ s'.device = s.device.signalled) ∧
      ((s'.comm.inSession = true ∧ s'.client_connected = s.client_connected ∧
          s'.client_socket = s.client_socket) ∨
        (s'.comm = .returned ∧ s'.client_connected = false)) := by
  revert hs
  fun_cases System.stepComm s ok
  all_goals intro hs
  all_goals cases hs
  all_goals
    simp_all [CommPc.inSession, System.send, System.close, System.signalNotEmpty]

theorem stepDevice_control {s s' : System} {mallocOk createOk : Bool} {level : Int}
    (hs : s.stepDevice mallocOk createOk level = some s') :
    s.device ≠ .returned ∧ s'.main = s.main ∧ s'.client_connected = s.client_connected ∧
      s'.client_socket = s.client_socket ∧
      (s'.comm = s.comm ∨ s'.comm = s.comm.signalled) := by
  revert hs
  fun_cases System.stepDevice s mallocOk createOk level
  all_goals intro hs
  all_goals cases hs
  all_goals simp_all [System.signalResponse]

theorem stepDevice_frame {s s' : System} {mallocOk createOk : Bool} {level : Int}
    (hs : s.stepDevice mallocOk createOk level = some s') :
    s'.server_running = s.server_running ∧ s'.sockets = s.sockets ∧
      s'.commSocket = s.commSocket := by
  revert hs
  fun_cases System.stepDevice s mallocOk createOk level
  all_goals intro hs
  all_goals cases hs
  all_goals exact ⟨rfl, rfl, rfl⟩

theorem wakeComm_eq {s s' : System} {wake : Wake} (hs : s.wakeComm wake = some s') :
    ∃ block, s.comm = .waiting block ∧
      s' = { s with comm := .woken block (wake == .spurious) } := by
  unfold System.wakeComm at hs
  split at hs
  · next block hcomm =>
      cases hs
      exact ⟨block, hcomm, rfl⟩
  · cases hs

theorem wakeDevice_eq {s s' : System} (hs : s.wakeDevice = some s') :
    s.device = .waiting ∧ s' = { s with device := .woken } := by
  unfold System.wakeDevice at hs
  split at hs
  · next hdevice =>
      cases hs
      exact ⟨hdevice, rfl⟩
  · cases hs

/-! ## The invariant -/

structure SessionInv (s : System) : Prop where
  joining : s.comm ≠ .absent ↔ s.main = .joinComm
  connected : s.client_connected = true ↔
    (∃ k, s.main = .create k) ∨ s.comm.inSession = true
  socket : s.client_connected = true → ∃ k, s.client_socket = some k
  unforced : s.main.cleaningClient = false
  device : s.main.deviceJoined = true → s.device = .returned

theorem sessionInv_init (server_ip : Bytes) : SessionInv (System.init server_ip) where
  joining := by simp [System.init]
  connected := by simp [System.init, CommPc.inSession]
  socket h := by cases h
  unforced := rfl
  device h := by cases h

theorem SessionInv.stepMain {s s' : System} {accepted : Accepted} {ok : Bool} (h : SessionInv s)
    (hs : s.stepMain accepted ok = some s') : SessionInv s' := by
  obtain ⟨hjoining, hconnected, hsocket, hunforced, hdevice⟩ := h
  revert hs
  fun_cases System.stepMain s accepted ok
  all_goals intro hs
  all_goals cases hs
  all_goals
    refine ⟨?_, ?_, ?_, ?_, ?_⟩
  all_goals
    simp_all [System.send, System.close, System.signalNotEmpty, MainPc.cleaningClient,
      MainPc.deviceJoined, CommPc.inSession]

theorem SessionInv.of_comm {s s' : System} (h : SessionInv s) (hmain : s'.main = s.main)
    (hdevice : s'.device = s.device ∨ s'.device = s.device.signalled)
    (hjoining : s'.comm = .absent ↔ s.comm = .absent)
    (hconnected : s'.client_connected = true ↔
      (∃ k, s.main = .create k) ∨ s'.comm.inSession = true)
    (hsocket : s'.client_connected = true → ∃ k, s'.client_socket = some k) : SessionInv s' := by
  refine ⟨?_, ?_, hsocket, ?_, ?_⟩
  · rw [hmain, Ne, hjoining]
    exact h.joining
  · rw [hmain]
    exact hconnected
  · rw [hmain]
    exact h.unforced
  · rw [hmain]
    intro hjoined
    have hreturned := h.device hjoined
    rcases hdevice with heq | heq
    · rw [heq, hreturned]
    · rw [heq, hreturned]
      rfl

theorem SessionInv.stepComm {s s' : System} {ok : Bool} (h : SessionInv s)
    (hs : s.stepComm ok = some s') : SessionInv s' := by
  obtain ⟨hin, hmain, hdevice, hcase⟩ := stepComm_control hs
  have habsent := inSession_ne_absent hin
  have hnocreate : ¬ ∃ k, s.main = .create k := by
    rintro ⟨k, hk⟩
    have hjoin := h.joining.mp habsent
    rw [hk] at hjoin
    cases hjoin
  rcases hcase with ⟨hin', hconn, hsocket⟩ | ⟨hret, hconn⟩
  · have habsent' := inSession_ne_absent hin'
    apply h.of_comm hmain hdevice
    · simp [habsent, habsent']
    · rw [hconn, h.connected]
      simp [hin, hin']
    · rw [hconn, hsocket]
      exact h.socket
  · apply h.of_comm hmain hdevice
    · simp [habsent, hret]
    · rw [hconn, hret]
      simpa [CommPc.inSession] using hnocreate
    · rw [hconn]
      intro hfalse
      cases hfalse

theorem SessionInv.stepDevice {s s' : System} {mallocOk createOk : Bool} {level : Int}
    (h : SessionInv s) (hs : s.stepDevice mallocOk createOk level = some s') :
    SessionInv s' := by
  obtain ⟨hrunning, hmain, hconn, hsocket, hcomm⟩ := stepDevice_control hs
  have hsame : (s'.comm = .absent ↔ s.comm = .absent) ∧ s'.comm.inSession = s.comm.inSession := by
    rcases hcomm with heq | heq
    · rw [heq]
      exact ⟨Iff.rfl, rfl⟩
    · rw [heq]
      exact ⟨signalled_eq_absent, inSession_signalled _⟩
  refine ⟨?_, ?_, ?_, ?_, ?_⟩
  · rw [hmain, Ne, hsame.1]
    exact h.joining
  · rw [hconn, hmain, hsame.2]
    exact h.connected
  · rw [hconn, hsocket]
    exact h.socket
  · rw [hmain]
    exact h.unforced
  · rw [hmain]
    intro hjoined
    exact absurd (h.device hjoined) hrunning

theorem SessionInv.step {s s' : System} {a : Action} (h : SessionInv s) (hs : s.step a = some s') :
    SessionInv s' := by
  cases a with
  | main accepted ok => exact h.stepMain hs
  | comm ok => exact h.stepComm hs
  | commWake wake =>
      obtain ⟨block, hcomm, rfl⟩ := wakeComm_eq hs
      refine h.of_comm rfl (Or.inl rfl) ?_ ?_ h.socket
      · simp [hcomm]
      · rw [h.connected, hcomm]
        simp [CommPc.inSession]
  | device mallocOk createOk level => exact h.stepDevice hs
  | deviceWake wake =>
      obtain ⟨hdevice, rfl⟩ := wakeDevice_eq hs
      refine ⟨h.joining, h.connected, h.socket, h.unforced, ?_⟩
      intro hjoined
      rw [h.device hjoined] at hdevice
      cases hdevice
  | interrupt | hangUp socket | libraries devices =>
      cases hs
      exact ⟨h.joining, h.connected, h.socket, h.unforced, h.device⟩
  | arrive socket chunk =>
      simp only [System.step] at hs
      split at hs
      · cases hs
      · split at hs <;> cases hs
        exact ⟨h.joining, h.connected, h.socket, h.unforced, h.device⟩

theorem sessionInv_of_reachable {server_ip : Bytes} {s : System}
    (h : (serverMachine server_ip).Reachable s) : SessionInv s :=
  h.invariant (sessionInv_init server_ip) fun _ _ _ hi hs => hi.step hs

/-- `main` has joined the previous session before it accepts the next. -/
theorem SessionInv.unconnected {s : System} (h : SessionInv s) (hmain : s.main ≠ .joinComm)
    (hcreate : ∀ k, s.main ≠ .create k) : s.client_connected = false := by
  have habsent : s.comm = .absent := by
    by_contra hne
    exact hmain (h.joining.mp hne)
  cases hconn : s.client_connected with
  | false => rfl
  | true =>
      rcases h.connected.mp hconn with ⟨k, hk⟩ | hin
      · exact absurd hk (hcreate k)
      · rw [habsent] at hin
        cases hin

theorem stepComm_socket_open {s s' : System} {ok : Bool} (hs : s.stepComm ok = some s') :
    s'.serverSocketOpen = s.serverSocketOpen := by
  revert hs
  fun_cases System.stepComm s ok
  all_goals intro hs
  all_goals cases hs
  all_goals rfl

theorem stepDevice_socket_open {s s' : System} {mallocOk createOk : Bool} {level : Int}
    (hs : s.stepDevice mallocOk createOk level = some s') :
    s'.serverSocketOpen = s.serverSocketOpen := by
  revert hs
  fun_cases System.stepDevice s mallocOk createOk level
  all_goals intro hs
  all_goals cases hs
  all_goals rfl

theorem step_server_ip {s s' : System} {a : Action} (hs : s.step a = some s') :
    s'.server_ip = s.server_ip := by
  cases a with
  | main accepted ok =>
      revert hs
      simp only [System.step]
      fun_cases System.stepMain s accepted ok
      all_goals intro hs
      all_goals cases hs
      all_goals rfl
  | comm ok =>
      revert hs
      simp only [System.step]
      fun_cases System.stepComm s ok
      all_goals intro hs
      all_goals cases hs
      all_goals rfl
  | commWake wake =>
      obtain ⟨_, _, rfl⟩ := wakeComm_eq hs
      rfl
  | device mallocOk createOk level =>
      revert hs
      simp only [System.step]
      fun_cases System.stepDevice s mallocOk createOk level
      all_goals intro hs
      all_goals cases hs
      all_goals rfl
  | deviceWake wake =>
      obtain ⟨_, rfl⟩ := wakeDevice_eq hs
      rfl
  | interrupt | hangUp socket | libraries devices =>
      cases hs
      rfl
  | arrive socket chunk =>
      simp only [System.step] at hs
      repeat' split at hs
      all_goals cases hs
      rfl

/-- Only `main` moves itself, creates and joins threads and closes the server socket. -/
theorem step_main_frame {s s' : System} {a : Action} (hs : s.step a = some s')
    (ha : ∀ accepted ok, a ≠ .main accepted ok) :
    s'.main = s.main ∧ (s'.comm = .absent ↔ s.comm = .absent) ∧
      s'.serverSocketOpen = s.serverSocketOpen := by
  cases a with
  | main accepted ok => exact absurd rfl (ha accepted ok)
  | comm ok =>
      obtain ⟨hin, hmain, _, hcase⟩ := stepComm_control hs
      refine ⟨hmain, ?_, stepComm_socket_open hs⟩
      rcases hcase with ⟨hin', _⟩ | ⟨hreturned, _⟩
      · simp [inSession_ne_absent hin, inSession_ne_absent hin']
      · simp [inSession_ne_absent hin, hreturned]
  | commWake wake =>
      obtain ⟨_, hcomm, rfl⟩ := wakeComm_eq hs
      exact ⟨rfl, by simp [hcomm], rfl⟩
  | device mallocOk createOk level =>
      obtain ⟨_, hmain, _, _, hcomm⟩ := stepDevice_control hs
      refine ⟨hmain, ?_, stepDevice_socket_open hs⟩
      rcases hcomm with heq | heq
      · rw [heq]
      · rw [heq]
        exact signalled_eq_absent
  | deviceWake wake =>
      obtain ⟨_, rfl⟩ := wakeDevice_eq hs
      exact ⟨rfl, Iff.rfl, rfl⟩
  | interrupt | hangUp socket | libraries devices =>
      cases hs
      exact ⟨rfl, Iff.rfl, rfl⟩
  | arrive socket chunk =>
      simp only [System.step] at hs
      repeat' split at hs
      all_goals cases hs
      exact ⟨rfl, Iff.rfl, rfl⟩

/-- Steps of other threads during a session leave its communication thread where
it is, up to the end of a wait, and its sockets alone. -/
theorem SessionInv.step_frame {s s' : System} {a : Action} (h : SessionInv s)
    (hs : s.step a = some s') (hopen : s.comm ≠ .absent)
    (hjoin : s.comm = .returned → s'.comm ≠ .absent) (ha : ∀ ok, a ≠ .comm ok) :
    (s'.comm = s.comm ∨ s'.comm = s.comm.signalled ∨
      ∃ block inTime, s.comm = .waiting block ∧ s'.comm = .woken block inTime) ∧
    s'.client_socket = s.client_socket ∧ s'.commSocket = s.commSocket ∧
    (s'.server_running = true → s.server_running = true) ∧
    ∀ k, (∀ chunk, a ≠ .arrive k chunk) → a ≠ .hangUp k → s'.sockets[k]? = s.sockets[k]? := by
  cases a with
  | main accepted ok =>
      have hmain := h.joining.mp hopen
      simp only [System.step, System.stepMain, hmain] at hs
      split at hs
      · next hreturned =>
          cases hs
          exact absurd rfl (hjoin hreturned)
      · cases hs
  | comm ok => exact absurd rfl (ha ok)
  | commWake wake =>
      obtain ⟨block, hcomm, rfl⟩ := wakeComm_eq hs
      exact ⟨Or.inr (Or.inr ⟨block, _, hcomm, rfl⟩), rfl, rfl, id, fun _ _ _ => rfl⟩
  | device mallocOk createOk level =>
      obtain ⟨hrunning, hsockets, hsocket⟩ := stepDevice_frame hs
      obtain ⟨-, -, -, hclient, hcomm⟩ := stepDevice_control hs
      refine ⟨?_, hclient, hsocket, fun hon => hrunning ▸ hon, fun k _ _ => by rw [hsockets]⟩
      rcases hcomm with hcomm | hcomm
      · exact Or.inl hcomm
      · exact Or.inr (Or.inl hcomm)
  | deviceWake wake =>
      obtain ⟨-, rfl⟩ := wakeDevice_eq hs
      exact ⟨Or.inl rfl, rfl, rfl, id, fun _ _ _ => rfl⟩
  | interrupt =>
      cases hs
      exact ⟨Or.inl rfl, rfl, rfl, (fun hon => nomatch hon), fun _ _ _ => rfl⟩
  | libraries devices =>
      cases hs
      exact ⟨Or.inl rfl, rfl, rfl, id, fun _ _ _ => rfl⟩
  | hangUp socket =>
      cases hs
      refine ⟨Or.inl rfl, rfl, rfl, id, fun k _ hk => ?_⟩
      have hne : socket ≠ k := fun heq => hk (by rw [heq])
      simp [hne]
  | arrive socket chunk =>
      simp only [System.step] at hs
      repeat' split at hs
      all_goals cases hs
      refine ⟨Or.inl rfl, rfl, rfl, id, fun k hk _ => ?_⟩
      have hne : socket ≠ k := fun heq => hk chunk (by rw [heq])
      simp [hne]

/-! ## What a step never takes back on a socket -/

/-- Closed at least as often, with the same messages sent first. -/
def Socket.Grows (k k' : Socket) : Prop := k.closes ≤ k'.closes ∧ k.sent <+: k'.sent

theorem Socket.Grows.refl (k : Socket) : k.Grows k := ⟨Nat.le_refl _, List.prefix_rfl⟩

/-- Every socket is still there. -/
def SocketsGrow (xs ys : List Socket) : Prop :=
  ∀ (i : Nat) (k : Socket), xs[i]? = some k → ∃ k', ys[i]? = some k' ∧ k.Grows k'

namespace SocketsGrow

theorem refl (xs : List Socket) : SocketsGrow xs xs := fun _ k hk => ⟨k, hk, .refl k⟩

theorem append (xs more : List Socket) : SocketsGrow xs (xs ++ more) := by
  intro i k hk
  have hi : i < xs.length := (List.getElem?_eq_some_iff.mp hk).1
  exact ⟨k, by rw [List.getElem?_append_left hi, hk], .refl k⟩

theorem modify (xs : List Socket) (j : Nat) {f : Socket → Socket}
    (hf : ∀ k : Socket, k.Grows (f k)) :
    SocketsGrow xs (xs.modify j f) := by
  intro i k hk
  rw [List.getElem?_modify, hk]
  by_cases hj : j = i
  · exact ⟨f k, by simp [hj], hf k⟩
  · exact ⟨k, by simp [hj], .refl k⟩

theorem trans {xs ys zs : List Socket} (h : SocketsGrow xs ys) (h' : SocketsGrow ys zs) :
    SocketsGrow xs zs := by
  intro i k hk
  obtain ⟨k', hk', hle, hprefix⟩ := h i k hk
  obtain ⟨k'', hk'', hle', hprefix'⟩ := h' i k' hk'
  exact ⟨k'', hk'', Nat.le_trans hle hle', hprefix.trans hprefix'⟩

theorem send (s : System) (i : Nat) (m : Bytes) (ok : Bool) :
    SocketsGrow s.sockets (s.send i m ok).sockets := by
  cases ok with
  | false => exact refl _
  | true => exact modify _ _ fun _ => ⟨Nat.le_refl _, List.prefix_append _ _⟩

theorem close (s : System) (i : Nat) : SocketsGrow s.sockets (s.close i).sockets :=
  modify _ _ fun _ => ⟨Nat.le_succ _, List.prefix_rfl⟩

theorem recv {s : System} {sockets : List Socket} {result : Option Bytes}
    (hs : s.recv = some (sockets, result)) : SocketsGrow s.sockets sockets := by
  unfold System.recv at hs
  split at hs
  · cases hs
    exact modify _ _ fun k => .refl k
  · split at hs <;> cases hs
    exact refl _

theorem stepMain {s s' : System} {accepted : Accepted} {ok : Bool}
    (hs : s.stepMain accepted ok = some s') : SocketsGrow s.sockets s'.sockets := by
  revert hs
  fun_cases System.stepMain s accepted ok
  all_goals intro hs
  all_goals cases hs
  all_goals first
    | exact refl _
    | exact append _ _
    | exact close _ _
    | exact (send _ _ _ _).trans (close _ _)

theorem stepComm {s s' : System} {ok : Bool} (hs : s.stepComm ok = some s') :
    SocketsGrow s.sockets s'.sockets := by
  revert hs
  fun_cases System.stepComm s ok
  all_goals intro hs
  all_goals cases hs
  all_goals first
    | exact refl _
    | exact send _ _ _ _
    | exact send _ _ _ true
    | exact close _ _
    | exact recv (by assumption)

theorem step {s s' : System} {a : Action} (hs : s.step a = some s') :
    SocketsGrow s.sockets s'.sockets := by
  cases a with
  | main accepted ok => exact stepMain hs
  | comm ok => exact stepComm hs
  | commWake wake =>
      obtain ⟨_, _, rfl⟩ := wakeComm_eq hs
      exact refl _
  | device mallocOk createOk level =>
      rw [(stepDevice_frame hs).2.1]
      exact refl _
  | deviceWake wake =>
      obtain ⟨_, rfl⟩ := wakeDevice_eq hs
      exact refl _
  | interrupt | libraries devices =>
      cases hs
      exact refl _
  | hangUp socket =>
      cases hs
      exact modify _ _ fun k => .refl k
  | arrive socket chunk =>
      simp only [System.step] at hs
      repeat' split at hs
      all_goals cases hs
      exact modify _ _ fun k => .refl k

end SocketsGrow

/-- Every socket is still there, closed at least as often. -/
def ClosedKept (xs ys : List Socket) : Prop :=
  ∀ (i : Nat) (k : Socket), xs[i]? = some k → ∃ k', ys[i]? = some k' ∧ k.closes ≤ k'.closes

theorem closedKept_step {s s' : System} {a : Action} (hs : s.step a = some s') :
    ClosedKept s.sockets s'.sockets := by
  intro i k hk
  obtain ⟨k', hk', hle, -⟩ := SocketsGrow.step hs i k hk
  exact ⟨k', hk', hle⟩

theorem running_of_step {s s' : System} {a : Action} (hs : s.step a = some s')
    (hon : s'.server_running = true) : s.server_running = true := by
  cases hoff : s.server_running with
  | true => rfl
  | false =>
      have hoff' : s'.server_running = false := by
        cases a with
        | main accepted ok => exact (stepMain_control hs).2.2.2.2.2.2.1 hoff
        | comm ok =>
            revert hs
            simp only [System.step]
            fun_cases System.stepComm s ok
            all_goals intro hs
            all_goals cases hs
            all_goals exact hoff
        | commWake wake =>
            obtain ⟨_, _, rfl⟩ := wakeComm_eq hs
            exact hoff
        | device mallocOk createOk level => rw [(stepDevice_frame hs).1, hoff]
        | deviceWake wake =>
            obtain ⟨_, rfl⟩ := wakeDevice_eq hs
            exact hoff
        | interrupt =>
            cases hs
            rfl
        | libraries devices | hangUp socket =>
            cases hs
            exact hoff
        | arrive socket chunk =>
            simp only [System.step] at hs
            repeat' split at hs
            all_goals cases hs
            exact hoff
      rw [hoff'] at hon
      cases hon

end RsvpControl.Server
