import RsvpControl.Server.Mutex
import RsvpControl.Server.Ownership

/-! # Shutdown

SIGINT clears two flags and interrupts nothing. Everything the three threads wait
for ends by itself or by another thread's step, except the `recv` of the session:
`main` joins the thread that may be stuck in it before any of the wake-ups of
`server_cleanup`.
-/

namespace RsvpControl.Server

open RsvpControl.Core Device

/-! ## Waiting for the client -/

/-- The communication thread is in `recv` on an open socket with nothing to read. -/
def System.blockedInRecv (s : System) : Bool :=
  match s.comm with
  | .recvCommand => s.inbox.isEmpty && !s.hungUp
  | .recvReply _ => s.inbox.isEmpty && !s.hungUp
  | _ => false

/-- The chunks that have arrived do not complete the receives of an iteration. -/
def incomplete : List Bytes → Bool
  | [] => true
  | chunk :: rest =>
      match commandReceived chunk with
      | .askParameter _ _ => rest.isEmpty
      | _ => false

/-- Between its test of `server_running` and the last `recv` of the iteration the
thread needs more from the client than what has arrived. -/
def System.starved (s : System) : Bool :=
  match s.comm with
  | .sendMenu | .recvCommand => incomplete s.inbox && !s.hungUp
  | .sendPrompt _ _ | .recvReply _ => s.inbox.isEmpty && !s.hungUp
  | _ => false

/-- SIGINT is delivered only when the session does not wait for the client. -/
def System.interruptsFed (s : System) : Action → Bool
  | .interrupt => !s.starved
  | _ => true

theorem starved_of_blocked {s : System} (h : s.blockedInRecv = true) : s.starved = true := by
  unfold System.blockedInRecv at h
  cases hcomm : s.comm with
  | recvCommand =>
      simp only [hcomm, Bool.and_eq_true, List.isEmpty_iff] at h
      simp [System.starved, hcomm, h.1, h.2, incomplete]
  | recvReply cmd =>
      simp only [hcomm] at h
      simp [System.starved, hcomm, h]
  | _ => simp [hcomm] at h

/-! ## Sockets -/

/-- Whether the thread is starved depends on its program point and on its socket
alone. -/
theorem starved_eq {s s' : System} (hcomm : s'.comm = s.comm) (hinbox : s'.inbox = s.inbox)
    (hhung : s'.hungUp = s.hungUp) : s'.starved = s.starved := by
  unfold System.starved
  rw [hcomm, hinbox, hhung]

theorem inbox_send (s : System) (k : Nat) (m : Bytes) (ok : Bool) :
    (s.send k m ok).inbox = s.inbox ∧ (s.send k m ok).hungUp = s.hungUp := by
  cases ok with
  | false => exact ⟨rfl, rfl⟩
  | true =>
      simp only [System.inbox, System.hungUp, System.send, if_true, List.getElem?_modify]
      cases s.sockets[s.commSocket]? with
      | none => exact ⟨rfl, rfl⟩
      | some socket =>
          by_cases hk : k = s.commSocket
          · simp [hk]
          · simp [hk]

theorem inbox_eq {s s' : System} (hsockets : s'.sockets = s.sockets)
    (hsocket : s'.commSocket = s.commSocket) : s'.inbox = s.inbox ∧ s'.hungUp = s.hungUp := by
  simp [System.inbox, System.hungUp, hsockets, hsocket]

theorem inbox_modify {s : System} {k : Nat} {f : Socket → Socket}
    (hf : ∀ x, x.inbox <+: (f x).inbox ∧ (x.hungUp = true → (f x).hungUp = true)) :
    s.inbox <+: ({ s with sockets := s.sockets.modify k f } : System).inbox ∧
      (s.hungUp = true → ({ s with sockets := s.sockets.modify k f } : System).hungUp = true) := by
  simp only [System.inbox, System.hungUp, List.getElem?_modify]
  cases s.sockets[s.commSocket]? with
  | none => exact ⟨List.prefix_rfl, id⟩
  | some socket =>
      by_cases hk : k = s.commSocket
      · simpa [hk] using hf socket
      · simp [hk]

theorem recv_some {s : System} {sockets : List Socket} {chunk : Bytes}
    (h : s.recv = some (sockets, some chunk)) (pc : CommPc) :
    s.inbox = chunk :: ({ s with sockets := sockets, comm := pc } : System).inbox ∧
      ({ s with sockets := sockets, comm := pc } : System).hungUp = s.hungUp := by
  unfold System.recv at h
  cases hinbox : s.inbox with
  | nil =>
      rw [hinbox] at h
      simp only at h
      split at h <;> cases h
  | cons first rest =>
      rw [hinbox] at h
      cases h
      cases hsocket : s.sockets[s.commSocket]? with
      | none => simp [System.inbox, hsocket] at hinbox
      | some socket => simp [System.inbox, System.hungUp, hsocket]

theorem recv_enabled {s : System} (h : (s.inbox.isEmpty && !s.hungUp) = false) :
    ∃ r, s.recv = some r := by
  unfold System.recv
  cases hinbox : s.inbox with
  | nil =>
      rw [hinbox] at h
      have hhung : s.hungUp = true := by simpa using h
      exact ⟨_, if_pos hhung⟩
  | cons chunk rest => exact ⟨_, rfl⟩

theorem incomplete_append {inbox : List Bytes} (h : incomplete inbox = false)
    (more : List Bytes) : incomplete (inbox ++ more) = false := by
  cases inbox with
  | nil => cases h
  | cons chunk rest =>
      simp only [List.cons_append, incomplete] at h ⊢
      cases hreq : commandReceived chunk with
      | askParameter cmd prompt =>
          simp only [hreq, List.isEmpty_eq_false_iff] at h
          simp [h]
      | _ => rfl

/-- More bytes, or the peer's hang-up, never starve the thread. -/
theorem starved_of_arrival {s s' : System} (hcomm : s'.comm = s.comm)
    (hinbox : s.inbox <+: s'.inbox) (hhung : s.hungUp = true → s'.hungUp = true)
    (h : s.starved = false) : s'.starved = false := by
  obtain ⟨more, hmore⟩ := hinbox
  unfold System.starved at h ⊢
  rw [hcomm]
  cases hpc : s.comm with
  | sendMenu | recvCommand =>
      simp only [hpc, Bool.and_eq_false_iff, Bool.not_eq_false'] at h ⊢
      rcases h with hdone | hh
      · rw [← hmore]
        exact Or.inl (incomplete_append hdone more)
      · exact Or.inr (hhung hh)
  | sendPrompt cmd prompt | recvReply cmd =>
      simp only [hpc, Bool.and_eq_false_iff, List.isEmpty_eq_false_iff,
        Bool.not_eq_false'] at h ⊢
      rcases h with hne | hh
      · rw [← hmore]
        exact Or.inl (List.append_ne_nil_of_left_ne_nil hne more)
      · exact Or.inr (hhung hh)
  | _ => rfl

/-! ## The invariant -/

/-- Between the test of `server_running` and the end of the iteration's receives. -/
def CommPc.receiving : CommPc → Bool
  | .sendMenu => true
  | .recvCommand => true
  | .sendPrompt _ _ => true
  | .recvReply _ => true
  | _ => false

theorem starved_of_not_receiving {s : System} (h : s.comm.receiving = false) :
    s.starved = false := by
  unfold System.starved
  cases hcomm : s.comm <;> simp_all [CommPc.receiving]

theorem receiving_signalled (pc : CommPc) : pc.signalled.receiving = pc.receiving := by
  cases pc <;> rfl

/-- Once the server stops, its session has what it needs to get to its next test
of `server_running`. -/
def Fed (s : System) : Prop := s.server_running = false → s.starved = false

theorem fed_init (server_ip : Bytes) : Fed (System.init server_ip) := fun h => by cases h

theorem Fed.stepMain {s s' : System} {accepted : Accepted} {ok : Bool} (hsession : SessionInv s)
    (hs : s.stepMain accepted ok = some s') : Fed s' := by
  intro _
  apply starved_of_not_receiving
  by_cases habsent : s.comm = .absent
  · rcases (stepMain_control hs).2.2.2.2.2.2.2.2 with heq | heq | ⟨heq, _⟩ | ⟨heq, _⟩
    · rw [heq, habsent]
      rfl
    · rw [heq, habsent]
      rfl
    · rw [heq]
      rfl
    · rw [heq]
      rfl
  · simp only [System.stepMain, hsession.joining.mp habsent] at hs
    split at hs <;> cases hs
    rfl

theorem Fed.stepComm {s s' : System} {ok : Bool} (h : Fed s) (hs : s.stepComm ok = some s') :
    Fed s' := by
  unfold System.stepComm at hs
  cases hcomm : s.comm with
  | loopTest =>
      simp only [hcomm] at hs
      split at hs
      · next hrunning =>
          cases hs
          intro hoff
          rw [show s.server_running = false from hoff] at hrunning
          cases hrunning
      · cases hs
        exact fun _ => starved_of_not_receiving rfl
  | sendMenu =>
      simp only [hcomm, Option.some.injEq] at hs
      subst hs
      intro hoff
      have hfed := h hoff
      have hsame := inbox_send s s.commSocket menu ok
      simp only [System.starved, hcomm] at hfed
      simp only [System.starved]
      rw [← hsame.1, ← hsame.2] at hfed
      exact hfed
  | sendPrompt cmd prompt =>
      simp only [hcomm, Option.some.injEq] at hs
      subst hs
      intro hoff
      have hfed := h hoff
      have hsame := inbox_send s s.commSocket prompt ok
      simp only [System.starved, hcomm] at hfed
      simp only [System.starved]
      rw [← hsame.1, ← hsame.2] at hfed
      exact hfed
  | recvCommand =>
      simp only [hcomm] at hs
      split at hs
      · cases hs
      · cases hs
        exact fun _ => starved_of_not_receiving rfl
      · next sockets buffer hrecv =>
          cases hreq : commandReceived buffer with
          | askParameter cmd prompt =>
              simp only [hreq, Option.some.injEq] at hs
              subst hs
              intro hoff
              have hfed := h hoff
              obtain ⟨hinbox, hhung⟩ := recv_some hrecv (.sendPrompt cmd prompt)
              simp only [System.starved, hcomm, hinbox, incomplete, hreq] at hfed
              simp only [System.starved, hhung]
              exact hfed
          | _ =>
              simp only [hreq, Option.some.injEq] at hs
              subst hs
              exact fun _ => starved_of_not_receiving rfl
  | _ =>
      simp only [hcomm] at hs
      repeat' split at hs
      all_goals cases hs
      all_goals
        exact fun _ => starved_of_not_receiving rfl

theorem Fed.step {s s' : System} {a : Action} (h : Fed s) (hsession : SessionInv s)
    (hok : s.interruptsFed a = true) (hs : s.step a = some s') : Fed s' := by
  cases a with
  | main accepted ok => exact Fed.stepMain hsession hs
  | comm ok => exact h.stepComm hs
  | commWake wake =>
      obtain ⟨block, _, rfl⟩ := wakeComm_eq hs
      exact fun _ => starved_of_not_receiving rfl
  | device mallocOk createOk level =>
      obtain ⟨hrunning, hsockets, hsocket⟩ := stepDevice_frame hs
      rcases (stepDevice_control hs).2.2.2.2 with hcomm | hcomm
      · intro hoff
        rw [starved_eq hcomm (inbox_eq hsockets hsocket).1 (inbox_eq hsockets hsocket).2]
        exact h (hrunning ▸ hoff)
      · by_cases hreceiving : s.comm.receiving = true
        · have hsame : s'.comm = s.comm := by
            rw [hcomm]
            cases hpc : s.comm <;> simp_all [CommPc.receiving, CommPc.signalled]
          intro hoff
          rw [starved_eq hsame (inbox_eq hsockets hsocket).1 (inbox_eq hsockets hsocket).2]
          exact h (hrunning ▸ hoff)
        · intro _
          apply starved_of_not_receiving
          rw [hcomm, receiving_signalled]
          simpa using hreceiving
  | deviceWake wake =>
      obtain ⟨_, rfl⟩ := wakeDevice_eq hs
      exact h
  | interrupt =>
      cases hs
      have hfed : s.starved = false := by simpa [System.interruptsFed] using hok
      exact fun _ => hfed
  | libraries devices =>
      cases hs
      exact h
  | arrive socket chunk =>
      simp only [System.step] at hs
      split at hs
      · cases hs
      · split at hs <;> cases hs
        intro hoff
        have hmore := inbox_modify (s := s) (k := socket)
          (f := fun k => { k with inbox := k.inbox ++ [chunk] })
          fun x => ⟨List.prefix_append _ _, id⟩
        exact starved_of_arrival (s := s) rfl hmore.1 hmore.2 (h hoff)
  | hangUp socket =>
      cases hs
      intro hoff
      have hmore := inbox_modify (s := s) (k := socket) (f := fun k => { k with hungUp := true })
        fun x => ⟨List.prefix_rfl, fun _ => rfl⟩
      exact starved_of_arrival (s := s) rfl hmore.1 hmore.2 (h hoff)

theorem fed_of_reachable {server_ip : Bytes} {s : System}
    (h : (serverMachine server_ip).ReachableUnder (fun s a => s.interruptsFed a = true) s) :
    Fed s := by
  refine h.invariant (fed_init server_ip) ?_
  intro t a t' ht hinv hok hs
  exact hinv.step (sessionInv_of_reachable ht.reachable) hok hs

/-! ## Enabled steps -/

/-- A step of one of the server's threads, or of time, as opposed to the client's
or the user's. -/
def Action.byServer : Action → Bool
  | .main _ _ => true
  | .comm _ => true
  | .commWake _ => true
  | .device _ _ _ => true
  | .deviceWake _ => true
  | _ => false

def System.Progresses (s : System) : Prop :=
  ∃ (a : Action) (s' : System), a.byServer = true ∧ s.step a = some s'

theorem progresses_of_comm {s s' : System} (h : s.stepComm true = some s') : s.Progresses :=
  ⟨.comm true, s', rfl, h⟩

theorem progresses_of_main {s s' : System} (h : s.stepMain .again true = some s') :
    s.Progresses :=
  ⟨.main .again true, s', rfl, h⟩

theorem MutexInv.free_or_device {s : System} (h : MutexInv s) (hunheld : s.comm.holding = false) :
    s.queue_mutex = none ∨ s.device.holding = true := by
  cases hheld : s.queue_mutex with
  | none => exact .inl rfl
  | some holder =>
      cases holder with
      | comm =>
          rw [h.comm, hunheld] at hheld
          cases hheld
      | device => exact .inr (h.device.mp hheld)

/-- A device thread that has not returned moves on unless the session holds the mutex. -/
theorem device_moves {s : System} {queued dropped : List Nat} (hmutex : MutexInv s)
    (hledger : Ledger s queued dropped) (hunheld : s.comm.holding = false)
    (hreturned : s.device ≠ .returned) :
    (∃ s', s.step (.device true true 0) = some s') ∨
      ∃ s', s.step (.deviceWake .timeout) = some s' := by
  have hfree := hmutex.free_or_device hunheld
  cases hpc : s.device with
  | returned => exact absurd hpc hreturned
  | waiting => exact .inr ⟨_, by simp only [System.step, System.wakeDevice, hpc]; rfl⟩
  | dispatch block =>
      obtain ⟨cmd, frees, hread⟩ := hledger.read_popped (by rw [hpc]; rfl)
      exact .inl ⟨_, by simp only [System.step, System.stepDevice, hpc, hread]; rfl⟩
  | lock | woken | publishLock block response =>
      have hnone : s.queue_mutex = none := hfree.resolve_right (by rw [hpc]; exact Bool.false_ne_true)
      exact .inl ⟨_, by simp only [System.step, System.stepDevice, hpc, hnone]; rfl⟩
  | _ =>
      left
      simp only [System.step, System.stepDevice, hpc]
      repeat' split
      all_goals exact ⟨_, rfl⟩

theorem progresses_of_deviceRunning {s : System} (hmutex : MutexInv s)
    (hledger : ∃ queued dropped, Ledger s queued dropped) (hunheld : s.comm.holding = false)
    (hreturned : s.device ≠ .returned) : s.Progresses := by
  obtain ⟨queued, dropped, hledger⟩ := hledger
  rcases device_moves hmutex hledger hunheld hreturned with ⟨s', hs⟩ | ⟨s', hs⟩
  · exact ⟨.device true true 0, s', rfl, hs⟩
  · exact ⟨.deviceWake .timeout, s', rfl, hs⟩

/-- A session that is not blocked in `recv` moves on, or waits for a mutex that the
device thread is about to release. -/
theorem progresses_of_session {s : System} (hmutex : MutexInv s) (hsession : SessionInv s)
    (hledger : ∃ queued dropped, Ledger s queued dropped) (hin : s.comm.inSession = true)
    (hunblocked : s.blockedInRecv = false) : s.Progresses := by
  have hlocking : ∀ {s' : System},
      (s.queue_mutex = none → s.stepComm true = some s') → s.comm.holding = false →
        s.Progresses := by
    intro s' hstep hunheld
    rcases hmutex.free_or_device hunheld with hfree | hheld
    · exact progresses_of_comm (hstep hfree)
    · refine progresses_of_deviceRunning hmutex hledger hunheld fun hreturned => ?_
      rw [hreturned] at hheld
      cases hheld
  cases hpc : s.comm with
  | absent | returned =>
      rw [hpc] at hin
      cases hin
  | start =>
      obtain ⟨k, hk⟩ := hsession.socket (hsession.connected.mpr (Or.inr hin))
      exact progresses_of_comm (by simp only [System.stepComm, hpc, hk]; rfl)
  | loopTest =>
      have hstep : ∃ s', s.stepComm true = some s' := by
        simp only [System.stepComm, hpc]
        split <;> exact ⟨_, rfl⟩
      exact hstep.elim fun _ hs => progresses_of_comm hs
  | recvCommand =>
      simp only [System.blockedInRecv, hpc] at hunblocked
      obtain ⟨⟨sockets, received⟩, hrecv⟩ := recv_enabled hunblocked
      have hstep : ∃ s', s.stepComm true = some s' := by
        simp only [System.stepComm, hpc, hrecv]
        cases received with
        | none => exact ⟨_, rfl⟩
        | some buffer =>
            simp only
            split <;> exact ⟨_, rfl⟩
      exact hstep.elim fun _ hs => progresses_of_comm hs
  | recvReply cmd =>
      simp only [System.blockedInRecv, hpc] at hunblocked
      obtain ⟨⟨sockets, received⟩, hrecv⟩ := recv_enabled hunblocked
      have hstep : ∃ s', s.stepComm true = some s' := by
        simp only [System.stepComm, hpc, hrecv]
        cases received <;> exact ⟨_, rfl⟩
      exact hstep.elim fun _ hs => progresses_of_comm hs
  | lock cmd =>
      exact hlocking (fun hfree => by simp only [System.stepComm, hpc, hfree]; rfl) (by rw [hpc]; rfl)
  | woken block inTime =>
      exact hlocking (fun hfree => by simp only [System.stepComm, hpc, hfree]; rfl) (by rw [hpc]; rfl)
  | waiting block =>
      exact ⟨.commWake .timeout, _, rfl, by simp only [System.step, System.wakeComm, hpc]; rfl⟩
  | push cmd =>
      have hstep : ∃ s', s.stepComm true = some s' := by
        simp only [System.stepComm, hpc]
        split <;> exact ⟨_, rfl⟩
      exact hstep.elim fun _ hs => progresses_of_comm hs
  | collect block inTime =>
      have hstep : ∃ s', s.stepComm true = some s' := by
        simp only [System.stepComm, hpc]
        split <;> exact ⟨_, rfl⟩
      exact hstep.elim fun _ hs => progresses_of_comm hs
  | sendMenu | sendInvalid | sendBye | sendPrompt cmd prompt | sendFull | sendResponse response
  | sendTimeout | teardown =>
      exact progresses_of_comm (by simp only [System.stepComm, hpc]; rfl)

theorem progresses_of_unblocked {s : System} (hmutex : MutexInv s) (hsession : SessionInv s)
    (hledger : ∃ queued dropped, Ledger s queued dropped) (hmain : s.main ≠ .finished)
    (hunblocked : s.main = .joinComm → s.blockedInRecv = false) : s.Progresses := by
  have hforced := hsession.unforced
  cases hpc : s.main with
  | finished => exact absurd hpc hmain
  | wakeDevice | wakeComm | cleanupJoinComm =>
      rw [hpc] at hforced
      cases hforced
  | joinComm =>
      by_cases hreturned : s.comm = .returned
      · exact progresses_of_main (by simp only [System.stepMain, hpc, hreturned]; rfl)
      · have habsent := hsession.joining.mpr hpc
        have hin : s.comm.inSession = true := by
          cases hcomm : s.comm <;> simp_all [CommPc.inSession]
        exact progresses_of_session hmutex hsession hledger hin (hunblocked hpc)
  | joinDevice =>
      by_cases hreturned : s.device = .returned
      · exact progresses_of_main (by simp only [System.stepMain, hpc, hreturned]; rfl)
      · have habsent : s.comm = .absent := by
          by_contra hne
          have hjoin := hsession.joining.mp hne
          rw [hpc] at hjoin
          cases hjoin
        exact progresses_of_deviceRunning hmutex hledger (by rw [habsent]; rfl) hreturned
  | loopTest | register socket | cleanupTest =>
      have hstep : ∃ s', s.stepMain .again true = some s' := by
        simp only [System.stepMain, hpc]
        split <;> exact ⟨_, rfl⟩
      exact hstep.elim fun _ hs => progresses_of_main hs
  | closeSockets =>
      have hstep : ∃ s', s.stepMain .again true = some s' := by
        simp only [System.stepMain, hpc]
        split <;> exact ⟨_, rfl⟩
      exact hstep.elim fun _ hs => progresses_of_main hs
  | accept | busy socket | create socket | cleanup | wakeIdleDevice | stopWebServer | cleanQueue
  | cleanDevices | destroy =>
      exact progresses_of_main (by simp only [System.stepMain, hpc]; rfl)

/-! ## SIGINT -/

/-- Only SIGINT clears `g_running`; until `main` is in `server_cleanup` it also is what
clears `server_running`. -/
theorem flags_step {s s' : System} {a : Action} (hs : s.step a = some s') (ha : a ≠ .interrupt) :
    s'.g_running = s.g_running ∧ (s.server_running = false → s'.server_running = false) ∧
      (s'.main.accepting = true →
        s.main.accepting = true ∧ s'.server_running = s.server_running) := by
  cases a with
  | main accepted ok =>
      revert hs
      simp only [System.step]
      fun_cases System.stepMain s accepted ok
      all_goals intro hs
      all_goals cases hs
      all_goals
        simp_all [MainPc.accepting, System.send, System.close, System.signalNotEmpty,
          System.signalResponse]
  | comm ok =>
      revert hs
      simp only [System.step]
      fun_cases System.stepComm s ok
      all_goals intro hs
      all_goals cases hs
      all_goals exact ⟨rfl, id, fun h => ⟨h, rfl⟩⟩
  | commWake wake =>
      obtain ⟨block, _, rfl⟩ := wakeComm_eq hs
      exact ⟨rfl, id, fun h => ⟨h, rfl⟩⟩
  | device mallocOk createOk level =>
      revert hs
      simp only [System.step]
      fun_cases System.stepDevice s mallocOk createOk level
      all_goals intro hs
      all_goals cases hs
      all_goals exact ⟨rfl, id, fun h => ⟨h, rfl⟩⟩
  | deviceWake wake =>
      obtain ⟨_, rfl⟩ := wakeDevice_eq hs
      exact ⟨rfl, id, fun h => ⟨h, rfl⟩⟩
  | interrupt => exact absurd rfl ha
  | hangUp socket | libraries devices =>
      cases hs
      exact ⟨rfl, id, fun h => ⟨h, rfl⟩⟩
  | arrive socket chunk =>
      simp only [System.step] at hs
      repeat' split at hs
      all_goals cases hs
      exact ⟨rfl, id, fun h => ⟨h, rfl⟩⟩

theorem stopping_of_interrupted {server_ip : Bytes} {s : System}
    (h : (serverMachine server_ip).Reachable s) :
    s.g_running = false → s.server_running = false := by
  refine h.invariant (I := fun t => t.g_running = false → t.server_running = false)
    (fun h => by cases h) fun t a t' hi hs => ?_
  by_cases ha : a = .interrupt
  · subst ha
    cases hs
    exact fun _ => rfl
  · obtain ⟨hflag, hstays, -⟩ := flags_step hs ha
    exact fun hoff => hstays (hi (hflag ▸ hoff))

/-- Other than by SIGINT the server stops in `server_cleanup` only. -/
theorem interrupted_of_stopping {server_ip : Bytes} {s : System}
    (h : (serverMachine server_ip).Reachable s) :
    s.main.accepting = true → s.server_running = false → s.g_running = false := by
  refine h.invariant
    (I := fun t => t.main.accepting = true → t.server_running = false → t.g_running = false)
    (fun _ h => by cases h) fun t a t' hi hs => ?_
  by_cases ha : a = .interrupt
  · subst ha
    cases hs
    exact fun _ _ => rfl
  · obtain ⟨hflag, -, hkept⟩ := flags_step hs ha
    intro haccepting hoff
    obtain ⟨hbefore, hsame⟩ := hkept haccepting
    rw [hflag]
    exact hi hbefore (hsame ▸ hoff)

end RsvpControl.Server
