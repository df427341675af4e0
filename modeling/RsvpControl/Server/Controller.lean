import RsvpControl.Core.Simulation
import RsvpControl.Server.Ownership

/-! # The server as a sequential controller

What the three threads are for: one controller that keeps the submitted commands in
order, executes them one at a time and remembers each response. Every step of the
server that touches the devices or the queue is one action of it, and the responses the
sessions are handed are those it has computed.

A handler is one step here, so these are the runs in which no playback or counting thread
moves while the device thread is inside a handler; between its steps they move at will.
The handlers cut at their critical sections are in `RsvpControl.Rig`.
-/

namespace RsvpControl.Server

open RsvpControl.Core Device

/-! ## The controller -/

structure Controller where
  /-- Commands submitted and not executed, oldest first. -/
  pending : List Command
  devices : DeviceState
  /-- Commands executed, each with its response, oldest first. -/
  log : List (Command × CommandResponse)
  closed : Bool
deriving DecidableEq, Repr

inductive Order where
  | submit (cmd : Command)
  /-- Execute the oldest command. -/
  | execute (mallocOk createOk : Bool)
  /-- Check the light sensor. -/
  | sense (level : Int)
  /-- The libraries' own threads change the device state. -/
  | libraries (devices : DeviceState)
  | close
deriving DecidableEq, Repr

/-- The device thread holds at most one command beside the queue. -/
def Controller.step (c : Controller) : Order → Option Controller
  | .submit cmd =>
      if c.closed = false ∧ c.pending.length ≤ MAX_QUEUE_SIZE then
        some { c with pending := c.pending ++ [cmd] }
      else none
  | .execute mallocOk createOk =>
      match c.pending with
      | [] => none
      | cmd :: rest =>
          if c.closed then none
          else
            let (devices, response) := dispatch cmd mallocOk createOk c.devices
            some { c with pending := rest, devices := devices, log := c.log ++ [(cmd, response)] }
  | .sense level =>
      if c.closed then none
      else some { c with devices := handleSensorMonitoring level c.devices }
  | .libraries devices => some { c with devices := devices }
  | .close =>
      if c.closed then none
      else some { c with devices := serverCleanupDevices c.devices, closed := true }

def controllerMachine : Machine Controller Order :=
  ⟨⟨[], serverInitDevices, [], false⟩, Controller.step⟩

/-- What the steps of the server are for the controller. -/
def System.orders (s : System) : Action → List Order
  | .main _ _ => if s.main = .cleanDevices then [.close] else []
  | .comm ok =>
      match s.comm with
      | .push cmd => if (queuePush s.heap s.cmd_queue cmd ok).2.2 then [.submit cmd] else []
      | _ => []
  | .device mallocOk createOk level =>
      match s.device with
      | .dispatch _ => [.execute mallocOk createOk]
      | .sensorInWait | .sensorAfterHandle => [.sense level]
      | _ => []
  | .libraries devices => [.libraries devices]
  | _ => []

/-! ## The correspondence -/

/-- The response was computed in the execution of this block, or there is none yet. -/
def Controller.Gave (c : Controller) (computedFor : Option Nat) (response : CommandResponse) :
    Prop :=
  match computedFor with
  | none => response = CommandResponse.zero
  | some block => ∃ cmd, c.log[block]? = some (cmd, response)

def DevicePc.reporting : DevicePc → Option (Nat × CommandResponse)
  | .publishLock block response => some (block, response)
  | .publish block response => some (block, response)
  | _ => none

def MainPc.devicesCleaned : MainPc → Bool
  | .destroy => true
  | .finished => true
  | _ => false

structure Controls (s : System) (c : Controller) : Prop where
  devices : c.devices = s.devices
  executed : c.log.map Prod.fst = s.dispatched.map Prod.snd
  pending : c.pending = (s.pushed.drop s.dispatched.length).map Prod.snd
  closed : c.closed = s.main.devicesCleaned
  published : c.Gave s.responseFor s.response
  reporting : ∀ block response, s.device.reporting = some (block, response) →
    c.Gave (some block) response
  answered : ∀ a ∈ s.answered, c.Gave a.computedFor a.response

theorem controls_init (server_ip : Bytes) :
    Controls (System.init server_ip) controllerMachine.start where
  devices := rfl
  executed := rfl
  pending := rfl
  closed := rfl
  published := rfl
  reporting block response h := by cases h
  answered a ha := by cases ha

theorem reporting_signalled (pc : DevicePc) : pc.signalled.reporting = pc.reporting := by
  cases pc <;> rfl

theorem Controller.Gave.of_log {c c' : Controller} {entry : Command × CommandResponse}
    (hlog : c'.log = c.log ++ [entry]) {computedFor : Option Nat} {response : CommandResponse}
    (h : c.Gave computedFor response) : c'.Gave computedFor response := by
  cases computedFor with
  | none => exact h
  | some block =>
      obtain ⟨cmd, hread⟩ := h
      refine ⟨cmd, ?_⟩
      rw [hlog, List.getElem?_append_left (List.getElem?_eq_some_iff.mp hread).1, hread]

theorem Controller.Gave.congr {c c' : Controller} (hlog : c'.log = c.log)
    {computedFor : Option Nat} {response : CommandResponse}
    (h : c.Gave computedFor response) : c'.Gave computedFor response := by
  unfold Gave at h ⊢
  rw [hlog]
  exact h

/-- Steps that are nothing to the controller. -/
structure Unseen (s s' : System) : Prop where
  devices : s'.devices = s.devices
  pushed : s'.pushed = s.pushed
  dispatched : s'.dispatched = s.dispatched
  cleaned : s'.main.devicesCleaned = s.main.devicesCleaned
  response : s'.responseFor = s.responseFor ∧ s'.response = s.response ∨
    ∃ block, s.device.reporting = some (block, s'.response) ∧ s'.responseFor = some block
  reporting : s'.device.reporting = none ∨ s'.device.reporting = s.device.reporting
  answered : s'.answered = s.answered ∨
    ∃ block, s'.answered = s.answered ++ [⟨block, s.responseFor, s.response⟩]

theorem Controls.of_unseen {s s' : System} {c : Controller} (h : Controls s c)
    (hunseen : Unseen s s') : Controls s' c where
  devices := by rw [hunseen.devices, h.devices]
  executed := by rw [hunseen.dispatched, h.executed]
  pending := by rw [hunseen.dispatched, hunseen.pushed, h.pending]
  closed := by rw [hunseen.cleaned, h.closed]
  published := by
    rcases hunseen.response with ⟨hfor, hresponse⟩ | ⟨block, hreporting, hfor⟩
    · rw [hfor, hresponse]
      exact h.published
    · rw [hfor]
      exact h.reporting block _ hreporting
  reporting := by
    intro block response hreporting
    rcases hunseen.reporting with hnone | hsame
    · rw [hnone] at hreporting
      cases hreporting
    · exact h.reporting block response (hsame ▸ hreporting)
  answered := by
    intro a ha
    rcases hunseen.answered with hsame | ⟨block, hone⟩
    · exact h.answered a (hsame ▸ ha)
    · rw [hone, List.mem_append, List.mem_singleton] at ha
      rcases ha with ha | rfl
      · exact h.answered a ha
      · exact h.published

/-! ## The steps -/

theorem stepMain_unseen {s s' : System} {accepted : Accepted} {ok : Bool}
    (hs : s.stepMain accepted ok = some s') (hmain : s.main ≠ .cleanDevices) : Unseen s s' := by
  revert hs
  fun_cases System.stepMain s accepted ok
  all_goals intro hs
  all_goals cases hs
  all_goals
    simp_all only [ne_eq, not_true_eq_false, reduceCtorEq, not_false_eq_true]
  all_goals
    refine ⟨rfl, rfl, rfl, ?_, .inl ⟨rfl, rfl⟩, .inr ?_, .inl rfl⟩
  all_goals
    simp [MainPc.devicesCleaned, System.close, System.send, System.signalNotEmpty,
      System.signalResponse, reporting_signalled, *]

theorem stepComm_unseen {s s' : System} {ok : Bool} (hs : s.stepComm ok = some s')
    (horders : s.orders (.comm ok) = []) : Unseen s s' := by
  unfold System.stepComm at hs
  cases hcomm : s.comm with
  | push cmd =>
      simp only [hcomm] at hs
      simp only [System.orders, hcomm, ite_eq_right_iff, List.cons_ne_self, imp_false] at horders
      split at hs
      · next heap cmd_queue hpush => simp [hpush] at horders
      · cases hs
        exact ⟨rfl, rfl, rfl, rfl, .inl ⟨rfl, rfl⟩, .inr rfl, .inl rfl⟩
  | collect block inTime =>
      simp only [hcomm] at hs
      split at hs
      · cases hs
        exact ⟨rfl, rfl, rfl, rfl, .inl ⟨rfl, rfl⟩, .inr rfl, .inr ⟨block, rfl⟩⟩
      · cases hs
        exact ⟨rfl, rfl, rfl, rfl, .inl ⟨rfl, rfl⟩, .inr rfl, .inl rfl⟩
  | _ =>
      simp only [hcomm] at hs
      repeat' split at hs
      all_goals cases hs
      all_goals
        exact ⟨rfl, rfl, rfl, rfl, .inl ⟨rfl, rfl⟩, .inr rfl, .inl rfl⟩

theorem stepDevice_unseen {s s' : System} {mallocOk createOk : Bool} {level : Int}
    (hs : s.stepDevice mallocOk createOk level = some s')
    (horders : s.orders (.device mallocOk createOk level) = []) : Unseen s s' := by
  unfold System.stepDevice at hs
  cases hdevice : s.device with
  | dispatch block => simp [System.orders, hdevice] at horders
  | sensorInWait | sensorAfterHandle => simp [System.orders, hdevice] at horders
  | publishLock block response =>
      simp only [hdevice] at hs
      split at hs
      · cases hs
        exact ⟨rfl, rfl, rfl, rfl, .inl ⟨rfl, rfl⟩, .inr (by rw [hdevice]; rfl), .inl rfl⟩
      · cases hs
  | publish block response =>
      simp only [hdevice] at hs
      cases hs
      exact ⟨rfl, rfl, rfl, rfl, .inr ⟨block, by rw [hdevice]; rfl, rfl⟩, .inl rfl, .inl rfl⟩
  | _ =>
      simp only [hdevice] at hs
      repeat' split at hs
      all_goals cases hs
      all_goals
        exact ⟨rfl, rfl, rfl, rfl, .inl ⟨rfl, rfl⟩, .inl rfl, .inl rfl⟩

/-! ## The simulation -/

section Steps

variable {s s' : System} {c : Controller} {queued dropped : List Nat}

theorem Controls.length_log (h : Controls s c) : c.log.length = s.dispatched.length := by
  simpa using congrArg List.length h.executed

/-- Nothing pushed and not dispatched is outside the queue while commands are taken. -/
theorem Controls.length_pending (h : Controls s c) (hledger : Ledger s queued dropped)
    (huncleaned : s.main.cleaned = false) :
    c.pending.length = s.device.custody.undispatched.length + queued.length := by
  obtain ⟨rest, hpushed, hrest⟩ := hledger.order
  rw [h.pending, hpushed, List.drop_left]
  simpa [hledger.undropped huncleaned] using congrArg List.length hrest

theorem Controls.unclosed_of_comm (h : Controls s c) (hsession : SessionInv s)
    (hcomm : s.comm ≠ .absent) : c.closed = false := by
  rw [h.closed, hsession.joining.mp hcomm]
  rfl

theorem Controls.unclosed_of_device (h : Controls s c) (hsession : SessionInv s)
    (hdevice : s.device ≠ .returned) : c.closed = false := by
  rw [h.closed]
  cases hmain : s.main with
  | destroy | finished => exact absurd (hsession.device (by rw [hmain]; rfl)) hdevice
  | _ => rfl

theorem Custody.length_undispatched (held : Custody) : held.undispatched.length ≤ 1 := by
  cases held <;> simp [Custody.undispatched]

theorem Controls.submit (h : Controls s c) (hsession : SessionInv s)
    (hledger : Ledger s queued dropped) {cmd : Command} {ok : Bool} (hcomm : s.comm = .push cmd)
    (haccepted : (queuePush s.heap s.cmd_queue cmd ok).2.2 = true)
    (hs : s.stepComm ok = some s') :
    ∃ c', controllerMachine.exec c [.submit cmd] = some c' ∧ Controls s' c' := by
  have hunclosed := h.unclosed_of_comm hsession (by rw [hcomm]; simp)
  have hmain := hsession.joining.mp (by rw [hcomm]; simp)
  have hlength := h.length_pending hledger (by rw [hmain]; rfl)
  have hone := s.device.custody.length_undispatched
  have hroom : queued.length < MAX_QUEUE_SIZE := by
    by_contra hfull
    have hle := hledger.represents.length_le
    rw [hledger.represents.push_full (by omega)] at haccepted
    cases haccepted
  have hadmitted : c.closed = false ∧ c.pending.length ≤ MAX_QUEUE_SIZE := ⟨hunclosed, by omega⟩
  have hdispatched : s.dispatched.length ≤ s.pushed.length := by
    obtain ⟨rest, hpushed, -⟩ := hledger.order
    rw [hpushed, List.length_append]
    omega
  simp only [System.stepComm, hcomm] at hs
  split at hs
  · cases hs
    refine ⟨_, by rw [Machine.exec_singleton]; exact if_pos hadmitted, ?_⟩
    exact {
      devices := h.devices
      executed := h.executed
      pending := by
        simp only [h.pending, System.signalNotEmpty]
        rw [List.drop_append_of_le_length hdispatched, List.map_append]
        rfl
      closed := h.closed
      published := h.published.congr rfl
      reporting := by
        intro block response hreporting
        exact (h.reporting block response (reporting_signalled s.device ▸ hreporting)).congr rfl
      answered := fun a ha => (h.answered a ha).congr rfl }
  · next hpush => simp [hpush] at haccepted

theorem Controls.execute (h : Controls s c) (hsession : SessionInv s)
    (hledger : Ledger s queued dropped) {block : Nat} {mallocOk createOk : Bool} {level : Int}
    (hdevice : s.device = .dispatch block)
    (hs : s.stepDevice mallocOk createOk level = some s') :
    ∃ c', controllerMachine.exec c [.execute mallocOk createOk] = some c' ∧ Controls s' c' := by
  have hunclosed := h.unclosed_of_device hsession (by rw [hdevice]; simp)
  obtain ⟨rest, hpushed, hrest⟩ := hledger.order
  simp only [hdevice, DevicePc.custody, Custody.undispatched, List.cons_append,
    List.nil_append] at hrest
  simp only [System.stepDevice, hdevice] at hs
  split at hs
  · cases hs
  · next cmd frees hread =>
      cases rest with
      | nil => cases hrest
      | cons first rest =>
          simp only [List.map_cons, List.cons.injEq] at hrest
          -- the block read is the first one pushed and not dispatched
          have hcmd : first = (block, cmd) := by
            obtain ⟨frees', hfirst⟩ := hledger.contents first (by rw [hpushed]; simp)
            rw [hrest.1, hread, Option.some.injEq, Block.mk.injEq] at hfirst
            exact Prod.ext hrest.1 hfirst.1.symm
          have hpending : c.pending = cmd :: rest.map Prod.snd := by
            rw [h.pending, hpushed, List.drop_left, hcmd]
            rfl
          have hblock : block = c.log.length := by
            have hname : (s.pushed.map Prod.fst)[s.dispatched.length]? = some block := by
              rw [hpushed, hcmd]
              simp
            rw [hledger.names, List.getElem?_eq_some_iff] at hname
            obtain ⟨hlt, hget⟩ := hname
            rw [List.getElem_range] at hget
            rw [h.length_log, hget]
          cases hs
          refine ⟨_, by
            rw [Machine.exec_singleton]
            simp only [controllerMachine, Controller.step, hpending, hunclosed]
            rfl, ?_⟩
          exact {
            devices := by simp only [h.devices]
            executed := by simp [h.executed]
            pending := by
              simp only [List.length_append, List.length_singleton]
              rw [hpushed, hcmd, ← List.drop_drop, List.drop_left]
              rfl
            closed := hunclosed.symm.trans h.closed
            published := h.published.of_log rfl
            reporting := by
              intro b response hreporting
              simp only [afterDispatch] at hreporting
              split at hreporting
              · split at hreporting <;> cases hreporting
              · cases hreporting
                exact ⟨cmd, by rw [hblock]; simp [h.devices]⟩
            answered := fun a ha => (h.answered a ha).of_log rfl }

theorem Controls.sense (h : Controls s c) (hsession : SessionInv s) {mallocOk createOk : Bool}
    {level : Int} (hdevice : s.device = .sensorInWait ∨ s.device = .sensorAfterHandle)
    (hs : s.stepDevice mallocOk createOk level = some s') :
    ∃ c', controllerMachine.exec c [.sense level] = some c' ∧ Controls s' c' := by
  have hunclosed := h.unclosed_of_device hsession (by rcases hdevice with h | h <;> rw [h] <;> simp)
  refine ⟨{ c with devices := handleSensorMonitoring level c.devices }, ?_, ?_⟩
  · rw [Machine.exec_singleton]
    simp [controllerMachine, Controller.step, hunclosed]
  · rcases hdevice with hdevice | hdevice
    all_goals
      simp only [System.stepDevice, hdevice] at hs
      cases hs
    all_goals
      refine ⟨by simp only [h.devices], h.executed, h.pending, h.closed, h.published.congr rfl, ?_,
        fun a ha => (h.answered a ha).congr rfl⟩
      intro block response hreporting
      cases hreporting

theorem Controls.close (h : Controls s c) {accepted : Accepted} {ok : Bool}
    (hmain : s.main = .cleanDevices) (hs : s.stepMain accepted ok = some s') :
    ∃ c', controllerMachine.exec c [.close] = some c' ∧ Controls s' c' := by
  have hunclosed : c.closed = false := by rw [h.closed, hmain]; rfl
  refine ⟨{ c with devices := serverCleanupDevices c.devices, closed := true }, ?_, ?_⟩
  · rw [Machine.exec_singleton]
    simp [controllerMachine, Controller.step, hunclosed]
  · simp only [System.stepMain, hmain] at hs
    cases hs
    exact ⟨by simp only [h.devices], h.executed, h.pending, rfl, h.published.congr rfl,
      fun block response hreporting => (h.reporting block response hreporting).congr rfl,
      fun a ha => (h.answered a ha).congr rfl⟩

theorem Controls.libraries (h : Controls s c) (devices : DeviceState) :
    ∃ c', controllerMachine.exec c [.libraries devices] = some c' ∧
      Controls { s with devices := devices } c' :=
  ⟨{ c with devices := devices }, rfl, rfl, h.executed, h.pending, h.closed,
    h.published.congr rfl,
    fun block response hreporting => (h.reporting block response hreporting).congr rfl,
    fun a ha => (h.answered a ha).congr rfl⟩

theorem Controls.unseen (h : Controls s c) (hunseen : Unseen s s') :
    ∃ c', controllerMachine.exec c [] = some c' ∧ Controls s' c' :=
  ⟨c, rfl, h.of_unseen hunseen⟩

theorem Controls.stepMain (h : Controls s c) {accepted : Accepted} {ok : Bool}
    (hs : s.stepMain accepted ok = some s') :
    ∃ c', controllerMachine.exec c (s.orders (.main accepted ok)) = some c' ∧ Controls s' c' := by
  by_cases hmain : s.main = .cleanDevices
  · rw [System.orders, if_pos hmain]
    exact h.close hmain hs
  · rw [System.orders, if_neg hmain]
    exact h.unseen (stepMain_unseen hs hmain)

theorem Controls.stepComm (h : Controls s c) (hsession : SessionInv s)
    (hledger : Ledger s queued dropped) {ok : Bool} (hs : s.stepComm ok = some s') :
    ∃ c', controllerMachine.exec c (s.orders (.comm ok)) = some c' ∧ Controls s' c' := by
  by_cases horders : s.orders (.comm ok) = []
  · rw [horders]
    exact h.unseen (stepComm_unseen hs horders)
  · simp only [System.orders] at horders ⊢
    split at horders
    · next cmd hcomm =>
        rw [ite_eq_right_iff, not_forall] at horders
        obtain ⟨haccepted, -⟩ := horders
        simp only [if_pos haccepted]
        exact h.submit hsession hledger hcomm haccepted hs
    · exact absurd rfl horders

theorem Controls.stepDevice (h : Controls s c) (hsession : SessionInv s)
    (hledger : Ledger s queued dropped) {mallocOk createOk : Bool} {level : Int}
    (hs : s.stepDevice mallocOk createOk level = some s') :
    ∃ c', controllerMachine.exec c (s.orders (.device mallocOk createOk level)) = some c' ∧
      Controls s' c' := by
  by_cases horders : s.orders (.device mallocOk createOk level) = []
  · rw [horders]
    exact h.unseen (stepDevice_unseen hs horders)
  · cases hdevice : s.device with
    | dispatch block =>
        simp only [System.orders, hdevice]
        exact h.execute hsession hledger hdevice hs
    | sensorInWait =>
        simp only [System.orders, hdevice]
        exact h.sense hsession (.inl hdevice) hs
    | sensorAfterHandle =>
        simp only [System.orders, hdevice]
        exact h.sense hsession (.inr hdevice) hs
    | _ => simp [System.orders, hdevice] at horders

theorem Controls.step (h : Controls s c) (hsession : SessionInv s)
    (hledger : Ledger s queued dropped) {a : Action} (hs : s.step a = some s') :
    ∃ c', controllerMachine.exec c (s.orders a) = some c' ∧ Controls s' c' := by
  cases a with
  | main accepted ok => exact h.stepMain hs
  | comm ok => exact h.stepComm hsession hledger hs
  | commWake wake =>
      obtain ⟨block, -, rfl⟩ := wakeComm_eq hs
      exact h.unseen ⟨rfl, rfl, rfl, rfl, .inl ⟨rfl, rfl⟩, .inr rfl, .inl rfl⟩
  | device mallocOk createOk level => exact h.stepDevice hsession hledger hs
  | deviceWake wake =>
      obtain ⟨-, rfl⟩ := wakeDevice_eq hs
      exact h.unseen ⟨rfl, rfl, rfl, rfl, .inl ⟨rfl, rfl⟩, .inl rfl, .inl rfl⟩
  | interrupt | hangUp socket =>
      cases hs
      exact h.unseen ⟨rfl, rfl, rfl, rfl, .inl ⟨rfl, rfl⟩, .inr rfl, .inl rfl⟩
  | arrive socket chunk =>
      simp only [System.step] at hs
      repeat' split at hs
      all_goals cases hs
      exact h.unseen ⟨rfl, rfl, rfl, rfl, .inl ⟨rfl, rfl⟩, .inr rfl, .inl rfl⟩
  | libraries devices =>
      cases hs
      exact h.libraries devices

end Steps

theorem server_simulation (server_ip : Bytes) :
    Machine.Simulation (serverMachine server_ip) controllerMachine System.orders Controls where
  start := ⟨_, Machine.ReachableUnder.start, controls_init server_ip⟩
  step s a s' c hs _ hR hstep := by
    obtain ⟨queued, dropped, hledger⟩ := ledger_of_reachable hs
    exact hR.step (sessionInv_of_reachable hs) hledger hstep

/-! ## The refinement -/

/-- Every run of the server whose handlers no library thread interrupts, with the steps of
`main`, of the sessions and of the device thread in any order, is a run of the sequential
controller over its submissions, executions, sensor checks and the changes by the
libraries, in the order of the run. The devices, the commands executed and those
outstanding are the same, and every response a session was handed is the one the
controller gave for the block it was computed for. -/
theorem server_refines_controller {server_ip : Bytes} {as : List Action} {s : System}
    (hrun : (serverMachine server_ip).exec (System.init server_ip) as = some s) :
    ∃ c, controllerMachine.exec controllerMachine.start
        ((serverMachine server_ip).observed System.orders (System.init server_ip) as) = some c ∧
      c.devices = s.devices ∧
      c.log.map Prod.fst = s.dispatched.map Prod.snd ∧
      c.log.map Prod.fst ++ c.pending = s.pushed.map Prod.snd ∧
      ∀ a ∈ s.answered, c.Gave a.computedFor a.response := by
  obtain ⟨c, hc, hcontrols⟩ := (server_simulation server_ip).run Machine.ReachableUnder.start
    Machine.ReachableUnder.start (controls_init server_ip) hrun
  obtain ⟨queued, dropped, hledger⟩ := ledger_of_reachable (Machine.Reachable.of_exec hrun)
  obtain ⟨rest, hpushed, -⟩ := hledger.order
  refine ⟨c, hc, hcontrols.devices, hcontrols.executed, ?_, hcontrols.answered⟩
  rw [hcontrols.executed, hcontrols.pending, hpushed, List.drop_left, List.map_append]

/-- One command, executed and answered. -/
theorem one_command_controlled :
    ∃ (s : System) (c : Controller), controllerMachine.exec controllerMachine.start
        [.submit ⟨.ledOn, 0, 0⟩, .execute true true] = some c ∧
      c.devices = s.devices ∧ s.devices.led_on = true ∧
      c.log.map Prod.fst = [⟨.ledOn, 0, 0⟩] ∧ s.answered.length = 1 ∧
      ∀ a ∈ s.answered, c.Gave a.computedFor a.response := by
  have hrun : ((serverMachine []).exec (System.init [])
      (connect ++ pushLine (text "1 0 0\n") ++ deviceSteps 6 ++ commSteps 2)).any (fun s =>
        decide (s.devices.led_on = true ∧ s.dispatched.map Prod.snd = [⟨.ledOn, 0, 0⟩] ∧
          s.answered.length = 1)) = true := by
    decide +kernel
  have hlabels : (serverMachine []).observed System.orders (System.init [])
      (connect ++ pushLine (text "1 0 0\n") ++ deviceSteps 6 ++ commSteps 2) =
      [.submit ⟨.ledOn, 0, 0⟩, .execute true true] := by
    decide +kernel
  obtain ⟨s, hs, hfacts⟩ := (Option.any_eq_true _ _).mp hrun
  obtain ⟨hon, hdispatched, hone⟩ := of_decide_eq_true hfacts
  obtain ⟨c, hc, hdevices, hlog, -, hanswered⟩ := server_refines_controller hs
  rw [hlabels] at hc
  exact ⟨s, c, hc, hdevices, hon, hlog.trans hdispatched, hone, hanswered⟩

end RsvpControl.Server
