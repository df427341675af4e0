import RsvpControl.Server.Mutex
import RsvpControl.Server.Ownership

/-! # Commands whose wait timed out

The timeout branch answers the client and leaves the command in the queue. It is
never dispatched afterwards only if the server is already stopping; otherwise
the device thread gets to it, whoever is connected by then.
-/

namespace RsvpControl.Server

open RsvpControl.Core Device

/-! ## The condition -/

/-- A wait ends in the timeout branch with its command still queued only when the
server is stopping. -/
def System.abandonsOnlyStopping (s : System) : Action → Bool
  | .comm _ =>
      match s.comm with
      | .collect block false => !s.server_running || !decide (some block ∈ s.cmd_queue.commands)
      | _ => true
  | _ => true

/-! ## What a step abandons -/

theorem stepDevice_abandoned {s s' : System} {mallocOk createOk : Bool} {level : Int}
    (hs : s.stepDevice mallocOk createOk level = some s') :
    s'.abandoned = s.abandoned ∧ s'.server_running = s.server_running := by
  revert hs
  fun_cases System.stepDevice s mallocOk createOk level
  all_goals intro hs
  all_goals cases hs
  all_goals exact ⟨rfl, rfl⟩

theorem stepComm_abandoned {s s' : System} {ok : Bool} (hs : s.stepComm ok = some s') :
    s'.server_running = s.server_running ∧
      (s'.abandoned = s.abandoned ∨
        ∃ block, s.comm = .collect block false ∧ some block ∈ s.cmd_queue.commands ∧
          s'.abandoned = s.abandoned ++ [block] ∧ SameBlocks s s') := by
  unfold System.stepComm at hs
  cases hcomm : s.comm with
  | collect block inTime =>
      simp only [hcomm] at hs
      cases inTime with
      | true =>
          cases hs
          exact ⟨rfl, Or.inl rfl⟩
      | false =>
          cases hs
          refine ⟨rfl, ?_⟩
          by_cases hqueued : some block ∈ s.cmd_queue.commands
          · exact Or.inr ⟨block, rfl, hqueued, if_pos hqueued, ⟨rfl, rfl, rfl, rfl, rfl, rfl, rfl⟩⟩
          · exact Or.inl (if_neg hqueued)
  | _ =>
      simp only [hcomm] at hs
      repeat' split at hs
      all_goals cases hs
      all_goals
        exact ⟨rfl, Or.inl rfl⟩

/-- Only the timeout branch abandons, and nothing starts the server again. -/
theorem step_abandoned {s s' : System} {a : Action} (hs : s.step a = some s') :
    (s.server_running = false → s'.server_running = false) ∧
      (s'.abandoned = s.abandoned ∨
        ∃ ok block, a = .comm ok ∧ s.comm = .collect block false ∧
          some block ∈ s.cmd_queue.commands ∧
          s'.abandoned = s.abandoned ++ [block] ∧ SameBlocks s s') := by
  cases a with
  | main accepted ok =>
      obtain ⟨_, _, habandoned, _, _, _, hrunning, _⟩ := stepMain_control hs
      exact ⟨hrunning, Or.inl habandoned⟩
  | comm ok =>
      rcases stepComm_abandoned hs with ⟨hrunning, heq | ⟨block, hcomm, hqueued, heq, hsame⟩⟩
      · exact ⟨fun hoff => hrunning.trans hoff, Or.inl heq⟩
      · exact ⟨fun hoff => hrunning.trans hoff,
          Or.inr ⟨ok, block, rfl, hcomm, hqueued, heq, hsame⟩⟩
  | commWake wake =>
      obtain ⟨block, _, rfl⟩ := wakeComm_eq hs
      exact ⟨id, Or.inl rfl⟩
  | device mallocOk createOk level =>
      obtain ⟨heq, hrunning⟩ := stepDevice_abandoned hs
      exact ⟨fun hoff => hrunning.trans hoff, Or.inl heq⟩
  | deviceWake wake =>
      obtain ⟨_, rfl⟩ := wakeDevice_eq hs
      exact ⟨id, Or.inl rfl⟩
  | interrupt =>
      cases hs
      exact ⟨fun _ => rfl, Or.inl rfl⟩
  | hangUp socket | libraries devices =>
      cases hs
      exact ⟨id, Or.inl rfl⟩
  | arrive socket chunk =>
      simp only [System.step] at hs
      split at hs
      · cases hs
      · split at hs <;> cases hs
        exact ⟨id, Or.inl rfl⟩

/-! ## The invariant -/

structure Undispatched (s : System) : Prop where
  stopping : s.abandoned ≠ [] → s.server_running = false
  unpopped : ∀ b ∈ s.abandoned,
    b ∉ s.dispatched.map Prod.fst ∧ b ∉ s.device.custody.undispatched

theorem undispatched_init (server_ip : Bytes) : Undispatched (System.init server_ip) where
  stopping h := absurd rfl h
  unpopped b hb := by cases hb

theorem Ledger.queued_not_popped {s : System} {queued dropped : List Nat}
    (h : Ledger s queued dropped) {b : Nat} (hb : b ∈ queued) :
    b ∉ s.dispatched.map Prod.fst ∧ b ∉ s.device.custody.undispatched := by
  have hnodup := h.nodup
  rw [List.nodup_append, List.nodup_append, List.nodup_append] at hnodup
  constructor
  · intro hmem
    exact hnodup.2.2 b hmem b (by simp [hb]) rfl
  · intro hmem
    exact hnodup.2.1.1.2.2 b hmem b hb rfl

theorem Undispatched.step {s s' : System} {a : Action} (h : Undispatched s)
    (hledger : ∃ queued dropped, Ledger s queued dropped)
    (hok : s.abandonsOnlyStopping a = true) (hs : s.step a = some s') : Undispatched s' := by
  obtain ⟨queued, dropped, hledger⟩ := hledger
  rcases step_abandoned hs with ⟨hoff, hsame | ⟨ok, block, rfl, hcomm, hqueued, habandoned, hsame⟩⟩
  · refine ⟨?_, ?_⟩
    · rw [hsame]
      exact fun hne => hoff (h.stopping hne)
    · rw [hsame]
      intro b hb
      have hold := h.unpopped b hb
      cases step_blocks hs with
      | same hblocks =>
          rw [hblocks.dispatched, hblocks.custody]
          exact hold
      | push cmd _ _ _ hdispatched _ hcustody _ =>
          rw [hdispatched, hcustody]
          exact hold
      | pop block _ hrunning =>
          rw [h.stopping (List.ne_nil_of_mem hb)] at hrunning
          cases hrunning
      | popNull hne hpop => exact absurd hpop (hledger.pop_some hne)
      | dispatch block _ cmd hcustody _ _ _ _ hdispatched _ hcustody' _ =>
          rw [hcustody, Custody.undispatched, List.mem_singleton] at hold
          rw [hdispatched, hcustody']
          simp only [List.map_append, List.map_cons, List.map_nil, List.mem_append,
            List.mem_singleton, not_or, Custody.undispatched, List.not_mem_nil, not_false_eq_true,
            and_true]
          exact hold
      | free block _ _ _ _ hdispatched _ hcustody' _ =>
          rw [hdispatched, hcustody']
          exact ⟨hold.1, List.not_mem_nil⟩
      | clean _ _ _ hdispatched _ hcustody _ =>
          rw [hdispatched, hcustody]
          exact hold
  · have hstopping : s.server_running = false := by
      simpa [System.abandonsOnlyStopping, hcomm, hqueued] using hok
    refine ⟨fun _ => hoff hstopping, ?_⟩
    rw [habandoned, hsame.dispatched, hsame.custody]
    intro b hb
    rcases List.mem_append.mp hb with hb | hb
    · exact h.unpopped b hb
    · rw [List.mem_singleton.mp hb]
      exact hledger.queued_not_popped ((hledger.represents.mem_commands_iff block).mp hqueued)

theorem undispatched_of_reachable {server_ip : Bytes} {s : System}
    (h : (serverMachine server_ip).ReachableUnder (fun s a => s.abandonsOnlyStopping a = true) s) :
    Undispatched s := by
  refine h.invariant (undispatched_init server_ip) ?_
  intro t a t' ht hinv hok hs
  exact hinv.step (ledger_of_reachable ht.reachable) hok hs

/-! ## The device thread gets to every queued command -/

def DevicePc.toHead : DevicePc → Nat
  | .head => 0
  | .lock => 1
  | .loopTest => 2
  | .sensorInWait => 2
  | .sensorTest => 3
  | .sensorAfterHandle => 3
  | .freeSkipped _ => 3
  | .sensorAfter => 4
  | .woken => 4
  | .waiting => 5
  | .freeCmd _ => 5
  | .publish _ _ => 6
  | .publishLock _ _ => 7
  | .dispatch _ => 8
  | .returned => 0

theorem toHead_afterDispatch (block : Nat) (cmd : Command) (response : CommandResponse) :
    (afterDispatch block cmd response).toHead < 8 := by
  unfold afterDispatch
  split
  · split <;> simp [DevicePc.toHead]
  · simp [DevicePc.toHead]

/-- The server runs and nothing keeps the device thread from `queue_mutex`. -/
structure Serving (s : System) : Prop where
  running : s.server_running = true
  unheld : s.comm.holding = false

/-- Progress of the device thread that leaves the queue as it is. -/
structure Advanced (s s' : System) : Prop where
  serving : Serving s'
  cmd_queue : s'.cmd_queue = s.cmd_queue
  dispatched : s.dispatched <+: s'.dispatched

theorem Advanced.trans {s t u : System} (h : Advanced s t) (h' : Advanced t u) : Advanced s u :=
  ⟨h'.serving, h'.cmd_queue.trans h.cmd_queue, h.dispatched.trans h'.dispatched⟩

theorem Serving.mutex_free {s : System} (h : Serving s) (hmutex : MutexInv s)
    (hdevice : s.device.holding = false) : s.queue_mutex = none := by
  cases hheld : s.queue_mutex with
  | none => rfl
  | some holder =>
      cases holder with
      | comm =>
          rw [hmutex.comm, h.unheld] at hheld
          cases hheld
      | device =>
          rw [hmutex.device, hdevice] at hheld
          cases hheld

theorem Serving.advance {s : System} (h : Serving s) (hmutex : MutexInv s)
    (hledger : ∃ queued dropped, Ledger s queued dropped) (hne : s.device ≠ .head) :
    ∃ a s', s.step a = some s' ∧ Advanced s s' ∧ s'.device.toHead < s.device.toHead := by
  have hfree := h.mutex_free hmutex
  cases hpc : s.device with
  | head => exact absurd hpc hne
  | returned =>
      have hoff := hmutex.running hpc
      rw [h.running] at hoff
      cases hoff
  | loopTest =>
      refine ⟨.device true true 0, { s with device := .lock }, ?_,
        ⟨⟨h.running, h.unheld⟩, rfl, List.prefix_rfl⟩, by simp [DevicePc.toHead]⟩
      simp [System.step, System.stepDevice, hpc, h.running]
  | lock =>
      refine ⟨.device true true 0, { s with queue_mutex := some .device, device := .head }, ?_,
        ⟨⟨h.running, h.unheld⟩, rfl, List.prefix_rfl⟩, by simp [DevicePc.toHead]⟩
      simp [System.step, System.stepDevice, hpc, hfree (by rw [hpc]; rfl)]
  | waiting =>
      refine ⟨.deviceWake .timeout, { s with device := .woken }, ?_,
        ⟨⟨h.running, h.unheld⟩, rfl, List.prefix_rfl⟩, by simp [DevicePc.toHead]⟩
      simp [System.step, System.wakeDevice, hpc]
  | woken =>
      refine ⟨.device true true 0, { s with queue_mutex := some .device, device := .sensorTest },
        ?_, ⟨⟨h.running, h.unheld⟩, rfl, List.prefix_rfl⟩, by simp [DevicePc.toHead]⟩
      simp [System.step, System.stepDevice, hpc, hfree (by rw [hpc]; rfl)]
  | sensorTest =>
      cases hmonitoring : s.devices.sensor_monitoring with
      | true =>
          refine ⟨.device true true 0, { s with queue_mutex := none, device := .sensorInWait },
            ?_, ⟨⟨h.running, h.unheld⟩, rfl, List.prefix_rfl⟩, by simp [DevicePc.toHead]⟩
          simp [System.step, System.stepDevice, hpc, hmonitoring]
      | false =>
          refine ⟨.device true true 0, { s with device := .head }, ?_,
            ⟨⟨h.running, h.unheld⟩, rfl, List.prefix_rfl⟩, by simp [DevicePc.toHead]⟩
          simp [System.step, System.stepDevice, hpc, hmonitoring]
  | sensorInWait =>
      have hs : s.step (.device true true 0) = some { s with
          devices := handleSensorMonitoring 0 s.devices, device := .lock } := by
        simp [System.step, System.stepDevice, hpc]
      exact ⟨_, _, hs, ⟨⟨h.running, h.unheld⟩, rfl, List.prefix_rfl⟩, by simp [DevicePc.toHead]⟩
  | dispatch block =>
      obtain ⟨queued, dropped, hledger⟩ := hledger
      obtain ⟨cmd, frees, hread⟩ := hledger.read_popped (by rw [hpc]; rfl)
      have hs : s.step (.device true true 0) = some { s with
          devices := (dispatch cmd true true s.devices).1
          dispatched := s.dispatched ++ [(block, cmd)]
          misused := if frees = 0 then s.misused else s.misused ++ [block]
          device := afterDispatch block cmd (dispatch cmd true true s.devices).2 } := by
        simp only [System.step, System.stepDevice, hpc, hread]
      exact ⟨_, _, hs, ⟨⟨h.running, h.unheld⟩, rfl, List.prefix_append _ _⟩,
        toHead_afterDispatch _ _ _⟩
  | publishLock block response =>
      refine ⟨.device true true 0,
        { s with queue_mutex := some .device, device := .publish block response }, ?_,
        ⟨⟨h.running, h.unheld⟩, rfl, List.prefix_rfl⟩, by simp [DevicePc.toHead]⟩
      simp [System.step, System.stepDevice, hpc, hfree (by rw [hpc]; rfl)]
  | publish block response =>
      have hs : s.step (.device true true 0) = some { s.signalResponse with
          response := response
          responseFor := some block
          queue_mutex := none
          device := .freeCmd block } := by
        simp [System.step, System.stepDevice, hpc]
      have hunheld : s.comm.signalled.holding = false :=
        (holding_commSignalled s.comm).trans h.unheld
      exact ⟨_, _, hs, ⟨⟨h.running, hunheld⟩, rfl, List.prefix_rfl⟩, by simp [DevicePc.toHead]⟩
  | freeCmd block =>
      have hs : s.step (.device true true 0) = some { s with
          heap := s.heap.free block, device := .sensorAfter } := by
        simp [System.step, System.stepDevice, hpc]
      exact ⟨_, _, hs, ⟨⟨h.running, h.unheld⟩, rfl, List.prefix_rfl⟩, by simp [DevicePc.toHead]⟩
  | freeSkipped block =>
      have hs : s.step (.device true true 0) = some { s with
          heap := s.heap.free block, device := .loopTest } := by
        simp [System.step, System.stepDevice, hpc]
      exact ⟨_, _, hs, ⟨⟨h.running, h.unheld⟩, rfl, List.prefix_rfl⟩, by simp [DevicePc.toHead]⟩
  | sensorAfter =>
      cases hmonitoring : s.devices.sensor_monitoring with
      | true =>
          refine ⟨.device true true 0, { s with device := .sensorAfterHandle }, ?_,
            ⟨⟨h.running, h.unheld⟩, rfl, List.prefix_rfl⟩, by simp [DevicePc.toHead]⟩
          simp [System.step, System.stepDevice, hpc, hmonitoring]
      | false =>
          refine ⟨.device true true 0, { s with device := .loopTest }, ?_,
            ⟨⟨h.running, h.unheld⟩, rfl, List.prefix_rfl⟩, by simp [DevicePc.toHead]⟩
          simp [System.step, System.stepDevice, hpc, hmonitoring]
  | sensorAfterHandle =>
      have hs : s.step (.device true true 0) = some { s with
          devices := handleSensorMonitoring 0 s.devices, device := .loopTest } := by
        simp [System.step, System.stepDevice, hpc]
      exact ⟨_, _, hs, ⟨⟨h.running, h.unheld⟩, rfl, List.prefix_rfl⟩, by simp [DevicePc.toHead]⟩

section Progress

variable {server_ip : Bytes}

theorem Serving.reaches_head {s : System} (hreach : (serverMachine server_ip).Reachable s)
    (h : Serving s) :
    ∃ s', (serverMachine server_ip).Reaches s s' ∧ Advanced s s' ∧ s'.device = .head := by
  induction hn : s.device.toHead using Nat.strongRecOn generalizing s with
  | ind n ih =>
      by_cases hhead : s.device = .head
      · exact ⟨s, Relation.ReflTransGen.refl, ⟨h, rfl, List.prefix_rfl⟩, hhead⟩
      · rcases h.advance (mutexInv_of_reachable hreach) (ledger_of_reachable hreach) hhead with
          ⟨a, t, hs, hadvanced, hless⟩
        have hstep : (serverMachine server_ip).step s a = some t := hs
        rcases ih _ (hn ▸ hless) (hreach.step trivial hstep) hadvanced.serving rfl with
          ⟨u, hrun, hrest, hhead'⟩
        exact ⟨u, Relation.ReflTransGen.head ⟨a, trivial, hstep⟩ hrun, hadvanced.trans hrest, hhead'⟩

/-- At the head of the loop the oldest queued command is popped and dispatched. -/
theorem Serving.dispatch_first {s : System} {first : Nat} {rest dropped : List Nat}
    (hreach : (serverMachine server_ip).Reachable s) (h : Serving s) (hhead : s.device = .head)
    (hledger : Ledger s (first :: rest) dropped) :
    ∃ s', (serverMachine server_ip).Reaches s s' ∧ Serving s' ∧
      Represents s'.cmd_queue rest ∧ s.dispatched <+: s'.dispatched ∧
      first ∈ s'.dispatched.map Prod.fst := by
  obtain ⟨queue', hpop, hrep⟩ := hledger.represents.pop_cons
  have hne : queueIsEmpty s.cmd_queue = false := by
    rw [Bool.eq_false_iff]
    simp [hledger.represents.isEmpty_iff]
  have hpopped : (serverMachine server_ip).step s (.device true true 0) =
      some { s with cmd_queue := queue', queue_mutex := none, device := .dispatch first } := by
    simp [serverMachine, System.step, System.stepDevice, hhead, hne, h.running, hpop]
  obtain ⟨queued', dropped', hledger'⟩ := ledger_of_reachable (hreach.step trivial hpopped)
  obtain ⟨cmd, frees, hread⟩ := hledger'.read_popped rfl
  have hread : s.heap[first]? = some ⟨cmd, frees⟩ := hread
  have hdispatched : (serverMachine server_ip).step
      { s with cmd_queue := queue', queue_mutex := none, device := .dispatch first }
      (.device true true 0) = some { s with
        cmd_queue := queue'
        queue_mutex := none
        devices := (dispatch cmd true true s.devices).1
        dispatched := s.dispatched ++ [(first, cmd)]
        misused := if frees = 0 then s.misused else s.misused ++ [first]
        device := afterDispatch first cmd (dispatch cmd true true s.devices).2 } := by
    simp only [serverMachine, System.step, System.stepDevice, hread]
  exact ⟨_, Relation.ReflTransGen.head ⟨_, trivial, hpopped⟩ (Machine.Reaches.of_step _ hdispatched),
    ⟨h.running, h.unheld⟩, hrep, List.prefix_append _ _, by simp⟩

theorem Serving.reaches_dispatched {s : System} (hreach : (serverMachine server_ip).Reachable s)
    (h : Serving s) {block : Nat} (hqueued : some block ∈ s.cmd_queue.commands) :
    ∃ s', (serverMachine server_ip).Reaches s s' ∧ block ∈ s'.dispatched.map Prod.fst := by
  induction hn : s.cmd_queue.count.toNat generalizing s with
  | zero =>
      obtain ⟨queued, dropped, hledger⟩ := ledger_of_reachable hreach
      have hmem := (hledger.represents.mem_commands_iff block).mp hqueued
      have hcount := hledger.represents.count_eq
      have hpos := List.length_pos_of_mem hmem
      omega
  | succ n ih =>
      obtain ⟨t, hrun, hadvanced, hhead⟩ := h.reaches_head hreach
      have hreachT : (serverMachine server_ip).Reachable t := hreach.trans hrun
      obtain ⟨queued, dropped, hledger⟩ := ledger_of_reachable hreachT
      rw [← hadvanced.cmd_queue] at hqueued hn
      have hmem := (hledger.represents.mem_commands_iff block).mp hqueued
      cases queued with
      | nil => cases hmem
      | cons first rest =>
          rcases hadvanced.serving.dispatch_first hreachT hhead hledger with
            ⟨u, hrun', hserving, hrep, _, hfirst⟩
          rcases List.mem_cons.mp hmem with rfl | hmem
          · exact ⟨u, hrun.trans hrun', hfirst⟩
          · have hcount : u.cmd_queue.count.toNat = n := by
              have hbefore := hledger.represents.count_eq
              have hafter := hrep.count_eq
              rw [List.length_cons] at hbefore
              omega
            rcases ih (hreachT.trans hrun') hserving ((hrep.mem_commands_iff block).mpr hmem)
              hcount with ⟨v, hlast, hdone⟩
            exact ⟨v, (hrun.trans hrun').trans hlast, hdone⟩

end Progress

/-! ## The result -/

theorem abandoned_subset {s s' : System} {a : Action} (hs : s.step a = some s') :
    s.abandoned ⊆ s'.abandoned := by
  rcases (step_abandoned hs).2 with heq | ⟨_, _, _, _, _, heq, _⟩
  · rw [heq]
    exact List.Subset.refl _
  · rw [heq]
    exact List.subset_append_left _ _

/-- What a step the condition excludes leaves behind. -/
theorem abandoned_while_serving {s s' : System} {a : Action}
    (hbad : s.abandonsOnlyStopping a = false) (hs : s.step a = some s') :
    ∃ block ∈ s'.abandoned, some block ∈ s'.cmd_queue.commands ∧ Serving s' := by
  cases a with
  | comm ok =>
      simp only [System.step, System.stepComm] at hs
      cases hcomm : s.comm with
      | collect block inTime =>
          cases inTime with
          | true => simp [System.abandonsOnlyStopping, hcomm] at hbad
          | false =>
              simp only [System.abandonsOnlyStopping, hcomm, Bool.or_eq_false_iff,
                Bool.not_eq_false', decide_eq_true_eq] at hbad
              simp only [hcomm, if_pos hbad.2] at hs
              cases hs
              exact ⟨block, by simp, hbad.2, hbad.1, rfl⟩
      | _ => simp [System.abandonsOnlyStopping, hcomm] at hbad
  | _ => cases hbad

/-- As long as no wait times out with its command queued while the server runs, no
command answered with the timeout error and still queued at that moment is
dispatched later. After each step the condition excludes such a command can still
be dispatched. -/
theorem timed_out_never_dispatched {server_ip : Bytes} {s : System}
    (h : (serverMachine server_ip).ReachableUnder (fun s a => s.abandonsOnlyStopping a = true) s) :
    (∀ s', (serverMachine server_ip).ReachesUnder (fun s a => s.abandonsOnlyStopping a = true) s s' →
      ∀ b ∈ s.abandoned, b ∉ s'.dispatched.map Prod.fst) ∧
      (∀ a s', (serverMachine server_ip).step s a = some s' → s.abandonsOnlyStopping a = false →
        ∃ b ∈ s'.abandoned, ∃ s'', (serverMachine server_ip).Reaches s' s'' ∧
          b ∈ s''.dispatched.map Prod.fst) := by
  constructor
  · intro s' hrun b hb
    have hreach : (serverMachine server_ip).ReachableUnder
        (fun s a => s.abandonsOnlyStopping a = true) s' := h.trans hrun
    have hkept : b ∈ s'.abandoned := by
      refine hrun.invariant (I := fun t => b ∈ t.abandoned) hb ?_
      intro t a t' _ ht _ hs
      exact abandoned_subset hs ht
    exact ((undispatched_of_reachable hreach).unpopped b hkept).1
  · intro a s' hs hbad
    obtain ⟨block, hmem, hqueued, hserving⟩ := abandoned_while_serving hbad hs
    rcases hserving.reaches_dispatched (h.reachable.step trivial hs) hqueued with
      ⟨s'', hrun, hdone⟩
    exact ⟨block, hmem, s'', hrun, hdone⟩

/-- A wait that times out after SIGINT. -/
theorem timed_out_while_stopping :
    ∃ s, (serverMachine []).Reachable s ∧ s.abandoned = [0] ∧ 0 ∉ s.dispatched.map Prod.fst := by
  have hrun : (((serverMachine []).execUnder System.abandonsOnlyStopping (System.init [])
      (connect ++ pushLine (text "1 0 0\n") ++ [Action.interrupt, .commWake .timeout] ++
        commSteps 3)).any fun s => s.abandoned = [0]) = true := by decide +kernel
  obtain ⟨s, hreach, hfacts⟩ := Machine.ReachableUnder.exists_of_exec hrun
  have habandoned : s.abandoned = [0] := of_decide_eq_true hfacts
  have hnever := (timed_out_never_dispatched hreach).1 s Relation.ReflTransGen.refl
  exact ⟨s, hreach.reachable, habandoned, hnever 0 (by simp [habandoned])⟩

/-- The device thread is slow, the client is told of a timeout, and then the LED
is switched on after all. -/
theorem dispatched_after_timeout :
    ∃ s s', (serverMachine []).Reachable s ∧ s.abandoned = [0] ∧ s.dispatched = [] ∧
      (serverMachine []).Reaches s s' ∧ s'.dispatched = [(0, ⟨.ledOn, 0, 0⟩)] := by
  have hrun : (((serverMachine []).exec (System.init [])
      (connect ++ pushLine (text "1 0 0\n") ++ [Action.commWake .timeout] ++
        commSteps 3)).any fun s =>
        s.abandoned = [0] ∧ s.dispatched = [] ∧
          ((serverMachine []).exec s (deviceSteps 4)).any
            (fun s' => s'.dispatched = [(0, ⟨.ledOn, 0, 0⟩)]) = true) = true := by decide +kernel
  obtain ⟨s, hreach, hfacts⟩ := Machine.Reachable.exists_of_exec hrun
  obtain ⟨habandoned, hnone, hlater⟩ := of_decide_eq_true hfacts
  obtain ⟨s', hs', hdone⟩ := (Option.any_eq_true _ _).mp hlater
  exact ⟨s, s', hreach, habandoned, hnone, Machine.Reaches.of_exec hs', of_decide_eq_true hdone⟩

end RsvpControl.Server
