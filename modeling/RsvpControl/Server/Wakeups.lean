import RsvpControl.Server.Agreement

/-! # Signals and the two wait sets

A thread enters a wait set in the same critical section in which it has seen
nothing to wait for: the device thread finds the queue empty, and the
communication thread has just allocated the block it waits for. Whoever changes
that, a push or a publication, signals before it unlocks. The gap in which the
device thread polls the sensor is not in the wait set, and its next test of the
queue is under the mutex again.
-/

namespace RsvpControl.Server

open RsvpControl.Core Device

/-- The threads in a wait set have something to wait for. -/
structure Signalled (s : System) : Prop where
  device : s.device = .waiting → queueIsEmpty s.cmd_queue = true
  comm : ∀ block, s.comm = .waiting block → s.responseFor ≠ some block
  known : ∀ block, s.responseFor = some block → block ∈ s.dispatched.map Prod.fst

theorem signalled_init (server_ip : Bytes) : Signalled (System.init server_ip) where
  device h := by cases h
  comm block h := by cases h
  known block h := by cases h

theorem device_not_waiting (pc : DevicePc) : pc.signalled ≠ .waiting := by
  cases pc <;> simp [DevicePc.signalled]

theorem comm_not_waiting (pc : CommPc) (block : Nat) : pc.signalled ≠ .waiting block := by
  cases pc <;> simp [CommPc.signalled]

theorem afterDispatch_not_waiting (block : Nat) (cmd : Command) (response : CommandResponse) :
    afterDispatch block cmd response ≠ .waiting := by
  unfold afterDispatch
  split
  · split <;> simp
  · simp

/-! ## What one step does to the wait sets -/

theorem queueIsEmpty_cleanup {heap : CommandHeap} {queue : CommandQueue}
    (h : queueIsEmpty queue = true) : (queueCleanup heap queue).2 = queue := by
  have hcount : queue.count = 0 := by simpa [queueIsEmpty] using h
  simp [queueCleanup, hcount, queueCleanupLoop]

theorem Signalled.stepMain {s s' : System} {accepted : Accepted} {ok : Bool} (h : Signalled s)
    (hs : s.stepMain accepted ok = some s') : Signalled s' := by
  obtain ⟨_, _, _, hfor, hdispatched, _, _, hdevice, hcomm⟩ := stepMain_control hs
  refine ⟨?_, ?_, ?_⟩
  · intro hwaiting
    rcases hdevice with heq | heq
    · have hempty := h.device (heq ▸ hwaiting)
      cases hmain : s.main with
      | cleanQueue =>
          simp only [System.stepMain, hmain, Option.some.injEq] at hs
          subst hs
          rw [show (queueCleanup s.heap s.cmd_queue).2 = s.cmd_queue from
            queueIsEmpty_cleanup hempty]
          exact hempty
      | _ =>
          simp only [System.stepMain, hmain] at hs
          repeat' split at hs
          all_goals cases hs
          all_goals exact hempty
    · exact absurd (heq ▸ hwaiting) (device_not_waiting s.device)
  · intro block hwaiting
    rw [hfor]
    rcases hcomm with heq | heq | ⟨heq, _⟩ | ⟨heq, _⟩
    · exact h.comm block (heq ▸ hwaiting)
    · exact absurd (heq ▸ hwaiting) (comm_not_waiting s.comm block)
    · rw [heq] at hwaiting
      cases hwaiting
    · rw [heq] at hwaiting
      cases hwaiting
  · rw [hfor, hdispatched]
    exact h.known

/-- The communication thread enters its wait set for a block allocated in the
same critical section, and signals the device thread there. -/
theorem Signalled.stepComm {s s' : System} {ok : Bool} (h : Signalled s)
    (hbound : ∀ block, s.responseFor = some block → block < s.heap.length)
    (hs : s.stepComm ok = some s') : Signalled s' := by
  unfold System.stepComm at hs
  cases hpc : s.comm with
  | push cmd =>
      simp only [hpc] at hs
      split at hs
      · cases hs
        refine ⟨?_, ?_, h.known⟩
        · intro hwaiting
          exact absurd hwaiting (device_not_waiting s.device)
        · intro block hwaiting hpublished
          rw [CommPc.waiting.injEq] at hwaiting
          have hlt := hbound block hpublished
          omega
      · cases hs
        refine ⟨h.device, ?_, h.known⟩
        intro block hwaiting
        cases hwaiting
  | _ =>
      simp only [hpc] at hs
      repeat' split at hs
      all_goals cases hs
      all_goals
        refine ⟨h.device, ?_, h.known⟩
        intro block hwaiting
        cases hwaiting

/-- The device thread enters its wait set on an empty queue, and signals what it
publishes. -/
theorem Signalled.stepDevice {s s' : System} {mallocOk createOk : Bool} {level : Int}
    (h : Signalled s)
    (hexecuted : ∀ block r, s.device = .publish block r → block ∈ s.dispatched.map Prod.fst)
    (hs : s.stepDevice mallocOk createOk level = some s') : Signalled s' := by
  unfold System.stepDevice at hs
  cases hpc : s.device with
  | head =>
      simp only [hpc] at hs
      split at hs
      · next hempty =>
          cases hs
          refine ⟨fun _ => ?_, h.comm, h.known⟩
          exact (Bool.and_eq_true _ _ ▸ hempty).1
      · repeat' split at hs
        all_goals cases hs
        all_goals
          refine ⟨?_, h.comm, h.known⟩
          intro hwaiting
          cases hwaiting
  | dispatch block =>
      simp only [hpc] at hs
      split at hs
      · cases hs
      · cases hs
        refine ⟨?_, h.comm, ?_⟩
        · intro hwaiting
          exact absurd hwaiting (afterDispatch_not_waiting _ _ _)
        · intro published hpublished
          rw [List.map_append]
          exact List.mem_append_left _ (h.known published hpublished)
  | publish block response =>
      simp only [hpc, Option.some.injEq] at hs
      subst hs
      refine ⟨?_, ?_, ?_⟩
      · intro hwaiting
        cases hwaiting
      · intro waited hwaiting
        exact absurd hwaiting (comm_not_waiting s.comm waited)
      · intro published hpublished
        rw [Option.some.injEq] at hpublished
        subst hpublished
        exact hexecuted _ response hpc
  | _ =>
      simp only [hpc] at hs
      repeat' split at hs
      all_goals cases hs
      all_goals
        refine ⟨?_, h.comm, h.known⟩
        intro hwaiting
        cases hwaiting

theorem Signalled.step {s s' : System} {a : Action} (h : Signalled s) {queued dropped : List Nat}
    (hledger : Ledger s queued dropped) (hs : s.step a = some s') : Signalled s' := by
  cases a with
  | main accepted ok => exact h.stepMain hs
  | comm ok =>
      apply h.stepComm ?_ hs
      intro block hpublished
      exact hledger.dispatched_lt (h.known block hpublished)
  | commWake wake =>
      obtain ⟨block, _, rfl⟩ := wakeComm_eq hs
      refine ⟨h.device, ?_, h.known⟩
      intro waited hwaiting
      cases hwaiting
  | device mallocOk createOk level =>
      apply h.stepDevice ?_ hs
      intro block r hdevice
      exact List.mem_of_getLast? (hledger.executed block (by rw [hdevice]; rfl))
  | deviceWake wake =>
      obtain ⟨_, rfl⟩ := wakeDevice_eq hs
      refine ⟨?_, h.comm, h.known⟩
      intro hwaiting
      cases hwaiting
  | interrupt | hangUp socket | libraries devices =>
      cases hs
      exact ⟨h.device, h.comm, h.known⟩
  | arrive socket chunk =>
      simp only [System.step] at hs
      repeat' split at hs
      all_goals cases hs
      exact ⟨h.device, h.comm, h.known⟩

theorem signalled_of_reachable {server_ip : Bytes} {s : System}
    (h : (serverMachine server_ip).Reachable s) : Signalled s := by
  refine Machine.ReachableUnder.invariant (signalled_init server_ip) ?_ h
  intro t a t' ht hinv _ hs
  obtain ⟨queued, dropped, hledger⟩ := ledger_of_reachable ht
  exact hinv.step hledger hs

/-! ## Published once, published for good -/

/-- A block that is waited for is new, or was waited for before the step. -/
theorem waiting_of_step {s s' : System} {a : Action} (hs : s.step a = some s') {block : Nat}
    (hwaiting : s'.comm = .waiting block) : s.comm = .waiting block ∨ s.heap.length = block := by
  cases a with
  | main accepted ok =>
      obtain ⟨_, _, _, _, _, _, _, _, hcomm⟩ := stepMain_control hs
      rcases hcomm with heq | heq | ⟨heq, _⟩ | ⟨heq, _⟩
      · exact Or.inl (heq ▸ hwaiting)
      · exact absurd (heq ▸ hwaiting) (comm_not_waiting s.comm block)
      · rw [heq] at hwaiting
        cases hwaiting
      · rw [heq] at hwaiting
        cases hwaiting
  | comm ok =>
      simp only [System.step, System.stepComm] at hs
      repeat' split at hs
      all_goals cases hs
      all_goals first
        | exact Or.inr (CommPc.waiting.inj hwaiting)
        | cases hwaiting
  | commWake wake =>
      obtain ⟨waited, _, rfl⟩ := wakeComm_eq hs
      cases hwaiting
  | device mallocOk createOk level =>
      obtain ⟨_, _, _, _, hcomm⟩ := stepDevice_control hs
      rcases hcomm with heq | heq
      · exact Or.inl (heq ▸ hwaiting)
      · exact absurd (heq ▸ hwaiting) (comm_not_waiting s.comm block)
  | deviceWake wake =>
      obtain ⟨_, rfl⟩ := wakeDevice_eq hs
      exact Or.inl hwaiting
  | interrupt | hangUp socket | libraries devices =>
      cases hs
      exact Or.inl hwaiting
  | arrive socket chunk =>
      simp only [System.step] at hs
      repeat' split at hs
      all_goals cases hs
      exact Or.inl hwaiting

theorem dispatched_kept {s s' : System} {a : Action} (hs : s.step a = some s') {block : Nat}
    (h : block ∈ s.dispatched.map Prod.fst) {queued dropped : List Nat}
    (hledger : Ledger s queued dropped) : block ∈ s'.dispatched.map Prod.fst := by
  cases step_blocks hs with
  | same hsame => rwa [hsame.dispatched]
  | push _ _ _ _ hdispatched | pop _ _ _ _ _ _ hdispatched | free _ _ _ _ _ hdispatched
  | clean _ _ _ hdispatched => rwa [hdispatched]
  | popNull hne hpop =>
      exact absurd hpop (hledger.pop_some hne)
  | dispatch _ _ _ _ _ _ _ _ hdispatched =>
      rw [hdispatched, List.map_append]
      exact List.mem_append_left _ h

/-- A command whose response has been published is never waited for again. -/
theorem not_waiting_of_published {server_ip : Bytes} {s t : System} {block : Nat}
    (ht : (serverMachine server_ip).Reachable t) (hpublished : t.responseFor = some block)
    (hrun : (serverMachine server_ip).Reaches t s) : s.comm ≠ .waiting block := by
  have hinv := signalled_of_reachable ht
  refine (hrun.invariant (I := fun u => (serverMachine server_ip).Reachable u ∧
    block ∈ u.dispatched.map Prod.fst ∧ u.comm ≠ .waiting block) ?_ ?_).2.2
  · refine ⟨ht, hinv.known block hpublished, ?_⟩
    intro hwaiting
    exact hinv.comm block hwaiting hpublished
  · rintro u a u' - ⟨hu, hdispatched, hnot⟩ - hs
    obtain ⟨queued, dropped, hledger⟩ := ledger_of_reachable hu
    refine ⟨hu.step trivial hs, dispatched_kept hs hdispatched hledger, ?_⟩
    intro hwaiting
    rcases waiting_of_step hs hwaiting with hold | hnew
    · exact hnot hold
    · have hlt := hledger.dispatched_lt hdispatched
      omega

/-! ## The result -/

/-- The device thread is not in its wait set while a command is queued, and the
communication thread is not in its own for a command whose response has been
published at any time before. Each critical section of `queue_mutex` being one
step, this covers all states in which the mutex is free. -/
theorem no_lost_wakeup {server_ip : Bytes} {s : System}
    (h : (serverMachine server_ip).Reachable s) :
    ¬ (s.device = .waiting ∧ queueIsEmpty s.cmd_queue = false) ∧
      ∀ t block, (serverMachine server_ip).Reachable t → (serverMachine server_ip).Reaches t s →
        t.responseFor = some block → s.comm ≠ .waiting block := by
  refine ⟨?_, ?_⟩
  · rintro ⟨hwaiting, hqueued⟩
    rw [(signalled_of_reachable h).device hwaiting] at hqueued
    cases hqueued
  · intro t block ht hrun hpublished
    exact not_waiting_of_published ht hpublished hrun

/-- Monitoring has been switched on, and the device thread polls the sensor in the middle of
its wait while a command is pushed for which nobody is in a wait set. -/
theorem pushed_during_sensor_poll :
    ∃ s, (serverMachine []).Reachable s ∧ s.device = .sensorInWait ∧ s.comm = .waiting 1 ∧
      queueIsEmpty s.cmd_queue = false ∧
      ¬ (s.device = .waiting ∧ queueIsEmpty s.cmd_queue = false) := by
  have hrun : (((serverMachine []).exec (System.init [])
      (connect ++ pushLine (text "6 0 0\n") ++ deviceSteps 9 ++ commSteps 5 ++ deviceSteps 3 ++
        [Action.deviceWake .timeout] ++ deviceSteps 2 ++ pushLine (text "1 0 0\n"))).any fun s =>
        s.device = .sensorInWait ∧ s.comm = .waiting 1 ∧ queueIsEmpty s.cmd_queue = false) =
      true := by decide +kernel
  obtain ⟨s, hreach, hfacts⟩ := Machine.Reachable.exists_of_exec hrun
  obtain ⟨hdevice, hcomm, hqueued⟩ := of_decide_eq_true hfacts
  exact ⟨s, hreach, hdevice, hcomm, hqueued, (no_lost_wakeup hreach).1⟩

end RsvpControl.Server
