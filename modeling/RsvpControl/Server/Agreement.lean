import RsvpControl.Server.Mutex
import RsvpControl.Server.Ownership

/-! # Responses and the commands they answer

There is one response slot and the wait for it has no predicate, so what the
communication thread reads after a wait with result 0 is whatever was published
last. It is the response to the command pushed in the same iteration as long as
no response to an older command is published during the wait and the wait does
not end by itself.
-/

namespace RsvpControl.Server

open RsvpControl.Core Device

/-! ## The condition -/

/-- A response is published during a wait only if it is the one waited for, and
the wait ends without a signal only when that response is about to be published
under the mutex. -/
def System.signalsTimely (s : System) : Action → Bool
  | .commWake .spurious =>
      match s.comm, s.device with
      | .waiting block, .publish published _ => published == block
      | .waiting _, _ => false
      | _, _ => true
  | .device _ _ _ =>
      match s.device, s.comm with
      | .publish published _, .waiting block => published == block
      | _, _ => true
  | _ => true

/-! ## The invariant -/

/-- The block whose response the thread is waiting for or has been woken for. -/
def CommPc.awaiting : CommPc → Option Nat
  | .waiting block => some block
  | .woken block _ => some block
  | .collect block _ => some block
  | _ => none

/-- The device thread has a command whose response is still to be published. -/
def DevicePc.unpublished : DevicePc → Bool
  | .dispatch _ => true
  | .publishLock _ _ => true
  | .publish _ _ => true
  | _ => false

structure Exchange (s : System) : Prop where
  last : ∀ a, s.comm.awaiting = some a → (s.pushed.map Prod.fst).getLast? = some a
  known : ∀ a, s.responseFor = some a → a ∈ s.dispatched.map Prod.fst
  waiting : ∀ a, s.comm = .waiting a → s.responseFor ≠ some a
  woken : ∀ a, s.comm = .woken a true → queueIsEmpty s.cmd_queue = true ∧
    ((s.responseFor = some a ∧ s.device.unpublished = false) ∨ ∃ r, s.device = .publish a r)
  collect : ∀ a, s.comm = .collect a true → s.responseFor = some a
  answered : ∀ r ∈ s.answered, r.computedFor = some r.pushed

theorem exchange_init (server_ip : Bytes) : Exchange (System.init server_ip) where
  last a h := by cases h
  known a h := by cases h
  waiting a h := by cases h
  woken a h := by cases h
  collect a h := by cases h
  answered r h := by cases h

theorem Exchange.of_idle {s s' : System} (h : Exchange s) (hcomm : s'.comm.awaiting = none)
    (hfor : s'.responseFor = s.responseFor) (hdispatched : s'.dispatched = s.dispatched)
    (hanswered : ∀ r ∈ s'.answered, r.computedFor = some r.pushed) : Exchange s' := by
  refine ⟨?_, by rw [hfor, hdispatched]; exact h.known, ?_, ?_, ?_, hanswered⟩
  · intro a ha
    rw [hcomm] at ha
    cases ha
  · intro a ha
    simp [ha, CommPc.awaiting] at hcomm
  · intro a ha
    simp [ha, CommPc.awaiting] at hcomm
  · intro a ha
    simp [ha, CommPc.awaiting] at hcomm

theorem Exchange.of_frame {s s' : System} (h : Exchange s) (hcomm : s'.comm = s.comm)
    (hpushed : s'.pushed = s.pushed) (hdispatched : s.dispatched <+: s'.dispatched)
    (hfor : s'.responseFor = s.responseFor) (hanswered : s'.answered = s.answered)
    (hqueue : s'.cmd_queue = s.cmd_queue)
    (hunpublished : s.device.unpublished = false → s'.device.unpublished = false)
    (hpublish : ∀ a r, s.device = .publish a r → s'.device = .publish a r) : Exchange s' := by
  refine ⟨?_, ?_, ?_, ?_, ?_, ?_⟩
  · rw [hcomm, hpushed]
    exact h.last
  · rw [hfor]
    intro a ha
    exact (hdispatched.map Prod.fst).subset (h.known a ha)
  · rw [hcomm, hfor]
    exact h.waiting
  · rw [hcomm, hfor, hqueue]
    intro a ha
    rcases h.woken a ha with ⟨hempty, ⟨hmine, hnone⟩ | ⟨r, hdevice⟩⟩
    · exact ⟨hempty, Or.inl ⟨hmine, hunpublished hnone⟩⟩
    · exact ⟨hempty, Or.inr ⟨r, hpublish a r hdevice⟩⟩
  · rw [hcomm, hfor]
    exact h.collect
  · rw [hanswered]
    exact h.answered

/-! ## What the ledger says about a wait -/

/-- When the response awaited is the one about to be published, nothing else is
queued. -/
theorem Ledger.empty_of_publish {s : System} {queued dropped : List Nat}
    (h : Ledger s queued dropped) {a : Nat} {r : CommandResponse}
    (hlast : (s.pushed.map Prod.fst).getLast? = some a) (hdevice : s.device = .publish a r) :
    queueIsEmpty s.cmd_queue = true := by
  have hexecuted := h.executed a (by rw [hdevice]; rfl)
  have hnodup := h.nodup
  obtain ⟨rest, hpushed, hrest⟩ := h.order
  rw [hdevice] at hrest hnodup
  rw [h.represents.isEmpty_iff]
  rw [hpushed, List.map_append, hrest] at hlast
  simp only [DevicePc.custody, Custody.undispatched, List.nil_append] at hlast hnodup
  by_contra hne
  have hrestNe : queued ++ dropped ≠ [] := fun heq => hne (List.append_eq_nil_iff.mp heq).1
  -- the last command pushed would be dispatched and outstanding at once
  rw [List.getLast?_append_of_ne_nil _ hrestNe] at hlast
  have hmem := List.mem_of_getLast? hlast
  exact (List.nodup_append.mp hnodup).2.2 a (List.mem_of_getLast? hexecuted) a hmem rfl

theorem Ledger.dispatched_lt {s : System} {queued dropped : List Nat}
    (h : Ledger s queued dropped) {a : Nat} (ha : a ∈ s.dispatched.map Prod.fst) :
    a < s.heap.length := by
  obtain ⟨rest, hpushed, _⟩ := h.order
  rw [← List.mem_range, ← h.names, hpushed, List.map_append]
  exact List.mem_append_left _ ha

/-! ## Steps -/

theorem Exchange.stepMain {s s' : System} {accepted : Accepted} {ok : Bool} (h : Exchange s)
    (hsession : SessionInv s) (hs : s.stepMain accepted ok = some s') : Exchange s' := by
  obtain ⟨_, hanswered, _, hfor, hdispatched, _, _, _, hcomm⟩ := stepMain_control hs
  apply h.of_idle ?_ hfor hdispatched (by rw [hanswered]; exact h.answered)
  by_cases habsent : s.comm = .absent
  · rcases hcomm with heq | heq | ⟨heq, _⟩ | ⟨heq, _⟩
    · rw [heq, habsent]
      rfl
    · rw [heq, habsent]
      rfl
    · rw [heq]
      rfl
    · rw [heq]
      rfl
  · simp only [System.stepMain, hsession.joining.mp habsent] at hs
    split at hs <;> cases hs
    rfl

theorem Exchange.stepComm {s s' : System} {ok : Bool} (h : Exchange s) (hmutex : MutexInv s)
    (hledger : ∃ queued dropped, Ledger s queued dropped) (hs : s.stepComm ok = some s') :
    Exchange s' := by
  obtain ⟨queued, dropped, hledger⟩ := hledger
  unfold System.stepComm at hs
  cases hcomm : s.comm with
  | push cmd =>
      simp only [hcomm] at hs
      split at hs
      · cases hs
        refine ⟨?_, h.known, ?_, fun a ha => (by cases ha), fun a ha => (by cases ha), h.answered⟩
        · intro a ha
          rw [List.map_append, List.map_cons, List.map_nil, List.getLast?_concat]
          exact ha
        · intro a ha hfor
          cases ha
          exact Nat.lt_irrefl _ (hledger.dispatched_lt (h.known _ hfor))
      · cases hs
        exact h.of_idle rfl rfl rfl h.answered
  | woken block inTime =>
      simp only [hcomm] at hs
      split at hs
      · next hfree =>
          cases hs
          have hlast := h.last block (by rw [hcomm]; rfl)
          refine ⟨fun a ha => by cases ha; exact hlast, h.known, fun a ha => (by cases ha),
            fun a ha => (by cases ha), ?_, h.answered⟩
          intro a ha
          cases ha
          rcases (h.woken block hcomm).2 with ⟨hmine, _⟩ | ⟨r, hdevice⟩
          · exact hmine
          · -- the device thread cannot be publishing while the mutex is free
            have hheld := hmutex.device.mpr (by rw [hdevice]; rfl)
            rw [hfree] at hheld
            cases hheld
      · cases hs
  | collect block inTime =>
      simp only [hcomm] at hs
      split at hs
      · next hin =>
          cases hs
          subst hin
          refine h.of_idle rfl rfl rfl ?_
          intro r hr
          rcases List.mem_append.mp hr with hr | hr
          · exact h.answered r hr
          · rw [List.mem_singleton.mp hr]
            exact h.collect block hcomm
      · cases hs
        exact h.of_idle rfl rfl rfl h.answered
  | _ =>
      simp only [hcomm] at hs
      repeat' split at hs
      all_goals cases hs
      all_goals
        exact h.of_idle rfl rfl rfl h.answered

/-- The response goes to the thread that waits for it: a signal moves on no other, and
one that was woken before finds its own. -/
theorem Exchange.publish {s : System} {mallocOk createOk : Bool} {level : Int}
    {queued dropped : List Nat} {block : Nat} {response : CommandResponse} (h : Exchange s)
    (hmutex : MutexInv s) (hledger : Ledger s queued dropped)
    (hok : s.signalsTimely (.device mallocOk createOk level) = true)
    (hdevice : s.device = .publish block response) :
    Exchange { s.signalResponse with
      response := response
      responseFor := some block
      queue_mutex := none
      device := .freeCmd block } := by
  have hheld := hmutex.device.mpr (by rw [hdevice]; rfl)
  have hexecuted := hledger.executed block (by rw [hdevice]; rfl)
  have hknown : block ∈ s.dispatched.map Prod.fst := List.mem_of_getLast? hexecuted
  have hsignalled : ∀ a, s.comm.signalled = .woken a true →
      a = block ∧ queueIsEmpty s.cmd_queue = true := by
    intro a ha
    cases hcomm : s.comm with
    | waiting b =>
        rw [hcomm] at ha
        cases ha
        have hmine : block = a := by simpa [System.signalsTimely, hdevice, hcomm] using hok
        subst hmine
        exact ⟨rfl, hledger.empty_of_publish (h.last block (by rw [hcomm]; rfl)) hdevice⟩
    | woken b inTime =>
        rw [hcomm] at ha
        cases ha
        rcases h.woken a hcomm with ⟨hempty, ⟨_, hno⟩ | ⟨r, hp⟩⟩
        · rw [hdevice] at hno
          cases hno
        · rw [hdevice] at hp
          cases hp
          exact ⟨rfl, hempty⟩
    | _ =>
        rw [hcomm] at ha
        cases ha
  refine ⟨?_, ?_, ?_, ?_, ?_, h.answered⟩
  · intro a ha
    apply h.last a
    cases hcomm : s.comm <;> simp_all [System.signalResponse, CommPc.signalled, CommPc.awaiting]
  · intro a ha
    cases ha
    exact hknown
  · intro a ha
    have hne : s.comm.signalled ≠ .waiting a := by
      cases s.comm <;> simp [CommPc.signalled]
    exact absurd ha hne
  · intro a ha
    obtain ⟨rfl, hempty⟩ := hsignalled a ha
    exact ⟨hempty, Or.inl ⟨rfl, rfl⟩⟩
  · intro a ha
    -- the mutex is with the device thread
    have hcollect : s.comm.holding = true := by
      rw [← holding_commSignalled]
      have hpc : s.comm.signalled = .collect a true := ha
      rw [hpc]
      rfl
    rw [hmutex.comm.mpr hcollect] at hheld
    cases hheld

theorem Exchange.stepDevice {s s' : System} {mallocOk createOk : Bool} {level : Int}
    (h : Exchange s) (hmutex : MutexInv s)
    (hledger : ∃ queued dropped, Ledger s queued dropped)
    (hok : s.signalsTimely (.device mallocOk createOk level) = true)
    (hs : s.stepDevice mallocOk createOk level = some s') : Exchange s' := by
  obtain ⟨queued, dropped, hledger⟩ := hledger
  unfold System.stepDevice at hs
  cases hdevice : s.device with
  | head =>
      simp only [hdevice] at hs
      split at hs
      · cases hs
        exact h.of_frame rfl rfl List.prefix_rfl rfl rfl rfl (fun _ => rfl)
          (fun a r hp => by rw [hdevice] at hp; cases hp)
      · next htest =>
          split at hs
          · cases hs
            exact h.of_frame rfl rfl List.prefix_rfl rfl rfl rfl (fun _ => rfl)
              (fun a r hp => by rw [hdevice] at hp; cases hp)
          · next hrunning =>
              -- a thread woken in time has left the queue empty
              have hnotwoken : ∀ a, s.comm ≠ .woken a true := by
                intro a ha
                have hempty := (h.woken a ha).1
                simp [hempty, hrunning] at htest
              split at hs <;>
                (cases hs
                 exact ⟨h.last, h.known, h.waiting, fun a ha => absurd ha (hnotwoken a), h.collect,
                   h.answered⟩)
  | dispatch block =>
      simp only [hdevice] at hs
      split at hs
      · cases hs
      · cases hs
        exact h.of_frame rfl rfl (List.prefix_append _ _) rfl rfl rfl
          (fun hno => by rw [hdevice] at hno; cases hno)
          (fun a r hp => by rw [hdevice] at hp; cases hp)
  | publish block response =>
      simp only [hdevice, Option.some.injEq] at hs
      subst hs
      exact h.publish hmutex hledger hok hdevice
  | publishLock block response =>
      simp only [hdevice] at hs
      split at hs <;> cases hs
      exact h.of_frame rfl rfl List.prefix_rfl rfl rfl rfl
        (fun hno => by rw [hdevice] at hno; cases hno)
        (fun a r hp => by rw [hdevice] at hp; cases hp)
  | _ =>
      simp only [hdevice] at hs
      repeat' split at hs
      all_goals cases hs
      all_goals
        exact h.of_frame rfl rfl List.prefix_rfl rfl rfl rfl (fun _ => rfl)
          (fun a r hp => by rw [hdevice] at hp; cases hp)

theorem Exchange.step {s s' : System} {a : Action} (h : Exchange s) (hsession : SessionInv s)
    (hmutex : MutexInv s) (hledger : ∃ queued dropped, Ledger s queued dropped)
    (hok : s.signalsTimely a = true) (hs : s.step a = some s') : Exchange s' := by
  cases a with
  | main accepted ok => exact h.stepMain hsession hs
  | comm ok => exact h.stepComm hmutex hledger hs
  | commWake wake =>
      obtain ⟨block, hcomm, rfl⟩ := wakeComm_eq hs
      have hlast := h.last block (by rw [hcomm]; rfl)
      refine ⟨fun a ha => by cases ha; exact hlast, h.known, fun a ha => (by cases ha), ?_,
        fun a ha => (by cases ha), h.answered⟩
      intro a ha
      cases wake with
      | timeout => cases ha
      | spurious =>
          cases ha
          cases hdevice : s.device with
          | publish published r =>
              have hmine : published = block := by
                simpa [System.signalsTimely, hcomm, hdevice] using hok
              subst hmine
              obtain ⟨queued, dropped, hledger⟩ := hledger
              exact ⟨hledger.empty_of_publish hlast hdevice, Or.inr ⟨r, rfl⟩⟩
          | _ => simp [System.signalsTimely, hcomm, hdevice] at hok
  | device mallocOk createOk level => exact h.stepDevice hmutex hledger hok hs
  | deviceWake wake =>
      obtain ⟨hdevice, rfl⟩ := wakeDevice_eq hs
      exact h.of_frame rfl rfl List.prefix_rfl rfl rfl rfl (fun _ => rfl)
        (fun a r hp => by rw [hdevice] at hp; cases hp)
  | interrupt | hangUp socket | libraries devices =>
      cases hs
      exact h.of_frame rfl rfl List.prefix_rfl rfl rfl rfl id (fun _ _ hp => hp)
  | arrive socket chunk =>
      simp only [System.step] at hs
      split at hs
      · cases hs
      · split at hs <;> cases hs
        exact h.of_frame rfl rfl List.prefix_rfl rfl rfl rfl id (fun _ _ hp => hp)

theorem exchange_of_reachable {server_ip : Bytes} {s : System}
    (h : (serverMachine server_ip).ReachableUnder (fun s a => s.signalsTimely a = true) s) :
    Exchange s := by
  refine h.invariant (exchange_init server_ip) ?_
  intro t a t' ht hinv hok hs
  exact hinv.step (sessionInv_of_reachable ht.reachable) (mutexInv_of_reachable ht.reachable)
    (ledger_of_reachable ht.reachable) hok hs

/-! ## An untimely wake-up -/

/-- The response passed on was not computed from the command just pushed. -/
def System.Mismatched (s : System) : Prop := ∃ r ∈ s.answered, r.computedFor ≠ some r.pushed

section Mismatch

variable {server_ip : Bytes}

theorem mismatch_of_free {s : System} {block : Nat} (hcomm : s.comm = .woken block true)
    (hfor : s.responseFor ≠ some block) (hfree : s.queue_mutex = none) :
    ∃ s', (serverMachine server_ip).Reaches s s' ∧ s'.Mismatched := by
  have hrun : (serverMachine server_ip).exec s [.comm true, .comm true] = some { s with
      answered := s.answered ++ [⟨block, s.responseFor, s.response⟩]
      queue_mutex := none
      comm := .sendResponse s.response } := by
    simp [Machine.exec, serverMachine, System.step, System.stepComm, hcomm, hfree]
  exact ⟨_, Machine.Reaches.of_exec hrun, ⟨block, s.responseFor, s.response⟩, by simp, hfor⟩

theorem mismatch_of_step {s s' : System} {a : Action}
    (hs : (serverMachine server_ip).step s a = some s')
    (h : ∃ s'', (serverMachine server_ip).Reaches s' s'' ∧ s''.Mismatched) :
    ∃ s'', (serverMachine server_ip).Reaches s s'' ∧ s''.Mismatched := by
  obtain ⟨s'', hrun, hwrong⟩ := h
  exact ⟨s'', Relation.ReflTransGen.head ⟨a, trivial, hs⟩ hrun, hwrong⟩

theorem mismatch_of_head {s : System} {block : Nat} (hcomm : s.comm = .woken block true)
    (hfor : s.responseFor ≠ some block) (hdevice : s.device = .head) :
    ∃ s', (serverMachine server_ip).Reaches s s' ∧ s'.Mismatched := by
  have hstep : ∃ s', (serverMachine server_ip).step s (.device true true 0) = some s' ∧
      s'.comm = s.comm ∧ s'.responseFor = s.responseFor ∧ s'.queue_mutex = none := by
    simp only [serverMachine, System.step, System.stepDevice, hdevice]
    split
    · exact ⟨_, rfl, rfl, rfl, rfl⟩
    · split
      · exact ⟨_, rfl, rfl, rfl, rfl⟩
      · split <;> exact ⟨_, rfl, rfl, rfl, rfl⟩
  obtain ⟨t, hs, hcomm', hfor', hfree⟩ := hstep
  exact mismatch_of_step hs
    (mismatch_of_free (hcomm'.trans hcomm) (by rw [hfor']; exact hfor) hfree)

/-- Woken in time with another response in the slot, and not about to get the
right one. -/
theorem mismatch_of_woken {s : System} {block : Nat} (hmutex : MutexInv s)
    (hcomm : s.comm = .woken block true) (hfor : s.responseFor ≠ some block)
    (hdevice : ∀ r, s.device ≠ .publish block r) :
    ∃ s', (serverMachine server_ip).Reaches s s' ∧ s'.Mismatched := by
  cases hheld : s.queue_mutex with
  | none => exact mismatch_of_free hcomm hfor hheld
  | some holder =>
      cases holder with
      | comm =>
          rw [hmutex.comm, hcomm] at hheld
          cases hheld
      | device =>
          rw [hmutex.device] at hheld
          cases hpc : s.device with
          | head => exact mismatch_of_head hcomm hfor hpc
          | sensorTest =>
              cases hmonitoring : s.devices.sensor_monitoring with
              | true =>
                  have hs : (serverMachine server_ip).step s (.device true true 0) =
                      some { s with queue_mutex := none, device := .sensorInWait } := by
                    simp [serverMachine, System.step, System.stepDevice, hpc, hmonitoring]
                  exact mismatch_of_step hs (mismatch_of_free hcomm hfor rfl)
              | false =>
                  have hs : (serverMachine server_ip).step s (.device true true 0) =
                      some { s with device := .head } := by
                    simp [serverMachine, System.step, System.stepDevice, hpc, hmonitoring]
                  exact mismatch_of_step hs (mismatch_of_head hcomm hfor rfl)
          | publish published r =>
              have hs : (serverMachine server_ip).step s (.device true true 0) =
                  some { s.signalResponse with
                    response := r
                    responseFor := some published
                    queue_mutex := none
                    device := .freeCmd published } := by
                simp [serverMachine, System.step, System.stepDevice, hpc]
              have hne : some published ≠ some block := by
                intro heq
                rw [Option.some.injEq] at heq
                exact hdevice r (heq ▸ hpc)
              have hcomm' : s.comm.signalled = .woken block true := by rw [hcomm]; rfl
              exact mismatch_of_step hs (mismatch_of_free hcomm' hne rfl)
          | _ =>
              rw [hpc] at hheld
              cases hheld

/-- After a wake-up the condition does not allow a wrong response can be passed on. -/
theorem Exchange.mismatch_of_untimely {s s' : System} {a : Action} (h : Exchange s)
    (hmutex : MutexInv s) (hsession : SessionInv s) (hbad : s.signalsTimely a = false)
    (hs : (serverMachine server_ip).step s a = some s') :
    ∃ s'', (serverMachine server_ip).Reaches s' s'' ∧ s''.Mismatched := by
  have hmutex' : MutexInv s' := hmutex.step hsession hs
  cases a with
  | commWake wake =>
      cases wake with
      | timeout => cases hbad
      | spurious =>
          obtain ⟨block, hcomm, rfl⟩ := wakeComm_eq hs
          refine mismatch_of_woken hmutex' rfl (h.waiting block hcomm) ?_
          intro r hdevice
          have hpc : s.device = .publish block r := hdevice
          simp [System.signalsTimely, hcomm, hpc] at hbad
  | device mallocOk createOk level =>
      cases hpc : s.device with
      | publish published r =>
          cases hcomm : s.comm with
          | waiting block =>
              have hne : some published ≠ some block := by
                simpa [System.signalsTimely, hpc, hcomm] using hbad
              simp only [serverMachine, System.step, System.stepDevice, hpc,
                Option.some.injEq] at hs
              subst hs
              have hwoken : s.comm.signalled = .woken block true := by rw [hcomm]; rfl
              exact mismatch_of_free hwoken hne rfl
          | _ => simp [System.signalsTimely, hpc, hcomm] at hbad
      | _ => simp [System.signalsTimely, hpc] at hbad
  | _ => cases hbad

end Mismatch

/-! ## The result -/

/-- As long as no response to an older command is published during a wait and no
wait ends by itself, every response passed to `send_response` was computed from the
command pushed in the same iteration. After each step the condition excludes a
wrong response can be passed on. -/
theorem responses_agree {server_ip : Bytes} {s : System}
    (h : (serverMachine server_ip).ReachableUnder (fun s a => s.signalsTimely a = true) s) :
    (∀ r ∈ s.answered, r.computedFor = some r.pushed) ∧
      (∀ a s', (serverMachine server_ip).step s a = some s' → s.signalsTimely a = false →
        ∃ s'', (serverMachine server_ip).Reaches s' s'' ∧ s''.Mismatched) := by
  have hexchange := exchange_of_reachable h
  refine ⟨hexchange.answered, ?_⟩
  intro a s' hs hbad
  exact hexchange.mismatch_of_untimely (mutexInv_of_reachable h.reachable)
    (sessionInv_of_reachable h.reachable) hbad hs

/-- One command served without delay. -/
theorem response_agrees_when_prompt :
    ∃ s r, (serverMachine []).Reachable s ∧ s.answered = [r] ∧ r.computedFor = some r.pushed := by
  have hrun : (((serverMachine []).execUnder System.signalsTimely (System.init [])
      (connect ++ pushLine (text "1 0 0\n") ++ deviceSteps 6 ++ commSteps 2)).any
      fun s => s.answered = [⟨0, some 0, ⟨0, text "LED turned ON", 0⟩⟩]) = true := by
    decide +kernel
  obtain ⟨s, hreach, hfacts⟩ := Machine.ReachableUnder.exists_of_exec hrun
  have hanswered : s.answered = [⟨0, some 0, ⟨0, text "LED turned ON", 0⟩⟩] :=
    of_decide_eq_true hfacts
  have hagree := (responses_agree hreach).1
  exact ⟨s, _, hreach.reachable, hanswered, hagree _ (by simp [hanswered])⟩

/-- The first command times out while the device thread is still busy with it; its
late response is taken for the answer to the second. -/
theorem late_response_answers_next_command :
    ∃ s, (serverMachine []).Reachable s ∧ s.pushed = [(0, ⟨.ledOn, 0, 0⟩), (1, ⟨.ledOff, 0, 0⟩)] ∧
      s.answered = [⟨1, some 0, ⟨0, text "LED turned ON", 0⟩⟩] := by
  have hrun : (((serverMachine []).exec (System.init [])
      (connect ++ pushLine (text "1 0 0\n") ++ deviceSteps 4 ++ [Action.commWake .timeout] ++
        commSteps 5 ++ pushLine (text "2 0 0\n") ++ deviceSteps 2 ++ commSteps 2)).any fun s =>
        s.pushed = [(0, ⟨.ledOn, 0, 0⟩), (1, ⟨.ledOff, 0, 0⟩)] ∧
          s.answered = [⟨1, some 0, ⟨0, text "LED turned ON", 0⟩⟩]) = true := by decide +kernel
  obtain ⟨s, hreach, hfacts⟩ := Machine.Reachable.exists_of_exec hrun
  exact ⟨s, hreach, of_decide_eq_true hfacts⟩

end RsvpControl.Server
