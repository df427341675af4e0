import RsvpControl.Core.Progress
import RsvpControl.Server.Shutdown
import RsvpControl.Server.Timeouts

/-! # The device thread works the queue off

While the server runs, every ten steps of the device thread take one command off what
has been submitted, however the sessions and the libraries run in between; and the
device thread is kept from its next step only by a session that is about to release
`queue_mutex`.
-/

namespace RsvpControl.Server

open RsvpControl.Core

/-! ## The measure -/

def Action.byDevice : Action → Bool
  | .device _ _ _ | .deviceWake _ => true
  | _ => false

/-- A bound on the steps to the next dispatch when something is queued. -/
def DevicePc.turn (pc : DevicePc) : Nat :=
  match pc with
  | .dispatch _ => 0
  | pc => pc.toHead + 1

/-- A bound on the steps of the device thread to the dispatch of the first `n` commands. -/
def System.backlog (n : Nat) (s : System) : Nat :=
  if s.server_running = false ∨ n ≤ s.dispatched.length then 0
  else 10 * (n - s.dispatched.length) + s.device.turn

theorem turn_le (pc : DevicePc) : pc.turn ≤ 8 := by
  cases pc <;> simp [DevicePc.turn, DevicePc.toHead]

theorem turn_signalled (pc : DevicePc) : pc.signalled.turn ≤ pc.turn := by
  cases pc <;> simp [DevicePc.signalled, DevicePc.turn, DevicePc.toHead]

/-! ## Steps -/

section Steps

variable {s s' : System} {queued dropped : List Nat} {n : Nat}

theorem Ledger.dispatched_prefix (h : Ledger s queued dropped) : s.dispatched <+: s.pushed := by
  obtain ⟨rest, hpushed, -⟩ := h.order
  exact ⟨rest, hpushed.symm⟩

theorem Ledger.undropped_running (h : Ledger s queued dropped) (hsession : SessionInv s)
    (hmutex : MutexInv s) (hrunning : s.server_running = true) : dropped = [] := by
  refine h.undropped ?_
  cases hcleaned : s.main.cleaned with
  | false => rfl
  | true =>
      have hjoined : s.main.deviceJoined = true := by
        cases hmain : s.main <;> rw [hmain] at hcleaned <;> first | rfl | cases hcleaned
      have hstopped := hmutex.running (hsession.device hjoined)
      rw [hrunning] at hstopped
      cases hstopped

/-- What is outstanding and not with the device thread is queued. -/
theorem Ledger.queued_of_outstanding (h : Ledger s queued dropped) (hdropped : dropped = [])
    (hnothing : s.device.custody.undispatched = []) (hn : n ≤ s.pushed.length)
    (hleft : s.dispatched.length < n) : queued ≠ [] := by
  rintro rfl
  obtain ⟨rest, hpushed, hrest⟩ := h.order
  rw [hnothing, hdropped] at hrest
  have hempty : rest = [] := List.map_eq_nil_iff.mp hrest
  rw [hpushed, hempty, List.append_nil] at hn
  omega

theorem step_others {a : Action} (hs : s.step a = some s') (ha : a.byDevice = false) :
    s'.dispatched = s.dispatched ∧ (s'.device = s.device ∨ s'.device = s.device.signalled) := by
  cases a with
  | main accepted ok =>
      obtain ⟨-, -, -, -, hdispatched, -, -, hdevice, -⟩ := stepMain_control hs
      exact ⟨hdispatched, hdevice⟩
  | comm ok =>
      refine ⟨?_, (stepComm_control hs).2.2.1⟩
      revert hs
      simp only [System.step]
      fun_cases System.stepComm s ok
      all_goals intro hs
      all_goals cases hs
      all_goals rfl
  | commWake wake =>
      obtain ⟨_, _, rfl⟩ := wakeComm_eq hs
      exact ⟨rfl, .inl rfl⟩
  | device mallocOk createOk level | deviceWake wake => cases ha
  | interrupt | libraries devices | hangUp socket =>
      cases hs
      exact ⟨rfl, .inl rfl⟩
  | arrive socket chunk =>
      simp only [System.step] at hs
      repeat' split at hs
      all_goals cases hs
      exact ⟨rfl, .inl rfl⟩

theorem dispatched_mono {a : Action} (hs : s.step a = some s') :
    s.dispatched.length ≤ s'.dispatched.length := by
  cases hdevice : a.byDevice with
  | false => rw [(step_others hs hdevice).1]
  | true =>
      cases a with
      | device mallocOk createOk level =>
          revert hs
          simp only [System.step]
          fun_cases System.stepDevice s mallocOk createOk level
          all_goals intro hs
          all_goals cases hs
          all_goals first
            | exact Nat.le_refl _
            | exact Nat.le_of_lt (by simp)
      | deviceWake wake =>
          obtain ⟨_, rfl⟩ := wakeDevice_eq hs
          exact Nat.le_refl _
      | _ => cases hdevice

/-- A step of the device thread while something is outstanding: it dispatches, or it
comes nearer to the next dispatch. -/
theorem stepDevice_nearer (hledger : Ledger s queued dropped) (hdropped : dropped = [])
    (hrunning : s.server_running = true) (hn : n ≤ s.pushed.length)
    (hleft : s.dispatched.length < n) {mallocOk createOk : Bool} {level : Int}
    (hs : s.stepDevice mallocOk createOk level = some s') :
    (∃ entry, s'.dispatched = s.dispatched ++ [entry]) ∧ s.device.turn = 0 ∨
      s'.dispatched = s.dispatched ∧ s'.device.turn < s.device.turn := by
  cases hpc : s.device with
  | head =>
      right
      have hqueued := hledger.queued_of_outstanding hdropped (by rw [hpc]; rfl) hn hleft
      have hne : queueIsEmpty s.cmd_queue = false := by
        rw [Bool.eq_false_iff, Ne, hledger.represents.isEmpty_iff]
        exact hqueued
      simp only [System.stepDevice, hpc, hne, hrunning, Bool.false_and, Bool.false_eq_true,
        Bool.true_eq_false, if_false] at hs
      split at hs
      · cases hs
        exact ⟨rfl, by simp [DevicePc.turn]⟩
      · next hpop =>
          exact absurd (by rw [hpop]) (hledger.pop_some hne)
  | dispatch block =>
      left
      simp only [System.stepDevice, hpc] at hs
      split at hs
      · cases hs
      · cases hs
        exact ⟨⟨_, rfl⟩, rfl⟩
  | _ =>
      right
      simp only [System.stepDevice, hpc, hrunning] at hs
      repeat' split at hs
      all_goals cases hs
      all_goals exact ⟨rfl, by simp [DevicePc.turn, DevicePc.toHead]⟩

theorem backlog_step (hledger : Ledger s queued dropped) (hsession : SessionInv s)
    (hmutex : MutexInv s) (hn : n ≤ s.pushed.length) {a : Action} (hs : s.step a = some s') :
    s'.backlog n ≤ s.backlog n - if a.byDevice then 1 else 0 := by
  by_cases hrunning' : s'.server_running = true
  swap
  · rw [System.backlog, if_pos (.inl (Bool.eq_false_iff.mpr hrunning'))]
    exact Nat.zero_le _
  have hrunning := running_of_step hs hrunning'
  have hdropped := hledger.undropped_running hsession hmutex hrunning
  by_cases hdone : n ≤ s'.dispatched.length
  · rw [System.backlog, if_pos (.inr hdone)]
    exact Nat.zero_le _
  have hbacklog' : s'.backlog n = 10 * (n - s'.dispatched.length) + s'.device.turn := by
    rw [System.backlog, if_neg (by simp [hrunning', hdone])]
  cases hdevice : a.byDevice with
  | false =>
      obtain ⟨hsame, hpc⟩ := step_others hs hdevice
      have hturn : s'.device.turn ≤ s.device.turn := by
        rcases hpc with heq | heq
        · rw [heq]
        · rw [heq]
          exact turn_signalled _
      rw [hsame] at hdone hbacklog'
      rw [hbacklog', System.backlog, if_neg (by simp [hrunning, hdone])]
      simp only [Bool.false_eq_true, if_false]
      omega
  | true =>
      have hmono := dispatched_mono hs
      rw [hbacklog', System.backlog, if_neg (by rw [hrunning]; simp; omega), if_pos rfl]
      cases a with
      | device mallocOk createOk level =>
          have hnearer := stepDevice_nearer hledger hdropped hrunning hn (by omega) hs
          have hturn := turn_le s'.device
          rcases hnearer with ⟨⟨entry, hone⟩, hzero⟩ | ⟨hsame, hless⟩
          · rw [hone, List.length_append, List.length_singleton] at hdone ⊢
            omega
          · rw [hsame] at hdone ⊢
            omega
      | deviceWake wake =>
          obtain ⟨hwaiting, rfl⟩ := wakeDevice_eq hs
          rw [hwaiting]
          simp only [DevicePc.turn, DevicePc.toHead]
          omega
      | _ => cases hdevice

theorem pushed_grows {a : Action} (hledger : Ledger s queued dropped) (hs : s.step a = some s') :
    s.pushed <+: s'.pushed := by
  cases step_blocks hs with
  | same hsame => rw [hsame.pushed]
  | push _ _ _ hpushed =>
      rw [hpushed]
      exact List.prefix_append _ _
  | popNull hne hpop => exact absurd hpop (hledger.pop_some hne)
  | pop _ _ _ _ _ hpushed | dispatch _ _ _ _ _ _ _ hpushed | free _ _ _ _ hpushed
  | clean _ _ hpushed => rw [hpushed]

/-- Only a session that holds `queue_mutex` keeps the device thread from its next step, and
it releases it in its own next step. -/
theorem device_ready (hledger : Ledger s queued dropped) (hmutex : MutexInv s)
    (hrunning : s.server_running = true) :
    (∃ a, a.byDevice = true ∧ (s.step a).isSome = true) ∨
      s.comm.holding = true ∧ ∃ t, s.stepComm true = some t ∧ t.queue_mutex = none := by
  cases hheld : s.comm.holding with
  | true =>
      refine .inr ⟨rfl, ?_⟩
      cases hpc : s.comm with
      | push cmd =>
          simp only [System.stepComm, hpc]
          split <;> exact ⟨_, rfl, rfl⟩
      | collect block inTime =>
          simp only [System.stepComm, hpc]
          split <;> exact ⟨_, rfl, rfl⟩
      | _ =>
          rw [hpc] at hheld
          cases hheld
  | false =>
      have hreturned : s.device ≠ .returned := by
        intro hpc
        have hstopped := hmutex.running hpc
        rw [hrunning] at hstopped
        cases hstopped
      rcases device_moves hmutex hledger hheld hreturned with ⟨s', hs⟩ | ⟨s', hs⟩
      · exact .inl ⟨.device true true 0, rfl, by rw [hs]; rfl⟩
      · exact .inl ⟨.deviceWake .timeout, rfl, by rw [hs]; rfl⟩

end Steps

/-! ## The result -/

/-- Ten steps for each command that can be outstanding. -/
def drainSteps : Nat := 10 * (MAX_QUEUE_SIZE + 1) + 8

section Results

variable {server_ip : Bytes} {s : System}

theorem backlog_le (h : (serverMachine server_ip).Reachable s) :
    s.backlog s.pushed.length ≤ drainSteps := by
  unfold System.backlog
  split
  · exact Nat.zero_le _
  · next hleft =>
      obtain ⟨queued, dropped, hledger⟩ := ledger_of_reachable h
      have hrunning : s.server_running = true := by
        rw [not_or, Bool.not_eq_false] at hleft
        exact hleft.1
      have hdropped := hledger.undropped_running (sessionInv_of_reachable h)
        (mutexInv_of_reachable h) hrunning
      obtain ⟨rest, hpushed, hrest⟩ := hledger.order
      have hlength := congrArg List.length hrest
      have hone : s.device.custody.undispatched.length ≤ 1 := by
        cases s.device.custody <;> simp [Custody.undispatched]
      have hqueued := hledger.represents.length_le
      have hturn := turn_le s.device
      simp only [List.length_map, List.length_append, hdropped, List.length_nil] at hlength
      rw [hpushed, List.length_append]
      unfold drainSteps
      omega

/-- Whatever has been submitted is executed, in its order, within a bounded number of
steps of the device thread, in every run in which the server goes on running; and the
device thread always has a next step, up to one step of a session that is about to
release `queue_mutex`. -/
theorem submitted_commands_execute (h : (serverMachine server_ip).Reachable s) :
    (∀ as t, (serverMachine server_ip).exec s as = some t → t.server_running = true →
      drainSteps ≤ as.countP Action.byDevice → s.pushed <+: t.dispatched) ∧
    (s.server_running = true →
      (∃ a, a.byDevice = true ∧ (s.step a).isSome = true) ∨
        s.comm.holding = true ∧ ∃ t, s.stepComm true = some t ∧ t.queue_mutex = none) := by
  constructor
  · intro as t hrun hrunning hmany
    obtain ⟨⟨ht, hgrown⟩, hzero⟩ := Machine.exec_measure_zero (m := serverMachine server_ip)
      (J := fun u => (serverMachine server_ip).Reachable u ∧ s.pushed <+: u.pushed)
      (μ := System.backlog s.pushed.length) (c := Action.byDevice)
      (by
        rintro u a u' ⟨hu, hprefix⟩ hs
        obtain ⟨queued, dropped, hledger⟩ := ledger_of_reachable hu
        exact ⟨hu.step trivial hs, hprefix.trans (pushed_grows hledger hs)⟩)
      (by
        rintro u a u' ⟨hu, hprefix⟩ hs
        obtain ⟨queued, dropped, hledger⟩ := ledger_of_reachable hu
        exact backlog_step hledger (sessionInv_of_reachable hu) (mutexInv_of_reachable hu)
          hprefix.length_le hs)
      ⟨h, List.prefix_rfl⟩ hrun (Nat.le_trans (backlog_le h) hmany)
    obtain ⟨queued, dropped, hledger⟩ := ledger_of_reachable ht
    refine List.prefix_of_prefix_length_le hgrown hledger.dispatched_prefix ?_
    unfold System.backlog at hzero
    split at hzero
    · next hdone =>
        rcases hdone with hstopped | hdone
        · rw [hrunning] at hstopped
          cases hstopped
        · exact hdone
    · omega
  · intro hrunning
    obtain ⟨queued, dropped, hledger⟩ := ledger_of_reachable h
    exact device_ready hledger (mutexInv_of_reachable h) hrunning

end Results

def idleRound : List Action := .deviceWake .timeout :: deviceSteps 3

/-- A command is executed, and the device thread has nothing more to do for a long run. -/
theorem command_executed :
    ∃ (s t : System) (as : List Action), (serverMachine []).exec s as = some t ∧
      drainSteps ≤ as.countP Action.byDevice ∧ s.pushed = [(0, ⟨.ledOn, 0, 0⟩)] ∧
      s.dispatched = [] ∧ s.pushed <+: t.dispatched := by
  have hrun : ((serverMachine []).exec (System.init [])
      (connect ++ pushLine (text "1 0 0\n"))).any (fun s =>
        decide (s.pushed = [(0, ⟨.ledOn, 0, 0⟩)] ∧ s.dispatched = []) &&
          ((serverMachine []).exec s (deviceSteps 11)).any (fun t =>
            decide (t.server_running = true ∧
              (serverMachine []).exec t idleRound = some t))) = true := by
    decide +kernel
  obtain ⟨s, hreach, hfacts⟩ := Machine.Reachable.exists_of_exec hrun
  obtain ⟨hstart, hrest⟩ := Bool.and_eq_true_iff.mp hfacts
  obtain ⟨hpushed, hdispatched⟩ := of_decide_eq_true hstart
  obtain ⟨t, ht, hidle⟩ := (Option.any_eq_true _ _).mp hrest
  obtain ⟨hrunning, hround⟩ := of_decide_eq_true hidle
  have hexec : (serverMachine []).exec s
      (deviceSteps 11 ++ (List.replicate 260 idleRound).flatten) = some t := by
    rw [Machine.exec_append, ht, Option.bind_some, Machine.exec_repeat hround]
  have hmany : drainSteps ≤
      (deviceSteps 11 ++ (List.replicate 260 idleRound).flatten).countP Action.byDevice := by
    decide +kernel
  exact ⟨s, t, _, hexec, hmany, hpushed, hdispatched,
    (submitted_commands_execute hreach).1 _ t hexec hrunning hmany⟩

end RsvpControl.Server
