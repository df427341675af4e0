import Mathlib.Algebra.GroupWithZero.Nat
import RsvpControl.Core.Progress
import RsvpControl.Segment.Countdown

/-! # The two countdown flags

`segment_counting` follows `is_counting` up to the window in which a finished
countdown has cleared the one and not yet the other. What breaks the coupling
is the clear in the callback: it is unconditional, and a callback that comes
late clears the flag of a countdown started after its own.
-/

namespace RsvpControl.Segment

open RsvpControl.Core

/-! ## Classes of program points -/

/-- `is_counting` cleared and `segment_counting` not yet. -/
def CountingPc.halfCleared : CountingPc → Bool
  | .callback => true
  | .clearing => true
  | _ => false

/-- Between clearing `is_counting` and the end of the callback. -/
def CountingPc.inCallback : CountingPc → Bool
  | .callback => true
  | .clearing => true
  | .playing => true
  | _ => false

/-- The device thread is where the two flags are meant to agree. -/
def DevicePc.settled : DevicePc → Bool
  | .idle => true
  | .displayTest _ => true
  | .countingCreate _ => true
  | .stopRead => true
  | _ => false

/-- The device thread has cleared `is_counting` and not yet `segment_counting`. -/
def DevicePc.undoing : DevicePc → Bool
  | .displayUndo => true
  | .stopSleep => true
  | .stopAnswer => true
  | _ => false

/-- The device thread has set `segment_counting` and not yet `is_counting`. -/
def DevicePc.starting : DevicePc → Bool
  | .countingTest _ => true
  | _ => false

theorem inCallback_of_halfCleared {pc : CountingPc} (h : pc.halfCleared = true) :
    pc.inCallback = true := by
  cases pc <;> simp_all [CountingPc.halfCleared, CountingPc.inCallback]

/-- The half-cleared points are entered from `finish` and left by clearing
`segment_counting`. -/
theorem next_halfCleared {is_counting : Bool} {pc pc' : CountingPc}
    (h : pc.next is_counting = some pc') :
    pc'.halfCleared = true ↔ pc = .finish ∨ pc = .callback := by
  cases pc with
  | check i => cases is_counting <;> (cases h; simp [CountingPc.halfCleared])
  | output i =>
      cases h
      split <;> simp [CountingPc.halfCleared]
  | sleeping i | finish | callback | clearing | playing =>
      cases h
      simp [CountingPc.halfCleared]
  | done => cases h

/-! ## The condition and the invariant -/

/-- A callback clears `segment_counting` neither over a running countdown nor
between the two sets of one that is being started. -/
def State.clearsTimely (s : State) : Action → Bool
  | .thread t =>
      if s.threads[t]? = some .clearing then
        !(s.device.starting || (s.device.settled && s.is_counting))
      else true
  | _ => true

structure Coupled (s : State) : Prop where
  counted : s.device.settled = true → s.is_counting = true → s.segment_counting = true
  pending : s.device.settled = true → s.segment_counting = true → s.is_counting = false →
    ∃ (t : Nat) (pc : CountingPc), s.threads[t]? = some pc ∧ pc.halfCleared = true
  starting : s.device.starting = true → s.is_counting = false ∧ s.segment_counting = true
  undoing : s.device.undoing = true → s.is_counting = false

theorem coupled_init : Coupled init where
  counted _ h := h
  pending _ h _ := by cases h
  starting h := by cases h
  undoing h := by cases h

theorem Coupled.runThread {s s' : State} {t : Nat} (h : Coupled s)
    (hok : s.clearsTimely (.thread t) = true) (hs : s.runThread t = some s') : Coupled s' := by
  rcases runThread_spec hs with
    ⟨pc, pc', hpc, hnext, hthreads, hcount, hseg, _, hdevice, _⟩
  have htimely : pc = .clearing →
      s.device.starting = false ∧ (s.device.settled = true → s.is_counting = false) := by
    rintro rfl
    have htimely : s.device.starting = false ∧
        (s.device.settled = false ∨ s.is_counting = false) := by
      simpa [State.clearsTimely, hpc] using hok
    exact ⟨htimely.1, fun hset => htimely.2.resolve_left (by simp [hset])⟩
  have hcountLe : s'.is_counting = true → s.is_counting = true := by
    rw [hcount]
    split <;> simp
  have hlt : t < s.threads.length := (List.getElem?_eq_some_iff.mp hpc).1
  have hself : s'.threads[t]? = some pc' := by
    rw [hthreads, List.getElem?_set_self hlt]
  have hhalf := next_halfCleared hnext
  refine ⟨?_, ?_, ?_, ?_⟩
  · rw [hdevice]
    intro hset hon
    have hon := hcountLe hon
    rw [hseg]
    by_cases hclear : pc = .clearing
    · rw [(htimely hclear).2 hset] at hon
      cases hon
    · rw [if_neg hclear]
      exact h.counted hset hon
  · rw [hdevice]
    intro hset hsegon hoff
    by_cases hmine : pc = .finish ∨ pc = .callback
    · exact ⟨t, pc', hself, hhalf.mpr hmine⟩
    · have hnotfinish : pc ≠ .finish := fun heq => hmine (Or.inl heq)
      have hnotclear : pc ≠ .clearing := by
        intro heq
        rw [hseg, if_pos heq] at hsegon
        cases hsegon
      rw [hcount, if_neg hnotfinish] at hoff
      rw [hseg, if_neg hnotclear] at hsegon
      obtain ⟨u, pcu, hu, hhalfu⟩ := h.pending hset hsegon hoff
      have hne : t ≠ u := by
        rintro rfl
        rw [hpc, Option.some.injEq] at hu
        subst hu
        cases pc <;> simp_all [CountingPc.halfCleared]
      exact ⟨u, pcu, by rw [hthreads, List.getElem?_set_ne hne]; exact hu, hhalfu⟩
  · rw [hdevice]
    intro hstart
    obtain ⟨hoff, hsegon⟩ := h.starting hstart
    have hnotclear : pc ≠ .clearing := by
      intro heq
      rw [(htimely heq).1] at hstart
      cases hstart
    exact ⟨by rw [hcount, hoff]; simp, by rw [hseg, if_neg hnotclear]; exact hsegon⟩
  · rw [hdevice]
    intro hundo
    rw [hcount, h.undoing hundo]
    simp

theorem Coupled.runDevice {s s' : State} {created : Bool} (h : Coupled s)
    (hs : s.runDevice created = some s') : Coupled s' := by
  unfold State.runDevice at hs
  cases hdev : s.device with
  | idle => simp [hdev] at hs
  | displayTest n =>
      simp only [hdev] at hs
      have hset : s.device.settled = true := by rw [hdev]; rfl
      by_cases hseg : s.segment_counting = true
      · rw [if_pos hseg, Option.some.injEq] at hs
        subst hs
        exact ⟨fun _ => h.counted hset, fun _ => h.pending hset,
          fun hn => (by cases hn), fun hu => (by cases hu)⟩
      · rw [if_neg hseg, Option.some.injEq] at hs
        subst hs
        have hoff : s.is_counting = false := by
          rw [Bool.eq_false_iff]
          exact fun hon => hseg (h.counted hset hon)
        exact ⟨fun hset' => (by cases hset'), fun hset' => (by cases hset'),
          fun _ => ⟨hoff, rfl⟩, fun hu => (by cases hu)⟩
  | countingTest n =>
      simp only [hdev] at hs
      obtain ⟨hoff, hsegon⟩ := h.starting (by rw [hdev]; rfl)
      split at hs
      · cases hs
        exact ⟨fun hset => (by cases hset), fun hset => (by cases hset),
          fun hn => (by cases hn), fun _ => hoff⟩
      · rw [hoff] at hs
        cases hs
        exact ⟨fun _ _ => hsegon, fun _ _ hon => (by cases hon), fun hn => (by cases hn),
          fun hu => (by cases hu)⟩
  | countingCreate n =>
      simp only [hdev] at hs
      have hset : s.device.settled = true := by rw [hdev]; rfl
      split at hs
      · cases hs
        refine ⟨fun _ => h.counted hset, ?_, fun hn => (by cases hn), fun hu => (by cases hu)⟩
        intro _ hsegon hoff
        obtain ⟨t, pc, hpc, hhalf⟩ := h.pending hset hsegon hoff
        have hlt : t < s.threads.length := (List.getElem?_eq_some_iff.mp hpc).1
        exact ⟨t, pc, by rw [List.getElem?_append_left hlt]; exact hpc, hhalf⟩
      · cases hs
        exact ⟨fun hset => (by cases hset), fun hset => (by cases hset),
          fun hn => (by cases hn), fun hu => (by cases hu)⟩
  | countingUndo =>
      simp only [hdev, Option.some.injEq] at hs
      subst hs
      exact ⟨fun hset => (by cases hset), fun hset => (by cases hset),
        fun hn => (by cases hn), fun _ => rfl⟩
  | displayUndo | stopAnswer =>
      simp only [hdev, Option.some.injEq] at hs
      subst hs
      have hoff := h.undoing (by rw [hdev]; rfl)
      exact ⟨fun _ hon => (by rw [hoff] at hon; cases hon), fun _ hon => (by cases hon),
        fun hn => (by cases hn), fun hu => (by cases hu)⟩
  | stopRead =>
      simp only [hdev] at hs
      have hset : s.device.settled = true := by rw [hdev]; rfl
      split at hs
      · cases hs
        exact ⟨fun hset' => (by cases hset'), fun hset' => (by cases hset'),
          fun hn => (by cases hn), fun hu => (by cases hu)⟩
      · cases hs
        exact ⟨fun _ => h.counted hset, fun _ => h.pending hset,
          fun hn => (by cases hn), fun hu => (by cases hu)⟩
  | stopClear =>
      simp only [hdev] at hs
      split at hs
      · cases hs
        exact ⟨fun hset => (by cases hset), fun hset => (by cases hset),
          fun hn => (by cases hn), fun _ => rfl⟩
      · next hoff =>
          cases hs
          exact ⟨fun hset => (by cases hset), fun hset => (by cases hset),
            fun hn => (by cases hn), fun _ => Bool.not_eq_true _ ▸ hoff⟩
  | stopSleep =>
      simp only [hdev, Option.some.injEq] at hs
      subst hs
      exact ⟨fun hset => (by cases hset), fun hset => (by cases hset),
        fun hn => (by cases hn), fun _ => h.undoing (by rw [hdev]; rfl)⟩

theorem Coupled.ofIdle {s : State} (h : Coupled s) (hidle : s.device = .idle) {pc : DevicePc}
    (hset : pc.settled = true) : Coupled { s with device := pc } := by
  have hset' : s.device.settled = true := by rw [hidle]; rfl
  refine ⟨fun _ => h.counted hset', fun _ => h.pending hset', ?_, ?_⟩
  · intro hn
    cases pc <;> simp_all [DevicePc.settled, DevicePc.starting]
  · intro hu
    cases pc <;> simp_all [DevicePc.settled, DevicePc.undoing]

theorem coupled_of_reachable {s : State}
    (h : countdownMachine.ReachableUnder (fun s a => s.clearsTimely a = true) s) : Coupled s := by
  refine h.invariant coupled_init ?_
  intro s a s' _ hc hok hs
  cases a with
  | display param1 =>
      simp only [countdownMachine, State.step] at hs
      split at hs
      · next hidle =>
          split at hs
          · cases hs
            exact hc
          · cases hs
            exact hc.ofIdle hidle rfl
      · cases hs
  | stop =>
      simp only [countdownMachine, State.step] at hs
      split at hs
      · next hidle =>
          cases hs
          exact hc.ofIdle hidle rfl
      · cases hs
  | device created => exact hc.runDevice hs
  | thread t => exact hc.runThread hok hs

/-! ## Flags and stops -/

def State.quiet (s : State) : Bool :=
  s.threads.all fun pc => !pc.inCallback

theorem not_inCallback_of_quiet {s : State} (h : s.quiet = true) {t : Nat} {pc : CountingPc}
    (hpc : s.threads[t]? = some pc) : pc.inCallback = false := by
  simp only [State.quiet, List.all_eq_true, Bool.not_eq_true'] at h
  exact h pc (List.mem_of_getElem? hpc)

theorem Coupled.flags_eq {s : State} (h : Coupled s) (hidle : s.device = .idle)
    (hquiet : s.quiet = true) : s.segment_counting = s.is_counting := by
  have hset : s.device.settled = true := by rw [hidle]; rfl
  cases hon : s.is_counting with
  | true => exact h.counted hset hon
  | false =>
      cases hseg : s.segment_counting with
      | false => rfl
      | true =>
          obtain ⟨t, pc, hpc, hhalf⟩ := h.pending hset hseg hon
          have hbusy := not_inCallback_of_quiet hquiet hpc
          rw [inCallback_of_halfCleared hhalf] at hbusy
          cases hbusy

/-- A stop whose handler reads the flag of a running countdown goes on to clear
`is_counting`. -/
theorem Coupled.stop_proceeds {s : State} (h : Coupled s) (hread : s.device = .stopRead)
    (hcount : s.is_counting = true) (created : Bool) :
    countdownMachine.step s (.device created) = some { s with device := .stopClear } := by
  have hseg := h.counted (by rw [hread]; rfl) hcount
  simp [countdownMachine, State.step, State.runDevice, hread, hseg]

def stopActions : List Action :=
  [.stop, .device true, .device true, .device true, .device true]

theorem exec_stopActions {s : State} (hidle : s.device = .idle) (hcount : s.is_counting = true)
    (hseg : s.segment_counting = true) :
    countdownMachine.exec s stopActions = some { s with
      is_counting := false
      segment_counting := false
      stopped := s.stopped ++ s.latest } := by
  cases s
  simp_all [stopActions, Machine.exec, countdownMachine, State.step, State.runDevice, State.latest]

/-! ## An untimely clear -/

def CountingPc.callbackSteps : CountingPc → Nat
  | .callback => 3
  | .clearing => 2
  | .playing => 1
  | _ => 0

def State.callbackSteps (s : State) : Nat :=
  (s.threads.map CountingPc.callbackSteps).sum

theorem exists_inCallback {s : State} (h : s.quiet = false) :
    ∃ (t : Nat) (pc : CountingPc), s.threads[t]? = some pc ∧ pc.inCallback = true := by
  simp only [State.quiet, List.all_eq_false, Bool.not_eq_true', Bool.not_eq_false] at h
  obtain ⟨pc, hmem, hin⟩ := h
  obtain ⟨t, ht⟩ := List.mem_iff_getElem?.mp hmem
  exact ⟨t, pc, ht, by simpa using hin⟩

/-- All callbacks can run to their end, which touches neither `is_counting` nor
the device thread. -/
theorem reaches_quiet {s : State} (hidle : s.device = .idle) (hseg : s.segment_counting = false) :
    ∃ s', countdownMachine.Reaches s s' ∧ s'.device = .idle ∧ s'.quiet = true ∧
      s'.segment_counting = false ∧ s'.is_counting = s.is_counting := by
  induction hn : s.callbackSteps using Nat.strongRecOn generalizing s with
  | ind n ih =>
      cases hquiet : s.quiet with
      | true => exact ⟨s, Relation.ReflTransGen.refl, hidle, hquiet, hseg, rfl⟩
      | false =>
          obtain ⟨t, pc, hpc, hin⟩ := exists_inCallback hquiet
          have hmove : ∃ pc', pc.next s.is_counting = some pc' ∧ pc ≠ .finish ∧
              pc'.callbackSteps < pc.callbackSteps := by
            cases pc with
            | callback | clearing | playing => exact ⟨_, rfl, by simp, by decide⟩
            | _ => cases hin
          obtain ⟨pc', hnext, hfin, hless⟩ := hmove
          rcases thread_step hpc hnext with
            ⟨s', hs, _, hthreads, hcount, hseg', _, hdevice⟩
          rw [if_neg hfin] at hcount
          have hseg' : s'.segment_counting = false := by
            rw [hseg', hseg]
            simp
          have hsum : ((s.threads.set t pc').map CountingPc.callbackSteps).sum + pc.callbackSteps =
              (s.threads.map CountingPc.callbackSteps).sum + pc'.callbackSteps :=
            sum_map_set hpc _
          have hsteps : s'.callbackSteps < n := by
            rw [← hn, State.callbackSteps, State.callbackSteps, hthreads]
            omega
          rcases ih _ hsteps (hdevice.trans hidle) hseg' rfl with
            ⟨s'', hrun, hidle'', hquiet'', hseg'', hcount''⟩
          exact ⟨s'', Relation.ReflTransGen.head ⟨.thread t, trivial, hs⟩ hrun, hidle'', hquiet'',
            hseg'', hcount''.trans hcount⟩

def Requested (s : State) : Prop :=
  ∀ n, s.device = .displayTest n ∨ s.device = .countingTest n → 1 ≤ n ∧ n ≤ 9

theorem requested_of_reachable {s : State} (h : countdownMachine.Reachable s) : Requested s := by
  refine h.invariant (fun n hn => by rcases hn with hn | hn <;> cases hn) ?_
  intro s a s' hreq hs n hn
  cases a with
  | display param1 =>
      simp only [countdownMachine, State.step] at hs
      split at hs
      · split at hs <;> cases hs
        · exact hreq n hn
        · rcases hn with hn | hn <;> cases hn
          omega
      · cases hs
  | stop =>
      simp only [countdownMachine, State.step] at hs
      split at hs <;> cases hs
      rcases hn with hn | hn <;> cases hn
  | device created =>
      simp only [countdownMachine, State.step, State.runDevice] at hs
      cases hdev : s.device with
      | displayTest m =>
          simp only [hdev] at hs
          split at hs <;> cases hs
          · rcases hn with hn | hn <;> cases hn
          · rcases hn with hn | hn <;> cases hn
            exact hreq n (Or.inl hdev)
      | idle => simp [hdev] at hs
      | countingTest m =>
          simp only [hdev] at hs
          split at hs
          · cases hs
            rcases hn with hn | hn <;> cases hn
          · split at hs <;> cases hs <;> rcases hn with hn | hn <;> cases hn
      | countingCreate m | stopRead | stopClear =>
          simp only [hdev] at hs
          split at hs <;> cases hs <;> rcases hn with hn | hn <;> cases hn
      | countingUndo | displayUndo | stopSleep | stopAnswer =>
          simp only [hdev, Option.some.injEq] at hs
          subst hs
          rcases hn with hn | hn <;> cases hn
  | thread t =>
      obtain ⟨_, _, _, _, _, _, _, _, hdevice, _⟩ := runThread_spec hs
      exact hreq n (hdevice ▸ hn)

/-- From where an untimely clear leaves the device thread, it returns from its
handler with the countdown running and `segment_counting` clear. -/
theorem reaches_running {s : State} (hreq : Requested s) (hseg : s.segment_counting = false)
    (h : (s.device.starting = true ∧ s.is_counting = false) ∨
      (s.device.settled = true ∧ s.is_counting = true)) :
    ∃ s', countdownMachine.Reaches s s' ∧ s'.device = .idle ∧ s'.is_counting = true ∧
      s'.segment_counting = false := by
  obtain ⟨is_counting, segment_counting, threads, device, written, callbacks, stopped⟩ := s
  simp only at h hseg
  subst hseg
  rcases h with ⟨hstart, rfl⟩ | ⟨hset, rfl⟩
  · cases device with
    | countingTest n =>
        have hrange := hreq n (Or.inr rfl)
        have hlow : ¬ n < 0 := by omega
        have hhigh : ¬ 9 < n := by omega
        have hrun : countdownMachine.exec
            ⟨false, false, threads, .countingTest n, written, callbacks, stopped⟩
            [.device true, .device true] =
            some ⟨true, false, threads ++ [.check n.toNat], .idle, written, callbacks, stopped⟩ := by
          simp [Machine.exec, countdownMachine, State.step, State.runDevice, hlow, hhigh]
        exact ⟨_, Machine.Reaches.of_exec hrun, rfl, rfl, rfl⟩
    | _ => cases hstart
  · cases device with
    | idle => exact ⟨_, Relation.ReflTransGen.refl, rfl, rfl, rfl⟩
    | displayTest n =>
        have hrun : countdownMachine.exec
            ⟨true, false, threads, .displayTest n, written, callbacks, stopped⟩
            [.device true, .device true, .device true] =
            some ⟨true, false, threads, .idle, written, callbacks, stopped⟩ := by
          simp [Machine.exec, countdownMachine, State.step, State.runDevice]
        exact ⟨_, Machine.Reaches.of_exec hrun, rfl, rfl, rfl⟩
    | countingCreate n =>
        exact ⟨_, Machine.Reaches.of_step (.device true) rfl, rfl, rfl, rfl⟩
    | stopRead => exact ⟨_, Machine.Reaches.of_step (.device true) rfl, rfl, rfl, rfl⟩
    | _ => cases hset

/-- Outside the segment handlers and the callbacks, with the flags apart. -/
def State.apart (s : State) : Prop :=
  s.device = .idle ∧ s.quiet = true ∧ s.is_counting = true ∧ s.segment_counting = false

/-- After a clear the condition does not allow the flags can come apart. -/
theorem Coupled.apart_of_untimely {s s' : State} {a : Action} (h : Coupled s)
    (hreq : Requested s) (hbad : s.clearsTimely a = false)
    (hs : countdownMachine.step s a = some s') :
    ∃ s'', countdownMachine.Reaches s' s'' ∧ s''.apart := by
  cases a with
  | display param1 | stop | device created => cases hbad
  | thread t =>
      obtain ⟨pc, _, hpc, _, _, hcount, hseg, _, hdevice, _⟩ := runThread_spec hs
      have hclear : pc = .clearing := by
        apply Decidable.byContradiction
        intro hne
        simp [State.clearsTimely, hpc, hne] at hbad
      subst hclear
      rw [if_neg (by simp)] at hcount
      rw [if_pos rfl] at hseg
      have hcase : (s'.device.starting = true ∧ s'.is_counting = false) ∨
          (s'.device.settled = true ∧ s'.is_counting = true) := by
        rw [hdevice, hcount]
        have hwhich : s.device.starting = false →
            s.device.settled = true ∧ s.is_counting = true := by
          simpa [State.clearsTimely, hpc] using hbad
        cases hstart : s.device.starting with
        | true => exact Or.inl ⟨rfl, (h.starting hstart).1⟩
        | false => exact Or.inr (hwhich hstart)
      have hreq' : Requested s' := fun n hn => hreq n (hdevice ▸ hn)
      obtain ⟨t, hrun, hidle, hon, hoff⟩ := reaches_running hreq' hseg hcase
      obtain ⟨s'', hrest, hidle', hquiet, hoff', hon'⟩ := reaches_quiet hidle hoff
      exact ⟨s'', hrun.trans hrest, hidle', hquiet, hon'.trans hon, hoff'⟩

/-! ## The result -/

/-- As long as every callback clears timely, the flags agree whenever the device
thread is outside the segment handlers and no thread is in its callback, and a
running countdown can always be stopped: no stop that finds one is refused, and
from outside the handlers a stop carried through ends it. Each clear the
condition excludes is one after which the flags can come apart. -/
theorem flags_agree_of_timely_clears {s : State}
    (h : countdownMachine.ReachableUnder (fun s a => s.clearsTimely a = true) s) :
    (s.device = .idle → s.quiet = true → s.segment_counting = s.is_counting) ∧
      (s.device = .stopRead → s.is_counting = true → ∀ created,
        countdownMachine.step s (.device created) = some { s with device := .stopClear }) ∧
      (s.device = .idle → s.is_counting = true →
        countdownMachine.exec s stopActions = some { s with
          is_counting := false
          segment_counting := false
          stopped := s.stopped ++ s.latest }) ∧
      (∀ a s', countdownMachine.step s a = some s' → s.clearsTimely a = false →
        ∃ s'', countdownMachine.Reaches s' s'' ∧ s''.apart) := by
  have hcoupled := coupled_of_reachable h
  have hreq := requested_of_reachable h.reachable
  refine ⟨hcoupled.flags_eq, hcoupled.stop_proceeds, ?_,
    fun a s' hs hbad => hcoupled.apart_of_untimely hreq hbad hs⟩
  intro hidle hcount
  exact exec_stopActions hidle hcount (hcoupled.counted (by rw [hidle]; rfl) hcount)

def runToCallback : List Action :=
  [.display 1, .device true, .device true, .device true,
    .thread 0, .thread 0, .thread 0, .thread 0, .thread 0, .thread 0]

def runInTurn : List Action :=
  runToCallback ++ [.thread 0, .thread 0, .thread 0,
    .display 3, .device true, .device true, .device true]

def runOvertaken : List Action :=
  runToCallback ++ [.stop, .device true, .device true, .device true,
    .display 5, .device true, .device true, .device true, .thread 0, .thread 0, .thread 0]

def secondCountdown (start_seconds : Nat) (segment_counting : Bool) (stopped : List Nat) : State where
  is_counting := true
  segment_counting := segment_counting
  threads := [.done, .check start_seconds]
  device := .idle
  written := [(0, 1), (0, 0)]
  callbacks := [0]
  stopped := stopped

theorem flags_agree_in_turn :
    (secondCountdown 3 true []).segment_counting = (secondCountdown 3 true []).is_counting ∧
      ∃ s, countdownMachine.exec (secondCountdown 3 true []) stopActions = some s ∧
        s.is_counting = false ∧ s.stopped = [1] := by
  have hrun : countdownMachine.execUnder State.clearsTimely init runInTurn =
      some (secondCountdown 3 true []) := rfl
  have hagree := flags_agree_of_timely_clears (Machine.ReachesUnder.of_exec hrun)
  exact ⟨hagree.1 rfl rfl, _, hagree.2.2.1 rfl rfl, rfl, rfl⟩

/-- The late clear leaves the new countdown running with `segment_counting`
clear, and the stop that follows is refused. -/
theorem flags_differ_when_overtaken :
    ∃ s, countdownMachine.Reachable s ∧ s.apart ∧
      countdownMachine.exec s [.stop, .device true] = some s := by
  have hrun : countdownMachine.exec init runOvertaken = some (secondCountdown 5 false [0]) := rfl
  exact ⟨_, Machine.Reachable.of_exec hrun, ⟨rfl, rfl, rfl, rfl⟩, rfl⟩

end RsvpControl.Segment
