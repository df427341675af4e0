import RsvpControl.Core.Population
import RsvpControl.Segment.Countdown

/-! # Counting threads during `server_cleanup`

Counting threads are detached. `server_cleanup` joins the device thread, stops the
countdown through the flag and destroys `state_mutex`, without knowing whether a
counting thread is still between its last test of the flag and the end of its
callback. What keeps it quiet is that none is there when `seg7_cleanup` returns
and when the mutex is destroyed.
-/

namespace RsvpControl.Segment

open RsvpControl.Core

/-! ## The machine -/

inductive CleanupPc where
  /-- The device thread is not joined yet. -/
  | serving
  /-- The cleanups of light sensor, LED and buzzer. -/
  | otherDevices
  /-- The critical section of `seg7_stop_counting` inside `seg7_cleanup`. -/
  | seg7Stop
  | seg7Sleep
  | seg7Low
  | seg7Return
  | destroyConds
  | destroyState
  | destroyQueue
  | returned
  /-- The process has ended, and with it every thread. -/
  | exited
deriving DecidableEq, Repr

structure Closing where
  counting : State
  cleanup : CleanupPc
  /-- Threads that locked `state_mutex` and wrote `segment_counting` after the
  mutex was destroyed. -/
  lockedLate : List Nat
  /-- Threads that wrote the display pins after `seg7_cleanup` returned. -/
  wroteLate : List Nat
deriving DecidableEq, Repr

inductive ClosingAction where
  /-- A step of the counting threads or of the device thread's segment handlers. -/
  | counting (a : Action)
  | cleanup
deriving DecidableEq, Repr

def CleanupPc.next (is_counting : Bool) : CleanupPc → Option CleanupPc
  | .serving => some .otherDevices
  | .otherDevices => some .seg7Stop
  | .seg7Stop => some (if is_counting then .seg7Sleep else .seg7Low)
  | .seg7Sleep => some .seg7Low
  | .seg7Low => some .seg7Return
  | .seg7Return => some .destroyConds
  | .destroyConds => some .destroyState
  | .destroyState => some .destroyQueue
  | .destroyQueue => some .returned
  | .returned => some .exited
  | .exited => none

def CleanupPc.seg7Cleaned : CleanupPc → Bool
  | .destroyConds | .destroyState | .destroyQueue | .returned | .exited => true
  | _ => false

def CleanupPc.stateDestroyed : CleanupPc → Bool
  | .destroyQueue | .returned | .exited => true
  | _ => false

def CountingPc.writing : CountingPc → Bool
  | .output _ => true
  | _ => false

/-- The steps the process can take: only counting threads survive the join of the
device thread. -/
def Closing.admits (s : Closing) : Action → Bool
  | .thread _ => s.cleanup != .exited
  | _ => s.cleanup == .serving

def State.threadAt (s : State) (t : Nat) (test : CountingPc → Bool) : Bool :=
  (s.threads[t]?).any test

def Closing.logged (s : Closing) (late : Bool) (test : CountingPc → Bool) : Action → List Nat
  | .thread t => if late && s.counting.threadAt t test then [t] else []
  | _ => []

def Closing.step (s : Closing) : ClosingAction → Option Closing
  | .counting a =>
      if s.admits a then
        match s.counting.step a with
        | none => none
        | some counting =>
            some { s with
              counting := counting
              lockedLate :=
                s.lockedLate ++ s.logged s.cleanup.stateDestroyed (· == .clearing) a
              wroteLate :=
                s.wroteLate ++ s.logged s.cleanup.seg7Cleaned CountingPc.writing a }
      else none
  | .cleanup =>
      if s.cleanup = .serving ∧ s.counting.device ≠ .idle then none
      else
        match s.cleanup.next s.counting.is_counting with
        | none => none
        | some pc =>
            some { s with
              cleanup := pc
              counting :=
                if s.cleanup = .seg7Stop then { s.counting with is_counting := false }
                else s.counting }

def closingMachine : Machine Closing ClosingAction := ⟨⟨init, .serving, [], []⟩, Closing.step⟩

/-! ## The condition -/

/-- Past the last test of `is_counting` and not yet through the critical section of
the callback. -/
def CountingPc.toLock : CountingPc → Bool
  | .output 0 => true
  | .finish => true
  | .callback => true
  | .clearing => true
  | _ => false

/-- `seg7_cleanup` returns with no thread between its test and its digit, and
`state_mutex` is destroyed with no thread on its way to the callback's lock. -/
def Closing.settled (s : Closing) : ClosingAction → Bool
  | .cleanup =>
      match s.cleanup with
      | .seg7Return => s.counting.threads.all fun pc => !pc.writing
      | .destroyState => s.counting.threads.all fun pc => !pc.toLock
      | _ => true
  | .counting _ => true

/-! ## The invariant -/

def CleanupPc.countingStopped : CleanupPc → Bool
  | .serving | .otherDevices | .seg7Stop => false
  | _ => true

structure Settled (s : Closing) : Prop where
  stopped : s.cleanup.countingStopped = true → s.counting.is_counting = false
  pins : s.cleanup.seg7Cleaned = true → ∀ pc ∈ s.counting.threads, pc.writing = false
  lock : s.cleanup.stateDestroyed = true → ∀ pc ∈ s.counting.threads, pc.toLock = false
  lockedLate : s.lockedLate = []
  wroteLate : s.wroteLate = []

theorem settled_init : Settled closingMachine.start where
  stopped h := by cases h
  pins h := by cases h
  lock h := by cases h
  lockedLate := rfl
  wroteLate := rfl

/-- With the flag clear no thread gets to a digit again. -/
theorem next_stopped {pc pc' : CountingPc} (h : pc.next false = some pc') :
    (pc.writing = false → pc'.writing = false) ∧
      (pc.writing = false → pc.toLock = false → pc'.toLock = false) := by
  cases pc <;> simp_all [CountingPc.next, CountingPc.writing, CountingPc.toLock]
  all_goals subst h
  all_goals simp

theorem seg7Cleaned_of_destroyed {pc : CleanupPc} (h : pc.stateDestroyed = true) :
    pc.seg7Cleaned = true := by
  cases pc <;> simp_all [CleanupPc.stateDestroyed, CleanupPc.seg7Cleaned]

theorem stopped_of_cleaned {pc : CleanupPc} (h : pc.seg7Cleaned = true) :
    pc.countingStopped = true := by
  cases pc <;> simp_all [CleanupPc.countingStopped, CleanupPc.seg7Cleaned]

theorem serving_of_admits {s : Closing} {a : Action} (h : s.admits a = true)
    (ha : ∀ t, a ≠ .thread t) : s.cleanup = .serving := by
  cases a with
  | thread t => exact absurd rfl (ha t)
  | _ => simpa [Closing.admits] using h

theorem logged_eq_nil {s : Closing} {late : Bool} {test : CountingPc → Bool} {a : Action}
    (h : late = true → ∀ pc ∈ s.counting.threads, test pc = false) :
    s.logged late test a = [] := by
  cases a with
  | thread t =>
      cases hlog : late && s.counting.threadAt t test with
      | false => simp [Closing.logged, hlog]
      | true =>
          rw [State.threadAt, Bool.and_eq_true, Option.any_eq_true] at hlog
          obtain ⟨hlate, pc, hpc, htest⟩ := hlog
          rw [h hlate pc (List.mem_of_getElem? hpc)] at htest
          cases htest
  | _ => rfl

theorem toLock_of_clearing {pc : CountingPc} (h : pc.toLock = false) :
    (pc == .clearing) = false := by
  cases pc <;> simp_all [CountingPc.toLock]

theorem Settled.runThread {s : Closing} {counting : State} {t : Nat} (h : Settled s)
    (hs : s.counting.runThread t = some counting) :
    (s.cleanup.countingStopped = true → counting.is_counting = false) ∧
      (s.cleanup.seg7Cleaned = true → ∀ pc ∈ counting.threads, pc.writing = false) ∧
      (s.cleanup.stateDestroyed = true → ∀ pc ∈ counting.threads, pc.toLock = false) := by
  obtain ⟨pc, pc', hpc, hnext, hthreads, hcount, _⟩ := runThread_spec hs
  have hmem := List.mem_of_getElem? hpc
  have hcases : ∀ q ∈ counting.threads, q = pc' ∨ q ∈ s.counting.threads := by
    intro q hq
    rw [hthreads] at hq
    rcases List.mem_or_eq_of_mem_set hq with hold | heq
    · exact Or.inr hold
    · exact Or.inl heq
  refine ⟨?_, ?_, ?_⟩
  · intro hstopped
    rw [hcount, h.stopped hstopped]
    simp
  · intro hcleaned q hq
    rw [h.stopped (stopped_of_cleaned hcleaned)] at hnext
    rcases hcases q hq with rfl | hold
    · exact (next_stopped hnext).1 (h.pins hcleaned pc hmem)
    · exact h.pins hcleaned q hold
  · intro hdestroyed q hq
    have hcleaned := seg7Cleaned_of_destroyed hdestroyed
    rw [h.stopped (stopped_of_cleaned hcleaned)] at hnext
    rcases hcases q hq with rfl | hold
    · exact (next_stopped hnext).2 (h.pins hcleaned pc hmem) (h.lock hdestroyed pc hmem)
    · exact h.lock hdestroyed q hold

theorem Settled.stepCounting {s s' : Closing} {a : Action} (h : Settled s)
    (hs : s.step (.counting a) = some s') : Settled s' := by
  simp only [Closing.step] at hs
  split at hs
  · next hadmits =>
      split at hs
      · cases hs
      · next counting hstep =>
          cases hs
          have hlocked := @logged_eq_nil s s.cleanup.stateDestroyed (· == .clearing) a
            fun hlate pc hpc => toLock_of_clearing (h.lock hlate pc hpc)
          have hwrote := @logged_eq_nil s s.cleanup.seg7Cleaned CountingPc.writing a h.pins
          have hlogs : s.lockedLate ++ s.logged s.cleanup.stateDestroyed (· == .clearing) a = [] ∧
              s.wroteLate ++ s.logged s.cleanup.seg7Cleaned CountingPc.writing a = [] := by
            rw [h.lockedLate, h.wroteLate, hlocked, hwrote]
            exact ⟨rfl, rfl⟩
          by_cases hthread : ∃ t, a = .thread t
          · obtain ⟨t, rfl⟩ := hthread
            obtain ⟨hstopped, hpins, hlock⟩ := h.runThread hstep
            exact ⟨hstopped, hpins, hlock, hlogs.1, hlogs.2⟩
          · have hserving := serving_of_admits hadmits fun t heq => hthread ⟨t, heq⟩
            refine ⟨?_, ?_, ?_, hlogs.1, hlogs.2⟩
            all_goals
              rw [hserving]
              intro hfalse
              cases hfalse
  · cases hs

theorem Settled.stepCleanup {s s' : Closing} (h : Settled s) (ha : s.settled .cleanup = true)
    (hs : s.step .cleanup = some s') : Settled s' := by
  simp only [Closing.step] at hs
  split at hs
  · cases hs
  · cases hpc : s.cleanup with
    | seg7Return =>
        have hall : ∀ pc ∈ s.counting.threads, pc.writing = false := by
          simpa [Closing.settled, hpc] using ha
        simp only [hpc, CleanupPc.next, Option.some.injEq] at hs
        subst hs
        exact ⟨fun _ => h.stopped (by rw [hpc]; rfl), fun _ => hall,
          fun hfalse => (nomatch hfalse), h.lockedLate, h.wroteLate⟩
    | destroyState =>
        have hall : ∀ pc ∈ s.counting.threads, pc.toLock = false := by
          simpa [Closing.settled, hpc] using ha
        simp only [hpc, CleanupPc.next, Option.some.injEq] at hs
        subst hs
        exact ⟨fun _ => h.stopped (by rw [hpc]; rfl), fun _ => h.pins (by rw [hpc]; rfl),
          fun _ => hall, h.lockedLate, h.wroteLate⟩
    | seg7Stop =>
        simp only [hpc, CleanupPc.next, Option.some.injEq] at hs
        subst hs
        refine ⟨fun _ => rfl, ?_, ?_, h.lockedLate, h.wroteLate⟩
        all_goals
          intro hfalse
          simp only at hfalse
          split at hfalse <;> cases hfalse
    | serving | otherDevices =>
        simp only [hpc, CleanupPc.next, Option.some.injEq] at hs
        subst hs
        exact ⟨fun hfalse => (nomatch hfalse), fun hfalse => (nomatch hfalse),
          fun hfalse => (nomatch hfalse), h.lockedLate, h.wroteLate⟩
    | seg7Sleep | seg7Low =>
        simp only [hpc, CleanupPc.next, Option.some.injEq] at hs
        subst hs
        exact ⟨fun _ => h.stopped (by rw [hpc]; rfl), fun hfalse => (nomatch hfalse),
          fun hfalse => (nomatch hfalse), h.lockedLate, h.wroteLate⟩
    | destroyConds =>
        simp only [hpc, CleanupPc.next, Option.some.injEq] at hs
        subst hs
        exact ⟨fun _ => h.stopped (by rw [hpc]; rfl), fun _ => h.pins (by rw [hpc]; rfl),
          fun hfalse => (nomatch hfalse), h.lockedLate, h.wroteLate⟩
    | destroyQueue | returned =>
        simp only [hpc, CleanupPc.next, Option.some.injEq] at hs
        subst hs
        exact ⟨fun _ => h.stopped (by rw [hpc]; rfl), fun _ => h.pins (by rw [hpc]; rfl),
          fun _ => h.lock (by rw [hpc]; rfl), h.lockedLate, h.wroteLate⟩
    | exited => simp [hpc, CleanupPc.next] at hs

theorem settled_of_reachable {s : Closing}
    (h : closingMachine.ReachableUnder (fun s a => s.settled a = true) s) : Settled s := by
  refine h.invariant settled_init ?_
  intro t a t' _ hinv ha hs
  cases a with
  | counting a => exact hinv.stepCounting hs
  | cleanup => exact hinv.stepCleanup ha hs

/-! ## What an unsettled cleanup leads to -/

def Closing.Quiet (s : Closing) : Prop := s.lockedLate = [] ∧ s.wroteLate = []

theorem closing_thread_step {s : Closing} {t : Nat} {pc pc' : CountingPc}
    (halive : s.cleanup ≠ .exited) (hpc : s.counting.threads[t]? = some pc)
    (hnext : pc.next s.counting.is_counting = some pc') :
    ∃ s', closingMachine.step s (.counting (.thread t)) = some s' ∧
      s'.counting.threads[t]? = some pc' ∧ s'.cleanup = s.cleanup ∧
      s'.lockedLate =
        s.lockedLate ++ (if s.cleanup.stateDestroyed && pc == .clearing then [t] else []) ∧
      s'.wroteLate =
        s.wroteLate ++ (if s.cleanup.seg7Cleaned && pc.writing then [t] else []) := by
  obtain ⟨counting, hs, hpc', _⟩ := thread_step hpc hnext
  have hstep : s.counting.step (.thread t) = some counting := hs
  have hadmits : s.admits (.thread t) = true := by simp [Closing.admits, halive]
  refine ⟨{ s with
    counting := counting
    lockedLate :=
      s.lockedLate ++ s.logged s.cleanup.stateDestroyed (· == .clearing) (.thread t)
    wroteLate := s.wroteLate ++ s.logged s.cleanup.seg7Cleaned CountingPc.writing (.thread t) },
    by simp [closingMachine, Closing.step, hadmits, hstep], hpc', rfl, ?_, ?_⟩
  · simp [Closing.logged, State.threadAt, hpc]
  · simp [Closing.logged, State.threadAt, hpc]

theorem locks_late {s : Closing} {t : Nat} {pc : CountingPc} (halive : s.cleanup ≠ .exited)
    (hdestroyed : s.cleanup.stateDestroyed = true) (hpc : s.counting.threads[t]? = some pc)
    (hlock : pc.toLock = true) :
    ∃ s', closingMachine.Reaches s s' ∧ s'.lockedLate ≠ [] := by
  have hclearing : ∀ u : Closing, u.cleanup = s.cleanup →
      u.counting.threads[t]? = some .clearing →
      ∃ s', closingMachine.Reaches u s' ∧ s'.lockedLate ≠ [] := by
    intro u hcleanup hu
    obtain ⟨s', hs, _, _, hlocked, _⟩ := closing_thread_step (hcleanup ▸ halive) hu rfl
    refine ⟨s', Machine.Reaches.of_step _ hs, ?_⟩
    simp [hlocked, hcleanup, hdestroyed]
  -- each earlier point reaches the next one by a step of the thread
  have hback : ∀ (pc pc' : CountingPc) (u : Closing), u.cleanup = s.cleanup →
      u.counting.threads[t]? = some pc → (∀ is_counting, pc.next is_counting = some pc') →
      (∀ v : Closing, v.cleanup = s.cleanup → v.counting.threads[t]? = some pc' →
        ∃ s', closingMachine.Reaches v s' ∧ s'.lockedLate ≠ []) →
      ∃ s', closingMachine.Reaches u s' ∧ s'.lockedLate ≠ [] := by
    intro pc pc' u hcleanup hu hnext hrest
    obtain ⟨v, hv, hpcv, hcleanupv, _⟩ := closing_thread_step (hcleanup ▸ halive) hu (hnext _)
    obtain ⟨s', hrun, hlate⟩ := hrest v (hcleanupv.trans hcleanup) hpcv
    exact ⟨s', (Machine.Reaches.of_step _ hv).trans hrun, hlate⟩
  have hcallback := fun u hc hu => hback .callback .clearing u hc hu (fun _ => rfl) hclearing
  have hfinish := fun u hc hu => hback .finish .callback u hc hu (fun _ => rfl) hcallback
  have houtput := fun u hc hu => hback (.output 0) .finish u hc hu (fun _ => rfl) hfinish
  cases pc with
  | output i =>
      cases i with
      | zero => exact houtput s rfl hpc
      | succ i => cases hlock
  | finish => exact hfinish s rfl hpc
  | callback => exact hcallback s rfl hpc
  | clearing => exact hclearing s rfl hpc
  | _ => cases hlock

theorem late_of_unsettled {s s' : Closing} {a : ClosingAction}
    (hs : closingMachine.step s a = some s') (ha : s.settled a = false) :
    ∃ s'', closingMachine.Reaches s' s'' ∧ ¬ s''.Quiet := by
  cases a with
  | counting a => cases ha
  | cleanup =>
      simp only [closingMachine, Closing.step] at hs
      split at hs
      · cases hs
      · cases hpc : s.cleanup with
        | seg7Return =>
            obtain ⟨pc, hmem, hwriting⟩ : ∃ pc ∈ s.counting.threads, pc.writing = true := by
              simpa [Closing.settled, hpc] using ha
            obtain ⟨t, ht⟩ := List.mem_iff_getElem?.mp hmem
            simp only [hpc, CleanupPc.next, Option.some.injEq] at hs
            subst hs
            have hnext : ∃ pc', pc.next s.counting.is_counting = some pc' := by
              cases pc <;> simp_all [CountingPc.writing, CountingPc.next]
            obtain ⟨pc', hnext⟩ := hnext
            obtain ⟨s'', hs'', _, _, _, hwrote⟩ := @closing_thread_step
              { s with cleanup := .destroyConds, counting := s.counting } t pc pc' (by simp) ht
              hnext
            refine ⟨s'', Machine.Reaches.of_step _ hs'', ?_⟩
            rintro ⟨-, hquiet⟩
            rw [hwrote] at hquiet
            simp [CleanupPc.seg7Cleaned, hwriting] at hquiet
        | destroyState =>
            obtain ⟨pc, hmem, hlock⟩ : ∃ pc ∈ s.counting.threads, pc.toLock = true := by
              simpa [Closing.settled, hpc] using ha
            obtain ⟨t, ht⟩ := List.mem_iff_getElem?.mp hmem
            simp only [hpc, CleanupPc.next, Option.some.injEq] at hs
            subst hs
            obtain ⟨s'', hrun, hlate⟩ := @locks_late
              { s with cleanup := .destroyQueue, counting := s.counting } t pc (by simp) rfl ht
              hlock
            exact ⟨s'', hrun, fun hquiet => hlate hquiet.1⟩
        | _ => simp [Closing.settled, hpc] at ha

/-! ## The result -/

/-- As long as `seg7_cleanup` returns with no counting thread about to write and
`state_mutex` is destroyed with none on its way to the callback's lock, no thread
touches the mutex, the state or the pins afterwards. A cleanup that does not wait
for this can be followed by such an access. -/
theorem shutdown_quiescent {s : Closing}
    (h : closingMachine.ReachableUnder (fun s a => s.settled a = true) s) :
    s.Quiet ∧ ∀ a s', closingMachine.step s a = some s' → s.settled a = false →
      ∃ s'', closingMachine.Reaches s' s'' ∧ ¬ s''.Quiet := by
  have hsettled := settled_of_reachable h
  refine ⟨⟨hsettled.lockedLate, hsettled.wroteLate⟩, ?_⟩
  intro a s' hs ha
  exact late_of_unsettled hs ha

def lastDigit : List ClosingAction :=
  [ClosingAction.counting (.display 1)] ++
    List.replicate 3 (ClosingAction.counting (.device true)) ++
    List.replicate 4 (ClosingAction.counting (.thread 0))

/-- The countdown ends with its callback before the cleanup. -/
theorem quiet_after_callback :
    ∃ s, closingMachine.Reachable s ∧ s.cleanup = .exited ∧ s.counting.callbacks = [0] ∧
      s.Quiet := by
  have hrun : ((closingMachine.execUnder Closing.settled closingMachine.start
      (lastDigit ++ List.replicate 5 (ClosingAction.counting (.thread 0)) ++
        List.replicate 9 ClosingAction.cleanup)).any fun s =>
        s.cleanup = .exited ∧ s.counting.callbacks = [0]) = true := by decide +kernel
  obtain ⟨s, hreach, hfacts⟩ := Machine.ReachableUnder.exists_of_exec hrun
  obtain ⟨hexited, hcallbacks⟩ := of_decide_eq_true hfacts
  exact ⟨s, hreach.reachable, hexited, hcallbacks, (shutdown_quiescent hreach).1⟩

/-- A thread past its last test writes the pins after `seg7_cleanup` and locks the
destroyed `state_mutex` in its callback. -/
theorem callback_after_destroy : ¬ ∀ s, closingMachine.Reachable s → s.Quiet := by
  intro h
  have hrun : ((closingMachine.exec closingMachine.start
      (lastDigit ++ List.replicate 6 ClosingAction.cleanup ++
        [ClosingAction.counting (.thread 0)] ++ List.replicate 2 ClosingAction.cleanup ++
        List.replicate 3 (ClosingAction.counting (.thread 0)))).any fun s =>
        s.wroteLate = [0] ∧ s.lockedLate = [0]) = true := by decide +kernel
  obtain ⟨s, hreach, hfacts⟩ := Machine.Reachable.exists_of_exec hrun
  obtain ⟨hwrote, -⟩ := of_decide_eq_true hfacts
  have hquiet := (h s hreach).2
  rw [hwrote] at hquiet
  cases hquiet

end RsvpControl.Segment
