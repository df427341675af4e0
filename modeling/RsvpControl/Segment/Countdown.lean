import RsvpControl.Core.Machine

/-! # The countdown threads and the segment handlers

`seg7_counting` detaches one thread for each countdown; the threads share the
library flag `is_counting` under `counting_mutex`, and the server keeps its own
`segment_counting` under `state_mutex`. A step is one critical section or one
of the unlocked actions between them, so every interleaving of the device
thread's handlers with the counting threads and their callbacks is a run. A
sleep is a program point at which a thread may stay as long as it likes.
-/

namespace RsvpControl.Segment

open RsvpControl.Core

/-! ## Program points -/

inductive CountingPc where
  /-- About to test `is_counting`. -/
  | check (i : Nat)
  | output (i : Nat)
  | sleeping (i : Nat)
  /-- Past the loop, about to clear `is_counting`. -/
  | finish
  /-- `is_counting` cleared, the callback not yet started. -/
  | callback
  /-- In the callback, about to clear `segment_counting`. -/
  | clearing
  /-- In the callback, about to start the school bell. -/
  | playing
  | done
deriving DecidableEq, Repr

inductive DevicePc where
  | idle
  /-- `process_segment_display` past its range check. -/
  | displayTest (start_seconds : Int)
  /-- `seg7_counting` before its test and set of `is_counting`. -/
  | countingTest (start_seconds : Int)
  /-- `seg7_counting` before its allocation and thread creation. -/
  | countingCreate (start_seconds : Int)
  | countingUndo
  | displayUndo
  /-- `process_segment_stop` before it reads `segment_counting`. -/
  | stopRead
  /-- `seg7_stop_counting` before its critical section. -/
  | stopClear
  | stopSleep
  | stopAnswer
deriving DecidableEq, Repr

structure State where
  is_counting : Bool
  segment_counting : Bool
  /-- The counting threads, in order of creation. -/
  threads : List CountingPc
  device : DevicePc
  /-- Digits written to the display, each with the thread that wrote it. -/
  written : List (Nat × Nat)
  /-- Countdowns whose callback has been started, in order. -/
  callbacks : List Nat
  /-- Countdowns that a stop found in progress and whose stop has been answered
  with success. -/
  stopped : List Nat
deriving DecidableEq, Repr

inductive Action where
  /-- The device thread takes a command of this kind. -/
  | display (param1 : Int)
  | stop
  /-- Its next step inside the handler; `created` is the joint outcome of the
  allocation and the thread creation, where the step has them. -/
  | device (created : Bool)
  /-- The next step of a counting thread. -/
  | thread (t : Nat)
deriving DecidableEq, Repr

/-! ## Counting threads -/

/-- The control flow of `counting_thread_func` and of the callback it ends
with. -/
def CountingPc.next (is_counting : Bool) : CountingPc → Option CountingPc
  | .check i => some (if is_counting then .output i else .done)
  | .output i => some (if 0 < i then .sleeping i else .finish)
  | .sleeping i => some (.check (i - 1))
  | .finish => some .callback
  | .callback => some .clearing
  | .clearing => some .playing
  | .playing => some .done
  | .done => none

def State.runThread (s : State) (t : Nat) : Option State := do
  let pc ← s.threads[t]?
  let pc' ← pc.next s.is_counting
  some { s with
    threads := s.threads.set t pc'
    is_counting := if pc = .finish then false else s.is_counting
    segment_counting := if pc = .clearing then false else s.segment_counting
    written := match pc with
      | .output i => s.written ++ [(t, i)]
      | _ => s.written
    callbacks := if pc = .callback then s.callbacks ++ [t] else s.callbacks }

/-! ## The device thread -/

/-- The countdown started last is the one a stop refers to. -/
def State.latest (s : State) : List Nat :=
  match s.threads.length with
  | 0 => []
  | t + 1 => [t]

def State.runDevice (s : State) (created : Bool) : Option State :=
  match s.device with
  | .idle => none
  | .displayTest start_seconds =>
      if s.segment_counting then some { s with device := .idle }
      else some { s with segment_counting := true, device := .countingTest start_seconds }
  | .countingTest start_seconds =>
      if start_seconds < 0 ∨ start_seconds > 9 then some { s with device := .displayUndo }
      else if s.is_counting then some { s with device := .displayUndo }
      else some { s with is_counting := true, device := .countingCreate start_seconds }
  | .countingCreate start_seconds =>
      if created then
        some { s with threads := s.threads ++ [.check start_seconds.toNat], device := .idle }
      else some { s with device := .countingUndo }
  | .countingUndo => some { s with is_counting := false, device := .displayUndo }
  | .displayUndo => some { s with segment_counting := false, device := .idle }
  | .stopRead =>
      if s.segment_counting then some { s with device := .stopClear }
      else some { s with device := .idle }
  | .stopClear =>
      if s.is_counting then some { s with is_counting := false, device := .stopSleep }
      else some { s with device := .stopAnswer }
  | .stopSleep => some { s with device := .stopAnswer }
  | .stopAnswer =>
      some { s with segment_counting := false, device := .idle, stopped := s.stopped ++ s.latest }

def State.step (s : State) : Action → Option State
  | .display param1 =>
      if s.device = .idle then
        if param1 < 1 ∨ param1 > 9 then some s else some { s with device := .displayTest param1 }
      else none
  | .stop => if s.device = .idle then some { s with device := .stopRead } else none
  | .device created => s.runDevice created
  | .thread t => s.runThread t

def init : State := ⟨false, false, [], .idle, [], [], []⟩

def countdownMachine : Machine State Action := ⟨init, State.step⟩

/-! ## Inversion -/

theorem runThread_spec {s s' : State} {t : Nat} (h : s.runThread t = some s') :
    ∃ pc pc', s.threads[t]? = some pc ∧ pc.next s.is_counting = some pc' ∧
      s'.threads = s.threads.set t pc' ∧
      s'.is_counting = (if pc = .finish then false else s.is_counting) ∧
      s'.segment_counting = (if pc = .clearing then false else s.segment_counting) ∧
      s'.callbacks = (if pc = .callback then s.callbacks ++ [t] else s.callbacks) ∧
      s'.device = s.device ∧ s'.stopped = s.stopped := by
  unfold State.runThread at h
  cases hpc : s.threads[t]? with
  | none => simp [hpc] at h
  | some pc =>
      cases hnext : pc.next s.is_counting with
      | none => simp [hpc, hnext] at h
      | some pc' =>
          simp only [hpc, hnext, Option.bind_eq_bind, Option.bind_some, Option.some.injEq] at h
          subst h
          exact ⟨pc, pc', rfl, hnext, rfl, rfl, rfl, rfl, rfl, rfl⟩

theorem thread_step {s : State} {t : Nat} {pc pc' : CountingPc} (hpc : s.threads[t]? = some pc)
    (hnext : pc.next s.is_counting = some pc') :
    ∃ s', countdownMachine.step s (.thread t) = some s' ∧ s'.threads[t]? = some pc' ∧
      s'.threads = s.threads.set t pc' ∧
      s'.is_counting = (if pc = .finish then false else s.is_counting) ∧
      s'.segment_counting = (if pc = .clearing then false else s.segment_counting) ∧
      s'.callbacks = (if pc = .callback then s.callbacks ++ [t] else s.callbacks) ∧
      s'.device = s.device := by
  cases hs : s.runThread t with
  | none => simp [State.runThread, hpc, hnext] at hs
  | some s' =>
      rcases runThread_spec hs with
        ⟨pcu, pcu', hpcu, hnextu, hthreads, hcount, hseg, hcallbacks, hdevice, _⟩
      rw [hpc, Option.some.injEq] at hpcu
      subst hpcu
      rw [hnext, Option.some.injEq] at hnextu
      subst hnextu
      have hlt : t < s.threads.length := (List.getElem?_eq_some_iff.mp hpc).1
      exact ⟨s', hs, by rw [hthreads, List.getElem?_set_self hlt], hthreads, hcount, hseg,
        hcallbacks, hdevice⟩

end RsvpControl.Segment
