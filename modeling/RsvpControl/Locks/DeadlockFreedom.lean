import RsvpControl.Locks.Functions

/-! # No deadlock on mutexes

`state_mutex` is locked inside `queue_mutex`, in the idle loop of the device
thread, and no other mutex inside another. Each body of a thread is checked once;
the rest is the discipline of checked programs, for any number of countdowns and
playbacks. What breaks it is the end of `state_mutex`: counting threads are not joined,
and one that is past its last test of `is_counting` comes to lock the destroyed mutex in
its callback, and then unlocks what it does not hold.
-/

namespace RsvpControl.Locks

open RsvpControl.Core Locking

/-- The order in which mutexes may be taken. -/
def Mutex.rank : Mutex → Nat
  | .queue_mutex => 0
  | .state_mutex => 1
  | .counting_mutex => 2
  | .music_mutex => 3

theorem rank_le_three (m : Mutex) : m.rank ≤ 3 := by
  cases m <;> decide

theorem checked_threadBody (kind : ThreadKind) : Checked Mutex.rank (threadBody kind) := by
  cases kind <;> decide

/-- A playback never locks `state_mutex`, so it may go on when that is destroyed. -/
example : musicPlaybackThread.plain .state_mutex = true := by decide

/-- As long as a mutex is destroyed only when no thread has a lock of it ahead: no cycle of
threads waiting for one another's mutexes, no lock of a mutex the thread holds, no unlock
of one it does not, nothing held at a blocking call, and nothing but its own mutex at a
condition wait; and every function returns with what it was called with. -/
theorem mutexes_disciplined {s : State Mutex Blocking ThreadKind Flag}
    (h : threadsMachine.ReachableUnder (fun s a => s.settled threadBody a = true) s) :
    Disciplined s :=
  (retired_of_reachable checked_threadBody h).locks.disciplined

/-- As long as a mutex is held, some thread that holds one can move. -/
theorem held_mutex_moves {s : State Mutex Blocking ThreadKind Flag}
    (h : threadsMachine.ReachableUnder (fun s a => s.settled threadBody a = true) s)
    {m : Mutex} {t : Nat} (hm : s.holder m = some t) :
    ∃ u m', s.holder m' = some u ∧ ∃ s', threadsMachine.step s (u, true) = some s' :=
  (retired_of_reachable checked_threadBody h).locks.holder_moves threadBody rank_le_three _
    (Nat.le_refl _) hm

/-! ## A countdown at the shutdown -/

def turns (t : Nat) (choices : List (Nat × Bool)) : List (Nat × Bool) :=
  choices.flatMap fun choice => List.replicate choice.1 (t, choice.2)

def countdownStarted : List (Nat × Bool) :=
  turns 0 [(70, false), (1, true), (18, false)] ++
    turns 2 [(4, false), (1, true), (29, false)] ++
    turns 1 [(4, false), (1, true), (24, false), (1, true), (44, false), (1, true), (3, false),
      (1, true), (16, false)] ++
    turns 2 [(2, false), (1, true), (7, false), (1, true), (5, false), (1, true), (13, false)]

/-- The device thread returns and `main` runs `server_cleanup`, up to so many steps past
the sleep of `seg7_stop_counting`. -/
def cleanedUp (rest : Nat) : List (Nat × Bool) :=
  turns 1 [(5, false)] ++
    turns 0 [(16, false), (1, true), (2, false), (1, true), (rest, false)]

/-- The counting thread sleeps through the whole cleanup, then finds `is_counting` clear
and returns. -/
theorem countdown_stopped_in_sleep :
    ∃ s, threadsMachine.Reachable s ∧ s.destroyed .state_mutex = true ∧
      s.joined .main = true ∧ s.joined .counting = true ∧ Disciplined s := by
  have hrun : (threadsMachine.execUnder (State.settled threadBody) threadsMachine.start
      (countdownStarted ++ turns 3 [(4, false), (1, true), (9, false)] ++ cleanedUp 45 ++
        turns 3 [(2, false), (1, true), (9, false)])).any (fun s =>
          s.destroyed .state_mutex && (s.joined .main && s.joined .counting)) = true := by
    decide +kernel
  obtain ⟨s, hreach, hfacts⟩ := Machine.ReachableUnder.exists_of_exec hrun
  simp only [Bool.and_eq_true] at hfacts
  obtain ⟨hdestroyed, hmain, hcounting⟩ := hfacts
  exact ⟨s, hreach.reachable, hdestroyed, hmain, hcounting, mutexes_disciplined hreach⟩

/-- Thread `t` is about to unlock a mutex that it does not hold. -/
def unlocksUnheld (s : State Mutex Blocking ThreadKind Flag) (t : Nat) (m : Mutex) : Bool :=
  match s.threads[t]? with
  | some (.run (.unlock m') :: _) => m' = m && s.holder m ≠ some t
  | _ => false

/-- The counting thread is past its last test when `state_mutex` is destroyed. -/
theorem callback_unlocks_destroyed : ¬ ∀ s, threadsMachine.Reachable s → Disciplined s := by
  intro h
  have hrun : (threadsMachine.exec threadsMachine.start
      (countdownStarted ++ turns 3 [(4, false), (1, true), (20, false)] ++ cleanedUp 38 ++
        turns 3 [(8, false), (1, true), (1, false), (1, true), (5, false)])).any (fun s =>
          !s.joined .main && unlocksUnheld s 3 .state_mutex) = true := by
    decide +kernel
  obtain ⟨s, hreach, hfacts⟩ := Machine.Reachable.exists_of_exec hrun
  obtain ⟨-, hunlocks⟩ := Bool.and_eq_true_iff.mp hfacts
  unfold unlocksUnheld at hunlocks
  split at hunlocks
  · next m' k hk =>
      simp only [Bool.and_eq_true, decide_eq_true_eq] at hunlocks
      obtain ⟨rfl, hnot⟩ := hunlocks
      exact hnot ((h s hreach).unlock 3 _ k hk)
  · cases hunlocks

end RsvpControl.Locks
