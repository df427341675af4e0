import RsvpControl.Core.Machine

/-! # The web-server child

`start_web_server` and `stop_web_server` as `main` runs them, with the SIGCHLD
handler that reaps whatever child has exited. The child is reaped once, by
whoever gets to it first; `waitpid` on a reaped child fails, which neither the
start nor the stop tells from a child that is still running.
-/

namespace RsvpControl.Server

open RsvpControl.Core

/-! ## Program points -/

inductive Child where
  | unborn
  | running
  | zombie
  | reaped
deriving DecidableEq, Repr

inductive StopCaller where
  /-- `main`, after a failed creation of the device thread. -/
  | errorPath
  | cleanup
deriving DecidableEq, Repr

inductive StopPc where
  | terminate
  | poll (count : Nat)
  | pause (count : Nat)
  | kill
  | wait
deriving DecidableEq, Repr

inductive WebPc where
  | fork
  /-- The three seconds of `start_web_server`. -/
  | sleep (pid : Int)
  | check (pid : Int)
  | createDevice
  /-- The accept loop and the joins of `server_cleanup`. -/
  | serve
  | cleanup
  | stop (caller : StopCaller) (pid : Int) (pc : StopPc)
  | finished
deriving DecidableEq, Repr

inductive Signal where
  | term
  | kill
deriving DecidableEq, Repr

structure WebServer where
  child : Child
  /-- A SIGCHLD whose handler has not run yet. -/
  pending : Bool
  web_server_pid : Int
  main : WebPc
  /-- `start_web_server` has returned a pid although its child had exited before the
  check. -/
  missedExit : Bool
  /-- Signals sent to the pid of a child that had been reaped. -/
  misdirected : List Signal
deriving DecidableEq, Repr

inductive WebAction where
  /-- The next step of `main`; `ok` is the outcome of its `fork`, its
  `pthread_create`, its `kill` of a reaped pid (the number is in use again) or its
  last `waitpid` (not interrupted), `number` the pid a `fork` hands out. -/
  | main (ok : Bool) (number : Nat)
  /-- The child exits, by itself or of a signal. -/
  | exit
  /-- `sigchld_handler`, in whichever thread. -/
  | handler
deriving DecidableEq, Repr

/-! ## `waitpid` and `kill` -/

inductive WaitResult where
  | reaped
  /-- 0: no change of state. -/
  | running
  /-- -1: no such child. -/
  | failed
deriving DecidableEq, Repr

/-- `waitpid(pid, &status, WNOHANG)`: the child after it and the result. -/
def Child.waitpid : Child → Child × WaitResult
  | .zombie => (.reaped, .reaped)
  | .running => (.running, .running)
  | child => (child, .failed)

def WebServer.signal (s : WebServer) (sig : Signal) : WebServer :=
  { s with misdirected := if s.child = .reaped then s.misdirected ++ [sig] else s.misdirected }

/-! ## `main` -/

def StopCaller.resume : StopCaller → WebPc
  | .errorPath => .cleanup
  | .cleanup => .finished

def WebServer.stepStop (s : WebServer) (caller : StopCaller) (pid : Int) (ok : Bool) :
    StopPc → Option WebServer
  | .terminate =>
      if s.child = .reaped ∧ ok = false then
        some { s.signal .term with main := caller.resume }
      else some { s.signal .term with main := .stop caller pid (.poll 0) }
  | .poll count =>
      if count < 50 then
        match s.child.waitpid with
        | (child, .reaped) => some { s with child := child, main := caller.resume }
        | (child, _) => some { s with child := child, main := .stop caller pid (.pause count) }
      else some { s with main := .stop caller pid .kill }
  | .pause count => some { s with main := .stop caller pid (.poll (count + 1)) }
  | .kill => some { s.signal .kill with main := .stop caller pid .wait }
  | .wait =>
      match s.child.waitpid with
      | (child, .running) =>
          if ok then none else some { s with child := child, main := caller.resume }
      | (child, _) => some { s with child := child, main := caller.resume }

def WebServer.stepMain (s : WebServer) (ok : Bool) (number : Nat) : Option WebServer :=
  match s.main with
  | .fork =>
      if ok then some { s with child := .running, main := .sleep (number + 1) }
      else some { s with web_server_pid := -1, main := .createDevice }
  | .sleep pid => some { s with main := .check pid }
  | .check pid =>
      match s.child.waitpid with
      | (child, .reaped) =>
          some { s with child := child, web_server_pid := -1, main := .createDevice }
      | (child, _) =>
          some { s with
            child := child
            web_server_pid := pid
            missedExit := s.missedExit || s.child == .reaped
            main := .createDevice }
  | .createDevice =>
      if ok then some { s with main := .serve }
      else if s.web_server_pid > 0 then
        some { s with main := .stop .errorPath s.web_server_pid .terminate }
      else some { s with main := .cleanup }
  | .serve => some { s with main := .cleanup }
  | .cleanup =>
      if s.web_server_pid > 0 then
        some { s with main := .stop .cleanup s.web_server_pid .terminate }
      else some { s with main := .finished }
  | .stop caller pid pc => s.stepStop caller pid ok pc
  | .finished => none

/-! ## The machine -/

def WebServer.step (s : WebServer) : WebAction → Option WebServer
  | .main ok number => s.stepMain ok number
  | .exit =>
      match s.child with
      | .running => some { s with child := .zombie, pending := true }
      | _ => none
  | .handler =>
      if s.pending then
        some { s with child := s.child.waitpid.1, pending := false }
      else none

def webServerMachine : Machine WebServer WebAction :=
  ⟨⟨.unborn, false, -1, .fork, false, []⟩, WebServer.step⟩

/-- (a) and (b): no exit before the check goes unnoticed, no signal to a reaped
child. -/
def WebServer.Tracked (s : WebServer) : Prop := s.missedExit = false ∧ s.misdirected = []

/-! ## The condition -/

/-- A check or a signal is still to come that takes the child for not reaped. -/
def WebPc.relies : WebPc → Bool
  | .stop .cleanup _ .wait => false
  | .finished => false
  | _ => true

/-- The handler does not get to the exited child before `main` has checked it and sent
its last signal, and the device thread is created if there is a web server. -/
def WebServer.orderly (s : WebServer) : WebAction → Bool
  | .main ok _ => !(s.main == .createDevice && !ok && decide (s.web_server_pid > 0))
  | .exit => true
  | .handler => !(s.child == .zombie && s.main.relies)

/-! ## The invariant -/

def Child.alive (child : Child) : Prop := child = .running ∨ child = .zombie

/-- What the program point says about the child. -/
def WebServer.consistent (s : WebServer) : Prop :=
  match s.main with
  | .fork => s.child = .unborn
  | .sleep pid => 0 < pid ∧ s.child.alive
  | .check pid => 0 < pid ∧ s.child.alive
  | .createDevice => (0 < s.web_server_pid ∧ s.child.alive) ∨
      (s.web_server_pid = -1 ∧ (s.child = .unborn ∨ s.child = .reaped))
  | .serve => (0 < s.web_server_pid ∧ s.child.alive) ∨
      (s.web_server_pid = -1 ∧ (s.child = .unborn ∨ s.child = .reaped))
  | .cleanup => (0 < s.web_server_pid ∧ s.child.alive) ∨
      (s.web_server_pid = -1 ∧ (s.child = .unborn ∨ s.child = .reaped))
  | .stop caller _ .wait => caller = .cleanup
  | .stop caller _ _ => caller = .cleanup ∧ s.child.alive
  | .finished => True

structure Attended (s : WebServer) : Prop where
  consistent : s.consistent
  tracked : s.Tracked

theorem attended_init : Attended webServerMachine.start := ⟨rfl, rfl, rfl⟩

theorem alive_ne_reaped {child : Child} (h : child.alive) : child ≠ .reaped := by
  rintro rfl
  rcases h with h | h <;> cases h

theorem waitpid_of_alive {child : Child} (h : child.alive) :
    child.waitpid = (.running, .running) ∧ child = .running ∨
      child.waitpid = (.reaped, .reaped) ∧ child = .zombie := by
  rcases h with rfl | rfl
  · exact Or.inl ⟨rfl, rfl⟩
  · exact Or.inr ⟨rfl, rfl⟩

theorem signal_of_alive {s : WebServer} (h : s.child.alive) (sig : Signal) : s.signal sig = s := by
  unfold WebServer.signal
  rw [if_neg (alive_ne_reaped h)]

theorem Attended.stepStop {s s' : WebServer} {caller : StopCaller} {pid : Int} {ok : Bool}
    {pc : StopPc} (h : Attended s) (hmain : s.main = .stop caller pid pc)
    (hs : s.stepStop caller pid ok pc = some s') : Attended s' := by
  obtain ⟨hconsistent, htracked⟩ := h
  rw [WebServer.consistent, hmain] at hconsistent
  cases pc with
  | terminate =>
      obtain ⟨rfl, halive⟩ := hconsistent
      simp only [WebServer.stepStop, signal_of_alive halive] at hs
      rw [if_neg fun hreaped => alive_ne_reaped halive hreaped.1] at hs
      cases hs
      exact ⟨⟨rfl, halive⟩, htracked⟩
  | poll count =>
      obtain ⟨rfl, halive⟩ := hconsistent
      simp only [WebServer.stepStop] at hs
      split at hs
      · rcases waitpid_of_alive halive with ⟨hwait, hchild⟩ | ⟨hwait, hchild⟩
        · rw [hwait] at hs
          cases hs
          exact ⟨⟨rfl, Or.inl rfl⟩, htracked⟩
        · rw [hwait] at hs
          cases hs
          exact ⟨trivial, htracked⟩
      · cases hs
        exact ⟨⟨rfl, halive⟩, htracked⟩
  | pause count =>
      cases hs
      exact ⟨hconsistent, htracked⟩
  | kill =>
      obtain ⟨rfl, halive⟩ := hconsistent
      simp only [WebServer.stepStop, signal_of_alive halive, Option.some.injEq] at hs
      subst hs
      exact ⟨rfl, htracked⟩
  | wait =>
      have hcaller : caller = .cleanup := hconsistent
      subst hcaller
      simp only [WebServer.stepStop] at hs
      repeat' split at hs
      all_goals cases hs
      all_goals exact ⟨trivial, htracked⟩

theorem Attended.stepMain {s s' : WebServer} {ok : Bool} {number : Nat} (h : Attended s)
    (ha : s.orderly (.main ok number) = true) (hs : s.stepMain ok number = some s') :
    Attended s' := by
  obtain ⟨hconsistent, htracked⟩ := h
  have hinv := hconsistent
  rw [WebServer.consistent] at hconsistent
  cases hmain : s.main with
  | fork =>
      rw [hmain] at hconsistent
      simp only [WebServer.stepMain, hmain] at hs
      split at hs <;> cases hs
      · exact ⟨⟨by omega, Or.inl rfl⟩, htracked⟩
      · exact ⟨Or.inr ⟨rfl, Or.inl hconsistent⟩, htracked⟩
  | sleep pid =>
      rw [hmain] at hconsistent
      simp only [WebServer.stepMain, hmain] at hs
      cases hs
      exact ⟨hconsistent, htracked⟩
  | check pid =>
      rw [hmain] at hconsistent
      obtain ⟨hpid, halive⟩ := hconsistent
      simp only [WebServer.stepMain, hmain] at hs
      rcases waitpid_of_alive halive with ⟨hwait, hchild⟩ | ⟨hwait, hchild⟩
      · rw [hwait] at hs
        cases hs
        refine ⟨Or.inl ⟨hpid, Or.inl rfl⟩, ?_, htracked.2⟩
        simp [hchild, htracked.1]
      · rw [hwait] at hs
        cases hs
        exact ⟨Or.inr ⟨rfl, Or.inr rfl⟩, htracked⟩
  | createDevice =>
      rw [hmain] at hconsistent
      simp only [WebServer.stepMain, hmain] at hs
      split at hs
      · cases hs
        exact ⟨hconsistent, htracked⟩
      · next hfailed =>
          split at hs
          · next hpid => simp [WebServer.orderly, hmain, hfailed, hpid] at ha
          · cases hs
            exact ⟨hconsistent, htracked⟩
  | serve =>
      rw [hmain] at hconsistent
      simp only [WebServer.stepMain, hmain] at hs
      cases hs
      exact ⟨hconsistent, htracked⟩
  | cleanup =>
      rw [hmain] at hconsistent
      simp only [WebServer.stepMain, hmain] at hs
      split at hs
      · next hpid =>
          cases hs
          refine ⟨⟨rfl, ?_⟩, htracked⟩
          rcases hconsistent with ⟨_, halive⟩ | ⟨hnone, _⟩
          · exact halive
          · omega
      · cases hs
        exact ⟨trivial, htracked⟩
  | stop caller pid pc =>
      simp only [WebServer.stepMain, hmain] at hs
      exact Attended.stepStop ⟨hinv, htracked⟩ hmain hs
  | finished => simp [WebServer.stepMain, hmain] at hs

theorem Attended.exit {s s' : WebServer} (h : Attended s) (hs : s.step .exit = some s') :
    Attended s' := by
  obtain ⟨hconsistent, htracked⟩ := h
  simp only [WebServer.step] at hs
  cases hchild : s.child with
  | running =>
      simp only [hchild, Option.some.injEq] at hs
      subst hs
      refine ⟨?_, htracked⟩
      have halive : Child.alive .zombie := Or.inr rfl
      cases hmain : s.main with
      | stop caller pid pc => cases pc <;> simp_all [WebServer.consistent, Child.alive]
      | _ => simp_all [WebServer.consistent, Child.alive]
  | _ => simp [hchild] at hs

theorem Attended.handler {s s' : WebServer} (h : Attended s)
    (ha : s.orderly .handler = true) (hs : s.step .handler = some s') : Attended s' := by
  obtain ⟨hconsistent, htracked⟩ := h
  simp only [WebServer.step] at hs
  split at hs
  · cases hs
    refine ⟨?_, htracked⟩
    by_cases hzombie : s.child = .zombie
    · -- `main` has sent its last signal
      have hrelies : s.main.relies = false := by simpa [WebServer.orderly, hzombie] using ha
      cases hmain : s.main with
      | stop caller pid pc =>
          cases pc with
          | wait => simpa [WebServer.consistent, hmain] using hconsistent
          | _ => cases caller <;> simp [WebPc.relies, hmain] at hrelies
      | finished => simp [WebServer.consistent]
      | _ => simp [WebPc.relies, hmain] at hrelies
    · have hchild : s.child.waitpid.1 = s.child := by
        cases hcase : s.child <;> simp_all [Child.waitpid]
      rw [hchild]
      exact hconsistent
  · cases hs

theorem Attended.step {s s' : WebServer} {a : WebAction} (h : Attended s)
    (ha : s.orderly a = true) (hs : s.step a = some s') : Attended s' := by
  cases a with
  | main ok number => exact h.stepMain ha hs
  | exit => exact h.exit hs
  | handler => exact h.handler ha hs

theorem attended_of_reachable {s : WebServer}
    (h : webServerMachine.ReachableUnder (fun s a => s.orderly a = true) s) : Attended s :=
  h.invariant attended_init fun _ _ _ _ hI ha hs => hI.step ha hs

/-! ## What a step outside the condition leads to -/

/-- A child that is reaped makes some continuation break (a) or (b). -/
def WebServer.Lost (s : WebServer) : Prop :=
  ∃ t, webServerMachine.Reaches s t ∧ ¬ t.Tracked

theorem lost_of_step {s t : WebServer} (a : WebAction) (hs : s.step a = some t)
    (h : t.Lost) : s.Lost := by
  obtain ⟨u, hrun, hu⟩ := h
  exact ⟨u, Relation.ReflTransGen.trans (Machine.Reaches.of_step a hs) hrun, hu⟩

theorem lost_of_untracked {s t : WebServer} (a : WebAction) (hs : s.step a = some t)
    (h : ¬ t.Tracked) : s.Lost :=
  ⟨t, Machine.Reaches.of_step a hs, h⟩

theorem signal_reaped {s : WebServer} (h : s.child = .reaped) (sig : Signal) :
    s.signal sig = { s with misdirected := s.misdirected ++ [sig] } := by
  unfold WebServer.signal
  rw [if_pos h]

theorem not_tracked_of_signal {s : WebServer} (sigs : List Signal) (sig : Signal)
    (h : s.misdirected = sigs ++ [sig]) : ¬ s.Tracked := by
  rintro ⟨_, hnone⟩
  simp [h] at hnone

theorem lost_of_kill {s : WebServer} {caller : StopCaller} {pid : Int}
    (hchild : s.child = .reaped) (hmain : s.main = .stop caller pid .kill) : s.Lost := by
  refine lost_of_untracked (t := { s.signal .kill with main := .stop caller pid .wait })
    (.main true 0) ?_ ?_
  · simp [WebServer.step, WebServer.stepMain, hmain, WebServer.stepStop]
  · refine not_tracked_of_signal s.misdirected .kill ?_
    simp [signal_reaped hchild]

theorem lost_of_terminate {s : WebServer} {caller : StopCaller} {pid : Int}
    (hchild : s.child = .reaped) (hmain : s.main = .stop caller pid .terminate) : s.Lost := by
  refine lost_of_untracked (t := { s.signal .term with main := .stop caller pid (.poll 0) })
    (.main true 0) ?_ ?_
  · simp [WebServer.step, WebServer.stepMain, hmain, WebServer.stepStop]
  · refine not_tracked_of_signal s.misdirected .term ?_
    simp [signal_reaped hchild]

/-- The polls fail until none is left; then SIGKILL is sent. -/
theorem lost_of_poll {caller : StopCaller} {pid : Int} (left : Nat) :
    ∀ {s : WebServer} {count : Nat}, 50 - count = left → s.child = .reaped →
      s.main = .stop caller pid (.poll count) → s.Lost := by
  induction left with
  | zero =>
      intro s count hleft hchild hmain
      have hcount : ¬ count < 50 := by omega
      refine lost_of_step (t := { s with main := .stop caller pid .kill }) (.main true 0) ?_
        (lost_of_kill hchild rfl)
      simp [WebServer.step, WebServer.stepMain, hmain, WebServer.stepStop, hcount]
  | succ left ih =>
      intro s count hleft hchild hmain
      have hcount : count < 50 := by omega
      refine lost_of_step
        (t := { s with child := .reaped, main := .stop caller pid (.pause count) })
        (.main true 0) ?_ ?_
      · simp [WebServer.step, WebServer.stepMain, hmain, WebServer.stepStop, hcount, hchild,
          Child.waitpid]
      · refine lost_of_step
          (t := { s with child := .reaped, main := .stop caller pid (.poll (count + 1)) })
          (.main true 0) rfl ?_
        exact ih (by omega) rfl rfl

theorem lost_of_pause {s : WebServer} {caller : StopCaller} {pid : Int} {count : Nat}
    (hchild : s.child = .reaped) (hmain : s.main = .stop caller pid (.pause count)) :
    s.Lost := by
  refine lost_of_step (t := { s with main := .stop caller pid (.poll (count + 1)) })
    (.main true 0) ?_ (lost_of_poll _ rfl hchild rfl)
  simp [WebServer.step, WebServer.stepMain, hmain, WebServer.stepStop]

theorem lost_of_cleanup {s : WebServer} (hchild : s.child = .reaped)
    (hpid : 0 < s.web_server_pid) (hmain : s.main = .cleanup) : s.Lost := by
  refine lost_of_step (t := { s with main := .stop .cleanup s.web_server_pid .terminate })
    (.main true 0) ?_ (lost_of_terminate hchild rfl)
  simp [WebServer.step, WebServer.stepMain, hmain, hpid]

theorem lost_of_serve {s : WebServer} (hchild : s.child = .reaped)
    (hpid : 0 < s.web_server_pid) (hmain : s.main = .serve) : s.Lost := by
  refine lost_of_step (t := { s with main := .cleanup }) (.main true 0) ?_
    (lost_of_cleanup hchild hpid rfl)
  simp [WebServer.step, WebServer.stepMain, hmain]

theorem lost_of_createDevice {s : WebServer} (hchild : s.child = .reaped)
    (hpid : 0 < s.web_server_pid) (hmain : s.main = .createDevice) : s.Lost := by
  refine lost_of_step (t := { s with main := .serve }) (.main true 0) ?_
    (lost_of_serve hchild hpid rfl)
  simp [WebServer.step, WebServer.stepMain, hmain]

theorem lost_of_check {s : WebServer} {pid : Int} (hchild : s.child = .reaped)
    (hmain : s.main = .check pid) : s.Lost := by
  refine lost_of_untracked
    (t := { s with web_server_pid := pid, missedExit := true, main := .createDevice })
    (.main true 0) ?_ fun htracked => (nomatch htracked.1)
  simp [WebServer.step, WebServer.stepMain, hmain, hchild, Child.waitpid]

theorem lost_of_sleep {s : WebServer} {pid : Int} (hchild : s.child = .reaped)
    (hmain : s.main = .sleep pid) : s.Lost := by
  refine lost_of_step (t := { s with main := .check pid }) (.main true 0) ?_
    (lost_of_check hchild rfl)
  simp [WebServer.step, WebServer.stepMain, hmain]

/-- The handler takes the exit status that the check or the stop waits for. -/
theorem Attended.lost_of_handler {s : WebServer} (h : Attended s) (hchild : s.child = .zombie)
    (hrelies : s.main.relies = true) :
    WebServer.Lost { s with child := .reaped, pending := false } := by
  have hconsistent := h.consistent
  rw [WebServer.consistent] at hconsistent
  have hstarted : ¬ (s.web_server_pid = -1 ∧ (s.child = .unborn ∨ s.child = .reaped)) := by
    rintro ⟨_, hnone | hnone⟩ <;> simp [hchild] at hnone
  cases hmain : s.main with
  | fork => simp [hmain, hchild] at hconsistent
  | sleep pid => exact lost_of_sleep rfl rfl
  | check pid => exact lost_of_check rfl rfl
  | createDevice =>
      rw [hmain] at hconsistent
      rcases hconsistent with ⟨hpid, _⟩ | hnone
      · exact lost_of_createDevice rfl hpid rfl
      · exact (hstarted hnone).elim
  | serve =>
      rw [hmain] at hconsistent
      rcases hconsistent with ⟨hpid, _⟩ | hnone
      · exact lost_of_serve rfl hpid rfl
      · exact (hstarted hnone).elim
  | cleanup =>
      rw [hmain] at hconsistent
      rcases hconsistent with ⟨hpid, _⟩ | hnone
      · exact lost_of_cleanup rfl hpid rfl
      · exact (hstarted hnone).elim
  | stop caller pid pc =>
      cases pc with
      | terminate => exact lost_of_terminate rfl rfl
      | poll count => exact lost_of_poll _ rfl rfl rfl
      | pause count => exact lost_of_pause rfl rfl
      | kill => exact lost_of_kill rfl rfl
      | wait =>
          rw [hmain] at hconsistent
          have hcaller : caller = .cleanup := hconsistent
          simp [hmain, hcaller, WebPc.relies] at hrelies
  | finished => simp [hmain, WebPc.relies] at hrelies

/-- `stop_web_server` of the error path reaps the child, and `server_cleanup` stops it
again. -/
theorem lost_of_zombie_poll {s : WebServer} {pid : Int} (hchild : s.child = .zombie)
    (hpid : 0 < s.web_server_pid) (hmain : s.main = .stop .errorPath pid (.poll 0)) :
    s.Lost := by
  refine lost_of_step (t := { s with child := .reaped, main := .cleanup }) (.main true 0) ?_
    (lost_of_cleanup rfl hpid rfl)
  simp [WebServer.step, WebServer.stepMain, hmain, WebServer.stepStop, hchild, Child.waitpid,
    StopCaller.resume]

theorem lost_of_errorPath {s : WebServer} {pid : Int} (halive : s.child.alive)
    (hpid : 0 < s.web_server_pid) (hmain : s.main = .stop .errorPath pid .terminate) :
    s.Lost := by
  refine lost_of_step (t := { s with main := .stop .errorPath pid (.poll 0) }) (.main true 0)
    ?_ ?_
  · simp [WebServer.step, WebServer.stepMain, hmain, WebServer.stepStop, signal_of_alive halive]
  · rcases halive with hrunning | hzombie
    · refine lost_of_step (t := { s with
        child := .zombie, pending := true, main := .stop .errorPath pid (.poll 0) }) .exit ?_
        (lost_of_zombie_poll rfl hpid rfl)
      simp [WebServer.step, hrunning]
    · exact lost_of_zombie_poll hzombie hpid rfl

theorem Attended.lost_of_not_orderly {s s' : WebServer} {a : WebAction} (h : Attended s)
    (ha : s.orderly a = false) (hs : s.step a = some s') : s'.Lost := by
  cases a with
  | main ok number =>
      simp only [WebServer.orderly, Bool.not_eq_false', Bool.and_eq_true, beq_iff_eq,
        Bool.not_eq_true', decide_eq_true_eq] at ha
      obtain ⟨⟨hmain, rfl⟩, hpid⟩ := ha
      have hconsistent := h.consistent
      rw [WebServer.consistent, hmain] at hconsistent
      have halive : s.child.alive := by
        rcases hconsistent with ⟨_, halive⟩ | ⟨hnone, _⟩
        · exact halive
        · omega
      simp only [WebServer.step, WebServer.stepMain, hmain, Bool.false_eq_true, if_false,
        if_pos hpid, Option.some.injEq] at hs
      subst hs
      exact lost_of_errorPath halive hpid rfl
  | exit => simp [WebServer.orderly] at ha
  | handler =>
      simp only [WebServer.orderly, Bool.not_eq_false', Bool.and_eq_true, beq_iff_eq] at ha
      obtain ⟨hchild, hrelies⟩ := ha
      simp only [WebServer.step] at hs
      split at hs
      · cases hs
        rw [hchild]
        exact h.lost_of_handler hchild hrelies
      · cases hs

/-! ## The lifecycle of the child -/

/-- While the condition holds, every exit before the check is noticed and no signal goes
to a reaped child; the first step that breaks it leads to one or the other. -/
theorem child_tracked {s : WebServer}
    (h : webServerMachine.ReachableUnder (fun s a => s.orderly a = true) s) :
    s.Tracked ∧ ∀ a s', s.step a = some s' → s.orderly a = false →
      ∃ t, webServerMachine.Reaches s' t ∧ ¬ t.Tracked :=
  ⟨(attended_of_reachable h).tracked,
    fun _ _ hs ha => (attended_of_reachable h).lost_of_not_orderly ha hs⟩

def stoppedOnRequest : List WebAction :=
  [.main true 41, .main true 0, .main true 0, .main true 0, .main true 0, .main true 0,
    .main true 0, .main true 0, .exit, .main true 0, .main true 0, .handler]

/-- The child exits on SIGTERM and `stop_web_server` reaps it before the handler runs. -/
theorem child_stopped_on_request :
    ∃ s, webServerMachine.ReachableUnder (fun s a => s.orderly a = true) s ∧
      s.main = .finished ∧ s.child = .reaped ∧ s.Tracked := by
  have hrun : (webServerMachine.execUnder (fun s a => s.orderly a) webServerMachine.start
      stoppedOnRequest).any (fun s => s.main = .finished ∧ s.child = .reaped) = true := by
    decide +kernel
  obtain ⟨s, hreach, hfacts⟩ := Machine.ReachableUnder.exists_of_exec hrun
  obtain ⟨hmain, hchild⟩ := of_decide_eq_true hfacts
  exact ⟨s, hreach, hmain, hchild, (child_tracked hreach).1⟩

def exitedAtOnce : List WebAction :=
  [.main true 41, .exit, .handler, .main true 0, .main true 0, .main true 0, .main true 0,
    .main true 0, .main true 0]

/-- The handler reaps the child during the sleep: `start_web_server` returns its pid, and
the shutdown sends SIGTERM to it. -/
theorem child_exit_missed : ¬ ∀ s, webServerMachine.Reachable s → s.Tracked := by
  intro hall
  have hrun : (webServerMachine.exec webServerMachine.start exitedAtOnce).any
      (fun s => s.missedExit = true ∧ s.misdirected = [.term]) = true := by
    decide +kernel
  obtain ⟨s, hreach, hfacts⟩ := Machine.Reachable.exists_of_exec hrun
  obtain ⟨hmissed, _⟩ := of_decide_eq_true hfacts
  rw [(hall s hreach).1] at hmissed
  cases hmissed

end RsvpControl.Server
