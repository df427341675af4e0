import RsvpControl.Core.Descriptors
import RsvpControl.Core.Machine

/-! # From `fork` to the daemon

`main` with `-d` up to the serving daemon: the two forks of `daemonize` with the new
session between them, the standard descriptors closed and put on `/dev/null`, then
`redirect_output_to_log` and the checks before the server runs. The processes of one
command run the same code, each from where its `fork` has left it.
-/

namespace RsvpControl.Detach

open RsvpControl.Core

/-! ## Processes -/

inductive OpenFile where
  /-- From the table the command was started with. -/
  | given (file : Nat)
  | devNull
  | log
  /-- Opened by the server afterwards: its sockets and files. -/
  | opened (n : Nat)
deriving DecidableEq, Repr

inductive StartPc where
  | fork
  | setsid
  | ignoreHangup
  | secondFork
  /-- A parent that `fork` has returned to, at its `exit`. -/
  | leave
  | closeStandard
  | openNull
  | chdir
  | redirect
  | writePid
  | signalHandlers
  | serverInit
  | serve
  | exited (code : Nat)
  | killed
deriving DecidableEq, Repr

structure Process where
  pid : Nat
  session : Nat
  group : Nat
  pc : StartPc
  descriptors : Descriptors OpenFile
  /-- SIGHUP is ignored. -/
  hangupIgnored : Bool
  /-- `open` of `/dev/null` has succeeded. -/
  nullOpened : Bool
  /-- `open` of the log file has succeeded. -/
  logOpened : Bool
deriving DecidableEq, Repr

def Process.alive (p : Process) : Bool :=
  match p.pc with
  | .exited _ | .killed => false
  | _ => true

inductive StartEvent where
  /-- Its next call: `ok` is the outcome, `pid` what `fork` hands out. -/
  | call (ok : Bool) (pid : Nat)
  /-- The serving daemon opens a file. -/
  | openFile (n : Nat)
  /-- The serving daemon closes a file it has opened. -/
  | closeFile (d : Nat)
  /-- Anything may be killed at any time. -/
  | kill
deriving DecidableEq, Repr

/-! ## Descriptors -/

def STDIN_FILENO : Nat := 0

def STDOUT_FILENO : Nat := 1

def STDERR_FILENO : Nat := 2

/-- The three `close` calls of `daemonize`. -/
def closeStandard (t : Descriptors OpenFile) : Descriptors OpenFile :=
  ((t.close STDIN_FILENO).close STDOUT_FILENO).close STDERR_FILENO

/-- `open` of `/dev/null` in `daemonize` and what follows when it succeeds. -/
def openNull (t : Descriptors OpenFile) (ok : Bool) : Descriptors OpenFile :=
  if ok then
    let fd := t.lowest
    let t := (((t.allocate .devNull).dup2 fd STDIN_FILENO).dup2 fd STDOUT_FILENO).dup2 fd
      STDERR_FILENO
    if 2 < fd then t.close fd else t
  else t

def redirectOutputToLog (t : Descriptors OpenFile) (ok : Bool) : Descriptors OpenFile :=
  if ok then
    let fd := t.lowest
    let t := ((t.allocate .log).dup2 fd STDOUT_FILENO).dup2 fd STDERR_FILENO
    if 2 < fd then t.close fd else t
  else t

/-! ## Steps -/

/-- No living process, session or process group has the number. -/
def unused (ps : List Process) (pid : Nat) : Bool :=
  ps.all fun q => !q.alive || (q.pid != pid && q.session != pid && q.group != pid)

/-- `fork` as process `i` calls it: its parent leaves, its child goes on. -/
def fork (ps : List Process) (i : Nat) (p : Process) (next : StartPc) (ok : Bool) (pid : Nat) :
    Option (List Process) :=
  if ok then
    if unused ps pid then
      some (ps.set i { p with pc := .leave } ++ [{ p with pid := pid, pc := next }])
    else none
  else some (ps.set i { p with pc := .exited 1 })

/-- `setsid` fails when some process group has the caller's number. -/
def Process.setsid (p : Process) (ps : List Process) : Process :=
  if ps.any fun q => q.alive && q.group == p.pid then { p with pc := .exited 1 }
  else { p with session := p.pid, group := p.pid, pc := .ignoreHangup }

/-- A call whose failure ends the process. -/
def Process.require (p : Process) (ok : Bool) (next : StartPc) : Process :=
  { p with pc := if ok then next else .exited 1 }

def call (ps : List Process) (i : Nat) (p : Process) (ok : Bool) (pid : Nat) :
    Option (List Process) :=
  match p.pc with
  | .fork => fork ps i p .setsid ok pid
  | .setsid => some (ps.set i (p.setsid ps))
  | .ignoreHangup => some (ps.set i { p with hangupIgnored := true, pc := .secondFork })
  | .secondFork => fork ps i p .closeStandard ok pid
  | .leave => some (ps.set i { p with pc := .exited 0 })
  | .closeStandard =>
      some (ps.set i { p with descriptors := closeStandard p.descriptors, pc := .openNull })
  | .openNull =>
      some (ps.set i
        { p with descriptors := openNull p.descriptors ok, nullOpened := ok, pc := .chdir })
  | .chdir => some (ps.set i (p.require ok .redirect))
  | .redirect =>
      some (ps.set i
        { p with
          descriptors := redirectOutputToLog p.descriptors ok, logOpened := ok,
          pc := .writePid })
  | .writePid => some (ps.set i (p.require ok .signalHandlers))
  | .signalHandlers => some (ps.set i (p.require ok .serverInit))
  | .serverInit => some (ps.set i (p.require ok .serve))
  | .serve | .exited _ | .killed => none

def perform (ps : List Process) (i : Nat) (p : Process) : StartEvent → Option (List Process)
  | .call ok pid => call ps i p ok pid
  | .openFile n =>
      if p.pc = .serve then
        some (ps.set i { p with descriptors := p.descriptors.allocate (.opened n) })
      else none
  | .closeFile d =>
      match p.pc, p.descriptors.get d with
      | .serve, some (.opened _) =>
          some (ps.set i { p with descriptors := p.descriptors.close d })
      | _, _ => none
  | .kill => if p.alive then some (ps.set i { p with pc := .killed }) else none

def step (ps : List Process) (a : Nat × StartEvent) : Option (List Process) :=
  ps[a.1]?.bind fun p => perform ps a.1 p a.2

def Process.started (pid session group : Nat) (given : Descriptors Nat) : Process :=
  ⟨pid, session, group, .fork, given.map .given, false, false, false⟩

def startMachine (pid session group : Nat) (given : Descriptors Nat) :
    Machine (List Process) (Nat × StartEvent) :=
  ⟨[Process.started pid session group given], step⟩

/-! ## What the standard descriptors become -/

theorem closeStandard_get (t : Descriptors OpenFile) (d : Nat) :
    (closeStandard t).get d = if d < 3 then none else t.get d := by
  simp only [closeStandard, Descriptors.get_close, STDIN_FILENO, STDOUT_FILENO, STDERR_FILENO]
  by_cases hd : d < 3
  · have hcases : d = 0 ∨ d = 1 ∨ d = 2 := by omega
    rcases hcases with rfl | rfl | rfl <;> rfl
  · rw [if_neg hd, if_neg (by omega), if_neg (by omega), if_neg (by omega)]

/-- The lowest number is 0 here, so `/dev/null` is opened as standard input and that
copy is not closed. -/
theorem openNull_get {t : Descriptors OpenFile} (hfree : ∀ d < 3, t.get d = none) (ok : Bool)
    (d : Nat) :
    (openNull t ok).get d = if d < 3 then (if ok then some .devNull else none) else t.get d := by
  have hlowest : t.lowest = 0 := Nat.le_zero.mp (Descriptors.lowest_le (hfree 0 (by omega)))
  cases ok with
  | false =>
      by_cases hd : d < 3
      · simp [openNull, hd, hfree d hd]
      · simp [openNull, hd]
  | true =>
      have h0 : (t.allocate OpenFile.devNull).get 0 = some .devNull := by
        rw [Descriptors.get_allocate, hlowest, if_pos rfl]
      have h1 := Descriptors.get_dup2_source h0 STDIN_FILENO
      have h2 := Descriptors.get_dup2_source h1 STDOUT_FILENO
      have hget : ((((t.allocate OpenFile.devNull).dup2 0 STDIN_FILENO).dup2 0
          STDOUT_FILENO).dup2 0 STDERR_FILENO).get d =
          if d = 2 then some .devNull else if d = 1 then some .devNull
          else if d = 0 then some .devNull else if d = 0 then some .devNull else t.get d := by
        rw [Descriptors.get_dup2 h2, Descriptors.get_dup2 h1, Descriptors.get_dup2 h0,
          Descriptors.get_allocate, hlowest]
        rfl
      simp only [openNull, hlowest, if_true, if_neg (by omega : ¬ 2 < 0)]
      rw [hget]
      by_cases hd : d < 3
      · have hcases : d = 0 ∨ d = 1 ∨ d = 2 := by omega
        rcases hcases with rfl | rfl | rfl <;> rfl
      · rw [if_neg (by omega), if_neg (by omega), if_neg (by omega), if_neg (by omega), if_neg hd]

/-- What a standard descriptor of the daemon stands for, by what could be opened. -/
def standardFile (nullOpened logOpened : Bool) (d : Nat) : Option OpenFile :=
  if d = STDIN_FILENO ∧ nullOpened = true then some .devNull
  else if logOpened then some .log
  else if nullOpened then some .devNull
  else none

/-- With `/dev/null` in place the log is opened above the standard descriptors and that
copy is closed; without it the log is opened as standard input and stays there. -/
theorem redirect_get {t : Descriptors OpenFile} {nullOpened : Bool}
    (hstandard : ∀ d < 3, t.get d = if nullOpened then some .devNull else none) (ok : Bool)
    (d : Nat) :
    (redirectOutputToLog t ok).get d =
      if d < 3 then standardFile nullOpened ok d else t.get d := by
  cases ok with
  | false =>
      by_cases hd : d < 3
      · rw [if_pos hd, redirectOutputToLog, if_neg Bool.false_ne_true, hstandard d hd]
        cases nullOpened <;> simp [standardFile]
      · simp [redirectOutputToLog, hd]
  | true =>
      have hsource : (t.allocate OpenFile.log).get t.lowest = some .log := by
        rw [Descriptors.get_allocate, if_pos rfl]
      have hcopied := Descriptors.get_dup2_source hsource STDOUT_FILENO
      have hget : ∀ e, (((t.allocate OpenFile.log).dup2 t.lowest STDOUT_FILENO).dup2 t.lowest
          STDERR_FILENO).get e =
          if e = 2 then some .log else if e = 1 then some .log
          else if e = t.lowest then some .log else t.get e := by
        intro e
        rw [Descriptors.get_dup2 hcopied, Descriptors.get_dup2 hsource, Descriptors.get_allocate]
        rfl
      cases nullOpened with
      | true =>
          have hhigh : 3 ≤ t.lowest :=
            Descriptors.le_lowest fun e he => by rw [hstandard e he]; exact Option.some_ne_none _
          have hnone := Descriptors.get_lowest t
          simp only [redirectOutputToLog, if_true, if_pos (show 2 < t.lowest by omega)]
          rw [Descriptors.get_close, hget]
          by_cases hd : d < 3
          · rw [if_neg (by omega), if_pos hd]
            have hcases : d = 0 ∨ d = 1 ∨ d = 2 := by omega
            rcases hcases with rfl | rfl | rfl
            · rw [if_neg (by omega), if_neg (by omega), if_neg (by omega), hstandard 0 hd]
              rfl
            · rfl
            · rfl
          · rw [if_neg hd]
            by_cases hfd : d = t.lowest
            · rw [if_pos hfd, hfd, hnone]
            · rw [if_neg hfd, if_neg (by omega), if_neg (by omega), if_neg hfd]
      | false =>
          have hlowest : t.lowest = 0 :=
            Nat.le_zero.mp (Descriptors.lowest_le (hstandard 0 (by omega)))
          simp only [redirectOutputToLog, if_true, hlowest, if_neg (by omega : ¬ 2 < 0)]
          rw [hlowest] at hget
          rw [hget]
          by_cases hd : d < 3
          · rw [if_pos hd]
            have hcases : d = 0 ∨ d = 1 ∨ d = 2 := by omega
            rcases hcases with rfl | rfl | rfl <;> rfl
          · rw [if_neg hd, if_neg (by omega), if_neg (by omega), if_neg (by omega)]

end RsvpControl.Detach
