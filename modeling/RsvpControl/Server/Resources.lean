import RsvpControl.Core.Inventory
import RsvpControl.Server.Sessions

/-! # What a process run acquires and releases

`main` from `server_init` to its return: every initialisation step with its
failure path, the start of the web server, the creation of the device thread,
then the accept loop and `server_cleanup` of the server machine. The trace holds
what is initialised and opened, what is released, and the threads created and
joined.
-/

namespace RsvpControl.Server

open RsvpControl.Core Inventory

/-! ## Resources -/

inductive Resource where
  | queue_mutex
  | state_mutex
  | queue_not_empty
  | response_ready
  | seg7
  | music
  | led
  | light_sensor
  | server_socket
deriving DecidableEq, Repr

inductive ServerThread where
  | device
  | comm
deriving DecidableEq, Repr

/-- Used by the device and communication threads for as long as they run. -/
def Resource.isSync : Resource → Bool
  | .queue_mutex | .state_mutex | .queue_not_empty | .response_ready => true
  | _ => false

abbrev ServerEvent := Event Resource ServerThread

/-- In the order of `cleanup_sync` and of `server_cleanup`. -/
def syncObjects : List Resource := [.response_ready, .queue_not_empty, .state_mutex, .queue_mutex]

def deviceLibraries : List Resource := [.light_sensor, .led, .music, .seg7]

/-! ## `server_init` -/

inductive InitStep where
  | wiringPi
  | queue_mutex
  | state_mutex
  | queue_not_empty
  | response_ready
  | seg7
  | music
  | led
  | light_sensor
  | socket
  | setsockopt
  | getFlags
  | setFlags
  | bind
  | listen
deriving DecidableEq, Repr

/-- What the step has acquired when it succeeds. -/
def InitStep.acquires : InitStep → List Resource
  | .queue_mutex => [.queue_mutex]
  | .state_mutex => [.state_mutex]
  | .queue_not_empty => [.queue_not_empty]
  | .response_ready => [.response_ready]
  | .seg7 => [.seg7]
  | .music => [.music]
  | .led => [.led]
  | .light_sensor => [.light_sensor]
  | .socket => [.server_socket]
  | .wiringPi | .setsockopt | .getFlags | .setFlags | .bind | .listen => []

/-- What is released, in this order, when the step fails. -/
def InitStep.undo : InitStep → List Resource
  | .wiringPi => []
  | .queue_mutex => []
  | .state_mutex => [.queue_mutex]
  | .queue_not_empty => [.queue_mutex, .state_mutex]
  | .response_ready => [.queue_not_empty, .queue_mutex, .state_mutex]
  | .seg7 => syncObjects
  | .music => .seg7 :: syncObjects
  | .led => .music :: .seg7 :: syncObjects
  | .light_sensor => .led :: .music :: .seg7 :: syncObjects
  | .socket => deviceLibraries ++ syncObjects
  | .setsockopt | .getFlags | .setFlags | .bind | .listen =>
      .server_socket :: deviceLibraries ++ syncObjects

inductive ProcessPc where
  | init (step : InitStep)
  /-- On a failure path of `server_init`, with these releases to go. -/
  | undo (todo : List Resource)
  | startWebServer
  | createDevice
  /-- `stop_web_server` before the `server_cleanup` of the error path. -/
  | stopWebServer
  /-- From here `main` is where `system` says. -/
  | serving
  /-- Returned after a failed `server_init`. -/
  | failed
deriving DecidableEq, Repr

def InitStep.next : InitStep → ProcessPc
  | .wiringPi => .init .queue_mutex
  | .queue_mutex => .init .state_mutex
  | .state_mutex => .init .queue_not_empty
  | .queue_not_empty => .init .response_ready
  | .response_ready => .init .seg7
  | .seg7 => .init .music
  | .music => .init .led
  | .led => .init .light_sensor
  | .light_sensor => .init .socket
  | .socket => .init .setsockopt
  | .setsockopt => .init .getFlags
  | .getFlags => .init .setFlags
  | .setFlags => .init .bind
  | .bind => .init .listen
  | .listen => .startWebServer

/-! ## The process -/

structure Process where
  pc : ProcessPc
  system : System
  /-- `web_server_pid > 0`. -/
  web_server : Bool
  events : List ServerEvent
deriving DecidableEq, Repr

inductive ProcessAction where
  /-- The next step of `main` before its accept loop, with its outcome. -/
  | start (ok : Bool)
  | server (a : Action)
deriving DecidableEq, Repr

def System.initialized (s : System) : System :=
  { s with server_running := true, client_socket := none, client_connected := false }

/-- `server_cleanup` is entered without a device thread. Its join of one, which
nothing guards, is taken to return. -/
def System.withoutDevice (s : System) : System := { s with main := .cleanup, device := .returned }

def Process.stepStart (p : Process) (ok : Bool) : Option Process :=
  match p.pc with
  | .init step =>
      if ok then
        some { p with
          system := if step = .listen then p.system.initialized else p.system
          events := p.events ++ step.acquires.map .acquire
          pc := step.next }
      else some { p with pc := .undo step.undo }
  | .undo (r :: todo) => some { p with events := p.events ++ [.release r], pc := .undo todo }
  | .undo [] => some { p with pc := .failed }
  | .startWebServer => some { p with web_server := ok, pc := .createDevice }
  | .createDevice =>
      if ok then some { p with events := p.events ++ [.create .device], pc := .serving }
      else if p.web_server then some { p with pc := .stopWebServer }
      else some { p with system := p.system.withoutDevice, pc := .serving }
  | .stopWebServer => some { p with system := p.system.withoutDevice, pc := .serving }
  | .serving => none
  | .failed => none

/-- What a step of the server machine adds to the trace. -/
def System.events (s : System) : Action → List ServerEvent
  | .main _ ok =>
      match s.main with
      | .create _ => if ok then [.create .comm] else []
      | .joinComm => [.join .comm]
      | .cleanupJoinComm => [.join .comm]
      | .joinDevice => [.join .device]
      | .closeSockets => if s.serverSocketOpen then [.release .server_socket] else []
      | .cleanDevices => deviceLibraries.map .release
      | .destroy => syncObjects.map .release
      | _ => []
  | _ => []

/-- A signal may come at any time; the other steps of the server machine wait for
`main` to serve. -/
def Process.step (p : Process) : ProcessAction → Option Process
  | .start ok => p.stepStart ok
  | .server a =>
      if p.pc = .serving ∨ a = .interrupt then
        (p.system.step a).map fun s' =>
          { p with system := s', events := p.events ++ p.system.events a }
      else none

def processMachine (server_ip : Bytes) : Machine Process ProcessAction :=
  ⟨⟨.init .wiringPi, { System.init server_ip with server_running := false }, false, []⟩,
    Process.step⟩

def Process.exited (p : Process) : Bool :=
  p.pc == .failed || (p.pc == .serving && p.system.main == .finished)

/-- The trace is balanced so far, and settled when `main` has returned. -/
def Process.Accounted (p : Process) : Prop :=
  Balanced Resource.isSync p.events ∧ (p.exited = true → Settled p.events)

/-! ## The condition -/

/-- The device thread is created. -/
def Process.orderly (p : Process) (a : ProcessAction) : Bool :=
  !(p.pc == .createDevice && a == .start false)

/-! ## What is held at each program point -/

def InitStep.held : InitStep → List Resource
  | .wiringPi => []
  | .queue_mutex => []
  | .state_mutex => [.queue_mutex]
  | .queue_not_empty => [.state_mutex, .queue_mutex]
  | .response_ready => [.queue_not_empty, .state_mutex, .queue_mutex]
  | .seg7 => syncObjects
  | .music => .seg7 :: syncObjects
  | .led => .music :: .seg7 :: syncObjects
  | .light_sensor => .led :: .music :: .seg7 :: syncObjects
  | .socket => deviceLibraries ++ syncObjects
  | .setsockopt | .getFlags | .setFlags | .bind | .listen =>
      .server_socket :: deviceLibraries ++ syncObjects

def MainPc.held : MainPc → List Resource
  | .cleanQueue | .cleanDevices => deviceLibraries ++ syncObjects
  | .destroy => syncObjects
  | .finished => []
  | _ => .server_socket :: deviceLibraries ++ syncObjects

def Process.held (p : Process) : List Resource :=
  match p.pc with
  | .init step => step.held
  | .undo todo => todo
  | .failed => []
  | .serving => p.system.main.held
  | _ => .server_socket :: deviceLibraries ++ syncObjects

def System.unjoined (s : System) : List ServerThread :=
  (if s.comm = .absent then [] else [.comm]) ++
    if s.main.deviceJoined then [] else [.device]

def Process.unjoined (p : Process) : List ServerThread :=
  match p.pc with
  | .serving => p.system.unjoined
  | _ => []

theorem unjoined_congr {s s' : System} (hcomm : s'.comm = .absent ↔ s.comm = .absent)
    (hjoined : s'.main.deviceJoined = s.main.deviceJoined) : s'.unjoined = s.unjoined := by
  rw [System.unjoined, System.unjoined, hjoined]
  by_cases habsent : s.comm = .absent
  · rw [if_pos habsent, if_pos (hcomm.mpr habsent)]
  · rw [if_neg habsent, if_neg fun h => habsent (hcomm.mp h)]

/-- Each failure path releases what is held, whatever its order. -/
theorem undo_perm_held (step : InitStep) : step.undo.Perm step.held := by
  cases step <;> decide

theorem acquires_fresh (step : InitStep) : ∀ r ∈ step.acquires, r ∉ step.held := by
  cases step <;> decide

theorem held_next (step : InitStep) :
    step.acquires ++ step.held =
      match step.next with
      | .init next => next.held
      | _ => .server_socket :: deviceLibraries ++ syncObjects := by
  cases step <;> rfl

/-! ## The invariant -/

/-- The stock after the trace is what the program points say. -/
structure Kept (p : Process) : Prop where
  created : p.pc ≠ .stopWebServer
  session : SessionInv p.system
  start : p.pc ≠ .serving → p.system.main = .loopTest
  socket : p.system.serverSocketOpen = true ↔ .server_socket ∈ p.system.main.held
  stock : ∃ l, Stock.empty.replay Resource.isSync p.events = some l ∧ l.held.Perm p.held ∧
    l.unjoined = p.unjoined ∧ ∀ step, p.pc = .init step → l.released = []

theorem kept_init (server_ip : Bytes) : Kept (processMachine server_ip).start where
  created h := by cases h
  session := ⟨by simp [processMachine, System.init], by
    simp [processMachine, System.init, CommPc.inSession], (fun h => nomatch h), rfl,
    fun h => nomatch h⟩
  start _ := rfl
  socket := by simp [processMachine, System.init, MainPc.held]
  stock := ⟨Stock.empty, rfl, List.Perm.refl _, rfl, fun _ _ => rfl⟩

theorem Kept.unconnected {p : Process} (h : Kept p) (hpc : p.pc ≠ .serving) :
    p.system.comm = .absent ∧ p.system.client_connected = false := by
  have hmain := h.start hpc
  constructor
  · by_contra hne
    have hjoin := h.session.joining.mp hne
    rw [hmain] at hjoin
    cases hjoin
  · exact h.session.unconnected (by simp [hmain]) (by simp [hmain])

theorem Kept.initialized {p : Process} (h : Kept p) (hpc : p.pc ≠ .serving) :
    SessionInv p.system.initialized := by
  obtain ⟨habsent, _⟩ := h.unconnected hpc
  refine ⟨h.session.joining, ?_, (fun hfalse => nomatch hfalse), h.session.unforced,
    h.session.device⟩
  simp [System.initialized, h.start hpc, habsent, CommPc.inSession]

theorem Kept.of_start {p p' : Process} (h : Kept p) (hpc : p.pc ≠ .serving)
    (hcreated : p'.pc ≠ .stopWebServer) (hsession : SessionInv p'.system)
    (hmain : p'.system.main = p.system.main)
    (hopen : p'.system.serverSocketOpen = p.system.serverSocketOpen)
    (hstock : ∃ l, Stock.empty.replay Resource.isSync p'.events = some l ∧ l.held.Perm p'.held ∧
      l.unjoined = p'.unjoined ∧ ∀ step, p'.pc = .init step → l.released = []) : Kept p' where
  created := hcreated
  session := hsession
  start _ := hmain.trans (h.start hpc)
  socket := by rw [hmain, hopen, h.socket]
  stock := hstock

theorem Kept.stepStart {p p' : Process} {ok : Bool} (h : Kept p)
    (ha : p.orderly (.start ok) = true) (hs : p.stepStart ok = some p') : Kept p' := by
  obtain ⟨l, hreplay, hheld, hunjoined, hreleased⟩ := h.stock
  cases hpc : p.pc with
  | init step =>
      have hnot : p.pc ≠ .serving := by simp [hpc]
      simp only [Process.held, Process.unjoined, hpc] at hheld hunjoined
      simp only [Process.stepStart, hpc] at hs
      split at hs <;> cases hs
      · obtain ⟨l', hacquired, hheld', hreleased', hunjoined'⟩ :=
          Stock.replay_acquires Resource.isSync (l := l) step.acquires
            (by cases step <;> decide) (by
              intro r hr
              rw [hheld.mem_iff, hreleased step hpc]
              exact ⟨acquires_fresh step r hr, List.not_mem_nil⟩)
        have hnext : l'.held.Perm (step.acquires ++ step.held) :=
          hheld'.trans (hheld.append_left _)
        rw [held_next] at hnext
        refine h.of_start hnot ?_ ?_ ?_ ?_ ⟨l', Stock.replay_concat hreplay hacquired, ?_, ?_, ?_⟩
        · cases step <;> intro hstop <;> cases hstop
        · split
          · exact h.initialized hnot
          · exact h.session
        · split <;> rfl
        · split <;> rfl
        · cases step <;> exact hnext
        · rw [hunjoined', hunjoined]
          cases step <;> rfl
        · intro _ _
          rw [hreleased', hreleased step hpc]
      · refine h.of_start hnot (fun hstop => nomatch hstop) h.session rfl rfl
          ⟨l, hreplay, hheld.trans (undo_perm_held step).symm, hunjoined, ?_⟩
        intro _ hinit
        cases hinit
  | undo todo =>
      have hnot : p.pc ≠ .serving := by simp [hpc]
      simp only [Process.held, Process.unjoined, hpc] at hheld hunjoined
      simp only [Process.stepStart, hpc] at hs
      cases todo with
      | nil =>
          cases hs
          exact h.of_start hnot (fun hstop => nomatch hstop) h.session rfl rfl
            ⟨l, hreplay, hheld, hunjoined, fun _ hinit => nomatch hinit⟩
      | cons r todo =>
          cases hs
          obtain ⟨l', hreleases, hheld', hunjoined'⟩ :=
            Stock.replay_releases Resource.isSync [r] todo hheld fun _ _ _ => hunjoined
          refine h.of_start hnot (fun hstop => nomatch hstop) h.session rfl rfl
            ⟨l', Stock.replay_concat hreplay hreleases, hheld', ?_, fun _ hinit => nomatch hinit⟩
          exact hunjoined'.trans hunjoined
  | startWebServer =>
      have hnot : p.pc ≠ .serving := by simp [hpc]
      simp only [Process.held, Process.unjoined, hpc] at hheld hunjoined
      simp only [Process.stepStart, hpc] at hs
      cases hs
      exact h.of_start hnot (fun hstop => nomatch hstop) h.session rfl rfl
        ⟨l, hreplay, hheld, hunjoined, fun _ hinit => nomatch hinit⟩
  | createDevice =>
      have hnot : p.pc ≠ .serving := by simp [hpc]
      simp only [Process.held, Process.unjoined, hpc] at hheld hunjoined
      have hok : ok = true := by
        cases ok with
        | true => rfl
        | false => simp [Process.orderly, hpc] at ha
      subst hok
      simp only [Process.stepStart, hpc, if_true, Option.some.injEq] at hs
      subst hs
      refine h.of_start hnot (fun hstop => nomatch hstop) h.session rfl rfl
        ⟨_, Stock.replay_concat hreplay rfl, ?_, ?_, ?_⟩
      · simpa [Process.held, h.start hnot, MainPc.held] using hheld
      · simp [Process.unjoined, System.unjoined, h.start hnot, (h.unconnected hnot).1, hunjoined,
          MainPc.deviceJoined]
      · intro _ hinit
        cases hinit
  | stopWebServer => exact absurd hpc h.created
  | serving => simp [Process.stepStart, hpc] at hs
  | failed => simp [Process.stepStart, hpc] at hs

theorem Kept.stepOther {p : Process} {s' : System} {a : Action} (h : Kept p)
    (hs : p.system.step a = some s') (ha : ∀ accepted ok, a ≠ .main accepted ok) :
    Kept { p with system := s', events := p.events ++ p.system.events a } := by
  obtain ⟨hmain, habsent, hopen⟩ := step_main_frame hs ha
  obtain ⟨l, hreplay, hheld, hunjoined, hreleased⟩ := h.stock
  have hevents : p.system.events a = [] := by
    cases a with
    | main accepted ok => exact absurd rfl (ha accepted ok)
    | _ => rfl
  refine ⟨h.created, h.session.step hs, fun hpc => hmain.trans (h.start hpc), ?_, l, ?_, ?_, ?_,
    hreleased⟩
  · rw [hopen, hmain]
    exact h.socket
  · rw [hevents, List.append_nil]
    exact hreplay
  · rw [Process.held] at hheld ⊢
    simp only [hmain]
    exact hheld
  · have hsame : s'.unjoined = p.system.unjoined := unjoined_congr habsent (congrArg _ hmain)
    rw [hunjoined, Process.unjoined, Process.unjoined]
    simp only [hsame]

/-! ## The steps of `main` that serve and clean up -/

/-- The stock is what the server machine's program points say. -/
structure Stocked (s : System) (l : Stock Resource ServerThread) : Prop where
  held : l.held.Perm s.main.held
  unjoined : l.unjoined = s.unjoined

/-- The stock after a step of `main` is again what the program points say. -/
def Restocked (s s' : System) (l : Stock Resource ServerThread) (a : Action) : Prop :=
  ∃ l', l.replay Resource.isSync (s.events a) = some l' ∧ Stocked s' l'

theorem absent_of_not_joining {s : System} (h : SessionInv s) (hmain : s.main ≠ .joinComm) :
    s.comm = .absent := by
  by_contra hcomm
  exact hmain (h.joining.mp hcomm)

theorem Stocked.create {s s' : System} {l : Stock Resource ServerThread} {accepted : Accepted}
    {ok : Bool} {k : Nat} (h : Stocked s l) (hsession : SessionInv s) (hmain : s.main = .create k)
    (hs : s.stepMain accepted ok = some s') : Restocked s s' l (.main accepted ok) := by
  have habsent := absent_of_not_joining hsession (by simp [hmain])
  have hheld := h.held
  have hunjoined : l.unjoined = [.device] := by
    rw [h.unjoined, System.unjoined, hmain, habsent]
    rfl
  rw [hmain] at hheld
  simp only [System.stepMain, hmain] at hs
  cases ok with
  | true =>
      cases hs
      refine ⟨{ l with unjoined := [.comm, .device] }, ?_, hheld, rfl⟩
      simp [System.events, hmain, Stock.replay, Stock.record, hunjoined]
  | false =>
      cases hs
      refine ⟨l, by simp [System.events, hmain, Stock.replay], hheld, ?_⟩
      simp [System.unjoined, System.close, habsent, hunjoined, MainPc.deviceJoined]

theorem Stocked.joinComm {s s' : System} {l : Stock Resource ServerThread} {accepted : Accepted}
    {ok : Bool} (h : Stocked s l) (hmain : s.main = .joinComm)
    (hs : s.stepMain accepted ok = some s') : Restocked s s' l (.main accepted ok) := by
  have hheld := h.held
  rw [hmain] at hheld
  simp only [System.stepMain, hmain] at hs
  split at hs
  · next hreturned =>
      cases hs
      have hunjoined : l.unjoined = [.comm, .device] := by
        rw [h.unjoined, System.unjoined, hmain, hreturned]
        rfl
      refine ⟨{ l with unjoined := [.device] }, ?_, hheld, rfl⟩
      simp [System.events, hmain, Stock.replay, Stock.record, hunjoined]
  · cases hs

theorem Stocked.joinDevice {s s' : System} {l : Stock Resource ServerThread} {accepted : Accepted}
    {ok : Bool} (h : Stocked s l) (hsession : SessionInv s) (hmain : s.main = .joinDevice)
    (hs : s.stepMain accepted ok = some s') : Restocked s s' l (.main accepted ok) := by
  have habsent := absent_of_not_joining hsession (by simp [hmain])
  have hheld := h.held
  have hunjoined : l.unjoined = [.device] := by
    rw [h.unjoined, System.unjoined, hmain, habsent]
    rfl
  rw [hmain] at hheld
  simp only [System.stepMain, hmain] at hs
  split at hs
  · cases hs
    refine ⟨{ l with unjoined := [] }, ?_, hheld, ?_⟩
    · simp [System.events, hmain, Stock.replay, Stock.record, hunjoined]
    · simp [System.unjoined, habsent, MainPc.deviceJoined]
  · cases hs

/-- A step of `server_cleanup` that releases something, after the join of the device
thread. -/
theorem Stocked.releases {s s' : System} {l : Stock Resource ServerThread} {accepted : Accepted}
    {ok : Bool} (h : Stocked s l) (hsession : SessionInv s) (hjoined : s.main.deviceJoined = true)
    (hs : s.stepMain accepted ok = some s') (rs : List Resource)
    (hevents : s.events (.main accepted ok) = rs.map .release)
    (hheld : s.main.held = rs ++ s'.main.held) : Restocked s s' l (.main accepted ok) := by
  have hunjoined : ∀ {t : System}, SessionInv t → t.main.deviceJoined = true → t.unjoined = [] := by
    intro t ht htjoined
    have habsent := absent_of_not_joining ht (by
      intro hmain
      rw [hmain] at htjoined
      cases htjoined)
    simp [System.unjoined, habsent, htjoined]
  have hjoined' : s'.main.deviceJoined = true := by
    revert hs
    fun_cases System.stepMain s accepted ok
    all_goals intro hs
    all_goals cases hs
    all_goals simp_all [MainPc.deviceJoined]
  obtain ⟨l', hreleases, hheld', hsame⟩ :=
    Stock.replay_releases Resource.isSync rs s'.main.held (hheld ▸ h.held)
      fun _ _ _ => h.unjoined.trans (hunjoined hsession hjoined)
  refine ⟨l', hevents ▸ hreleases, hheld', ?_⟩
  rw [hsame, h.unjoined, hunjoined hsession hjoined, hunjoined (hsession.stepMain hs) hjoined']

theorem Stocked.stepMain {s s' : System} {l : Stock Resource ServerThread} {accepted : Accepted}
    {ok : Bool} (h : Stocked s l) (hsession : SessionInv s)
    (hopen : s.serverSocketOpen = true ↔ .server_socket ∈ s.main.held)
    (hs : s.stepMain accepted ok = some s') : Restocked s s' l (.main accepted ok) := by
  have hstep := hs
  cases hmain : s.main with
  | create k => exact h.create hsession hmain hs
  | joinComm => exact h.joinComm hmain hs
  | cleanupJoinComm =>
      have hforced := hsession.unforced
      rw [hmain] at hforced
      cases hforced
  | joinDevice => exact h.joinDevice hsession hmain hs
  | closeSockets =>
      rw [hmain] at hopen
      refine h.releases hsession (by rw [hmain]; rfl) hs [.server_socket] ?_ ?_
      · simp [System.events, hmain, hopen, MainPc.held]
      · simp only [System.stepMain, hmain] at hstep
        split at hstep <;> cases hstep <;> rw [hmain] <;> rfl
  | cleanDevices =>
      refine h.releases hsession (by rw [hmain]; rfl) hs deviceLibraries ?_ ?_
      · simp [System.events, hmain]
      · simp only [System.stepMain, hmain] at hstep
        cases hstep
        rw [hmain]
        rfl
  | destroy =>
      refine h.releases hsession (by rw [hmain]; rfl) hs syncObjects ?_ ?_
      · simp [System.events, hmain]
      · simp only [System.stepMain, hmain] at hstep
        cases hstep
        rw [hmain]
        rfl
  | _ =>
      obtain ⟨hheld, hunjoined⟩ := h
      rw [hmain] at hheld
      simp only [System.stepMain, hmain] at hs
      repeat' split at hs
      all_goals cases hs
      all_goals
        refine ⟨l, by simp [System.events, hmain, Stock.replay], hheld, hunjoined.trans ?_⟩
        apply (unjoined_congr _ _).symm
      all_goals
        simp [hmain, MainPc.deviceJoined, System.send, System.close, System.signalNotEmpty,
          System.signalResponse, signalled_eq_absent]

theorem stepMain_socket_open {s s' : System} {accepted : Accepted} {ok : Bool}
    (hopen : s.serverSocketOpen = true ↔ .server_socket ∈ s.main.held)
    (hs : s.stepMain accepted ok = some s') :
    s'.serverSocketOpen = true ↔ .server_socket ∈ s'.main.held := by
  revert hs
  fun_cases System.stepMain s accepted ok
  all_goals intro hs
  all_goals cases hs
  all_goals simp_all [MainPc.held, System.send, System.close, System.signalNotEmpty,
    System.signalResponse, deviceLibraries, syncObjects]

theorem Kept.stepMain {p : Process} {s' : System} {accepted : Accepted} {ok : Bool}
    (h : Kept p) (hpc : p.pc = .serving) (hs : p.system.stepMain accepted ok = some s') :
    Kept { p with system := s', events := p.events ++ p.system.events (.main accepted ok) } := by
  obtain ⟨l, hreplay, hheld, hunjoined, _⟩ := h.stock
  rw [Process.held, hpc] at hheld
  rw [Process.unjoined, hpc] at hunjoined
  obtain ⟨l', hmore, hstocked⟩ := Stocked.stepMain ⟨hheld, hunjoined⟩ h.session h.socket hs
  refine ⟨h.created, h.session.stepMain hs, fun hnot => absurd hpc hnot,
    stepMain_socket_open h.socket hs, l', Stock.replay_concat hreplay hmore, ?_, ?_, ?_⟩
  · rw [Process.held, hpc]
    exact hstocked.held
  · rw [Process.unjoined, hpc]
    exact hstocked.unjoined
  · intro step hinit
    rw [hpc] at hinit
    cases hinit

theorem Kept.step {p p' : Process} {a : ProcessAction} (h : Kept p) (ha : p.orderly a = true)
    (hs : p.step a = some p') : Kept p' := by
  cases a with
  | start ok => exact h.stepStart ha hs
  | server a =>
      simp only [Process.step] at hs
      split at hs
      · next hserving =>
          obtain ⟨s', hstep, rfl⟩ := Option.map_eq_some_iff.mp hs
          cases a with
          | main accepted ok =>
              have hpc : p.pc = .serving := by simpa using hserving
              exact h.stepMain hpc hstep
          | _ => exact h.stepOther hstep (by simp)
      · cases hs

theorem kept_of_reachable {server_ip : Bytes} {p : Process}
    (h : (processMachine server_ip).ReachableUnder (fun p a => p.orderly a = true) p) : Kept p :=
  h.invariant (kept_init server_ip) fun _ _ _ _ hI ha hs => hI.step ha hs

theorem Kept.accounted {p : Process} (h : Kept p) : p.Accounted := by
  obtain ⟨l, hreplay, hheld, hunjoined, _⟩ := h.stock
  refine ⟨Stock.balanced_of_replay hreplay, fun hexited => ?_⟩
  rw [Process.exited, Bool.or_eq_true, Bool.and_eq_true, beq_iff_eq, beq_iff_eq,
    beq_iff_eq] at hexited
  rcases hexited with hfailed | ⟨hserving, hfinished⟩
  · rw [Process.held, hfailed] at hheld
    rw [Process.unjoined, hfailed] at hunjoined
    exact Stock.settled_of_replay hreplay (List.perm_nil.mp hheld) hunjoined
  · rw [Process.held, hserving] at hheld
    rw [Process.unjoined, hserving] at hunjoined
    refine Stock.settled_of_replay hreplay ?_ ?_
    · rw [hfinished] at hheld
      exact List.perm_nil.mp hheld
    · have habsent := absent_of_not_joining h.session (by simp [hfinished])
      rw [hunjoined, System.unjoined, hfinished, habsent]
      rfl

/-! ## What a failed creation of the device thread leads to -/

/-- The `server_cleanup` of the error path joins the device thread that was not
created. -/
theorem unaccounted_of_abandoned (server_ip : Bytes) {p : Process}
    {l : Stock Resource ServerThread} (hpc : p.pc = .serving) (hmain : p.system.main = .cleanup)
    (hdevice : p.system.device = .returned) (hconn : p.system.client_connected = false)
    (hreplay : Stock.empty.replay Resource.isSync p.events = some l) (hunjoined : l.unjoined = []) :
    ∃ q, (processMachine server_ip).Reaches p q ∧ ¬ q.Accounted := by
  have hrun : (processMachine server_ip).exec p
      (List.replicate 4 (.server (.main .again true))) = some { p with
        system := { p.system with server_running := false, main := .stopWebServer }
        events := p.events ++ [.join .device] } := by
    simp [List.replicate, Machine.exec, processMachine, Process.step, hpc, System.step,
      System.stepMain, hmain, hconn, hdevice, System.signalNotEmpty, DevicePc.signalled,
      System.events]
  refine ⟨_, Machine.Reaches.of_exec hrun, fun haccounted => ?_⟩
  refine Stock.not_balanced_of_join (t := .device) hreplay ?_ haccounted.1
  rw [hunjoined]
  exact List.not_mem_nil

theorem Kept.unaccounted_of_not_orderly {server_ip : Bytes} {p p' : Process} {a : ProcessAction}
    (h : Kept p) (ha : p.orderly a = false) (hs : p.step a = some p') :
    ∃ q, (processMachine server_ip).Reaches p' q ∧ ¬ q.Accounted := by
  simp only [Process.orderly, Bool.not_eq_false', Bool.and_eq_true, beq_iff_eq] at ha
  obtain ⟨hpc, rfl⟩ := ha
  have hnot : p.pc ≠ .serving := by simp [hpc]
  obtain ⟨l, hreplay, _, hunjoined, _⟩ := h.stock
  obtain ⟨_, hconn⟩ := h.unconnected hnot
  rw [Process.unjoined, hpc] at hunjoined
  simp only [Process.step, Process.stepStart, hpc, Bool.false_eq_true, if_false] at hs
  split at hs
  · cases hs
    obtain ⟨q, hreach, hq⟩ := unaccounted_of_abandoned server_ip
      (p := { p with system := p.system.withoutDevice, pc := .serving }) rfl rfl rfl hconn
      hreplay hunjoined
    exact ⟨q, Relation.ReflTransGen.trans (Machine.Reaches.of_step (.start true) rfl) hreach, hq⟩
  · cases hs
    exact unaccounted_of_abandoned server_ip rfl rfl rfl hconn hreplay hunjoined

/-! ## The result -/

/-- Over every run of `main`: as long as the device thread is created the trace is
balanced, and settled at the end; if it is not, `server_cleanup` joins a thread that
does not exist. -/
theorem resources_accounted {server_ip : Bytes} {p : Process}
    (h : (processMachine server_ip).ReachableUnder (fun p a => p.orderly a = true) p) :
    p.Accounted ∧ ∀ a p', p.step a = some p' → p.orderly a = false →
      ∃ q, (processMachine server_ip).Reaches p' q ∧ ¬ q.Accounted :=
  ⟨(kept_of_reachable h).accounted,
    fun _ _ hs ha => (kept_of_reachable h).unaccounted_of_not_orderly ha hs⟩

def startSteps (n : Nat) : List ProcessAction := List.replicate n (.start true)

def oneSession : List ProcessAction :=
  (connect ++ [Action.hangUp 0] ++ commSteps 2 ++ mainSteps 1 ++ [Action.interrupt] ++
    deviceSteps 1 ++ mainSteps 10).map .server

theorem resources_after_one_session :
    ∃ p, (processMachine []).ReachableUnder (fun p a => p.orderly a = true) p ∧
      p.exited = true ∧ p.events.count (.join .comm) = 1 ∧ p.Accounted := by
  have hrun : ((processMachine []).execUnder (fun p a => p.orderly a) (processMachine []).start
      (startSteps 17 ++ oneSession)).any (fun p =>
        p.exited = true ∧ p.events.count (.join .comm) = 1) = true := by
    decide +kernel
  obtain ⟨p, hreach, hfacts⟩ := Machine.ReachableUnder.exists_of_exec hrun
  obtain ⟨hexited, hjoined⟩ := of_decide_eq_true hfacts
  exact ⟨p, hreach, hexited, hjoined, (resources_accounted hreach).1⟩

/-- The device thread cannot be created: the error path joins it all the same. -/
theorem device_joined_uncreated :
    ¬ ∀ p, (processMachine []).Reachable p → p.Accounted := by
  intro hall
  have hrun : ((processMachine []).exec (processMachine []).start
      (startSteps 16 ++ [ProcessAction.start false, .start true] ++
        (mainSteps 4).map ProcessAction.server)).any (fun p =>
          p.events.getLast? = some (.join .device) ∧
            p.events.count (.create .device) = 0) = true := by
    decide +kernel
  obtain ⟨p, hreach, hfacts⟩ := Machine.Reachable.exists_of_exec hrun
  obtain ⟨hlast, hnone⟩ := of_decide_eq_true hfacts
  obtain ⟨before, hevents⟩ := List.getLast?_eq_some_iff.mp hlast
  have hbalanced := (hall p hreach).1
  rw [hevents] at hbalanced hnone
  have hjoin : before.count (.join .device) < before.count (.create .device) :=
    (balanced_concat.mp hbalanced).2
  rw [List.count_append] at hnone
  omega

end RsvpControl.Server
