import RsvpControl.Music.Playback
import RsvpControl.Server.Sessions

/-! # Commands that fail

A handler that ends in an error has undone what it had set. What it writes back is
a constant, so this is a matter of what the flags were before: the start of a playback
that fails leaves `should_stop` clear, and it was. The runs are those of the server with
every other user of `buzzer.c` in between, one critical section or unlocked write at a
time, and with any change whatever outside that library.
-/

namespace RsvpControl.Server

open RsvpControl.Core Device

/-! ## The server and the threads of the libraries -/

/-- A critical section or an unlocked write in `buzzer.c`, of a callback or of a
handler under way. -/
inductive BuzzerStep where
  | init (speaker_pin : Int) (created : Bool)
  | play (music_number : Int) (mallocOk createOk : Bool)
  | stop
  /-- The last tone of `music_cleanup`. -/
  | silence
  | reset
deriving DecidableEq, Repr

def BuzzerStep.apply (buzzer : Buzzer) : BuzzerStep → Buzzer
  | .init speaker_pin created => (musicInit speaker_pin created buzzer).1
  | .play music_number mallocOk createOk =>
      (Music.playLocked music_number mallocOk createOk buzzer).1
  | .stop => (stopMusic buzzer).1
  | .silence => { buzzer with tone := some 0 }
  | .reset => { buzzer with initialized := false }

/-- A playback thread. -/
structure Player where
  music : MusicData
  pc : Music.PlayerPc
deriving DecidableEq, Repr

structure Plant where
  system : System
  players : List Player
deriving DecidableEq, Repr

inductive PlantAction where
  | server (a : Action)
  | buzzer (b : BuzzerStep)
  /-- The next step of a playback thread. -/
  | player (t : Nat)
  /-- Any change of the device state outside `buzzer.c`. -/
  | others (devices : DeviceState)
deriving DecidableEq, Repr

/-- In the new state of the server, with the playback threads it has created. -/
def Plant.follow (p : Plant) (s : System) : Plant where
  system := s
  players :=
    p.players ++
      (s.devices.buzzer.players.drop p.system.devices.buzzer.players.length).map fun music =>
        ⟨music, .note 0⟩

def Plant.withBuzzer (p : Plant) (buzzer : Buzzer) : System :=
  { p.system with devices := { p.system.devices with buzzer := buzzer } }

def Plant.step (p : Plant) : PlantAction → Option Plant
  | .server (.libraries _) => none
  | .server a => (p.system.step a).map p.follow
  | .buzzer b => some (p.follow (p.withBuzzer (b.apply p.system.devices.buzzer)))
  | .player t =>
      match p.players[t]? with
      | none => none
      | some q =>
          (q.pc.next q.music p.system.devices.buzzer.should_stop).map fun (pc, written) =>
            { system := p.withBuzzer
                (Music.Buzzer.advance p.system.devices.buzzer q.pc.clearing written)
              players := p.players.set t ⟨q.music, pc⟩ }
  | .others devices =>
      some { p with
        system := { p.system with devices := { devices with buzzer := p.system.devices.buzzer } } }

def plantMachine (server_ip : Bytes) : Machine Plant PlantAction :=
  ⟨⟨System.init server_ip, []⟩, Plant.step⟩

/-! ## The stop flag -/

/-- A stop is one of a playback in progress. -/
def StopsPlayback (buzzer : Buzzer) : Prop := buzzer.should_stop = true → buzzer.is_playing = true

theorem StopsPlayback.playLocked {buzzer : Buzzer} (h : StopsPlayback buzzer)
    (music_number : Int) (mallocOk createOk : Bool) :
    StopsPlayback (Music.playLocked music_number mallocOk createOk buzzer).1 := by
  unfold Music.playLocked
  repeat' split
  all_goals first
    | exact h
    | (intro hstop; cases hstop)

theorem StopsPlayback.playMusicAsync {buzzer : Buzzer} (h : StopsPlayback buzzer)
    (music_number : Int) (mallocOk createOk : Bool) :
    StopsPlayback (Device.playMusicAsync music_number mallocOk createOk buzzer).1 := by
  rw [Music.playMusicAsync_eq]
  split
  · exact h
  · exact h.playLocked music_number mallocOk createOk

theorem StopsPlayback.stopMusic {buzzer : Buzzer} (h : StopsPlayback buzzer) :
    StopsPlayback (Device.stopMusic buzzer).1 := by
  unfold Device.stopMusic
  split
  · exact h
  · next hplaying => exact fun _ => by simpa using hplaying

theorem StopsPlayback.musicInit {buzzer : Buzzer} (h : StopsPlayback buzzer) (speaker_pin : Int)
    (created : Bool) : StopsPlayback (Device.musicInit speaker_pin created buzzer).1 := by
  unfold Device.musicInit
  repeat' split
  all_goals exact h

theorem StopsPlayback.musicCleanup {buzzer : Buzzer} (h : StopsPlayback buzzer) :
    StopsPlayback (Device.musicCleanup buzzer) := by
  unfold Device.musicCleanup
  split
  · exact h
  · exact h.stopMusic

theorem StopsPlayback.apply {buzzer : Buzzer} (h : StopsPlayback buzzer) (b : BuzzerStep) :
    StopsPlayback (b.apply buzzer) := by
  cases b with
  | init speaker_pin created => exact h.musicInit speaker_pin created
  | play music_number mallocOk createOk => exact h.playLocked music_number mallocOk createOk
  | stop => exact h.stopMusic
  | silence => exact h
  | reset => exact h

theorem StopsPlayback.advance {buzzer : Buzzer} (h : StopsPlayback buzzer) (clearing : Bool)
    (written : Option Int) : StopsPlayback (Music.Buzzer.advance buzzer clearing written) := by
  cases clearing with
  | true =>
      intro hstop
      cases hstop
  | false => exact h

theorem StopsPlayback.dispatch {state : DeviceState} (h : StopsPlayback state.buzzer)
    (cmd : Command) (mallocOk createOk : Bool) :
    StopsPlayback (dispatch cmd mallocOk createOk state).1.buzzer := by
  unfold Device.dispatch
  split
  case h_1 | h_2 =>
    simp only [processLedOn, processLedOff]
    split <;> exact h
  case h_3 =>
    simp only [processSetBrightness]
    repeat' split
    all_goals exact h
  case h_4 =>
    simp only [processBuzzerOn]
    generalize (if cmd.param1 < MUSIC_SCHOOL_BELL ∨ cmd.param1 > MUSIC_BUTTERFLY then
      MUSIC_SCHOOL_BELL else cmd.param1) = music_num
    have hplayed := h.playMusicAsync music_num mallocOk createOk
    repeat' split
    · exact h
    · exact hplayed
    · exact hplayed
  case h_5 =>
    simp only [processBuzzerOff]
    repeat' split
    · exact h
    · exact h.stopMusic
    · exact h.stopMusic
  case h_8 =>
    simp only [processSegmentDisplay]
    repeat' split
    all_goals exact h
  case h_9 =>
    simp only [processSegmentStop]
    repeat' split
    all_goals exact h
  all_goals exact h

theorem handleSensorMonitoring_buzzer (level : Int) (state : DeviceState) :
    (handleSensorMonitoring level state).buzzer = state.buzzer := by
  unfold handleSensorMonitoring
  simp only
  repeat' split
  all_goals rfl

theorem stepComm_devices {s s' : System} {ok : Bool} (hs : s.stepComm ok = some s') :
    s'.devices = s.devices := by
  revert hs
  fun_cases System.stepComm s ok
  all_goals intro hs
  all_goals cases hs
  all_goals rfl

theorem StopsPlayback.stepMain {s s' : System} {accepted : Accepted} {ok : Bool}
    (h : StopsPlayback s.devices.buzzer) (hs : s.stepMain accepted ok = some s') :
    StopsPlayback s'.devices.buzzer := by
  revert hs
  fun_cases System.stepMain s accepted ok
  all_goals intro hs
  all_goals cases hs
  all_goals first
    | exact h
    | exact h.musicCleanup

theorem StopsPlayback.stepDevice {s s' : System} {mallocOk createOk : Bool} {level : Int}
    (h : StopsPlayback s.devices.buzzer)
    (hs : s.stepDevice mallocOk createOk level = some s') :
    StopsPlayback s'.devices.buzzer := by
  revert hs
  fun_cases System.stepDevice s mallocOk createOk level
  all_goals intro hs
  all_goals cases hs
  all_goals first
    | exact h
    | (rw [handleSensorMonitoring_buzzer]; exact h)
    | skip
  next block hblock cmd frees hcmd devices response hdispatch =>
    have hafter := h.dispatch cmd mallocOk createOk
    rw [hdispatch] at hafter
    exact hafter

theorem StopsPlayback.server {s s' : System} {a : Action} (h : StopsPlayback s.devices.buzzer)
    (hs : s.step a = some s') (hlibraries : ∀ devices, a ≠ .libraries devices) :
    StopsPlayback s'.devices.buzzer := by
  cases a with
  | main accepted ok => exact h.stepMain hs
  | comm ok => rw [stepComm_devices hs]; exact h
  | commWake wake =>
      obtain ⟨block, -, rfl⟩ := wakeComm_eq hs
      exact h
  | device mallocOk createOk level => exact h.stepDevice hs
  | deviceWake wake =>
      obtain ⟨-, rfl⟩ := wakeDevice_eq hs
      exact h
  | interrupt | hangUp socket =>
      cases hs
      exact h
  | arrive socket chunk =>
      simp only [System.step] at hs
      repeat' split at hs
      all_goals cases hs
      exact h
  | libraries devices => exact absurd rfl (hlibraries devices)

theorem StopsPlayback.plant {p p' : Plant} {a : PlantAction}
    (h : StopsPlayback p.system.devices.buzzer) (hs : p.step a = some p') :
    StopsPlayback p'.system.devices.buzzer := by
  unfold Plant.step at hs
  split at hs
  · cases hs
  · next a hlibraries =>
      obtain ⟨s, hstep, rfl⟩ := Option.map_eq_some_iff.mp hs
      exact h.server hstep hlibraries
  · cases hs
    exact h.apply _
  · split at hs
    · cases hs
    · next q hq =>
        obtain ⟨⟨pc, written⟩, hnext, rfl⟩ := Option.map_eq_some_iff.mp hs
        exact h.advance _ _
  · cases hs
    exact h

theorem stopsPlayback_of_reachable {server_ip : Bytes} {p : Plant}
    (h : (plantMachine server_ip).Reachable p) : StopsPlayback p.system.devices.buzzer :=
  Machine.Reachable.invariant (I := fun p => StopsPlayback p.system.devices.buzzer)
    (fun hstop => by cases hstop) (fun _ _ _ hi hs => hi.plant hs) h

/-! ## Handlers that fail -/

theorem ledOn_failed {led : Led} (h : (ledOn led).2 ≠ 0) : (ledOn led).1 = led := by
  revert h
  fun_cases ledOn led
  · exact fun _ => rfl
  · exact fun h => absurd rfl h

theorem ledOff_failed {led : Led} (h : (ledOff led).2 ≠ 0) : (ledOff led).1 = led := by
  revert h
  fun_cases ledOff led
  · exact fun _ => rfl
  · exact fun h => absurd rfl h

theorem ledSetBrightness_failed {brightness : Int} {led : Led}
    (h : (ledSetBrightness brightness led).2 ≠ 0) : (ledSetBrightness brightness led).1 = led := by
  revert h
  fun_cases ledSetBrightness brightness led
  · exact fun _ => rfl
  · exact fun _ => rfl
  · exact fun h => absurd rfl h

theorem stopMusic_failed {buzzer : Buzzer} (h : (stopMusic buzzer).2 ≠ 0) :
    (stopMusic buzzer).1 = buzzer := by
  revert h
  fun_cases stopMusic buzzer
  · exact fun _ => rfl
  · exact fun h => absurd rfl h

theorem buzzer_undone {buzzer : Buzzer} (hplaying : buzzer.is_playing = false)
    (hstop : buzzer.should_stop = false) :
    { buzzer with is_playing := false, should_stop := false } = buzzer := by
  cases buzzer
  simp only at hplaying hstop
  rw [hplaying, hstop]

theorem seg7_undone {seg7 : Seg7} (hcounting : seg7.is_counting = false) :
    { seg7 with is_counting := false } = seg7 := by
  cases seg7
  simp only at hcounting
  rw [hcounting]

theorem segment_undone {state : DeviceState} (hcounting : state.segment_counting = false) :
    { state with segment_counting := false } = state := by
  cases state
  simp only at hcounting
  rw [hcounting]

/-- A start that fails in its thread creation clears both flags, and they were clear. -/
theorem playMusicAsync_failed {buzzer : Buzzer} (hstops : StopsPlayback buzzer)
    {music_number : Int} {mallocOk createOk : Bool}
    (h : (playMusicAsync music_number mallocOk createOk buzzer).2 ≠ 0) :
    (playMusicAsync music_number mallocOk createOk buzzer).1 = buzzer := by
  revert h
  fun_cases playMusicAsync music_number mallocOk createOk buzzer
  case case5 hidle _ data _ started hcreate =>
    intro _
    have hplaying : buzzer.is_playing = false := by simpa using hidle
    have hstop : buzzer.should_stop = false := by
      by_contra hon
      exact hidle (hstops (by simpa using hon))
    exact buzzer_undone hplaying hstop
  all_goals first
    | exact fun _ => rfl
    | exact fun h => absurd rfl h

theorem seg7Counting_failed {seg7 : Seg7} {start_seconds : Int} {mallocOk createOk : Bool}
    (h : (seg7Counting start_seconds mallocOk createOk seg7).2 ≠ 0) :
    (seg7Counting start_seconds mallocOk createOk seg7).1 = seg7 := by
  revert h
  fun_cases seg7Counting start_seconds mallocOk createOk seg7
  case case4 hidle started hmalloc => exact fun _ => seg7_undone (by simpa using hidle)
  case case5 hidle started hmalloc hcreate => exact fun _ => seg7_undone (by simpa using hidle)
  all_goals first
    | exact fun _ => rfl
    | exact fun h => absurd rfl h

theorem seg7StopCounting_succeeds (seg7 : Seg7) : (seg7StopCounting seg7).2 = 0 := by
  unfold seg7StopCounting
  split <;> rfl

theorem kept_of_failed {α : Type} {result : α × Int} {kept changed : α} {rc : Int}
    (hfailed : result.2 ≠ 0 → result.1 = kept) (hresult : result = (changed, rc))
    (hrc : ¬ rc = 0) : changed = kept := by
  subst hresult
  exact hfailed hrc

theorem processLedOn_failed {state : DeviceState} (h : (processLedOn state).2.status ≠ 0) :
    (processLedOn state).1 = state := by
  revert h
  fun_cases processLedOn state
  case case1 => exact fun h => absurd rfl h
  case case2 led rc hled hrc =>
    obtain rfl := kept_of_failed ledOn_failed hled hrc
    exact fun _ => rfl

theorem processLedOff_failed {state : DeviceState} (h : (processLedOff state).2.status ≠ 0) :
    (processLedOff state).1 = state := by
  revert h
  fun_cases processLedOff state
  case case1 => exact fun h => absurd rfl h
  case case2 led rc hled hrc =>
    obtain rfl := kept_of_failed ledOff_failed hled hrc
    exact fun _ => rfl

theorem processSetBrightness_failed {cmd : Command} {state : DeviceState}
    (h : (processSetBrightness cmd state).2.status ≠ 0) :
    (processSetBrightness cmd state).1 = state := by
  revert h
  fun_cases processSetBrightness cmd state
  case case1 => exact fun _ => rfl
  case case2 => exact fun h => absurd rfl h
  case case3 led rc hled hrc =>
    obtain rfl := kept_of_failed ledSetBrightness_failed hled hrc
    exact fun _ => rfl

theorem processBuzzerOn_failed {state : DeviceState} (hstops : StopsPlayback state.buzzer)
    {cmd : Command} {mallocOk createOk : Bool}
    (h : (processBuzzerOn cmd mallocOk createOk state).2.status ≠ 0) :
    (processBuzzerOn cmd mallocOk createOk state).1 = state := by
  revert h
  fun_cases processBuzzerOn cmd mallocOk createOk state
  case case1 => exact fun _ => rfl
  case case2 => exact fun h => absurd rfl h
  case case3 buzzer rc hplay hrc =>
    obtain rfl := kept_of_failed (playMusicAsync_failed hstops) hplay hrc
    exact fun _ => rfl

theorem processBuzzerOff_failed {state : DeviceState}
    (h : (processBuzzerOff state).2.status ≠ 0) : (processBuzzerOff state).1 = state := by
  revert h
  fun_cases processBuzzerOff state
  case case1 => exact fun _ => rfl
  case case2 => exact fun h => absurd rfl h
  case case3 buzzer rc hstop hrc =>
    obtain rfl := kept_of_failed stopMusic_failed hstop hrc
    exact fun _ => rfl

/-- The server's own flag is set before the library is asked, and cleared again. -/
theorem processSegmentDisplay_failed {cmd : Command} {mallocOk createOk : Bool}
    {state : DeviceState}
    (h : (processSegmentDisplay cmd mallocOk createOk state).2.status ≠ 0) :
    (processSegmentDisplay cmd mallocOk createOk state).1 = state := by
  revert h
  fun_cases processSegmentDisplay cmd mallocOk createOk state
  case case1 => exact fun _ => rfl
  case case2 => exact fun _ => rfl
  case case3 => exact fun h => absurd rfl h
  case case4 hidle started seg7 rc hcounting hrc =>
    obtain rfl := kept_of_failed seg7Counting_failed hcounting hrc
    exact fun _ => segment_undone (by simpa using hidle)

theorem processSegmentStop_failed {state : DeviceState}
    (h : (processSegmentStop state).2.status ≠ 0) : (processSegmentStop state).1 = state := by
  revert h
  fun_cases processSegmentStop state
  case case1 => exact fun _ => rfl
  case case2 => exact fun h => absurd rfl h
  case case3 seg7 rc hstop hrc =>
    have hsucceeds := seg7StopCounting_succeeds state.seg7
    rw [hstop] at hsucceeds
    exact absurd hsucceeds hrc

/-- One case per command. -/
theorem dispatch_failed {cmd : Command} {mallocOk createOk : Bool} {state : DeviceState}
    (hstops : StopsPlayback state.buzzer)
    (h : (dispatch cmd mallocOk createOk state).2.status ≠ 0) :
    (dispatch cmd mallocOk createOk state).1 = state := by
  revert h
  unfold dispatch
  split
  · exact processLedOn_failed
  · exact processLedOff_failed
  · exact processSetBrightness_failed
  · exact processBuzzerOn_failed hstops
  · exact processBuzzerOff_failed
  · exact fun h => absurd rfl h
  · exact fun h => absurd rfl h
  · exact processSegmentDisplay_failed
  · exact processSegmentStop_failed
  · exact fun _ => rfl
  · exact fun _ => rfl

/-! ## The result -/

theorem Plant.follow_of_unchanged {p : Plant} {s : System}
    (h : s.devices = p.system.devices) : (p.follow s).players = p.players := by
  simp [Plant.follow, h]

theorem stepDevice_devices {s s' : System} {block frees : Nat} {cmd : Command}
    {mallocOk createOk : Bool} {level : Int} (hdevice : s.device = .dispatch block)
    (hcmd : s.heap[block]? = some ⟨cmd, frees⟩)
    (hs : s.stepDevice mallocOk createOk level = some s') :
    s'.devices = (dispatch cmd mallocOk createOk s.devices).1 := by
  simp only [System.stepDevice, hdevice, hcmd] at hs
  cases hs
  rfl

/-- In every reachable state, whatever the command and whichever call inside the library
fails: a handler that reports an error leaves the devices as they were, and the device
thread that runs it creates no thread. -/
theorem failed_command_changes_nothing {server_ip : Bytes} {p : Plant}
    (h : (plantMachine server_ip).Reachable p) {cmd : Command} {mallocOk createOk : Bool}
    (hfailed : (dispatch cmd mallocOk createOk p.system.devices).2.status ≠ 0) :
    (dispatch cmd mallocOk createOk p.system.devices).1 = p.system.devices ∧
      ∀ block frees level p', p.system.device = .dispatch block →
        p.system.heap[block]? = some ⟨cmd, frees⟩ →
        p.step (.server (.device mallocOk createOk level)) = some p' →
        p'.system.devices = p.system.devices ∧ p'.players = p.players := by
  have hsame := dispatch_failed (stopsPlayback_of_reachable h) hfailed
  refine ⟨hsame, ?_⟩
  intro block frees level p' hdevice hcmd hs
  obtain ⟨s, hstep, rfl⟩ := Option.map_eq_some_iff.mp hs
  have hdevices : s.devices = p.system.devices :=
    (stepDevice_devices hdevice hcmd hstep).trans hsame
  exact ⟨hdevices, Plant.follow_of_unchanged hdevices⟩

/-- A countdown whose thread cannot be created, while a playback winds down. -/
theorem failed_countdown_changes_nothing :
    ∃ p, (plantMachine (text "127.0.0.1")).Reachable p ∧
      p.system.devices.buzzer.should_stop = true ∧
      (dispatch ⟨.segmentDisplay, 9, 0⟩ true false p.system.devices).2.status = -1 ∧
      (dispatch ⟨.segmentDisplay, 9, 0⟩ true false p.system.devices).1 = p.system.devices := by
  have hrun : ((plantMachine (text "127.0.0.1")).exec (plantMachine (text "127.0.0.1")).start
      [.buzzer (.play 1 true true), .player 0, .buzzer .stop]).any (fun p =>
        decide (p.system.devices.buzzer.should_stop = true ∧
          (dispatch ⟨.segmentDisplay, 9, 0⟩ true false p.system.devices).2.status = -1)) =
      true := by
    decide +kernel
  obtain ⟨p, hreach, hfacts⟩ := Machine.Reachable.exists_of_exec hrun
  obtain ⟨hstop, hstatus⟩ := of_decide_eq_true hfacts
  have hfailed : (dispatch ⟨.segmentDisplay, 9, 0⟩ true false p.system.devices).2.status ≠ 0 := by
    rw [hstatus]
    decide
  exact ⟨p, hreach, hstop, hstatus, (failed_command_changes_nothing hreach hfailed).1⟩

end RsvpControl.Server
