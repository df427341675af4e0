import RsvpControl.Core.Simulation
import RsvpControl.Music.Playback
import RsvpControl.Rig.Handlers

/-! # The devices with all their threads

The device thread in its handlers, one critical section at a time, the playback threads
of `buzzer.c` and the counting threads of `7segment.c` with their callback, over the one
device state they share. A digit reaches the display in four writes, one for each pin.
The runs start after `server_init` and end before the devices are cleaned up.
-/

namespace RsvpControl.Rig

open RsvpControl.Core Server Device
open Music (PlayerPc)

/-! ## Counting threads -/

/-- The levels of the pins A to D for each digit. -/
def BCD_VALUES : List (List Int) :=
  [[0, 0, 0, 0], [1, 0, 0, 0], [0, 1, 0, 0], [1, 1, 0, 0], [0, 0, 1, 0],
   [1, 0, 1, 0], [0, 1, 1, 0], [1, 1, 1, 0], [0, 0, 0, 1], [1, 0, 0, 1]]

/-- Where a counting thread is. `i` is its loop variable. -/
inductive CounterPc where
  /-- About to test `is_counting`. -/
  | check (i : Nat)
  /-- In `output_bcd`, about to write this pin. -/
  | output (i pin : Nat)
  | sleeping (i : Nat)
  /-- Past the loop, about to clear `is_counting`. -/
  | finish
  | callback
  /-- In the callback, about to clear `segment_counting`. -/
  | clearing
  /-- In the callback, about to start the school bell. -/
  | ringing
  | done
deriving DecidableEq, Repr

/-- A number that is no digit leaves `output_bcd` at once. -/
def CounterPc.next (is_counting : Bool) : CounterPc → Option CounterPc
  | .check i => some (if is_counting then .output i 0 else .done)
  | .output i pin =>
      if i ≤ 9 ∧ pin < 3 then some (.output i (pin + 1))
      else some (if 0 < i then .sleeping i else .finish)
  | .sleeping i => some (.check (i - 1))
  | .finish => some .callback
  | .callback => some .clearing
  | .clearing => some .ringing
  | .ringing => some .done
  | .done => none

/-- `digitalWrite` on the pin of this position. -/
def digitalWrite (seg7 : Seg7) (pin : Nat) (value : Int) : Seg7 :=
  { seg7 with display := seg7.display.map fun levels => levels.set pin value }

/-- What a step of a counting thread does to the devices, with the outcomes of the
allocation and the thread creation in the playback it starts. -/
def CounterPc.change (mallocOk createOk : Bool) (devices : DeviceState) :
    CounterPc → DeviceState
  | .output i pin =>
      match (BCD_VALUES[i]?).bind fun row => row[pin]? with
      | some value => { devices with seg7 := digitalWrite devices.seg7 pin value }
      | none => devices
  | .finish => { devices with seg7 := { devices.seg7 with is_counting := false } }
  | .clearing => { devices with segment_counting := false }
  | .ringing =>
      { devices with
        buzzer := (playMusicAsync MUSIC_SCHOOL_BELL mallocOk createOk devices.buzzer).1 }
  | _ => devices

/-! ## State -/

structure Player where
  music : MusicData
  pc : PlayerPc
deriving DecidableEq, Repr

structure State where
  devices : DeviceState
  /-- The command being handled. -/
  handler : Option (Command × HandlerPc)
  /-- The playback threads, in order of creation. -/
  players : List Player
  /-- The counting threads, in order of creation. -/
  counters : List CounterPc
  /-- Commands handled, each with its response, oldest first. -/
  log : List (Command × CommandResponse)
deriving DecidableEq, Repr

inductive Action where
  /-- The device thread takes a command. -/
  | take (cmd : Command)
  /-- The next section of its handler. -/
  | device (mallocOk createOk : Bool)
  /-- The sensor check between two commands. -/
  | sense (level : Int)
  | player (t : Nat)
  | counter (t : Nat) (mallocOk createOk : Bool)
deriving DecidableEq, Repr

/-- With these devices and the threads created on the way to them. -/
def State.follow (s : State) (devices : DeviceState) : State :=
  { s with
    devices := devices
    players :=
      s.players ++ (devices.buzzer.players.drop s.devices.buzzer.players.length).map fun music =>
        ⟨music, .note 0⟩
    counters :=
      s.counters ++ (devices.seg7.countdowns.drop s.devices.seg7.countdowns.length).map
        fun start_seconds => .check start_seconds.toNat }

/-! ## Steps -/

def State.stepDevice (s : State) (mallocOk createOk : Bool) : Option State :=
  match s.handler with
  | none => none
  | some (cmd, pc) =>
      match pc.perform cmd mallocOk createOk s.devices with
      | (devices, .goto pc') => some { s.follow devices with handler := some (cmd, pc') }
      | (devices, .respond response) =>
          some { s.follow devices with handler := none, log := s.log ++ [(cmd, response)] }

def State.stepPlayer (s : State) (t : Nat) : Option State := do
  let p ← s.players[t]?
  let (pc, written) ← p.pc.next p.music s.devices.buzzer.should_stop
  some { s with
    devices := { s.devices with buzzer := Music.Buzzer.advance s.devices.buzzer p.pc.clearing written }
    players := s.players.set t ⟨p.music, pc⟩ }

def State.stepCounter (s : State) (t : Nat) (mallocOk createOk : Bool) : Option State := do
  let pc ← s.counters[t]?
  let pc' ← pc.next s.devices.seg7.is_counting
  let moved := { s with counters := s.counters.set t pc' }
  some (moved.follow (pc.change mallocOk createOk s.devices))

def State.step (s : State) : Action → Option State
  | .take cmd => if s.handler = none then some { s with handler := some (cmd, .start) } else none
  | .device mallocOk createOk => s.stepDevice mallocOk createOk
  | .sense level =>
      if s.handler = none ∧ s.devices.sensor_monitoring then
        some { s with devices := handleSensorMonitoring level s.devices }
      else none
  | .player t => s.stepPlayer t
  | .counter t mallocOk createOk => s.stepCounter t mallocOk createOk

def rigMachine : Machine State Action := ⟨⟨serverInitDevices, none, [], [], []⟩, State.step⟩

/-! ## What the steps do -/

theorem stepDevice_spec {s s' : State} {mallocOk createOk : Bool}
    (hs : s.stepDevice mallocOk createOk = some s') :
    ∃ cmd pc, s.handler = some (cmd, pc) ∧
      s'.devices = (pc.perform cmd mallocOk createOk s.devices).1 ∧
      s'.players = (s.follow s'.devices).players ∧
      s'.counters = (s.follow s'.devices).counters ∧
      ((∃ pc', (pc.perform cmd mallocOk createOk s.devices).2 = .goto pc' ∧
          s'.handler = some (cmd, pc') ∧ s'.log = s.log) ∨
        ∃ response, (pc.perform cmd mallocOk createOk s.devices).2 = .respond response ∧
          s'.handler = none ∧ s'.log = s.log ++ [(cmd, response)]) := by
  unfold State.stepDevice at hs
  split at hs
  · cases hs
  · next cmd pc hpc =>
      refine ⟨cmd, pc, hpc, ?_⟩
      split at hs
      · next devices pc' hperform =>
          cases hs
          rw [hperform]
          exact ⟨rfl, rfl, rfl, .inl ⟨pc', rfl, rfl, rfl⟩⟩
      · next devices response hperform =>
          cases hs
          rw [hperform]
          exact ⟨rfl, rfl, rfl, .inr ⟨response, rfl, rfl, rfl⟩⟩

theorem stepCounter_spec {s s' : State} {t : Nat} {mallocOk createOk : Bool}
    (hs : s.stepCounter t mallocOk createOk = some s') :
    ∃ pc pc', s.counters[t]? = some pc ∧ pc.next s.devices.seg7.is_counting = some pc' ∧
      s' = ({ s with counters := s.counters.set t pc' } : State).follow
        (pc.change mallocOk createOk s.devices) := by
  unfold State.stepCounter at hs
  cases hpc : s.counters[t]? with
  | none => simp [hpc] at hs
  | some pc =>
      cases hnext : pc.next s.devices.seg7.is_counting with
      | none => simp [hpc, hnext] at hs
      | some pc' =>
          simp only [hpc, hnext, Option.bind_eq_bind, Option.bind_some, Option.some.injEq] at hs
          exact ⟨pc, pc', rfl, hnext, hs.symm⟩

theorem change_buzzer (mallocOk createOk : Bool) (devices : DeviceState) (pc : CounterPc) :
    (pc.change mallocOk createOk devices).buzzer =
      if pc = .ringing then
        (playMusicAsync MUSIC_SCHOOL_BELL mallocOk createOk devices.buzzer).1
      else devices.buzzer := by
  cases pc with
  | output i pin =>
      simp only [CounterPc.change]
      split <;> rfl
  | _ => rfl

theorem change_seg7 (mallocOk createOk : Bool) (devices : DeviceState) (pc : CounterPc) :
    (pc.change mallocOk createOk devices).seg7.countdowns = devices.seg7.countdowns ∧
      (pc.change mallocOk createOk devices).seg7.is_initialized =
        devices.seg7.is_initialized ∧
      (pc.change mallocOk createOk devices).seg7.is_counting =
        (if pc = .finish then false else devices.seg7.is_counting) ∧
      (pc.change mallocOk createOk devices).segment_counting =
        if pc = .clearing then false else devices.segment_counting := by
  cases pc with
  | output i pin =>
      simp only [CounterPc.change]
      split <;> exact ⟨rfl, rfl, rfl, rfl⟩
  | _ => exact ⟨rfl, rfl, rfl, rfl⟩

theorem handleSensorMonitoring_frame (level : Int) (devices : DeviceState) :
    (handleSensorMonitoring level devices).buzzer = devices.buzzer ∧
      (handleSensorMonitoring level devices).seg7 = devices.seg7 ∧
      (handleSensorMonitoring level devices).segment_counting = devices.segment_counting := by
  unfold handleSensorMonitoring
  simp only
  repeat' split
  all_goals exact ⟨rfl, rfl, rfl⟩

/-! ## Threads created on the way -/

/-- No thread created so far is forgotten. -/
structure Extends (devices devices' : DeviceState) : Prop where
  players : devices.buzzer.players <+: devices'.buzzer.players
  countdowns : devices.seg7.countdowns <+: devices'.seg7.countdowns

theorem Extends.trans {d d' d'' : DeviceState} (h : Extends d d') (h' : Extends d' d'') :
    Extends d d'' :=
  ⟨h.players.trans h'.players, h.countdowns.trans h'.countdowns⟩

theorem players_playMusicAsync (music_number : Int) (mallocOk createOk : Bool)
    (buzzer : Buzzer) :
    buzzer.players <+: (playMusicAsync music_number mallocOk createOk buzzer).1.players := by
  unfold playMusicAsync
  repeat' split
  all_goals first
    | exact List.prefix_rfl
    | exact List.prefix_append _ _

theorem players_stopMusic (buzzer : Buzzer) : (stopMusic buzzer).1.players = buzzer.players := by
  unfold stopMusic
  split <;> rfl

theorem extends_perform (cmd : Command) (mallocOk createOk : Bool) (devices : DeviceState)
    (pc : HandlerPc) : Extends devices (pc.perform cmd mallocOk createOk devices).1 where
  players := by
    rw [perform_buzzer]
    split
    · exact players_playMusicAsync _ _ _ _
    · rw [players_stopMusic]
    · exact List.prefix_rfl
  countdowns := by
    rcases (perform_seg7 cmd mallocOk createOk devices pc).2 with hsame | ⟨-, -, -, hone⟩
    · rw [hsame]
    · rw [hone]
      exact List.prefix_append _ _

theorem drop_of_prefix {α : Type} {xs ys zs : List α} (h : xs <+: ys) (h' : ys <+: zs) :
    zs.drop xs.length = ys.drop xs.length ++ zs.drop ys.length := by
  obtain ⟨a, rfl⟩ := h
  obtain ⟨b, rfl⟩ := h'
  simp

theorem follow_follow {s : State} {d d' : DeviceState} (h : Extends s.devices d)
    (h' : Extends d d') : (s.follow d).follow d' = s.follow d' := by
  simp only [State.follow, drop_of_prefix h.players h'.players,
    drop_of_prefix h.countdowns h'.countdowns, List.map_append, List.append_assoc]

/-! ## A handler that is not interrupted -/

/-- The device thread alone, from a section of a handler to its response. -/
theorem exec_complete {cmd : Command} {mallocOk createOk : Bool} {fuel : Nat} {s : State}
    {pc : HandlerPc} {devices : DeviceState} {response : CommandResponse}
    (hpc : s.handler = some (cmd, pc))
    (h : pc.complete cmd mallocOk createOk fuel s.devices = some (devices, response)) :
    ∃ n ≤ fuel, rigMachine.exec s (List.replicate n (.device mallocOk createOk)) =
      some { s.follow devices with handler := none, log := s.log ++ [(cmd, response)] } ∧
        Extends s.devices devices := by
  induction fuel generalizing s pc with
  | zero => cases h
  | succ fuel ih =>
      have hextends := extends_perform cmd mallocOk createOk s.devices pc
      rw [HandlerPc.complete] at h
      split at h
      · next state' response' hperform =>
          cases h
          rw [hperform] at hextends
          refine ⟨1, by omega, ?_, hextends⟩
          rw [List.replicate_one, Machine.exec_singleton]
          simp only [rigMachine, State.step, State.stepDevice, hpc, hperform]
      · next state' pc' hperform =>
          rw [hperform] at hextends
          have hstep : rigMachine.step s (.device mallocOk createOk) =
              some { s.follow state' with handler := some (cmd, pc') } := by
            simp only [rigMachine, State.step, State.stepDevice, hpc, hperform]
          obtain ⟨n, hn, hrun, hrest⟩ := ih (s := { s.follow state' with handler := some (cmd, pc') })
            rfl h
          refine ⟨n + 1, by omega, ?_, hextends.trans hrest⟩
          rw [List.replicate_succ, Machine.exec_cons, hstep, Option.bind_some, hrun]
          congr 1
          have hfollow := follow_follow hextends hrest
          simp only [State.follow, State.mk.injEq] at hfollow ⊢
          exact ⟨trivial, trivial, hfollow.2.2.1, hfollow.2.2.2.1, trivial⟩

/-- Whatever the threads of the libraries are doing, a handler that none of them
interrupts takes at most five sections and does what the switch of the device thread does
in one go: the same devices, the same response, the same threads created. -/
theorem uninterrupted_handler (s : State) (cmd : Command) (mallocOk createOk : Bool)
    (hidle : s.handler = none) :
    ∃ n ≤ 5, rigMachine.exec s (.take cmd :: List.replicate n (.device mallocOk createOk)) =
      some { s.follow (dispatch cmd mallocOk createOk s.devices).1 with
        log := s.log ++ [(cmd, (dispatch cmd mallocOk createOk s.devices).2)] } := by
  have hcomplete : HandlerPc.start.complete cmd mallocOk createOk 5 s.devices =
      some ((dispatch cmd mallocOk createOk s.devices).1,
        (dispatch cmd mallocOk createOk s.devices).2) :=
    complete_eq_dispatch cmd mallocOk createOk s.devices
  have htake : rigMachine.step s (.take cmd) = some { s with handler := some (cmd, .start) } :=
    if_pos hidle
  obtain ⟨n, hn, hrun, -⟩ :=
    exec_complete (s := { s with handler := some (cmd, .start) }) rfl hcomplete
  refine ⟨n, hn, ?_⟩
  rw [Machine.exec_cons, htake, Option.bind_some, hrun]
  simp only [State.follow, hidle]

/-- A countdown is started from the first state in three sections. -/
theorem countdown_started :
    ∃ n ≤ 5, rigMachine.exec rigMachine.start
        (.take ⟨.segmentDisplay, 3, 0⟩ :: List.replicate n (.device true true)) =
      some { rigMachine.start.follow
          (dispatch ⟨.segmentDisplay, 3, 0⟩ true true serverInitDevices).1 with
        log := [(⟨.segmentDisplay, 3, 0⟩,
          (dispatch ⟨.segmentDisplay, 3, 0⟩ true true serverInitDevices).2)] } :=
  uninterrupted_handler rigMachine.start ⟨.segmentDisplay, 3, 0⟩ true true rfl

end RsvpControl.Rig
