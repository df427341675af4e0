import RsvpControl.Core.Machine
import RsvpControl.Device.Libraries

/-! # Playback threads

`play_music_async` detaches one thread for each playback; callers and threads
share `is_playing` and `should_stop` under `music_mutex`. A step is one critical
section or one of the unlocked actions between them, so any number of callers
interleave with the threads in every order. The calls of `music_init` and
`music_cleanup` are part of the runs.
-/

namespace RsvpControl.Music

open RsvpControl.Core Device

/-! ## Program points -/

/-- Where a playback thread is. `i` is the note, `remaining` what is left of its
time. -/
inductive PlayerPc where
  /-- At the head of the loop over the notes. -/
  | note (i : Nat)
  /-- Past the test of `should_stop`, about to write the tone. -/
  | tone (i : Nat)
  /-- At the head of the loop over the time of the note. -/
  | wait (i : Nat) (remaining : Int)
  /-- After a `delay`, about to test `should_stop`. -/
  | recheck (i : Nat) (remaining : Int)
  | silence
  /-- Returned from the notes, about to clear both flags. -/
  | clear (interrupted : Bool)
  | done (interrupted : Bool)
deriving DecidableEq, Repr

structure Playback where
  music : MusicData
  pc : PlayerPc
  /-- A stop has been accepted during this playback. -/
  stopped : Bool
  /-- Non-zero tones written after that. -/
  lateTones : Nat
deriving DecidableEq, Repr

def Playback.create (music : MusicData) : Playback := ⟨music, .note 0, false, 0⟩

inductive CleanupPc where
  | idle
  | stop
  | read
  | join
  | silence
  | reset
deriving DecidableEq, Repr

structure State where
  buzzer : Buzzer
  threads : List Playback
  /-- Calls of `play_music_async` past their test of `initialized`. -/
  callers : List Int
  cleanup : CleanupPc
deriving DecidableEq, Repr

inductive Action where
  | init (speaker_pin : Int) (created : Bool)
  /-- A call of `play_music_async` up to the lock. -/
  | call (music_number : Int)
  /-- The critical section of a call, with the outcomes of its allocation and of
  its thread creation. -/
  | play (caller : Nat) (mallocOk createOk : Bool)
  | stop
  | query
  /-- The next step of a playback thread. -/
  | thread (t : Nat)
  | cleanup
deriving DecidableEq, Repr

/-! ## Critical sections of the callers -/

/-- `play_music_async` under the lock. -/
def playLocked (music_number : Int) (mallocOk createOk : Bool) (buzzer : Buzzer) :
    Buzzer × Int :=
  if buzzer.is_playing then (buzzer, -1)
  else if mallocOk = false then (buzzer, -1)
  else
    match musicData music_number with
    | none => (buzzer, -1)
    | some data =>
        let started := { buzzer with is_playing := true, should_stop := false }
        if createOk = false then ({ started with is_playing := false }, -1)
        else ({ started with players := started.players ++ [data] }, 0)

theorem playMusicAsync_eq (music_number : Int) (mallocOk createOk : Bool) (buzzer : Buzzer) :
    playMusicAsync music_number mallocOk createOk buzzer =
      if buzzer.initialized = false then (buzzer, -1)
      else playLocked music_number mallocOk createOk buzzer := rfl

def Playback.live (p : Playback) : Bool :=
  match p.pc with
  | .done _ => false
  | _ => true

/-- `stop_music`; a stop that is accepted is one of the playback in progress. -/
def State.stopMusic (s : State) : State :=
  { s with
    buzzer := (Device.stopMusic s.buzzer).1
    threads :=
      if s.buzzer.is_playing then
        s.threads.map fun p => if p.live then { p with stopped := true } else p
      else s.threads }

/-! ## Playback threads -/

def delay_step : Int := 50

/-- The control flow of `music_playback_thread` and `play_notes_interruptible`, with
the tone a step writes. -/
def PlayerPc.next (music : MusicData) (should_stop : Bool) :
    PlayerPc → Option (PlayerPc × Option Int)
  | .note i =>
      if i < music.length then
        if should_stop then some (.clear true, some 0) else some (.tone i, none)
      else some (.silence, none)
  | .tone i => some (.wait i music.tempo, some ((music.notes[i]?).getD 0))
  | .wait i remaining =>
      if remaining > 0 then
        let sleep_time := if remaining > delay_step then delay_step else remaining
        some (.recheck i (remaining - sleep_time), none)
      else some (.note (i + 1), none)
  | .recheck i remaining =>
      if should_stop then some (.clear true, some 0) else some (.wait i remaining, none)
  | .silence => some (.clear false, some 0)
  | .clear interrupted => some (.done interrupted, none)
  | .done _ => none

def PlayerPc.clearing : PlayerPc → Bool
  | .clear _ => true
  | _ => false

def Playback.advance (p : Playback) (pc : PlayerPc) (written : Option Int) : Playback :=
  { p with
    pc := pc
    lateTones :=
      if p.stopped && written.any (· != 0) then p.lateTones + 1 else p.lateTones }

def Buzzer.advance (buzzer : Buzzer) (clearing : Bool) (written : Option Int) : Buzzer :=
  { buzzer with
    is_playing := if clearing then false else buzzer.is_playing
    should_stop := if clearing then false else buzzer.should_stop
    tone := written.or buzzer.tone }

def State.runThread (s : State) (t : Nat) : Option State := do
  let p ← s.threads[t]?
  let (pc, written) ← p.pc.next p.music s.buzzer.should_stop
  some { s with
    threads := s.threads.set t (p.advance pc written)
    buzzer := Buzzer.advance s.buzzer p.pc.clearing written }

/-! ## `music_cleanup` -/

/-- The thread it joins is detached, so the join may return at any time. -/
def State.runCleanup (s : State) : State :=
  match s.cleanup with
  | .idle => if s.buzzer.initialized then { s with cleanup := .stop } else s
  | .stop => { s.stopMusic with cleanup := .read }
  | .read =>
      if isMusicPlaying s.buzzer then { s with cleanup := .join }
      else { s with cleanup := .silence }
  | .join => { s with cleanup := .silence }
  | .silence => { s with buzzer := { s.buzzer with tone := some 0 }, cleanup := .reset }
  | .reset => { s with buzzer := { s.buzzer with initialized := false }, cleanup := .idle }

/-! ## The machine -/

def State.step (s : State) : Action → Option State
  | .init speaker_pin created =>
      some { s with buzzer := (musicInit speaker_pin created s.buzzer).1 }
  | .call music_number =>
      if s.buzzer.initialized then some { s with callers := s.callers ++ [music_number] }
      else some s
  | .play caller mallocOk createOk =>
      match s.callers[caller]? with
      | none => none
      | some music_number =>
          let buzzer := (playLocked music_number mallocOk createOk s.buzzer).1
          some { s with
            buzzer := buzzer
            threads :=
              s.threads ++ (buzzer.players.drop s.buzzer.players.length).map Playback.create
            callers := s.callers.eraseIdx caller }
  | .stop => some s.stopMusic
  | .query => some s
  | .thread t => s.runThread t
  | .cleanup => some s.runCleanup

def playbackMachine : Machine State Action := ⟨⟨Buzzer.unset, [], [], .idle⟩, State.step⟩

end RsvpControl.Music
