import RsvpControl.Core.Destruction

/-! # The locking skeletons of the server's functions

Each function that locks a mutex or calls one that does, down to its locks, its
condition waits, its blocking calls, the threads it creates and joins, the mutexes it
destroys and the branches, loops and early exits between them. `act` stands for what
is left: reads and writes of shared data, the GPIO libraries, allocation, `send`,
`close` and the signalling of condition variables. The signal handlers lock nothing.
-/

namespace RsvpControl.Locks

open RsvpControl.Core Locking Stmt

inductive Mutex where
  | queue_mutex
  | state_mutex
  | counting_mutex
  | music_mutex
deriving DecidableEq, Repr

inductive Blocking where
  | recv
  | accept
  | pthread_join
  | sleep
  | usleep
  | delay
deriving DecidableEq, Repr

inductive ThreadKind where
  | main
  | communication
  | device
  | counting
  | playback
deriving DecidableEq, Repr

inductive Flag where
  | is_counting
  /-- Of `7segment.c`. -/
  | is_initialized
  /-- `server_init` is on its way to return -1. -/
  | initFailed
deriving DecidableEq, Repr

abbrev Code := Stmt Mutex Blocking ThreadKind Flag

/-! ## `buzzer.c` -/

def playNotesInterruptible : Code := function [
  whileLoop [
    .lock .music_mutex,
    -- `should_stop`: silence
    guarded [.act, .unlock .music_mutex, .ret],
    .unlock .music_mutex,
    .act,
    whileLoop [
      .block .delay,
      .act,
      .lock .music_mutex,
      guarded [.act, .unlock .music_mutex, .ret],
      .unlock .music_mutex]],
  .act,
  .ret]

def musicPlaybackThread : Code := body [
  .act,
  playNotesInterruptible,
  .lock .music_mutex,
  .act,
  .unlock .music_mutex,
  .act,
  .ret]

def playMusicAsync : Code := function [
  -- not initialized
  guarded [.ret],
  .lock .music_mutex,
  -- already playing, no memory, no such music
  guarded [.unlock .music_mutex, .ret],
  .act,
  guarded [.unlock .music_mutex, .ret],
  oneOf [.act, body [.act, .unlock .music_mutex, .ret]],
  .act,
  .ite (body [.act, .unlock .music_mutex, .ret]) (.spawn .playback),
  .unlock .music_mutex,
  .ret]

def stopMusic : Code := function [
  .lock .music_mutex,
  guarded [.unlock .music_mutex, .ret],
  .act,
  .unlock .music_mutex,
  .ret]

def isMusicPlaying : Code := function [
  .lock .music_mutex,
  .act,
  .unlock .music_mutex,
  .ret]

def musicCleanup : Code := function [
  guarded [
    stopMusic,
    .lock .music_mutex,
    .act,
    .unlock .music_mutex,
    guarded [.block .pthread_join],
    .act]]

/-! ## `device_control.c`, the callback -/

def countdownCompleteCallback : Code := function [
  guarded [
    .lock .state_mutex,
    .act,
    .unlock .state_mutex,
    playMusicAsync]]

/-! ## `7segment.c` -/

/-- An iteration of the countdown up to the digit. -/
def countingDigit : Code := body [
  .lock .counting_mutex,
  .test .is_counting .act (body [.unlock .counting_mutex, .ret]),
  .unlock .counting_mutex,
  .act]

/-- The iteration with `i` at 0, the only one that does not sleep, stands behind the
others. -/
def countingThreadFunc : Code := body [
  .act,
  whileLoop [countingDigit, .block .sleep],
  countingDigit,
  .lock .counting_mutex,
  .set .is_counting false,
  .unlock .counting_mutex,
  guarded [countdownCompleteCallback],
  .ret]

def seg7Counting : Code := function [
  .test .is_initialized .act .ret,
  -- start out of range
  guarded [.ret],
  .lock .counting_mutex,
  .test .is_counting (body [.act, .unlock .counting_mutex, .ret]) .act,
  .set .is_counting true,
  .unlock .counting_mutex,
  .act,
  guarded [
    .act, .lock .counting_mutex, .set .is_counting false, .unlock .counting_mutex, .ret],
  .act,
  .ite
    (body [.act, .lock .counting_mutex, .set .is_counting false, .unlock .counting_mutex, .ret])
    (.spawn .counting),
  .act,
  .ret]

def seg7StopCounting : Code := function [
  .lock .counting_mutex,
  .test .is_counting .act (body [.unlock .counting_mutex, .ret]),
  .set .is_counting false,
  .unlock .counting_mutex,
  .block .usleep,
  .ret]

def seg7Cleanup : Code := function [
  .test .is_initialized .act .ret,
  seg7StopCounting,
  .act,
  .set .is_initialized false]

/-! ## `device_control.c`, the handlers -/

/-- The handlers that set one field of the state after a call that does not lock. -/
def setsState : Code := .ite
  (body [.lock .state_mutex, .act, .unlock .state_mutex, .act])
  .act

def processLedOn : Code := function [.act, setsState]

def processLedOff : Code := function [.act, setsState]

def processSetBrightness : Code := function [
  guarded [.act, .ret],
  .act,
  setsState]

def processBuzzerOn : Code := function [
  .act,
  isMusicPlaying,
  guarded [.act, .ret],
  playMusicAsync,
  setsState]

def processBuzzerOff : Code := function [
  isMusicPlaying,
  guarded [.act, .ret],
  stopMusic,
  setsState]

def processSensorOn : Code := function [
  .lock .state_mutex, .act, .unlock .state_mutex, .act]

def processSensorOff : Code := function [
  .lock .state_mutex, .act, .unlock .state_mutex, .act]

def processSegmentDisplay : Code := function [
  guarded [.act, .ret],
  .lock .state_mutex,
  guarded [.unlock .state_mutex, .act, .ret],
  .act,
  .unlock .state_mutex,
  seg7Counting,
  .ite .act (body [.lock .state_mutex, .act, .unlock .state_mutex, .act])]

def processSegmentStop : Code := function [
  .lock .state_mutex,
  .act,
  .unlock .state_mutex,
  guarded [.act, .ret],
  seg7StopCounting,
  setsState]

def handleSensorMonitoring : Code := function [
  .act,
  guarded [
    .lock .state_mutex,
    -- bright or dark, and the LED already so or not
    .ite (guarded [.act]) (guarded [.act]),
    .unlock .state_mutex,
    .act]]

def deviceControlThread : Code := body [
  .act,
  whileLoop [
    .lock .queue_mutex,
    whileLoop [
      .act,
      .wait .queue_mutex,
      -- `state_mutex` inside `queue_mutex`
      .lock .state_mutex,
      .act,
      .unlock .state_mutex,
      guarded [
        .unlock .queue_mutex,
        handleSensorMonitoring,
        .lock .queue_mutex]],
    -- not running any more
    guarded [.unlock .queue_mutex, .brk],
    .act,
    .unlock .queue_mutex,
    guarded [.cont],
    .act,
    oneOf [
      processLedOn,
      processLedOff,
      processSetBrightness,
      -- the response has been sent already
      body [processBuzzerOn, guarded [.act, .cont]],
      processBuzzerOff,
      processSensorOn,
      processSensorOff,
      processSegmentDisplay,
      processSegmentStop,
      .act],
    guarded [.lock .queue_mutex, .act, .unlock .queue_mutex],
    .act,
    .lock .state_mutex,
    .act,
    .unlock .state_mutex,
    guarded [handleSensorMonitoring]],
  .act,
  .ret]

/-! ## `communication.c` -/

/-- The prompt for a parameter and the `recv` of the reply. -/
def asksParameter : Code := guarded [.act, .block .recv, guarded [.brk], .act]

def communicationThread : Code := body [
  .act,
  whileLoop [
    .act,
    .block .recv,
    guarded [.act, .brk],
    .act,
    -- invalid format, `EXIT`
    guarded [.act, .cont],
    guarded [.act, .brk],
    oneOf [asksParameter, asksParameter, asksParameter, .act],
    .lock .queue_mutex,
    -- queue full
    guarded [.unlock .queue_mutex, .act, .cont],
    .act,
    .wait .queue_mutex,
    .ite
      (body [.act, .unlock .queue_mutex, guarded [.act, .brk]])
      (body [.unlock .queue_mutex, .act])],
  .lock .state_mutex,
  .act,
  .unlock .state_mutex,
  .act,
  .ret]

/-! ## `server.c` and `main.c` -/

def startWebServer : Code := function [
  .ite (body [.block .sleep, guarded [.ret], .ret]) .ret]

def stopWebServer : Code := function [
  guarded [.ret],
  .ite
    (body [
      whileLoop [guarded [.ret], .block .usleep],
      .act])
    .act]

/-- A branch of `server_init` that returns -1. -/
def fails (stmts : List Code) : Code := guarded (.set .initFailed true :: stmts)

def cleanupSync : Code := body [
  .act, .destroy .state_mutex, .destroy .queue_mutex, .ret]

def cleanupDevices : Code := body [.act, musicCleanup, seg7Cleanup, cleanupSync]

/-- The devices first, then the socket with its `goto`s. -/
def serverInit : Code := function [
  -- wiringPi
  fails [.ret],
  .act,
  -- the mutexes and the condition variables
  fails [.ret],
  fails [.destroy .queue_mutex, .ret],
  fails [.destroy .queue_mutex, .destroy .state_mutex, .ret],
  fails [.act, .destroy .queue_mutex, .destroy .state_mutex, .ret],
  -- 7-segment, buzzer, LED, light sensor
  fails [cleanupSync],
  .set .is_initialized true,
  fails [seg7Cleanup, cleanupSync],
  fails [musicCleanup, seg7Cleanup, cleanupSync],
  fails [.act, musicCleanup, seg7Cleanup, cleanupSync],
  -- `socket`
  fails [cleanupDevices],
  -- `setsockopt`, `fcntl` twice, `bind`, `listen`: the socket is closed
  fails [.act, cleanupDevices],
  fails [.act, cleanupDevices],
  fails [.act, cleanupDevices],
  fails [.act, cleanupDevices],
  fails [.act, cleanupDevices],
  .act,
  .ret]

def serverCleanup : Code := function [
  .act,
  guarded [.act, .join .pthread_join .communication],
  .act,
  .join .pthread_join .device,
  guarded [stopWebServer],
  .act,
  musicCleanup,
  seg7Cleanup,
  .act,
  .destroy .state_mutex,
  .destroy .queue_mutex,
  .act]

def main : Code := body [
  .act,
  serverInit,
  .test .initFailed (body [.act, .ret]) .act,
  startWebServer,
  .ite
    (body [guarded [stopWebServer], serverCleanup, .act, .ret])
    (.spawn .device),
  whileLoop [
    .block .accept,
    guarded [
      oneOf [
        body [.block .usleep, .cont],
        .cont,
        body [.act, .brk]]],
    .lock .state_mutex,
    -- busy
    guarded [.unlock .state_mutex, .act, .cont],
    .act,
    .unlock .state_mutex,
    .ite
      (body [.lock .state_mutex, .act, .unlock .state_mutex, .cont])
      (.spawn .communication),
    .join .pthread_join .communication,
    .act],
  serverCleanup,
  .act,
  .ret]

def threadBody : ThreadKind → Code
  | .main => main
  | .communication => communicationThread
  | .device => deviceControlThread
  | .counting => countingThreadFunc
  | .playback => musicPlaybackThread

def threadsMachine : Machine (State Mutex Blocking ThreadKind Flag) (Nat × Bool) :=
  lockMachine threadBody .main

end RsvpControl.Locks
