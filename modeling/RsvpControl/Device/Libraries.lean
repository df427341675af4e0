import RsvpControl.Core.Bytes

/-! # The device libraries

Each library keeps its C file's static variables and the last value written to
its output. The functions are the synchronous interface: what a caller sees
when no other thread runs in between. Allocation and thread creation can fail;
their outcomes are arguments.
-/

namespace RsvpControl.Device

/-! ## `led.c` -/

def LED_BRIGHTNESS_LOW : Int := 1
def LED_BRIGHTNESS_MEDIUM : Int := 2
def LED_BRIGHTNESS_HIGH : Int := 3

def PWM_LOW : Int := 33
def PWM_MEDIUM : Int := 66
/-- The LED is active low: this value turns it off. -/
def PWM_HIGH : Int := 100

structure Led where
  led_pin : Int
  is_initialized : Bool
  led_state : Bool
  /-- Last `pwmWrite` on the LED pin. -/
  pwm : Option Int
deriving DecidableEq, Repr

def Led.unset : Led := ⟨-1, false, false, none⟩

def ledInit (led_pin : Option Int) (led : Led) : Led × Int :=
  if led.is_initialized then (led, 0)
  else
    match led_pin with
    | none => (led, -1)
    | some pin =>
        if pin < 0 then (led, -1)
        else (⟨pin, true, false, some PWM_HIGH⟩, 0)

def ledOn (led : Led) : Led × Int :=
  if led.is_initialized = false then (led, -1)
  else ({ led with pwm := some 0, led_state := true }, 0)

def ledOff (led : Led) : Led × Int :=
  if led.is_initialized = false then (led, -1)
  else ({ led with pwm := some PWM_HIGH, led_state := false }, 0)

/-- The switch of `led_set_brightness`; `none` is its default branch. -/
def brightnessPwm (brightness : Int) : Option Int :=
  if brightness = LED_BRIGHTNESS_LOW then some (PWM_HIGH - PWM_LOW)
  else if brightness = LED_BRIGHTNESS_MEDIUM then some (PWM_HIGH - PWM_MEDIUM)
  else if brightness = LED_BRIGHTNESS_HIGH then some 0
  else none

def ledSetBrightness (brightness : Int) (led : Led) : Led × Int :=
  if led.is_initialized = false then (led, -1)
  else
    match brightnessPwm brightness with
    | none => (led, -1)
    | some pwm_value => ({ led with pwm := some pwm_value, led_state := true }, 0)

def ledIsOn (led : Led) : Bool := led.led_state

def ledCleanup (led : Led) : Led :=
  if led.is_initialized = false then led
  else { led with pwm := some PWM_HIGH, led_state := false, is_initialized := false }

/-! ## `light_sensor.c` -/

structure LightSensor where
  sensor_pin : Int
  is_initialized : Bool
deriving DecidableEq, Repr

def LightSensor.unset : LightSensor := ⟨-1, false⟩

def lightSensorInit (sensor_pin : Option Int) (sensor : LightSensor) : LightSensor × Int :=
  if sensor.is_initialized then (sensor, 0)
  else
    match sensor_pin with
    | none => (sensor, -1)
    | some pin => if pin < 0 then (sensor, -1) else (⟨pin, true⟩, 0)

/-- `level` is what `digitalRead` returns. -/
def lightSensorRead (sensor : LightSensor) (level : Int) : Int :=
  if sensor.is_initialized = false then -1 else level

def lightSensorIsBright (sensor : LightSensor) (level : Int) : Bool :=
  let value := lightSensorRead sensor level
  if value = -1 then false else value == 0

def lightSensorCleanup (sensor : LightSensor) : LightSensor :=
  if sensor.is_initialized = false then sensor else { sensor with is_initialized := false }

/-! ## `buzzer.c` -/

def MUSIC_SCHOOL_BELL : Int := 1
def MUSIC_TWINKLE_STAR : Int := 2
def MUSIC_HAPPY_BIRTHDAY : Int := 3
def MUSIC_BUTTERFLY : Int := 4

structure MusicData where
  notes : List Int
  length : Nat
  tempo : Int
deriving DecidableEq, Repr

section Notes

/-! The note macros are floating constants stored into `int` arrays, which
truncates them. -/

def DO : Int := 261
def RE : Int := 293
def MI : Int := 329
def FA : Int := 349
def SOL : Int := 391
def LA : Int := 440
def SI : Int := 493
def DO_H : Int := 523
def REST : Int := 0

def schoolBell : List Int :=
  [SOL, SOL, LA, LA, SOL, SOL, MI, MI,
   SOL, SOL, MI, MI, RE, RE, RE, REST,
   SOL, SOL, LA, LA, SOL, SOL, MI, MI,
   SOL, MI, RE, MI, DO, DO, DO, REST]

def twinkleStar : List Int :=
  [DO, DO, SOL, SOL, LA, LA, SOL, REST,
   FA, FA, MI, MI, RE, RE, DO, REST,
   SOL, SOL, FA, FA, MI, MI, RE, REST,
   SOL, SOL, FA, FA, MI, MI, RE, REST,
   DO, DO, SOL, SOL, LA, LA, SOL, REST,
   FA, FA, MI, MI, RE, RE, DO, REST]

def happyBirthday : List Int :=
  [SOL, SOL, LA, SOL, DO_H, SI, REST,
   SOL, SOL, LA, SOL, RE, DO_H, REST,
   SOL, SOL, SOL, MI, DO_H, SI, LA, REST,
   FA, FA, MI, DO_H, RE, DO_H, REST]

def butterfly : List Int :=
  [DO, RE, MI, FA, MI, RE, DO, REST,
   MI, FA, SOL, SOL, MI, FA, SOL, SOL,
   DO_H, SOL, MI, SOL, FA, MI, RE, DO,
   DO, RE, MI, FA, MI, RE, DO, REST]

end Notes

/-- The switch of `play_music_async`. -/
def musicData (music_number : Int) : Option MusicData :=
  if music_number = MUSIC_SCHOOL_BELL then some ⟨schoolBell, 32, 280⟩
  else if music_number = MUSIC_TWINKLE_STAR then some ⟨twinkleStar, 48, 280⟩
  else if music_number = MUSIC_HAPPY_BIRTHDAY then some ⟨happyBirthday, 28, 350⟩
  else if music_number = MUSIC_BUTTERFLY then some ⟨butterfly, 32, 280⟩
  else none

structure Buzzer where
  initialized : Bool
  spkr : Int
  is_playing : Bool
  should_stop : Bool
  /-- Last `softToneWrite` on the speaker pin. -/
  tone : Option Int
  /-- Playback threads created so far, oldest first. -/
  players : List MusicData
deriving DecidableEq, Repr

def Buzzer.unset : Buzzer := ⟨false, -1, false, false, none, []⟩

/-- `created` is whether `softToneCreate` succeeds. -/
def musicInit (speaker_pin : Int) (created : Bool) (buzzer : Buzzer) : Buzzer × Int :=
  if buzzer.initialized then (buzzer, 0)
  else if speaker_pin < 0 then (buzzer, -1)
  else if created = false then ({ buzzer with spkr := speaker_pin }, -1)
  else ({ buzzer with spkr := speaker_pin, initialized := true }, 0)

def playMusicAsync (music_number : Int) (mallocOk createOk : Bool) (buzzer : Buzzer) :
    Buzzer × Int :=
  if buzzer.initialized = false then (buzzer, -1)
  else if buzzer.is_playing then (buzzer, -1)
  else if mallocOk = false then (buzzer, -1)
  else
    match musicData music_number with
    | none => (buzzer, -1)
    | some data =>
        let started := { buzzer with is_playing := true, should_stop := false }
        if createOk = false then ({ started with is_playing := false }, -1)
        else ({ started with players := started.players ++ [data] }, 0)

def stopMusic (buzzer : Buzzer) : Buzzer × Int :=
  if buzzer.is_playing = false then (buzzer, -1)
  else ({ buzzer with should_stop := true }, 0)

def isMusicPlaying (buzzer : Buzzer) : Bool := buzzer.is_playing

/-- The join of a playback in progress is a wait and changes nothing here. -/
def musicCleanup (buzzer : Buzzer) : Buzzer :=
  if buzzer.initialized = false then buzzer
  else { (stopMusic buzzer).1 with tone := some 0, initialized := false }

/-! ## `7segment.c` -/

structure Seg7Pins where
  pin_a : Int
  pin_b : Int
  pin_c : Int
  pin_d : Int
deriving DecidableEq, Repr

structure Seg7 where
  is_initialized : Bool
  is_counting : Bool
  pins : Seg7Pins
  /-- Last `digitalWrite` on the pins A to D. -/
  display : Option (List Int)
  /-- Start values of the counting threads created so far, oldest first. -/
  countdowns : List Int
deriving DecidableEq, Repr

def Seg7.unset : Seg7 := ⟨false, false, ⟨-1, -1, -1, -1⟩, none, []⟩

def seg7Init (pins : Option Seg7Pins) (seg7 : Seg7) : Seg7 × Int :=
  if seg7.is_initialized then (seg7, 0)
  else
    match pins with
    | none => (seg7, -1)
    | some pins =>
        ({ seg7 with pins := pins, display := some [0, 0, 0, 0], is_initialized := true }, 0)

def seg7Counting (start_seconds : Int) (mallocOk createOk : Bool) (seg7 : Seg7) : Seg7 × Int :=
  if seg7.is_initialized = false then (seg7, -1)
  else if start_seconds < 0 ∨ start_seconds > 9 then (seg7, -1)
  else if seg7.is_counting then (seg7, -1)
  else
    let started := { seg7 with is_counting := true }
    if mallocOk = false then ({ started with is_counting := false }, -1)
    else if createOk = false then ({ started with is_counting := false }, -1)
    else ({ started with countdowns := started.countdowns ++ [start_seconds] }, 0)

def seg7StopCounting (seg7 : Seg7) : Seg7 × Int :=
  if seg7.is_counting = false then (seg7, 0)
  else ({ seg7 with is_counting := false }, 0)

def seg7Cleanup (seg7 : Seg7) : Seg7 :=
  if seg7.is_initialized = false then seg7
  else { (seg7StopCounting seg7).1 with display := some [0, 0, 0, 0], is_initialized := false }

end RsvpControl.Device
