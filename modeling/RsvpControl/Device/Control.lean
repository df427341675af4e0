import RsvpControl.Core.Decimal
import RsvpControl.Device.Libraries
import RsvpControl.Server.Types

/-! # Command handlers and sensor monitoring

The `process_*` handlers of `device_control.c`, the dispatch switch of the
device thread and its light-sensor check, as functions on the device-related
fields of `ServerState` together with the device libraries.
-/

namespace RsvpControl.Device

open RsvpControl.Core Server

structure DeviceState where
  led_on : Bool
  led_brightness : Int
  buzzer_playing : Bool
  sensor_monitoring : Bool
  segment_counting : Bool
  /-- The function-static variable of `handle_sensor_monitoring`. -/
  last_bright_state : Bool
  led : Led
  sensor : LightSensor
  buzzer : Buzzer
  seg7 : Seg7
deriving DecidableEq, Repr

def serverInitDevices : DeviceState where
  led_on := false
  led_brightness := 0
  buzzer_playing := false
  sensor_monitoring := false
  segment_counting := false
  last_bright_state := false
  led := (ledInit (some 12) Led.unset).1
  sensor := (lightSensorInit (some 11) LightSensor.unset).1
  buzzer := (musicInit 21 true Buzzer.unset).1
  seg7 := (seg7Init (some ⟨14, 15, 18, 23⟩) Seg7.unset).1

/-- The device part of `server_cleanup`. -/
def serverCleanupDevices (state : DeviceState) : DeviceState :=
  { state with
    sensor := lightSensorCleanup state.sensor
    led := ledCleanup state.led
    buzzer := musicCleanup state.buzzer
    seg7 := seg7Cleanup state.seg7 }

/-! ## Handlers -/

def success (message : Bytes) : CommandResponse :=
  { CommandResponse.zero with status := 0, message := message }

def failure (message : Bytes) : CommandResponse :=
  { CommandResponse.zero with status := -1, message := message }

def processLedOn (state : DeviceState) : DeviceState × CommandResponse :=
  let (led, rc) := ledOn state.led
  if rc = 0 then ({ state with led := led, led_on := true }, success (text "LED turned ON"))
  else ({ state with led := led }, failure (text "Failed to turn ON LED"))

def processLedOff (state : DeviceState) : DeviceState × CommandResponse :=
  let (led, rc) := ledOff state.led
  if rc = 0 then ({ state with led := led, led_on := false }, success (text "LED turned OFF"))
  else ({ state with led := led }, failure (text "Failed to turn OFF LED"))

/-- Unlike its two siblings this handler does not touch `led_on`. -/
def processSetBrightness (cmd : Command) (state : DeviceState) : DeviceState × CommandResponse :=
  if cmd.param1 < LED_BRIGHTNESS_LOW ∨ cmd.param1 > LED_BRIGHTNESS_HIGH then
    (state, failure (text "Invalid brightness level: " ++ Decimal.printInt cmd.param1 ++
      text " (use 1-3)"))
  else
    let (led, rc) := ledSetBrightness cmd.param1 state.led
    if rc = 0 then
      ({ state with led := led, led_brightness := cmd.param1 },
        success (text "Brightness set to " ++ Decimal.printInt cmd.param1))
    else ({ state with led := led }, failure (text "Failed to set brightness"))

def processBuzzerOn (cmd : Command) (mallocOk createOk : Bool) (state : DeviceState) :
    DeviceState × CommandResponse :=
  let music_num :=
    if cmd.param1 < MUSIC_SCHOOL_BELL ∨ cmd.param1 > MUSIC_BUTTERFLY then MUSIC_SCHOOL_BELL
    else cmd.param1
  if isMusicPlaying state.buzzer then (state, failure (text "Music already playing"))
  else
    let (buzzer, rc) := playMusicAsync music_num mallocOk createOk state.buzzer
    if rc = 0 then
      ({ state with buzzer := buzzer, buzzer_playing := true },
        success (text "Playing music " ++ Decimal.printInt music_num))
    else ({ state with buzzer := buzzer }, failure (text "Failed to start music"))

def processBuzzerOff (state : DeviceState) : DeviceState × CommandResponse :=
  if isMusicPlaying state.buzzer = false then (state, failure (text "No music playing"))
  else
    let (buzzer, rc) := stopMusic state.buzzer
    if rc = 0 then
      ({ state with buzzer := buzzer, buzzer_playing := false }, success (text "Music stopped"))
    else ({ state with buzzer := buzzer }, failure (text "Failed to stop music"))

def processSensorOn (state : DeviceState) : DeviceState × CommandResponse :=
  ({ state with sensor_monitoring := true }, success (text "Sensor monitoring started"))

def processSensorOff (state : DeviceState) : DeviceState × CommandResponse :=
  ({ state with sensor_monitoring := false }, success (text "Sensor monitoring stopped"))

def processSegmentDisplay (cmd : Command) (mallocOk createOk : Bool) (state : DeviceState) :
    DeviceState × CommandResponse :=
  if cmd.param1 < 1 ∨ cmd.param1 > 9 then
    (state, failure (text "Invalid countdown seconds: " ++ Decimal.printInt cmd.param1 ++
      text " (use 1-9)"))
  else if state.segment_counting then (state, failure (text "Countdown already in progress"))
  else
    let state := { state with segment_counting := true }
    let (seg7, rc) := seg7Counting cmd.param1 mallocOk createOk state.seg7
    if rc = 0 then
      ({ state with seg7 := seg7 },
        success (text "Countdown started from " ++ Decimal.printInt cmd.param1 ++
          text " (will play music at 0)"))
    else
      ({ state with seg7 := seg7, segment_counting := false },
        failure (text "Failed to start countdown"))

def processSegmentStop (state : DeviceState) : DeviceState × CommandResponse :=
  let was_counting := state.segment_counting
  if was_counting = false then (state, failure (text "No countdown in progress"))
  else
    let (seg7, rc) := seg7StopCounting state.seg7
    if rc = 0 then
      ({ state with seg7 := seg7, segment_counting := false }, success (text "Countdown stopped"))
    else ({ state with seg7 := seg7 }, failure (text "Failed to stop countdown"))

/-- The switch of `device_control_thread`. The two outcomes are those of the
allocation and the thread creation inside the library the command reaches. -/
def dispatch (cmd : Command) (mallocOk createOk : Bool) (state : DeviceState) :
    DeviceState × CommandResponse :=
  match cmd.type with
  | .ledOn => processLedOn state
  | .ledOff => processLedOff state
  | .setBrightness => processSetBrightness cmd state
  | .buzzerOn => processBuzzerOn cmd mallocOk createOk state
  | .buzzerOff => processBuzzerOff state
  | .sensorOn => processSensorOn state
  | .sensorOff => processSensorOff state
  | .segmentDisplay => processSegmentDisplay cmd mallocOk createOk state
  | .segmentStop => processSegmentStop state
  | .exit | .other _ => (state, failure (text "Unknown command"))

/-- `level` is the sensor pin's level at the check. -/
def handleSensorMonitoring (level : Int) (state : DeviceState) : DeviceState :=
  let is_bright := lightSensorIsBright state.sensor level
  if is_bright = state.last_bright_state then state
  else
    let state :=
      if is_bright then
        if state.led_on then { state with led := (ledOff state.led).1, led_on := false } else state
      else
        if state.led_on then state else { state with led := (ledOn state.led).1, led_on := true }
    { state with last_bright_state := is_bright }

end RsvpControl.Device
