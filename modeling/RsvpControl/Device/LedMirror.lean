import RsvpControl.Core.Machine
import RsvpControl.Device.Control

/-! # The three copies of the LED state

The PWM output, the library's `led_state` and the server's `led_on` are written
by four command paths and two sensor paths. They agree after every step of the
device thread exactly as long as no brightness is set while the server believes
the LED is off: that handler is the only one that leaves a copy behind.
-/

namespace RsvpControl.Device

open RsvpControl.Core Server

/-! ## The device thread's steps -/

/-- A step of the device thread, or what the playback and counting threads did
to their libraries since the last one. -/
inductive DeviceEvent where
  | command (cmd : Command) (mallocOk createOk : Bool)
  | sensor (level : Int)
  | background (buzzer : Buzzer) (seg7 : Seg7) (segment_counting : Bool)

def DeviceState.after (state : DeviceState) : DeviceEvent → DeviceState
  | .command cmd mallocOk createOk => (dispatch cmd mallocOk createOk state).1
  | .sensor level => handleSensorMonitoring level state
  | .background buzzer seg7 segment_counting =>
      { state with buzzer := buzzer, seg7 := seg7, segment_counting := segment_counting }

/-- The light sensor is only consulted while monitoring is switched on. -/
def DeviceState.performs (state : DeviceState) : DeviceEvent → Bool
  | .sensor _ => state.sensor_monitoring
  | .command _ _ _ => true
  | .background _ _ _ => true

def deviceMachine : Machine DeviceState DeviceEvent where
  start := serverInitDevices
  step state event := if state.performs event then some (state.after event) else none

theorem deviceMachine_step {state state' : DeviceState} {event : DeviceEvent}
    (h : deviceMachine.step state event = some state') : state' = state.after event := by
  simp only [deviceMachine] at h
  split at h
  · exact (Option.some.inj h).symm
  · cases h

/-! ## The mirror and the condition that keeps it -/

structure Mirror (state : DeviceState) : Prop where
  copies : state.led_on = ledIsOn state.led
  output : ∃ value, state.led.pwm = some value ∧ (state.led_on = true ↔ value ≠ PWM_HIGH)

/-- A check that sees the change to bright leaves the LED physically off. -/
def BrightTurnsOff (state : DeviceState) : Prop :=
  ∀ level, lightSensorIsBright state.sensor level = true → state.last_bright_state = false →
    (handleSensorMonitoring level state).led.pwm = some PWM_HIGH

/-- A brightness command with a valid level finds the LED on. -/
def FindsLedOn (state : DeviceState) : DeviceEvent → Prop
  | .command cmd _ _ =>
      cmd.type = .setBrightness → LED_BRIGHTNESS_LOW ≤ cmd.param1 →
        cmd.param1 ≤ LED_BRIGHTNESS_HIGH → state.led_on = true
  | .sensor _ => True
  | .background _ _ _ => True

/-! ## What each step does to the LED -/

theorem processLedOn_led {state : DeviceState} (hi : state.led.is_initialized = true) :
    (processLedOn state).1 =
      { state with led := { state.led with pwm := some 0, led_state := true }, led_on := true } := by
  simp [processLedOn, ledOn, hi]

theorem processLedOff_led {state : DeviceState} (hi : state.led.is_initialized = true) :
    (processLedOff state).1 =
      { state with
        led := { state.led with pwm := some PWM_HIGH, led_state := false }
        led_on := false } := by
  simp [processLedOff, ledOff, hi]

theorem brightnessPwm_valid {level : Int} (hlow : LED_BRIGHTNESS_LOW ≤ level)
    (hhigh : level ≤ LED_BRIGHTNESS_HIGH) :
    ∃ value, brightnessPwm level = some value ∧ value ≠ PWM_HIGH := by
  have hlevel : level = 1 ∨ level = 2 ∨ level = 3 := by
    simp only [LED_BRIGHTNESS_LOW, LED_BRIGHTNESS_HIGH] at hlow hhigh
    omega
  rcases hlevel with rfl | rfl | rfl
  · exact ⟨67, by decide, by decide⟩
  · exact ⟨34, by decide, by decide⟩
  · exact ⟨0, by decide, by decide⟩

theorem processSetBrightness_valid {cmd : Command} {state : DeviceState}
    (hi : state.led.is_initialized = true) (hlow : LED_BRIGHTNESS_LOW ≤ cmd.param1)
    (hhigh : cmd.param1 ≤ LED_BRIGHTNESS_HIGH) :
    ∃ value, value ≠ PWM_HIGH ∧ (processSetBrightness cmd state).1 =
      { state with
        led := { state.led with pwm := some value, led_state := true }
        led_brightness := cmd.param1 } := by
  obtain ⟨value, hpwm, hne⟩ := brightnessPwm_valid hlow hhigh
  refine ⟨value, hne, ?_⟩
  unfold processSetBrightness
  rw [if_neg (by omega)]
  simp [ledSetBrightness, hi, hpwm]

theorem processSetBrightness_invalid {cmd : Command} {state : DeviceState}
    (h : ¬ (LED_BRIGHTNESS_LOW ≤ cmd.param1 ∧ cmd.param1 ≤ LED_BRIGHTNESS_HIGH)) :
    (processSetBrightness cmd state).1 = state := by
  unfold processSetBrightness
  rw [if_pos (by omega)]

theorem dispatch_frame {cmd : Command} (hon : cmd.type ≠ .ledOn) (hoff : cmd.type ≠ .ledOff)
    (hset : cmd.type ≠ .setBrightness) (mallocOk createOk : Bool) (state : DeviceState) :
    (dispatch cmd mallocOk createOk state).1.led = state.led ∧
      (dispatch cmd mallocOk createOk state).1.led_on = state.led_on := by
  unfold dispatch
  cases htype : cmd.type with
  | ledOn => exact absurd htype hon
  | ledOff => exact absurd htype hoff
  | setBrightness => exact absurd htype hset
  | buzzerOn =>
      simp only [processBuzzerOn]
      split
      · exact ⟨rfl, rfl⟩
      · generalize playMusicAsync _ mallocOk createOk state.buzzer = played
        split <;> exact ⟨rfl, rfl⟩
  | buzzerOff =>
      simp only [processBuzzerOff]
      split
      · simp
      · split <;> simp
  | sensorOn => exact ⟨rfl, rfl⟩
  | sensorOff => exact ⟨rfl, rfl⟩
  | segmentDisplay =>
      simp only [processSegmentDisplay]
      split
      · simp
      · split
        · simp
        · split <;> simp
  | segmentStop =>
      simp only [processSegmentStop]
      split
      · simp
      · split <;> simp
  | exit => exact ⟨rfl, rfl⟩
  | other pattern => exact ⟨rfl, rfl⟩

/-- The sensor check drives the LED only on a change, and then sets both
copies. -/
theorem handleSensorMonitoring_cases (level : Int) {state : DeviceState}
    (hi : state.led.is_initialized = true) :
    ((handleSensorMonitoring level state).led = state.led ∧
        (handleSensorMonitoring level state).led_on = state.led_on) ∨
      ((handleSensorMonitoring level state).led =
          { state.led with pwm := some PWM_HIGH, led_state := false } ∧
        (handleSensorMonitoring level state).led_on = false) ∨
      ((handleSensorMonitoring level state).led =
          { state.led with pwm := some 0, led_state := true } ∧
        (handleSensorMonitoring level state).led_on = true) := by
  simp only [handleSensorMonitoring]
  by_cases hsame : lightSensorIsBright state.sensor level = state.last_bright_state
  · simp [hsame]
  · rw [if_neg hsame]
    cases lightSensorIsBright state.sensor level <;> cases hon : state.led_on <;>
      simp [hon, ledOn, ledOff, hi]

/-! ## The library stays initialised -/

theorem after_initialized {state : DeviceState} (hi : state.led.is_initialized = true)
    (event : DeviceEvent) : (state.after event).led.is_initialized = true := by
  cases event with
  | command cmd mallocOk createOk =>
      simp only [DeviceState.after]
      by_cases hon : cmd.type = .ledOn
      · simp [dispatch, hon, processLedOn_led hi, hi]
      by_cases hoff : cmd.type = .ledOff
      · simp [dispatch, hoff, processLedOff_led hi, hi]
      by_cases hset : cmd.type = .setBrightness
      · simp only [dispatch, hset]
        by_cases hvalid : LED_BRIGHTNESS_LOW ≤ cmd.param1 ∧ cmd.param1 ≤ LED_BRIGHTNESS_HIGH
        · obtain ⟨value, _, heq⟩ := processSetBrightness_valid hi hvalid.1 hvalid.2
          rw [heq]
          exact hi
        · rw [processSetBrightness_invalid hvalid]
          exact hi
      · rw [(dispatch_frame hon hoff hset mallocOk createOk state).1]
        exact hi
  | sensor level =>
      simp only [DeviceState.after]
      rcases handleSensorMonitoring_cases level hi with ⟨h, _⟩ | ⟨h, _⟩ | ⟨h, _⟩ <;>
        (rw [h]; exact hi)
  | background buzzer seg7 segment_counting => exact hi

/-! ## One step keeps the mirror exactly when it is allowed -/

theorem Mirror.of_frame {state state' : DeviceState} (h : Mirror state)
    (hled : state'.led = state.led) (hon : state'.led_on = state.led_on) : Mirror state' := by
  obtain ⟨hcopies, houtput⟩ := h
  exact ⟨by rw [hled, hon]; exact hcopies, by rw [hled, hon]; exact houtput⟩

theorem Mirror.of_on {state : DeviceState} {led : Led} {value : Int} (hne : value ≠ PWM_HIGH)
    (hled : state.led = { led with pwm := some value, led_state := true })
    (hon : state.led_on = true) : Mirror state := by
  refine ⟨by simp [hled, hon, ledIsOn], value, by rw [hled], ?_⟩
  simp [hon, hne]

theorem Mirror.of_off {state : DeviceState} {led : Led}
    (hled : state.led = { led with pwm := some PWM_HIGH, led_state := false })
    (hon : state.led_on = false) : Mirror state := by
  refine ⟨by simp [hled, hon, ledIsOn], PWM_HIGH, by rw [hled], ?_⟩
  simp [hon]

theorem mirror_after_iff {state : DeviceState} (hi : state.led.is_initialized = true)
    (h : Mirror state) (event : DeviceEvent) :
    Mirror (state.after event) ↔ FindsLedOn state event := by
  cases event with
  | command cmd mallocOk createOk =>
      simp only [DeviceState.after, FindsLedOn]
      by_cases hon : cmd.type = .ledOn
      · simp only [dispatch, hon, processLedOn_led hi]
        exact iff_of_true (Mirror.of_on (by decide) rfl rfl) (fun hset => by cases hset)
      by_cases hoff : cmd.type = .ledOff
      · simp only [dispatch, hoff, processLedOff_led hi]
        exact iff_of_true (Mirror.of_off rfl rfl) (fun hset => by cases hset)
      by_cases hset : cmd.type = .setBrightness
      · simp only [dispatch, hset, forall_const]
        by_cases hvalid : LED_BRIGHTNESS_LOW ≤ cmd.param1 ∧ cmd.param1 ≤ LED_BRIGHTNESS_HIGH
        · obtain ⟨value, hne, heq⟩ := processSetBrightness_valid hi hvalid.1 hvalid.2
          rw [heq]
          constructor
          · intro hm _ _
            exact hm.copies
          · intro hfound
            exact Mirror.of_on hne rfl (hfound hvalid.1 hvalid.2)
        · rw [processSetBrightness_invalid hvalid]
          exact iff_of_true h (fun hlow hhigh => absurd ⟨hlow, hhigh⟩ hvalid)
      · have hframe := dispatch_frame hon hoff hset mallocOk createOk state
        exact iff_of_true (h.of_frame hframe.1 hframe.2) (fun hs => absurd hs hset)
  | sensor level =>
      simp only [DeviceState.after, FindsLedOn, iff_true]
      rcases handleSensorMonitoring_cases level hi with ⟨hl, ho⟩ | ⟨hl, ho⟩ | ⟨hl, ho⟩
      · exact h.of_frame hl ho
      · exact Mirror.of_off hl ho
      · exact Mirror.of_on (by decide) hl ho
  | background buzzer seg7 segment_counting =>
      exact iff_of_true (h.of_frame rfl rfl) trivial

/-- With the mirror intact the check cannot miss the LED. -/
theorem Mirror.brightTurnsOff {state : DeviceState} (h : Mirror state)
    (hi : state.led.is_initialized = true) : BrightTurnsOff state := by
  intro level hbright hlast
  simp only [handleSensorMonitoring, hbright, hlast, Bool.true_eq_false, if_false, if_true]
  cases hon : state.led_on with
  | true => simp [ledOff, hi]
  | false =>
      obtain ⟨value, hpwm, hiff⟩ := h.output
      rw [hon] at hiff
      have hvalue : value = PWM_HIGH := by simpa using hiff
      simp [hpwm, hvalue]

theorem mirror_serverInitDevices : Mirror serverInitDevices :=
  ⟨rfl, PWM_HIGH, rfl, by decide⟩

/-- After `server_init`, for every sequence of commands and sensor readings:
the copies agree in every state, and a check that sees the change to bright
leaves the LED off, exactly when every valid brightness command of the run finds
the LED on. -/
theorem led_mirror_iff (events : List DeviceEvent) :
    (∀ state ∈ deviceMachine.states serverInitDevices events,
        Mirror state ∧ BrightTurnsOff state) ↔
      deviceMachine.Allowed FindsLedOn serverInitDevices events := by
  have hinit : serverInitDevices.led.is_initialized = true := rfl
  have hkeep : ∀ s a s', s.led.is_initialized = true → deviceMachine.step s a = some s' →
      s'.led.is_initialized = true := by
    intro s a s' hi hs
    rw [deviceMachine_step hs]
    exact after_initialized hi a
  have hrun : (∀ t ∈ deviceMachine.states serverInitDevices events, Mirror t) ↔
      deviceMachine.Allowed FindsLedOn serverInitDevices events := by
    apply Machine.forall_states_iff_allowed hkeep ?_ hinit mirror_serverInitDevices
    intro s a s' hi hm hs
    rw [deviceMachine_step hs]
    exact mirror_after_iff hi hm a
  rw [← hrun]
  constructor
  · exact fun hall state hmem => (hall state hmem).1
  · intro hall state hmem
    have hi := Machine.states_invariant hkeep hinit hmem
    exact ⟨hall state hmem, (hall state hmem).brightTurnsOff hi⟩

/-- Setting the brightness right after start-up lights the LED while the server
still believes it is off. -/
theorem led_mirror_broken_by_brightness :
    ¬ ∀ events, ∀ state ∈ deviceMachine.states serverInitDevices events,
        Mirror state ∧ BrightTurnsOff state := by
  intro h
  have hmem : serverInitDevices.after (.command ⟨.setBrightness, 2, 0⟩ true true) ∈
      deviceMachine.states serverInitDevices [.command ⟨.setBrightness, 2, 0⟩ true true] :=
    List.mem_cons_of_mem _ List.mem_cons_self
  have hcopies := (h _ _ hmem).1.copies
  revert hcopies
  decide

end RsvpControl.Device
