import RsvpControl.Device.LedMirror

/-! # Automatic LED control after it is switched on

The light-sensor check acts on a change against the reading it remembers, which
starts as dark and is kept over manual commands and over periods without
monitoring. The first check after a SENSOR_ON command therefore leaves the LED
where it is when it reads what it remembers, and when it reads bright while the
server believes the LED is off.
-/

namespace RsvpControl.Device

open RsvpControl.Core Server

def DeviceState.lit (state : DeviceState) : Bool := state.led.pwm.any (· != PWM_HIGH)

def DeviceEvent.isCheck : DeviceEvent → Bool
  | .sensor _ => true
  | .command _ _ _ => false
  | .background _ _ _ => false

/-- The LED is already where the reading wants it, or the reading is not the one
remembered and, if bright, finds the server's `led_on` set. -/
def TakesEffect (state : DeviceState) (remembered : Bool) (level : Int) : Prop :=
  state.lit = !lightSensorIsBright state.sensor level ∨
    (lightSensorIsBright state.sensor level ≠ remembered ∧
      (lightSensorIsBright state.sensor level = true → state.led_on = true))

/-! ## One check -/

/-- The library is initialised and nothing turns the light off behind the
server's back. -/
structure Backed (state : DeviceState) : Prop where
  initialized : state.led.is_initialized = true
  lit : state.led_on = true → state.lit = true

theorem backed_serverInitDevices : Backed serverInitDevices := ⟨rfl, by decide⟩

theorem lit_of_value {state : DeviceState} {led : Led} {value : Int} (hne : value ≠ PWM_HIGH)
    (hled : state.led = { led with pwm := some value, led_state := true }) :
    state.lit = true := by
  simp [DeviceState.lit, hled, hne]

theorem check_unchanged {state : DeviceState} {level : Int}
    (h : lightSensorIsBright state.sensor level = state.last_bright_state) :
    handleSensorMonitoring level state = state := by
  simp [handleSensorMonitoring, h]

/-- A new bright reading turns off an LED the server believes on. -/
theorem check_bright {state : DeviceState} {level : Int} (h : Backed state)
    (hbright : lightSensorIsBright state.sensor level = true)
    (hlast : state.last_bright_state = false) :
    (handleSensorMonitoring level state).lit = (state.lit && !state.led_on) := by
  cases hon : state.led_on with
  | true =>
      simp [handleSensorMonitoring, hbright, hlast, hon, ledOff, h.initialized, DeviceState.lit]
  | false => simp [handleSensorMonitoring, hbright, hlast, hon, DeviceState.lit]

theorem check_dark {state : DeviceState} {level : Int} (h : Backed state)
    (hdark : lightSensorIsBright state.sensor level = false)
    (hlast : state.last_bright_state = true) :
    (handleSensorMonitoring level state).lit = true := by
  cases hon : state.led_on with
  | true =>
      have hlit := h.lit hon
      simpa [handleSensorMonitoring, hdark, hlast, hon, DeviceState.lit] using hlit
  | false =>
      simp [handleSensorMonitoring, hdark, hlast, hon, ledOn, h.initialized, DeviceState.lit,
        PWM_HIGH]

theorem lit_after_check_iff {state : DeviceState} (h : Backed state) (level : Int) :
    (handleSensorMonitoring level state).lit = !lightSensorIsBright state.sensor level ↔
      TakesEffect state state.last_bright_state level := by
  unfold TakesEffect
  by_cases hsame : lightSensorIsBright state.sensor level = state.last_bright_state
  · rw [check_unchanged hsame]
    simp [hsame]
  · cases hbright : lightSensorIsBright state.sensor level with
    | true =>
        have hlast : state.last_bright_state = false := by simpa [hbright] using hsame
        rw [check_bright h hbright hlast]
        simp only [hlast, Bool.not_true]
        cases state.lit <;> cases state.led_on <;> simp
    | false =>
        have hlast : state.last_bright_state = true := by simpa [hbright] using hsame
        rw [check_dark h hbright hlast]
        simp [hlast]

/-! ## Every run -/

theorem Backed.of_frame {state state' : DeviceState} (h : Backed state)
    (hled : state'.led = state.led) (hon : state'.led_on = state.led_on) : Backed state' := by
  refine ⟨by rw [hled]; exact h.initialized, ?_⟩
  rw [hon, DeviceState.lit, hled]
  exact h.lit

theorem Backed.after {state : DeviceState} (h : Backed state) (event : DeviceEvent) :
    Backed (state.after event) := by
  have hinit := after_initialized h.initialized event
  cases event with
  | command cmd mallocOk createOk =>
      simp only [DeviceState.after] at hinit ⊢
      by_cases hon : cmd.type = .ledOn
      · simp only [dispatch, hon, processLedOn_led h.initialized]
        exact ⟨h.initialized, fun _ => @lit_of_value _ state.led _ (by decide) rfl⟩
      by_cases hoff : cmd.type = .ledOff
      · simp only [dispatch, hoff, processLedOff_led h.initialized]
        exact ⟨h.initialized, fun hfalse => by cases hfalse⟩
      by_cases hset : cmd.type = .setBrightness
      · simp only [dispatch, hset]
        by_cases hvalid : LED_BRIGHTNESS_LOW ≤ cmd.param1 ∧ cmd.param1 ≤ LED_BRIGHTNESS_HIGH
        · obtain ⟨value, hne, heq⟩ :=
            processSetBrightness_valid h.initialized hvalid.1 hvalid.2
          rw [heq]
          exact ⟨h.initialized, fun _ => @lit_of_value _ state.led _ hne rfl⟩
        · rw [processSetBrightness_invalid hvalid]
          exact h
      · have hframe := dispatch_frame hon hoff hset mallocOk createOk state
        exact h.of_frame hframe.1 hframe.2
  | sensor level =>
      rcases handleSensorMonitoring_cases level h.initialized with ⟨hl, ho⟩ | ⟨_, ho⟩ | ⟨hl, _⟩
      · exact h.of_frame hl ho
      · refine ⟨hinit, fun htrue => ?_⟩
        rw [DeviceState.after, ho] at htrue
        cases htrue
      · exact ⟨hinit, fun _ => lit_of_value (by decide) hl⟩
  | background buzzer seg7 segment_counting => exact h.of_frame rfl rfl

theorem backed_of_reachable {state : DeviceState} (h : deviceMachine.Reachable state) :
    Backed state := by
  refine h.invariant backed_serverInitDevices ?_
  intro s event s' hs hstep
  rw [deviceMachine_step hstep]
  exact hs.after event

/-! ## What the check remembers -/

def DeviceEvent.reading : DeviceEvent → Option Int
  | .sensor level => some level
  | .command _ _ _ => none
  | .background _ _ _ => none

def lastBright (sensor : LightSensor) (start : Bool) (events : List DeviceEvent) : Bool :=
  ((events.filterMap DeviceEvent.reading).getLast?.map (lightSensorIsBright sensor)).getD start

theorem lastBright_cons (sensor : LightSensor) (start : Bool) (event : DeviceEvent)
    (events : List DeviceEvent) :
    lastBright sensor start (event :: events) =
      lastBright sensor ((event.reading.map (lightSensorIsBright sensor)).getD start) events := by
  unfold lastBright
  cases hreading : event.reading with
  | none => simp [hreading]
  | some level =>
      rw [List.filterMap_cons_some hreading, List.getLast?_cons]
      cases (events.filterMap DeviceEvent.reading).getLast? <;> simp

theorem lastBright_of_no_check {sensor : LightSensor} {start : Bool}
    {events since : List DeviceEvent} (h : ∀ event ∈ since, event.isCheck = false) :
    lastBright sensor start (events ++ since) = lastBright sensor start events := by
  have hnone : since.filterMap DeviceEvent.reading = [] := by
    rw [List.filterMap_eq_nil_iff]
    intro event hmem
    have hcheck := h event hmem
    cases event with
    | sensor level => cases hcheck
    | command cmd mallocOk createOk => rfl
    | background buzzer seg7 segment_counting => rfl
  rw [lastBright, List.filterMap_append, hnone, List.append_nil, lastBright]

theorem dispatch_memory (cmd : Command) (mallocOk createOk : Bool) (state : DeviceState) :
    (dispatch cmd mallocOk createOk state).1.sensor = state.sensor ∧
      (dispatch cmd mallocOk createOk state).1.last_bright_state = state.last_bright_state := by
  unfold dispatch
  cases cmd.type with
  | ledOn =>
      simp only [processLedOn]
      split <;> exact ⟨rfl, rfl⟩
  | ledOff =>
      simp only [processLedOff]
      split <;> exact ⟨rfl, rfl⟩
  | setBrightness =>
      simp only [processSetBrightness]
      repeat' split
      all_goals exact ⟨rfl, rfl⟩
  | buzzerOn =>
      simp only [processBuzzerOn]
      split
      · exact ⟨rfl, rfl⟩
      · generalize playMusicAsync _ mallocOk createOk state.buzzer = played
        split <;> exact ⟨rfl, rfl⟩
  | buzzerOff =>
      simp only [processBuzzerOff]
      repeat' split
      all_goals exact ⟨rfl, rfl⟩
  | segmentDisplay =>
      simp only [processSegmentDisplay]
      repeat' split
      all_goals exact ⟨rfl, rfl⟩
  | segmentStop =>
      simp only [processSegmentStop]
      repeat' split
      all_goals exact ⟨rfl, rfl⟩
  | sensorOn | sensorOff | exit | other => exact ⟨rfl, rfl⟩

theorem after_memory (state : DeviceState) (event : DeviceEvent) :
    (state.after event).sensor = state.sensor ∧
      (state.after event).last_bright_state =
        (event.reading.map (lightSensorIsBright state.sensor)).getD state.last_bright_state := by
  cases event with
  | command cmd mallocOk createOk => exact dispatch_memory cmd mallocOk createOk state
  | background buzzer seg7 segment_counting => exact ⟨rfl, rfl⟩
  | sensor level =>
      simp only [DeviceState.after, DeviceEvent.reading, Option.map_some, Option.getD_some]
      by_cases hsame : lightSensorIsBright state.sensor level = state.last_bright_state
      · rw [check_unchanged hsame]
        exact ⟨rfl, hsame.symm⟩
      · simp only [handleSensorMonitoring, if_neg hsame]
        repeat' split
        all_goals exact ⟨rfl, by simp_all⟩

theorem exec_memory {events : List DeviceEvent} {state state' : DeviceState}
    (h : deviceMachine.exec state events = some state') :
    state'.sensor = state.sensor ∧
      state'.last_bright_state = lastBright state.sensor state.last_bright_state events := by
  induction events generalizing state with
  | nil =>
      cases h
      exact ⟨rfl, rfl⟩
  | cons event events ih =>
      rw [Machine.exec_cons] at h
      cases hstep : deviceMachine.step state event with
      | none => simp [hstep] at h
      | some mid =>
          rw [hstep] at h
          obtain ⟨hsensor, hlast⟩ := ih h
          have hmid := after_memory state event
          rw [← deviceMachine_step hstep] at hmid
          refine ⟨hsensor.trans hmid.1, ?_⟩
          rw [hlast, hmid.1, hmid.2, lastBright_cons]

/-! ## The result -/

/-- After any history and a SENSOR_ON command, the first check leaves the LED off on
a bright reading and on on a dark one exactly if the LED was so already, or the
reading is not the one the last check of the history used, dark if there was
none, and a bright one finds `led_on` set. -/
theorem automation_takes_effect_iff {history since : List DeviceEvent} {param1 param2 : Int}
    {mallocOk createOk : Bool} {state state' : DeviceState} {level : Int}
    (hsince : ∀ event ∈ since, event.isCheck = false)
    (hrun : deviceMachine.exec serverInitDevices
      (history ++ .command ⟨.sensorOn, param1, param2⟩ mallocOk createOk :: since) =
        some state)
    (hcheck : deviceMachine.step state (.sensor level) = some state') :
    state'.lit = !lightSensorIsBright state.sensor level ↔
      TakesEffect state (lastBright state.sensor false history) level := by
  have hbacked : Backed state := backed_of_reachable (Machine.Reachable.of_exec hrun)
  have hmemory := exec_memory hrun
  have hlast : state.last_bright_state = lastBright state.sensor false history := by
    rw [hmemory.2, hmemory.1]
    apply lastBright_of_no_check
    intro event hmem
    rcases List.mem_cons.mp hmem with rfl | hmem
    · rfl
    · exact hsince event hmem
  rw [deviceMachine_step hcheck, ← hlast]
  exact lit_after_check_iff hbacked level

/-- A bright reading that is new turns off an LED switched on by command. -/
theorem automation_turns_off_lit_led :
    ∃ state state', deviceMachine.exec serverInitDevices
        ([.command ⟨.ledOn, 0, 0⟩ true true] ++ [.command ⟨.sensorOn, 0, 0⟩ true true]) =
          some state ∧
      deviceMachine.step state (.sensor 0) = some state' ∧ state'.lit = false := by
  have heffect := @automation_takes_effect_iff [.command ⟨.ledOn, 0, 0⟩ true true] [] 0 0
    true true _ _ 0 (fun event hmem => nomatch hmem) rfl rfl
  refine ⟨_, _, rfl, rfl, heffect.mpr (Or.inr ?_)⟩
  decide

/-- In the dark, monitoring switched on right after start-up leaves the LED off. -/
theorem automation_ignores_first_dark_reading :
    ¬ ∀ (history since : List DeviceEvent) (param1 param2 : Int) (mallocOk createOk : Bool)
        (state state' : DeviceState) (level : Int),
      (∀ event ∈ since, event.isCheck = false) →
      deviceMachine.exec serverInitDevices
        (history ++ .command ⟨.sensorOn, param1, param2⟩ mallocOk createOk :: since) =
          some state →
      deviceMachine.step state (.sensor level) = some state' →
      state'.lit = !lightSensorIsBright state.sensor level := by
  intro h
  have hlit := h [] [] 0 0 true true _ _ 1 (fun event hmem => nomatch hmem) rfl rfl
  revert hlit
  decide

end RsvpControl.Device
