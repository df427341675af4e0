import RsvpControl.Device.Control

/-! # Handlers between their critical sections

A handler that calls `buzzer.c` or `7segment.c` more than once, or that takes
`state_mutex` around such a call, lets the threads of those libraries in between. Here
each such handler is the sequence of its critical sections. What only the device thread
touches is part of the section next to it. Run without interruption, every handler does
what the switch of the device thread does in one go.
-/

namespace RsvpControl.Rig

open RsvpControl.Core Server Device

/-! ## Program points -/

/-- Where the device thread is in the handler of a command. -/
inductive HandlerPc where
  | start
  /-- `process_buzzer_on` past its query. -/
  | play (music_num : Int)
  /-- `process_buzzer_off` past its query. -/
  | stopMusic
  /-- `process_segment_display` past its own test, in `seg7_counting` before the test of
  `is_counting`. -/
  | countingTest
  /-- `seg7_counting` before its allocation and thread creation. -/
  | countingCreate
  | countingUndo
  | displayUndo
  /-- `process_segment_stop` past its read, before `seg7_stop_counting`. -/
  | stopCounting
  | stopAnswer
deriving DecidableEq, Repr

/-- Where a section leads: to the next one, or to the response. -/
inductive Outcome where
  | goto (pc : HandlerPc)
  | respond (response : CommandResponse)
deriving DecidableEq, Repr

/-! ## Sections -/

def buzzerOnStart (cmd : Command) (state : DeviceState) : DeviceState × Outcome :=
  let music_num :=
    if cmd.param1 < MUSIC_SCHOOL_BELL ∨ cmd.param1 > MUSIC_BUTTERFLY then MUSIC_SCHOOL_BELL
    else cmd.param1
  if isMusicPlaying state.buzzer then (state, .respond (failure (text "Music already playing")))
  else (state, .goto (.play music_num))

def buzzerOnPlay (music_num : Int) (mallocOk createOk : Bool) (state : DeviceState) :
    DeviceState × Outcome :=
  let (buzzer, rc) := playMusicAsync music_num mallocOk createOk state.buzzer
  if rc = 0 then
    ({ state with buzzer := buzzer, buzzer_playing := true },
      .respond (success (text "Playing music " ++ Decimal.printInt music_num)))
  else ({ state with buzzer := buzzer }, .respond (failure (text "Failed to start music")))

def buzzerOffStart (state : DeviceState) : DeviceState × Outcome :=
  if isMusicPlaying state.buzzer = false then
    (state, .respond (failure (text "No music playing")))
  else (state, .goto .stopMusic)

def buzzerOffStop (state : DeviceState) : DeviceState × Outcome :=
  let (buzzer, rc) := stopMusic state.buzzer
  if rc = 0 then
    ({ state with buzzer := buzzer, buzzer_playing := false },
      .respond (success (text "Music stopped")))
  else ({ state with buzzer := buzzer }, .respond (failure (text "Failed to stop music")))

/-- Up to the unlock of `state_mutex`, with the flag set. -/
def segmentDisplayStart (cmd : Command) (state : DeviceState) : DeviceState × Outcome :=
  if cmd.param1 < 1 ∨ cmd.param1 > 9 then
    (state, .respond (failure (text "Invalid countdown seconds: " ++
      Decimal.printInt cmd.param1 ++ text " (use 1-9)")))
  else if state.segment_counting then
    (state, .respond (failure (text "Countdown already in progress")))
  else ({ state with segment_counting := true }, .goto .countingTest)

def segmentDisplayTest (start_seconds : Int) (state : DeviceState) : DeviceState × Outcome :=
  if state.seg7.is_initialized = false then (state, .goto .displayUndo)
  else if start_seconds < 0 ∨ start_seconds > 9 then (state, .goto .displayUndo)
  else if state.seg7.is_counting then (state, .goto .displayUndo)
  else ({ state with seg7 := { state.seg7 with is_counting := true } }, .goto .countingCreate)

/-- The counting thread is created with its parameters in place. -/
def segmentDisplayCreate (start_seconds : Int) (mallocOk createOk : Bool)
    (state : DeviceState) : DeviceState × Outcome :=
  if mallocOk = false then (state, .goto .countingUndo)
  else if createOk = false then (state, .goto .countingUndo)
  else
    ({ state with
        seg7 := { state.seg7 with countdowns := state.seg7.countdowns ++ [start_seconds] } },
      .respond (success (text "Countdown started from " ++ Decimal.printInt start_seconds ++
        text " (will play music at 0)")))

def segmentStopStart (state : DeviceState) : DeviceState × Outcome :=
  if state.segment_counting = false then
    (state, .respond (failure (text "No countdown in progress")))
  else (state, .goto .stopCounting)

/-- The sleep of `seg7_stop_counting` follows. -/
def segmentStopCounting (state : DeviceState) : DeviceState × Outcome :=
  let (seg7, rc) := seg7StopCounting state.seg7
  if rc = 0 then ({ state with seg7 := seg7 }, .goto .stopAnswer)
  else ({ state with seg7 := seg7 }, .respond (failure (text "Failed to stop countdown")))

/-- One section of the handler of a command, with the outcomes of the allocation and the
thread creation where it has them. -/
def HandlerPc.perform (cmd : Command) (mallocOk createOk : Bool) (state : DeviceState) :
    HandlerPc → DeviceState × Outcome
  | .start =>
      match cmd.type with
      | .buzzerOn => buzzerOnStart cmd state
      | .buzzerOff => buzzerOffStart state
      | .segmentDisplay => segmentDisplayStart cmd state
      | .segmentStop => segmentStopStart state
      | _ =>
          let (state, response) := dispatch cmd mallocOk createOk state
          (state, .respond response)
  | .play music_num => buzzerOnPlay music_num mallocOk createOk state
  | .stopMusic => buzzerOffStop state
  | .countingTest => segmentDisplayTest cmd.param1 state
  | .countingCreate => segmentDisplayCreate cmd.param1 mallocOk createOk state
  | .countingUndo =>
      ({ state with seg7 := { state.seg7 with is_counting := false } }, .goto .displayUndo)
  | .displayUndo =>
      ({ state with segment_counting := false },
        .respond (failure (text "Failed to start countdown")))
  | .stopCounting => segmentStopCounting state
  | .stopAnswer =>
      ({ state with segment_counting := false }, .respond (success (text "Countdown stopped")))

/-! ## Without interruption -/

/-- The handler from a section on with nothing in between, for at most so many
sections. -/
def HandlerPc.complete (cmd : Command) (mallocOk createOk : Bool) :
    Nat → DeviceState → HandlerPc → Option (DeviceState × CommandResponse)
  | 0, _, _ => none
  | fuel + 1, state, pc =>
      match pc.perform cmd mallocOk createOk state with
      | (state', .respond response) => some (state', response)
      | (state', .goto pc') => pc'.complete cmd mallocOk createOk fuel state'

section Complete

variable {cmd : Command} {mallocOk createOk : Bool}

theorem complete_buzzerOn (htype : cmd.type = .buzzerOn) (state : DeviceState) :
    HandlerPc.start.complete cmd mallocOk createOk 5 state =
      some (processBuzzerOn cmd mallocOk createOk state) := by
  simp only [HandlerPc.complete, HandlerPc.perform, htype, buzzerOnStart, processBuzzerOn]
  generalize (if cmd.param1 < MUSIC_SCHOOL_BELL ∨ cmd.param1 > MUSIC_BUTTERFLY then
    MUSIC_SCHOOL_BELL else cmd.param1) = music_num
  by_cases hplaying : isMusicPlaying state.buzzer = true
  · simp only [if_pos hplaying]
  · simp only [if_neg hplaying, buzzerOnPlay]
    by_cases hrc : (playMusicAsync music_num mallocOk createOk state.buzzer).2 = 0
    · simp only [if_pos hrc]
    · simp only [if_neg hrc]

theorem complete_buzzerOff (htype : cmd.type = .buzzerOff) (state : DeviceState) :
    HandlerPc.start.complete cmd mallocOk createOk 5 state = some (processBuzzerOff state) := by
  simp only [HandlerPc.complete, HandlerPc.perform, htype, buzzerOffStart, processBuzzerOff]
  by_cases hplaying : isMusicPlaying state.buzzer = false
  · simp only [if_pos hplaying]
  · simp only [if_neg hplaying, buzzerOffStop]
    by_cases hrc : (stopMusic state.buzzer).2 = 0
    · simp only [if_pos hrc]
    · simp only [if_neg hrc]

theorem complete_segmentDisplay (htype : cmd.type = .segmentDisplay) (state : DeviceState) :
    HandlerPc.start.complete cmd mallocOk createOk 5 state =
      some (processSegmentDisplay cmd mallocOk createOk state) := by
  simp only [HandlerPc.complete, HandlerPc.perform, htype, segmentDisplayStart,
    processSegmentDisplay]
  by_cases hrange : cmd.param1 < 1 ∨ cmd.param1 > 9
  · simp only [if_pos hrange]
  have hdigit : ¬ (cmd.param1 < 0 ∨ cmd.param1 > 9) := by omega
  by_cases hbusy : state.segment_counting = true
  · simp only [if_neg hrange, if_pos hbusy]
  simp only [if_neg hrange, if_neg hbusy, segmentDisplayTest, seg7Counting, if_neg hdigit]
  by_cases huninit : state.seg7.is_initialized = false
  · simp [huninit]
  by_cases hcounting : state.seg7.is_counting = true
  · simp [huninit, hcounting]
  simp only [if_neg huninit, if_neg hcounting, segmentDisplayCreate]
  cases mallocOk with
  | false => simp
  | true =>
      cases createOk with
      | false => simp
      | true => simp

theorem complete_segmentStop (htype : cmd.type = .segmentStop) (state : DeviceState) :
    HandlerPc.start.complete cmd mallocOk createOk 5 state = some (processSegmentStop state) := by
  simp only [HandlerPc.complete, HandlerPc.perform, htype, segmentStopStart, processSegmentStop]
  by_cases hcounting : state.segment_counting = false
  · simp only [if_pos hcounting]
  · simp only [if_neg hcounting, segmentStopCounting]
    by_cases hrc : (seg7StopCounting state.seg7).2 = 0
    · simp only [if_pos hrc]
    · simp only [if_neg hrc]

/-- Every handler, run without interruption, is the switch of the device thread. -/
theorem complete_eq_dispatch (cmd : Command) (mallocOk createOk : Bool) (state : DeviceState) :
    HandlerPc.start.complete cmd mallocOk createOk 5 state =
      some (dispatch cmd mallocOk createOk state) := by
  cases htype : cmd.type with
  | buzzerOn => rw [complete_buzzerOn htype, dispatch, htype]
  | buzzerOff => rw [complete_buzzerOff htype, dispatch, htype]
  | segmentDisplay => rw [complete_segmentDisplay htype, dispatch, htype]
  | segmentStop => rw [complete_segmentStop htype, dispatch, htype]
  | _ => simp only [HandlerPc.complete, HandlerPc.perform, htype]

end Complete

/-! ## What a section touches -/

section Touches

variable (cmd : Command) (mallocOk createOk : Bool) (state : DeviceState)

/-- The handlers that are a single section leave the two libraries with threads alone. -/
theorem dispatch_single (hon : cmd.type ≠ .buzzerOn) (hoff : cmd.type ≠ .buzzerOff)
    (hdisplay : cmd.type ≠ .segmentDisplay) (hstop : cmd.type ≠ .segmentStop) :
    (dispatch cmd mallocOk createOk state).1.buzzer = state.buzzer ∧
      (dispatch cmd mallocOk createOk state).1.seg7 = state.seg7 ∧
      (dispatch cmd mallocOk createOk state).1.segment_counting = state.segment_counting := by
  unfold dispatch
  split
  case h_1 | h_2 =>
    simp only [processLedOn, processLedOff]
    split <;> exact ⟨rfl, rfl, rfl⟩
  case h_3 =>
    simp only [processSetBrightness]
    repeat' split
    all_goals exact ⟨rfl, rfl, rfl⟩
  all_goals first
    | exact ⟨rfl, rfl, rfl⟩
    | exact absurd (by assumption) hon
    | exact absurd (by assumption) hoff
    | exact absurd (by assumption) hdisplay
    | exact absurd (by assumption) hstop

theorem perform_buzzer (pc : HandlerPc) :
    (pc.perform cmd mallocOk createOk state).1.buzzer =
      match pc with
      | .play music_num => (playMusicAsync music_num mallocOk createOk state.buzzer).1
      | .stopMusic => (stopMusic state.buzzer).1
      | _ => state.buzzer := by
  cases pc with
  | start =>
      simp only [HandlerPc.perform]
      split
      · simp only [buzzerOnStart]
        split <;> rfl
      · simp only [buzzerOffStart]
        split <;> rfl
      · simp only [segmentDisplayStart]
        repeat' split
        all_goals rfl
      · simp only [segmentStopStart]
        split <;> rfl
      · next hon hoff hdisplay hstop =>
          exact (dispatch_single cmd mallocOk createOk state hon hoff hdisplay hstop).1
  | play music_num =>
      simp only [HandlerPc.perform, buzzerOnPlay]
      split <;> rfl
  | stopMusic =>
      simp only [HandlerPc.perform, buzzerOffStop]
      split <;> rfl
  | countingTest =>
      simp only [HandlerPc.perform, segmentDisplayTest]
      repeat' split
      all_goals rfl
  | countingCreate =>
      simp only [HandlerPc.perform, segmentDisplayCreate]
      repeat' split
      all_goals rfl
  | stopCounting =>
      simp only [HandlerPc.perform, segmentStopCounting]
      split <;> rfl
  | countingUndo | displayUndo | stopAnswer => rfl

/-- One section creates a counting thread, and none writes to the display. -/
theorem perform_seg7 (pc : HandlerPc) :
    (pc.perform cmd mallocOk createOk state).1.seg7.display = state.seg7.display ∧
      ((pc.perform cmd mallocOk createOk state).1.seg7.countdowns = state.seg7.countdowns ∨
        pc = .countingCreate ∧ mallocOk = true ∧ createOk = true ∧
          (pc.perform cmd mallocOk createOk state).1.seg7.countdowns =
            state.seg7.countdowns ++ [cmd.param1]) := by
  cases pc with
  | start =>
      simp only [HandlerPc.perform]
      split
      · simp only [buzzerOnStart]
        split <;> exact ⟨rfl, .inl rfl⟩
      · simp only [buzzerOffStart]
        split <;> exact ⟨rfl, .inl rfl⟩
      · simp only [segmentDisplayStart]
        repeat' split
        all_goals exact ⟨rfl, .inl rfl⟩
      · simp only [segmentStopStart]
        split <;> exact ⟨rfl, .inl rfl⟩
      · next hon hoff hdisplay hstop =>
          have hsingle := dispatch_single cmd mallocOk createOk state hon hoff hdisplay hstop
          exact ⟨congrArg Seg7.display hsingle.2.1, .inl (congrArg Seg7.countdowns hsingle.2.1)⟩
  | play music_num =>
      simp only [HandlerPc.perform, buzzerOnPlay]
      split <;> exact ⟨rfl, .inl rfl⟩
  | stopMusic =>
      simp only [HandlerPc.perform, buzzerOffStop]
      split <;> exact ⟨rfl, .inl rfl⟩
  | countingTest =>
      simp only [HandlerPc.perform, segmentDisplayTest]
      repeat' split
      all_goals exact ⟨rfl, .inl rfl⟩
  | countingCreate =>
      simp only [HandlerPc.perform, segmentDisplayCreate]
      cases mallocOk with
      | false => exact ⟨rfl, .inl rfl⟩
      | true =>
          cases createOk with
          | false => exact ⟨rfl, .inl rfl⟩
          | true => exact ⟨rfl, .inr ⟨trivial, rfl, rfl, rfl⟩⟩
  | stopCounting =>
      simp only [HandlerPc.perform, segmentStopCounting, seg7StopCounting]
      repeat' split
      all_goals exact ⟨rfl, .inl rfl⟩
  | countingUndo | displayUndo | stopAnswer => exact ⟨rfl, .inl rfl⟩

theorem perform_counting {pc pc' : HandlerPc}
    (h : (pc.perform cmd mallocOk createOk state).2 = .goto pc')
    (hpc' : pc' = .countingTest ∨ pc' = .countingCreate) :
    pc = .countingTest ∨ 0 ≤ cmd.param1 ∧ cmd.param1 ≤ 9 := by
  cases pc with
  | countingTest => exact .inl rfl
  | start =>
      simp only [HandlerPc.perform] at h
      split at h
      · simp only [buzzerOnStart] at h
        split at h
        all_goals
          cases h
          try rcases hpc' with hpc' | hpc' <;> cases hpc'
      · simp only [buzzerOffStart] at h
        split at h
        all_goals
          cases h
          try rcases hpc' with hpc' | hpc' <;> cases hpc'
      · simp only [segmentDisplayStart] at h
        split at h
        · cases h
        · next hrange => exact .inr (by omega)
      · simp only [segmentStopStart] at h
        split at h
        all_goals
          cases h
          try rcases hpc' with hpc' | hpc' <;> cases hpc'
      · cases h
  | _ =>
      simp only [HandlerPc.perform, buzzerOnPlay, buzzerOffStop, segmentDisplayCreate,
        segmentStopCounting] at h
      repeat' split at h
      all_goals
        cases h
        try rcases hpc' with hpc' | hpc' <;> cases hpc'

end Touches

end RsvpControl.Rig
