import RsvpControl.Rig.Threads
import RsvpControl.Segment.Countdown

/-! # The countdowns of the whole device part

For the segment, every run of the devices is a run of the countdown model: the sections
of the two segment handlers are its device steps, and four pin writes are one digit.
-/

namespace RsvpControl.Rig

open RsvpControl.Core Server Device
open Segment (CountingPc countdownMachine)

/-! ## The correspondence -/

def CounterPc.erase : CounterPc → CountingPc
  | .check i => .check i
  | .output i _ => .output i
  | .sleeping i => .sleeping i
  | .finish => .finish
  | .callback => .callback
  | .clearing => .clearing
  | .ringing => .playing
  | .done => .done

/-- The first section of a handler is not yet in it. -/
def HandlerPc.erase (cmd : Command) : HandlerPc → Segment.DevicePc
  | .countingTest => .countingTest cmd.param1
  | .countingCreate => .countingCreate cmd.param1
  | .countingUndo => .countingUndo
  | .displayUndo => .displayUndo
  | .stopCounting => .stopClear
  | .stopAnswer => .stopAnswer
  | .start | .play _ | .stopMusic => .idle

def State.segmentPc (s : State) : Segment.DevicePc :=
  match s.handler with
  | none => .idle
  | some (cmd, pc) => pc.erase cmd

/-- What a section is for the segment. -/
def HandlerPc.counting (cmd : Command) (mallocOk createOk is_counting : Bool) :
    HandlerPc → List Segment.Action
  | .start =>
      match cmd.type with
      | .segmentDisplay =>
          if cmd.param1 < 1 ∨ cmd.param1 > 9 then [.display cmd.param1]
          else [.display cmd.param1, .device true]
      | .segmentStop => [.stop, .device true]
      | _ => []
  | .play _ | .stopMusic => []
  | .countingCreate => [.device (mallocOk && createOk)]
  -- the sleep of `seg7_stop_counting` is only there when it has cleared the flag
  | .stopCounting => if is_counting then [.device true, .device true] else [.device true]
  | .countingTest | .countingUndo | .displayUndo | .stopAnswer => [.device true]

def State.counting (s : State) : Action → List Segment.Action
  | .device mallocOk createOk =>
      match s.handler with
      | none => []
      | some (cmd, pc) => pc.counting cmd mallocOk createOk s.devices.seg7.is_counting
  | .counter t _ _ =>
      match s.counters[t]? with
      | some (.output i pin) => if i ≤ 9 ∧ pin < 3 then [] else [.thread t]
      | _ => [.thread t]
  | _ => []

structure Counts (s : State) (t : Segment.State) : Prop where
  is_counting : t.is_counting = s.devices.seg7.is_counting
  segment_counting : t.segment_counting = s.devices.segment_counting
  threads : t.threads = s.counters.map CounterPc.erase
  device : t.device = s.segmentPc
  initialized : s.devices.seg7.is_initialized = true

theorem counts_init : Counts rigMachine.start Segment.init where
  is_counting := rfl
  segment_counting := rfl
  threads := rfl
  device := rfl
  initialized := rfl

section Steps

variable {s s' : State} {t : Segment.State}

theorem Counts.of_frame (h : Counts s t) (hseg7 : s'.devices.seg7 = s.devices.seg7)
    (hsegment : s'.devices.segment_counting = s.devices.segment_counting)
    (hcounters : s'.counters = s.counters) (hpc : s'.segmentPc = s.segmentPc) :
    ∃ t', countdownMachine.exec t [] = some t' ∧ Counts s' t' :=
  ⟨t, rfl, by rw [h.is_counting, hseg7], by rw [h.segment_counting, hsegment],
    by rw [h.threads, hcounters], by rw [h.device, hpc], by rw [hseg7, h.initialized]⟩

end Steps

/-! ## The device thread -/

def Outcome.erase (cmd : Command) : Outcome → Segment.DevicePc
  | .goto pc => pc.erase cmd
  | .respond _ => .idle

/-- A section as the countdown model performs it. -/
structure Performs (cmd : Command) (devices : DeviceState) (r : DeviceState × Outcome)
    (t t' : Segment.State) : Prop where
  is_counting : t'.is_counting = r.1.seg7.is_counting
  segment_counting : t'.segment_counting = r.1.segment_counting
  threads : t'.threads = t.threads ++
    (r.1.seg7.countdowns.drop devices.seg7.countdowns.length).map
      fun start_seconds => CountingPc.check start_seconds.toNat
  device : t'.device = r.2.erase cmd
  initialized : r.1.seg7.is_initialized = true

section Perform

variable {cmd : Command} {devices : DeviceState} {t : Segment.State} {pc : HandlerPc}

/-- The two are at the same place with the same flags. -/
structure Level (cmd : Command) (devices : DeviceState) (pc : HandlerPc) (t : Segment.State) :
    Prop where
  is_counting : t.is_counting = devices.seg7.is_counting
  segment_counting : t.segment_counting = devices.segment_counting
  device : t.device = pc.erase cmd
  initialized : devices.seg7.is_initialized = true

theorem Level.skip (h : Level cmd devices pc t) {r : DeviceState × Outcome}
    (hidle : pc.erase cmd = .idle) (hseg7 : r.1.seg7 = devices.seg7)
    (hsegment : r.1.segment_counting = devices.segment_counting)
    (hpc : r.2.erase cmd = .idle) :
    ∃ t', countdownMachine.exec t [] = some t' ∧ Performs cmd devices r t t' :=
  ⟨t, rfl, by rw [h.is_counting, hseg7], by rw [h.segment_counting, hsegment], by simp [hseg7],
    by rw [h.device, hidle, hpc], by rw [hseg7, h.initialized]⟩

theorem Level.display (h : Level cmd devices .start t) :
    ∃ t', countdownMachine.exec t (if cmd.param1 < 1 ∨ cmd.param1 > 9 then [.display cmd.param1]
        else [.display cmd.param1, .device true]) = some t' ∧
      Performs cmd devices (segmentDisplayStart cmd devices) t t' := by
  obtain ⟨his, hsegment, hdevice, hinit⟩ := h
  have hidle : t.device = .idle := hdevice
  unfold segmentDisplayStart
  by_cases hrange : cmd.param1 < 1 ∨ cmd.param1 > 9
  · rw [if_pos hrange, if_pos hrange]
    refine ⟨t, ?_, his, hsegment, by simp, hdevice, hinit⟩
    simp only [Machine.exec_singleton, countdownMachine, Segment.State.step, if_pos hidle,
      if_pos hrange]
  · rw [if_neg hrange, if_neg hrange]
    by_cases hbusy : devices.segment_counting = true
    · rw [if_pos hbusy]
      refine ⟨{ t with device := .idle }, ?_, his, hsegment, by simp, rfl, hinit⟩
      simp only [Machine.exec_cons, Machine.exec_nil, countdownMachine, Segment.State.step,
        if_pos hidle, if_neg hrange, Option.bind_some, Segment.State.runDevice, hsegment, hbusy,
        if_true]
    · rw [if_neg hbusy]
      refine ⟨{ t with segment_counting := true, device := .countingTest cmd.param1 }, ?_, his,
        rfl, by simp, rfl, hinit⟩
      simp only [Machine.exec_cons, Machine.exec_nil, countdownMachine, Segment.State.step,
        if_pos hidle, if_neg hrange, Option.bind_some, Segment.State.runDevice, hsegment,
        if_neg hbusy]

theorem Level.stop (h : Level cmd devices .start t) :
    ∃ t', countdownMachine.exec t [.stop, .device true] = some t' ∧
      Performs cmd devices (segmentStopStart devices) t t' := by
  obtain ⟨his, hsegment, hdevice, hinit⟩ := h
  have hidle : t.device = .idle := hdevice
  unfold segmentStopStart
  cases hbusy : devices.segment_counting with
  | false =>
      rw [hbusy] at hsegment
      refine ⟨{ t with device := .idle }, ?_, his, hsegment.trans hbusy.symm, by simp, rfl, hinit⟩
      simp [Machine.exec_cons, countdownMachine, Segment.State.step, hidle,
        Segment.State.runDevice, hsegment]
  | true =>
      rw [hbusy] at hsegment
      refine ⟨{ t with device := .stopClear }, ?_, his, hsegment.trans hbusy.symm, by simp, rfl,
        hinit⟩
      simp [Machine.exec_cons, countdownMachine, Segment.State.step, hidle,
        Segment.State.runDevice, hsegment]

theorem Level.test (h : Level cmd devices .countingTest t) :
    ∃ t', countdownMachine.exec t [.device true] = some t' ∧
      Performs cmd devices (segmentDisplayTest cmd.param1 devices) t t' := by
  obtain ⟨his, hsegment, hdevice, hinit⟩ := h
  have hpc : t.device = .countingTest cmd.param1 := hdevice
  unfold segmentDisplayTest
  rw [if_neg (by simp [hinit])]
  by_cases hrange : cmd.param1 < 0 ∨ cmd.param1 > 9
  · rw [if_pos hrange]
    refine ⟨{ t with device := .displayUndo }, ?_, his, hsegment, by simp, rfl, hinit⟩
    simp only [Machine.exec_singleton, countdownMachine, Segment.State.step,
      Segment.State.runDevice, hpc, if_pos hrange]
  · rw [if_neg hrange]
    by_cases hcounting : devices.seg7.is_counting = true
    · rw [if_pos hcounting]
      refine ⟨{ t with device := .displayUndo }, ?_, his, hsegment, by simp, rfl, hinit⟩
      simp only [Machine.exec_singleton, countdownMachine, Segment.State.step,
        Segment.State.runDevice, hpc, if_neg hrange, his, hcounting, if_true]
    · rw [if_neg hcounting]
      refine ⟨{ t with is_counting := true, device := .countingCreate cmd.param1 }, ?_, rfl,
        hsegment, by simp, rfl, hinit⟩
      simp only [Machine.exec_singleton, countdownMachine, Segment.State.step,
        Segment.State.runDevice, hpc, if_neg hrange, his, if_neg hcounting]

theorem Level.create (h : Level cmd devices .countingCreate t) (mallocOk createOk : Bool) :
    ∃ t', countdownMachine.exec t [.device (mallocOk && createOk)] = some t' ∧
      Performs cmd devices (segmentDisplayCreate cmd.param1 mallocOk createOk devices) t t' := by
  obtain ⟨his, hsegment, hdevice, hinit⟩ := h
  have hpc : t.device = .countingCreate cmd.param1 := hdevice
  rw [Machine.exec_singleton]
  simp only [countdownMachine, Segment.State.step, Segment.State.runDevice, hpc]
  by_cases hcreated : (mallocOk && createOk) = true
  · rw [if_pos hcreated]
    obtain ⟨rfl, rfl⟩ := Bool.and_eq_true_iff.mp hcreated
    exact ⟨_, rfl, his, hsegment, by simp [segmentDisplayCreate], rfl, hinit⟩
  · rw [if_neg hcreated]
    have hundo : segmentDisplayCreate cmd.param1 mallocOk createOk devices =
        (devices, .goto .countingUndo) := by
      cases mallocOk with
      | false => rfl
      | true =>
          cases createOk with
          | false => rfl
          | true => exact absurd rfl hcreated
    rw [hundo]
    exact ⟨_, rfl, his, hsegment, by simp, rfl, hinit⟩

theorem Level.clear (h : Level cmd devices .stopCounting t) :
    ∃ t', countdownMachine.exec t (if devices.seg7.is_counting then [.device true, .device true]
        else [.device true]) = some t' ∧
      Performs cmd devices (segmentStopCounting devices) t t' := by
  obtain ⟨his, hsegment, hdevice, hinit⟩ := h
  have hpc : t.device = .stopClear := hdevice
  unfold segmentStopCounting seg7StopCounting
  cases hcounting : devices.seg7.is_counting with
  | false =>
      rw [hcounting] at his
      refine ⟨{ t with device := .stopAnswer }, ?_, his.trans hcounting.symm, hsegment, by simp,
        rfl, hinit⟩
      simp [Machine.exec_cons, countdownMachine, Segment.State.step, Segment.State.runDevice, hpc,
        his]
  | true =>
      rw [hcounting] at his
      refine ⟨{ t with is_counting := false, device := .stopAnswer }, ?_, rfl, hsegment, by simp,
        rfl, hinit⟩
      simp [Machine.exec_cons, countdownMachine, Segment.State.step, Segment.State.runDevice, hpc,
        his]

theorem Level.perform (h : Level cmd devices pc t) (mallocOk createOk : Bool) :
    ∃ t', countdownMachine.exec t
        (pc.counting cmd mallocOk createOk devices.seg7.is_counting) = some t' ∧
      Performs cmd devices (pc.perform cmd mallocOk createOk devices) t t' := by
  cases pc with
  | start =>
      simp only [HandlerPc.counting, HandlerPc.perform]
      split
      · next htype =>
          simp only [htype]
          exact h.display
      · next htype =>
          simp only [htype]
          exact h.stop
      · next hdisplay hstop =>
          split
          · refine h.skip rfl ?_ ?_ ?_
            all_goals
              simp only [buzzerOnStart]
              split <;> rfl
          · refine h.skip rfl ?_ ?_ ?_
            all_goals
              simp only [buzzerOffStart]
              split <;> rfl
          · next htype => exact absurd htype hdisplay
          · next htype => exact absurd htype hstop
          · next hon hoff _ _ =>
              obtain ⟨-, hseg7, hsegment⟩ :=
                dispatch_single cmd mallocOk createOk devices hon hoff hdisplay hstop
              exact h.skip rfl hseg7 hsegment rfl
  | play music_num =>
      refine h.skip rfl ?_ ?_ ?_
      all_goals
        simp only [HandlerPc.perform, buzzerOnPlay]
        split <;> rfl
  | stopMusic =>
      refine h.skip rfl ?_ ?_ ?_
      all_goals
        simp only [HandlerPc.perform, buzzerOffStop]
        split <;> rfl
  | countingTest => exact h.test
  | countingCreate => exact h.create mallocOk createOk
  | stopCounting => exact h.clear
  | countingUndo =>
      refine ⟨{ t with is_counting := false, device := .displayUndo }, ?_, rfl,
        h.segment_counting, by simp [HandlerPc.perform], rfl, h.initialized⟩
      simp [HandlerPc.counting, Machine.exec_singleton, countdownMachine, Segment.State.step,
        Segment.State.runDevice, h.device, HandlerPc.erase]
  | displayUndo =>
      refine ⟨{ t with segment_counting := false, device := .idle }, ?_, h.is_counting, rfl,
        by simp [HandlerPc.perform], rfl, h.initialized⟩
      simp [HandlerPc.counting, Machine.exec_singleton, countdownMachine, Segment.State.step,
        Segment.State.runDevice, h.device, HandlerPc.erase]
  | stopAnswer =>
      refine ⟨{ t with
        segment_counting := false
        device := .idle
        stopped := t.stopped ++ t.latest }, ?_, h.is_counting, rfl, by simp [HandlerPc.perform],
        rfl, h.initialized⟩
      simp [HandlerPc.counting, Machine.exec_singleton, countdownMachine, Segment.State.step,
        Segment.State.runDevice, h.device, HandlerPc.erase]

end Perform

/-! ## The simulation -/

section Simulates

variable {s s' : State} {t : Segment.State}

theorem Counts.stepDevice (h : Counts s t) {mallocOk createOk : Bool}
    (hs : s.stepDevice mallocOk createOk = some s') :
    ∃ t', countdownMachine.exec t (s.counting (.device mallocOk createOk)) = some t' ∧
      Counts s' t' := by
  obtain ⟨cmd, pc, hpc, hdevices, -, hcounters, hcase⟩ := stepDevice_spec hs
  have hlevel : Level cmd s.devices pc t :=
    ⟨h.is_counting, h.segment_counting, by rw [h.device, State.segmentPc, hpc], h.initialized⟩
  obtain ⟨t', hrun, hperforms⟩ := hlevel.perform mallocOk createOk
  refine ⟨t', by rw [State.counting, hpc]; exact hrun, ?_, ?_, ?_, ?_, ?_⟩
  · rw [hperforms.is_counting, hdevices]
  · rw [hperforms.segment_counting, hdevices]
  · rw [hperforms.threads, hcounters, h.threads, ← hdevices, State.follow, List.map_append,
      List.map_map]
    rfl
  · rw [hperforms.device, State.segmentPc]
    rcases hcase with ⟨pc', hout, hhandler, -⟩ | ⟨response, hout, hhandler, -⟩
    · rw [hout, hhandler]
      rfl
    · rw [hout, hhandler]
      rfl
  · rw [hdevices, hperforms.initialized]

/-- The last write of a digit is its step in the countdown model, and so is every other
step of a counting thread. -/
theorem next_erase {is_counting : Bool} {pc pc' : CounterPc} (h : pc.next is_counting = some pc') :
    (∃ i pin, pc = .output i pin ∧ (i ≤ 9 ∧ pin < 3) ∧ pc'.erase = pc.erase) ∨
      (∀ i pin, pc = .output i pin → ¬ (i ≤ 9 ∧ pin < 3)) ∧
        pc.erase.next is_counting = some pc'.erase := by
  cases pc with
  | check i =>
      cases h
      refine .inr ⟨(fun _ _ heq => by cases heq), ?_⟩
      cases is_counting <;> rfl
  | output i pin =>
      simp only [CounterPc.next] at h
      split at h
      · next hmore =>
          cases h
          exact .inl ⟨i, pin, rfl, hmore, rfl⟩
      · next hlast =>
          cases h
          refine .inr ⟨?_, ?_⟩
          · intro j q heq
            cases heq
            exact hlast
          · by_cases hi : 0 < i
            · simp only [CounterPc.erase, CountingPc.next, if_pos hi]
            · simp only [CounterPc.erase, CountingPc.next, if_neg hi]
  | done => cases h
  | _ =>
      cases h
      exact .inr ⟨(fun _ _ heq => by cases heq), rfl⟩

theorem erase_eq_finish {pc : CounterPc} : pc.erase = .finish ↔ pc = .finish := by
  cases pc <;> simp [CounterPc.erase]

theorem erase_eq_clearing {pc : CounterPc} : pc.erase = .clearing ↔ pc = .clearing := by
  cases pc <;> simp [CounterPc.erase]

theorem Counts.stepCounter (h : Counts s t) {i : Nat} {mallocOk createOk : Bool}
    (hs : s.stepCounter i mallocOk createOk = some s') :
    ∃ t', countdownMachine.exec t (s.counting (.counter i mallocOk createOk)) = some t' ∧
      Counts s' t' := by
  obtain ⟨pc, pc', hpc, hnext, rfl⟩ := stepCounter_spec hs
  obtain ⟨hcountdowns, hinit, hcounting, hsegment⟩ := change_seg7 mallocOk createOk s.devices pc
  have hfollow : (({ s with counters := s.counters.set i pc' } : State).follow
      (pc.change mallocOk createOk s.devices)).counters = s.counters.set i pc' := by
    simp only [State.follow, hcountdowns, List.drop_length, List.map_nil, List.append_nil]
  have hthread : t.threads[i]? = some pc.erase := by
    rw [h.threads, List.getElem?_map, hpc]
    rfl
  rcases next_erase hnext with ⟨digit, pin, rfl, hmore, herase⟩ | ⟨hlast, hmove⟩
  · refine ⟨t, by simp only [State.counting, hpc, if_pos hmore]; rfl, ?_, ?_, ?_, h.device, ?_⟩
    · rw [h.is_counting]
      exact hcounting.symm
    · rw [h.segment_counting]
      exact hsegment.symm
    · rw [hfollow, List.map_set, herase, ← h.threads]
      obtain ⟨hlt, hget⟩ := List.getElem?_eq_some_iff.mp hthread
      rw [← hget, List.set_getElem_self]
    · exact hinit.trans h.initialized
  · rw [← h.is_counting] at hmove
    obtain ⟨t', hstep, -, hthreads, his, hseg, -, hdevice⟩ := Segment.thread_step hthread hmove
    have hlabel : s.counting (.counter i mallocOk createOk) = [.thread i] := by
      simp only [State.counting, hpc]
      split
      · next digit pin heq => rw [if_neg (hlast digit pin (Option.some.inj heq))]
      · rfl
    refine ⟨t', by rw [hlabel, Machine.exec_singleton, hstep], ?_, ?_, ?_, ?_, ?_⟩
    · rw [his, h.is_counting]
      simp only [erase_eq_finish]
      exact hcounting.symm
    · rw [hseg, h.segment_counting]
      simp only [erase_eq_clearing]
      exact hsegment.symm
    · rw [hthreads, hfollow, List.map_set, h.threads]
    · rw [hdevice, h.device]
      rfl
    · exact hinit.trans h.initialized

theorem Counts.step (h : Counts s t) {a : Action} (hs : s.step a = some s') :
    ∃ t', countdownMachine.exec t (s.counting a) = some t' ∧ Counts s' t' := by
  cases a with
  | take cmd =>
      simp only [State.step] at hs
      split at hs
      · next hidle =>
          cases hs
          exact h.of_frame rfl rfl rfl (by simp [State.segmentPc, hidle, HandlerPc.erase])
      · cases hs
  | device mallocOk createOk => exact h.stepDevice hs
  | sense level =>
      obtain ⟨-, hseg7, hsegment⟩ := handleSensorMonitoring_frame level s.devices
      simp only [State.step] at hs
      split at hs
      · cases hs
        exact h.of_frame hseg7 hsegment rfl rfl
      · cases hs
  | player i =>
      simp only [State.step, State.stepPlayer, Option.bind_eq_bind, Option.bind_eq_some_iff] at hs
      obtain ⟨p, -, r, -, hs⟩ := hs
      cases hs
      exact h.of_frame rfl rfl rfl rfl
  | counter i mallocOk createOk => exact h.stepCounter hs

end Simulates

theorem countdown_simulation :
    Machine.Simulation rigMachine countdownMachine State.counting Counts where
  start := ⟨_, Machine.ReachableUnder.start, counts_init⟩
  step _ _ _ _ _ _ hR hs := hR.step hs

/-- Whatever the device thread, the playback threads and the counting threads do, the run
is one of the countdown model over what its steps are for the segment: the two flags are
the same at its end, the device thread is at the same place, and the counting threads
are, up to the pins of the digit being written. -/
theorem devices_refine_countdown {as : List Action} {s : State}
    (hrun : rigMachine.exec rigMachine.start as = some s) :
    ∃ t, countdownMachine.exec Segment.init
        (rigMachine.observed State.counting rigMachine.start as) = some t ∧
      t.is_counting = s.devices.seg7.is_counting ∧
      t.segment_counting = s.devices.segment_counting ∧
      t.device = s.segmentPc ∧ t.threads = s.counters.map CounterPc.erase := by
  obtain ⟨t, ht, hcounts⟩ := countdown_simulation.run Machine.ReachableUnder.start
    Machine.ReachableUnder.start counts_init hrun
  exact ⟨t, ht, hcounts.is_counting, hcounts.segment_counting, hcounts.device, hcounts.threads⟩

/-- A first digit, half written, then stopped. -/
theorem half_written_digit_refines :
    ∃ (s : State) (t : Segment.State), s.counters = [.output 5 2] ∧
      s.handler = some (⟨.segmentStop, 0, 0⟩, .stopAnswer) ∧
      countdownMachine.exec Segment.init
        [.display 5, .device true, .device true, .device true, .thread 0, .stop, .device true,
          .device true, .device true] = some t ∧
      t.threads = [.output 5] ∧ t.is_counting = false ∧ t.segment_counting = true ∧
      t.device = .stopAnswer := by
  have hrun : (rigMachine.exec rigMachine.start
      (.take ⟨.segmentDisplay, 5, 0⟩ :: List.replicate 3 (.device true true) ++
        List.replicate 3 (.counter 0 true true) ++
        (.take ⟨.segmentStop, 0, 0⟩ :: List.replicate 2 (.device true true)))).any (fun s =>
          decide (s.counters = [.output 5 2] ∧
            s.handler = some (⟨.segmentStop, 0, 0⟩, .stopAnswer) ∧
            s.devices.seg7.is_counting = false ∧ s.devices.segment_counting = true)) = true := by
    decide +kernel
  have hlabels : rigMachine.observed State.counting rigMachine.start
      (.take ⟨.segmentDisplay, 5, 0⟩ :: List.replicate 3 (.device true true) ++
        List.replicate 3 (.counter 0 true true) ++
        (.take ⟨.segmentStop, 0, 0⟩ :: List.replicate 2 (.device true true))) =
      [.display 5, .device true, .device true, .device true, .thread 0, .stop, .device true,
        .device true, .device true] := by
    decide +kernel
  obtain ⟨s, hs, hfacts⟩ := (Option.any_eq_true _ _).mp hrun
  obtain ⟨hcounters, hhandler, hcounting, hsegment⟩ := of_decide_eq_true hfacts
  obtain ⟨t, ht, his, hseg, hdevice, hthreads⟩ := devices_refine_countdown hs
  rw [hlabels] at ht
  refine ⟨s, t, hcounters, hhandler, ht, ?_, his.trans hcounting, hseg.trans hsegment, ?_⟩
  · rw [hthreads, hcounters]
    rfl
  · rw [hdevice, State.segmentPc, hhandler]
    rfl

end RsvpControl.Rig
