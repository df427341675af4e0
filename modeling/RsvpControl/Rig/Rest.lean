import RsvpControl.Core.Progress
import RsvpControl.Rig.Countdown
import RsvpControl.Rig.Playback
import RsvpControl.Segment.Flags

/-! # The devices come to rest

Without new commands the threads of the devices end: the handler in its sections, each
countdown in its pin writes and sleeps, each playback in its notes, the bell a countdown
rings included. The flags of the two libraries and the countdown flag of the device
thread are clear then, and the speaker is silent.
-/

namespace RsvpControl.Rig

open RsvpControl.Core Server Device
open Segment (countdownMachine)
open Music (PlayerPc)

/-! ## Work -/

/-- Steps of a playback thread for one note at most: a wait and a test for each delay, and
no delay is shorter than one millisecond. -/
def noteWork (music : MusicData) : Nat := 2 * music.tempo.toNat + 3

def playerWork (music : MusicData) : PlayerPc → Nat
  | .note i => (music.length - i) * noteWork music + 3
  | .tone i => (music.length - (i + 1)) * noteWork music + 2 * music.tempo.toNat + 5
  | .wait i remaining => (music.length - (i + 1)) * noteWork music + 2 * remaining.toNat + 4
  | .recheck i remaining => (music.length - (i + 1)) * noteWork music + 2 * remaining.toNat + 5
  | .silence => 2
  | .clear _ => 1
  | .done _ => 0

def Player.work (p : Player) : Nat := playerWork p.music p.pc

def songWork : Nat := 48 * (2 * 280 + 3) + 3

/-- A bound on the steps a counting thread has left, with those of the bell it may ring. -/
def CounterPc.work : CounterPc → Nat
  | .check i => 9 + 6 * i + songWork
  | .output i pin => 5 + 6 * i + (3 - pin) + songWork
  | .sleeping i => 10 + 6 * (i - 1) + songWork
  | .finish => 4 + songWork
  | .callback => 3 + songWork
  | .clearing => 2 + songWork
  | .ringing => 1 + songWork
  | .done => 0

def HandlerPc.sections : HandlerPc → Nat
  | .start => 5
  | .countingTest => 4
  | .countingCreate => 3
  | .countingUndo | .stopCounting => 2
  | .play _ | .stopMusic | .displayUndo | .stopAnswer => 1

/-- A handler creates at most one thread. -/
def handlerWork : Option (Command × HandlerPc) → Nat
  | none => 0
  | some (cmd, pc) => pc.sections + (songWork + (CounterPc.check cmd.param1.toNat).work)

def State.work (s : State) : Nat :=
  handlerWork s.handler + (s.players.map Player.work).sum + (s.counters.map CounterPc.work).sum

/-- Not a new command and not a check of the sensor. -/
def Action.ofThreads : Action → Bool
  | .take _ | .sense _ => false
  | _ => true

/-! ## Threads -/

theorem playerWork_next {music : MusicData} {should_stop : Bool} {pc pc' : PlayerPc}
    {written : Option Int} (h : pc.next music should_stop = some (pc', written)) :
    playerWork music pc' < playerWork music pc := by
  cases pc with
  | note i =>
      simp only [PlayerPc.next] at h
      split at h
      · next hlt =>
          have hsucc : music.length - i = music.length - (i + 1) + 1 := by omega
          have hwork : (music.length - i) * noteWork music =
              (music.length - (i + 1)) * noteWork music + noteWork music := by
            rw [hsucc, Nat.succ_mul]
          have hnote : noteWork music = 2 * music.tempo.toNat + 3 := rfl
          split at h <;> cases h
          · simp only [playerWork]
            omega
          · simp only [playerWork]
            omega
      · cases h
        simp only [playerWork]
        omega
  | tone i =>
      simp only [PlayerPc.next, Option.some.injEq, Prod.mk.injEq] at h
      obtain ⟨rfl, -⟩ := h
      simp only [playerWork]
      omega
  | wait i remaining =>
      simp only [PlayerPc.next] at h
      split at h
      · next hpos =>
          simp only [Option.some.injEq, Prod.mk.injEq] at h
          obtain ⟨rfl, -⟩ := h
          -- a delay takes at least one millisecond of what is left
          have hless : (remaining -
              if remaining > Music.delay_step then Music.delay_step else remaining).toNat <
                remaining.toNat := by
            unfold Music.delay_step
            split <;> omega
          simp only [playerWork]
          omega
      · simp only [Option.some.injEq, Prod.mk.injEq] at h
        obtain ⟨rfl, -⟩ := h
        simp only [playerWork]
        omega
  | recheck i remaining =>
      simp only [PlayerPc.next] at h
      split at h <;> cases h
      · simp only [playerWork]
        omega
      · simp only [playerWork]
        omega
  | silence | clear interrupted =>
      simp only [PlayerPc.next, Option.some.injEq, Prod.mk.injEq] at h
      obtain ⟨rfl, -⟩ := h
      simp [playerWork]
  | done interrupted => cases h

theorem counterWork_next {is_counting : Bool} {pc pc' : CounterPc}
    (h : pc.next is_counting = some pc') :
    pc'.work + (if pc = .ringing then songWork else 0) < pc.work := by
  cases pc with
  | check i =>
      simp only [CounterPc.next, Option.some.injEq] at h
      subst h
      split <;> simp only [CounterPc.work, reduceCtorEq, if_false] <;> omega
  | output i pin =>
      simp only [CounterPc.next] at h
      split at h
      · simp only [Option.some.injEq] at h
        subst h
        simp only [CounterPc.work, reduceCtorEq, if_false]
        omega
      · simp only [Option.some.injEq] at h
        subst h
        split <;> simp only [CounterPc.work, reduceCtorEq, if_false] <;> omega
  | sleeping i =>
      simp only [CounterPc.next, Option.some.injEq] at h
      subst h
      simp only [CounterPc.work, reduceCtorEq, if_false]
      omega
  | finish | callback | clearing | ringing =>
      simp only [CounterPc.next, Option.some.injEq] at h
      subst h
      simp [CounterPc.work]
  | done => cases h

theorem playerWork_le {music_number : Int} {music : MusicData}
    (h : musicData music_number = some music) : playerWork music (.note 0) ≤ songWork := by
  unfold musicData at h
  repeat' split at h
  all_goals cases h
  all_goals simp [playerWork, noteWork, songWork]

/-! ## Threads created on the way -/

theorem players_playMusicAsync_cases (music_number : Int) (mallocOk createOk : Bool)
    (buzzer : Buzzer) :
    (playMusicAsync music_number mallocOk createOk buzzer).1.players = buzzer.players ∨
      ∃ music, musicData music_number = some music ∧
        (playMusicAsync music_number mallocOk createOk buzzer).1.players =
          buzzer.players ++ [music] := by
  unfold playMusicAsync
  repeat' split
  all_goals first
    | exact .inl rfl
    | exact .inr ⟨_, by assumption, rfl⟩

section Steps

variable {s s' : State}

theorem follow_players {d : DeviceState} (h : d.buzzer.players = s.devices.buzzer.players) :
    (s.follow d).players = s.players := by
  simp [State.follow, h]

theorem follow_counters {d : DeviceState} (h : d.seg7.countdowns = s.devices.seg7.countdowns) :
    (s.follow d).counters = s.counters := by
  simp [State.follow, h]

theorem work_play {d : DeviceState} {music_number : Int} {mallocOk createOk : Bool}
    (h : d.buzzer = (playMusicAsync music_number mallocOk createOk s.devices.buzzer).1) :
    ((s.follow d).players.map Player.work).sum ≤ (s.players.map Player.work).sum + songWork := by
  rcases players_playMusicAsync_cases music_number mallocOk createOk s.devices.buzzer with
    hsame | ⟨music, hmusic, hone⟩
  · rw [follow_players (by rw [h, hsame])]
    exact Nat.le_add_right _ _
  · have hwork : Player.work ⟨music, .note 0⟩ ≤ songWork := playerWork_le hmusic
    simp only [State.follow, h, hone, List.drop_left, List.map_append, List.map_cons, List.map_nil,
      List.sum_append, List.sum_cons, List.sum_nil]
    omega

/-! ## Steps -/

theorem work_player {t : Nat} (hs : s.stepPlayer t = some s') : s'.work < s.work := by
  unfold State.stepPlayer at hs
  cases hp : s.players[t]? with
  | none => simp [hp] at hs
  | some p =>
      cases hnext : p.pc.next p.music s.devices.buzzer.should_stop with
      | none => simp [hp, hnext] at hs
      | some r =>
          obtain ⟨pc, written⟩ := r
          simp only [hp, hnext, Option.bind_eq_bind, Option.bind_some, Option.some.injEq] at hs
          subst hs
          have hless : Player.work ⟨p.music, pc⟩ < p.work := playerWork_next hnext
          have hsum : ((s.players.set t ⟨p.music, pc⟩).map Player.work).sum + p.work =
              (s.players.map Player.work).sum + Player.work ⟨p.music, pc⟩ :=
            sum_map_set hp Player.work
          simp only [State.work]
          omega

theorem work_counter {t : Nat} {mallocOk createOk : Bool}
    (hs : s.stepCounter t mallocOk createOk = some s') : s'.work < s.work := by
  obtain ⟨pc, pc', hpc, hnext, rfl⟩ := stepCounter_spec hs
  have hless := counterWork_next hnext
  have hsum : ((s.counters.set t pc').map CounterPc.work).sum + pc.work =
      (s.counters.map CounterPc.work).sum + pc'.work :=
    sum_map_set hpc CounterPc.work
  have hbuzzer := change_buzzer mallocOk createOk s.devices pc
  have hcounters : (State.follow { s with counters := s.counters.set t pc' }
      (pc.change mallocOk createOk s.devices)).counters = s.counters.set t pc' :=
    follow_counters (s := { s with counters := s.counters.set t pc' })
      (change_seg7 mallocOk createOk s.devices pc).1
  have hplayers : ((State.follow { s with counters := s.counters.set t pc' }
      (pc.change mallocOk createOk s.devices)).players.map Player.work).sum ≤
        (s.players.map Player.work).sum + if pc = .ringing then songWork else 0 := by
    split
    · next hringing =>
        rw [if_pos hringing] at hbuzzer
        exact work_play (s := { s with counters := s.counters.set t pc' }) hbuzzer
    · next hquiet =>
        rw [if_neg hquiet] at hbuzzer
        rw [follow_players (s := { s with counters := s.counters.set t pc' }) (by rw [hbuzzer])]
        exact Nat.le_refl _
  have hhandler : (State.follow { s with counters := s.counters.set t pc' }
      (pc.change mallocOk createOk s.devices)).handler = s.handler := rfl
  simp only [State.work, hcounters, hhandler]
  omega

theorem perform_goto {cmd : Command} {mallocOk createOk : Bool} {devices : DeviceState}
    {pc pc' : HandlerPc} (h : (pc.perform cmd mallocOk createOk devices).2 = .goto pc') :
    pc'.sections < pc.sections ∧
      (pc.perform cmd mallocOk createOk devices).1.buzzer.players = devices.buzzer.players ∧
      (pc.perform cmd mallocOk createOk devices).1.seg7.countdowns = devices.seg7.countdowns := by
  cases pc with
  | start =>
      simp only [HandlerPc.perform] at h ⊢
      split at h
      · simp only [buzzerOnStart] at h ⊢
        split at h <;> cases h
        next hplaying =>
          rw [if_neg hplaying]
          exact ⟨by simp [HandlerPc.sections], rfl, rfl⟩
      · simp only [buzzerOffStart] at h ⊢
        split at h <;> cases h
        next hplaying =>
          rw [if_neg hplaying]
          exact ⟨by decide, rfl, rfl⟩
      · simp only [segmentDisplayStart] at h ⊢
        split at h
        · cases h
        · next hrange =>
            split at h <;> cases h
            next hbusy =>
              rw [if_neg hrange, if_neg hbusy]
              exact ⟨by decide, rfl, rfl⟩
      · simp only [segmentStopStart] at h ⊢
        split at h <;> cases h
        next hcounting =>
          rw [if_neg hcounting]
          exact ⟨by decide, rfl, rfl⟩
      · cases h
  | play music_num =>
      simp only [HandlerPc.perform, buzzerOnPlay] at h
      split at h <;> cases h
  | stopMusic =>
      simp only [HandlerPc.perform, buzzerOffStop] at h
      split at h <;> cases h
  | countingTest =>
      simp only [HandlerPc.perform, segmentDisplayTest] at h ⊢
      split at h
      · next huninit =>
          cases h
          rw [if_pos huninit]
          exact ⟨by decide, rfl, rfl⟩
      next hinit =>
      rw [if_neg hinit]
      split at h
      · next hrange =>
          cases h
          rw [if_pos hrange]
          exact ⟨by decide, rfl, rfl⟩
      next hdigit =>
      rw [if_neg hdigit]
      split at h
      · next hcounting =>
          cases h
          rw [if_pos hcounting]
          exact ⟨by decide, rfl, rfl⟩
      · next hcounting =>
          cases h
          rw [if_neg hcounting]
          exact ⟨by decide, rfl, rfl⟩
  | countingCreate =>
      simp only [HandlerPc.perform, segmentDisplayCreate] at h ⊢
      split at h
      · next hmalloc =>
          cases h
          rw [if_pos hmalloc]
          exact ⟨by decide, rfl, rfl⟩
      next hmalloc =>
      rw [if_neg hmalloc]
      split at h <;> cases h
      next hcreate =>
      rw [if_pos hcreate]
      exact ⟨by decide, rfl, rfl⟩
  | countingUndo =>
      cases h
      exact ⟨by decide, rfl, rfl⟩
  | displayUndo | stopAnswer => cases h
  | stopCounting =>
      simp only [HandlerPc.perform, segmentStopCounting] at h ⊢
      split at h <;> cases h
      next hrc =>
        rw [if_pos hrc]
        refine ⟨by decide, rfl, ?_⟩
        unfold seg7StopCounting
        split <;> rfl

theorem work_respond {cmd : Command} {mallocOk createOk : Bool} {pc : HandlerPc}
    {d : DeviceState} (hd : d = (pc.perform cmd mallocOk createOk s.devices).1) :
    ((s.follow d).players.map Player.work).sum + ((s.follow d).counters.map CounterPc.work).sum ≤
      (s.players.map Player.work).sum + (s.counters.map CounterPc.work).sum +
        (songWork + (CounterPc.check cmd.param1.toNat).work) := by
  have hbuzzer := perform_buzzer cmd mallocOk createOk s.devices pc
  have hplayers : ((s.follow d).players.map Player.work).sum ≤
      (s.players.map Player.work).sum + songWork := by
    rw [← hd] at hbuzzer
    split at hbuzzer
    · exact work_play hbuzzer
    · rw [follow_players (by rw [hbuzzer, players_stopMusic])]
      exact Nat.le_add_right _ _
    · rw [follow_players (by rw [hbuzzer])]
      exact Nat.le_add_right _ _
  have hcounters : ((s.follow d).counters.map CounterPc.work).sum ≤
      (s.counters.map CounterPc.work).sum + (CounterPc.check cmd.param1.toNat).work := by
    rcases (perform_seg7 cmd mallocOk createOk s.devices pc).2 with hsame | ⟨-, -, -, hone⟩
    · rw [follow_counters (by rw [hd, hsame])]
      exact Nat.le_add_right _ _
    · simp only [State.follow, hd, hone, List.drop_left, List.map_append, List.map_cons,
        List.map_nil, List.sum_append, List.sum_cons, List.sum_nil]
      omega
  omega

theorem work_device {mallocOk createOk : Bool} (hs : s.stepDevice mallocOk createOk = some s') :
    s'.work < s.work := by
  obtain ⟨cmd, pc, hpc, hdevices, hplayers, hcounters, hout⟩ := stepDevice_spec hs
  simp only [State.work, hpc]
  rcases hout with ⟨pc', hgoto, hhandler, -⟩ | ⟨response, hrespond, hhandler, -⟩
  · obtain ⟨hless, hsong, hcount⟩ := perform_goto hgoto
    rw [hplayers, hcounters, hhandler, follow_players (by rw [hdevices, hsong]),
      follow_counters (by rw [hdevices, hcount])]
    simp only [handlerWork]
    omega
  · have hwork := work_respond hdevices
    have hpos : 0 < pc.sections := by cases pc <;> simp [HandlerPc.sections]
    rw [hplayers, hcounters, hhandler]
    simp only [handlerWork]
    omega

theorem work_step {a : Action} (ha : a.ofThreads = true) (hs : s.step a = some s') :
    s'.work < s.work := by
  cases a with
  | take cmd | sense level => cases ha
  | device mallocOk createOk => exact work_device hs
  | player t => exact work_player hs
  | counter t mallocOk createOk => exact work_counter hs

end Steps

/-! ## Rest -/

section Rest

variable {s : State}

theorem handler_of_rest (h : ∀ a, a.ofThreads = true → s.step a = none) : s.handler = none := by
  cases hhandler : s.handler with
  | none => rfl
  | some current =>
      obtain ⟨cmd, pc⟩ := current
      have hstuck : s.stepDevice true true = none := h (.device true true) rfl
      simp only [State.stepDevice, hhandler] at hstuck
      split at hstuck <;> cases hstuck

theorem players_of_rest (h : ∀ a, a.ofThreads = true → s.step a = none) :
    ∀ p ∈ s.players, p.live = false := by
  intro p hp
  obtain ⟨t, ht⟩ := List.mem_iff_getElem?.mp hp
  have hstuck : s.stepPlayer t = none := h (.player t) rfl
  cases hnext : p.pc.next p.music s.devices.buzzer.should_stop with
  | some r => simp [State.stepPlayer, ht, hnext] at hstuck
  | none =>
      unfold Player.live
      cases hpc : p.pc with
      | done interrupted => rfl
      | note i | wait i remaining | recheck i remaining =>
          rw [hpc, PlayerPc.next] at hnext
          repeat' split at hnext
          all_goals cases hnext
      | _ =>
          rw [hpc] at hnext
          cases hnext

theorem counters_of_rest (h : ∀ a, a.ofThreads = true → s.step a = none) :
    ∀ pc ∈ s.counters, pc = .done := by
  intro pc hpc
  obtain ⟨t, ht⟩ := List.mem_iff_getElem?.mp hpc
  have hstuck : s.stepCounter t true true = none := h (.counter t true true) rfl
  cases hnext : pc.next s.devices.seg7.is_counting with
  | some pc' => simp [State.stepCounter, ht, hnext] at hstuck
  | none =>
      cases pc with
      | output i pin =>
          simp only [CounterPc.next] at hnext
          split at hnext <;> cases hnext
      | done => rfl
      | _ => cases hnext

/-- Nothing in progress and nothing that says so. -/
structure AtRest (s : State) : Prop where
  handler : s.handler = none
  players : ∀ p ∈ s.players, p.live = false
  counters : ∀ pc ∈ s.counters, pc = .done
  is_counting : s.devices.seg7.is_counting = false
  segment_counting : s.devices.segment_counting = false
  is_playing : s.devices.buzzer.is_playing = false
  should_stop : s.devices.buzzer.should_stop = false
  silent : Music.Silent s.devices.buzzer

theorem WellPlayed.idle (h : WellPlayed s) (hplayers : ∀ p ∈ s.players, p.live = false) :
    s.devices.buzzer.is_playing = false := by
  have hnone : s.players.countP Player.live = 0 :=
    List.countP_eq_zero.mpr fun p hp => by simp [hplayers p hp]
  have hsingle := h.single
  rw [hnone] at hsingle
  rw [Bool.eq_false_iff]
  intro hplaying
  rw [if_pos hplaying] at hsingle
  cases hsingle

theorem atRest_of_stuck (hreach : rigMachine.Reachable s)
    (h : ∀ a, a.ofThreads = true → s.step a = none) : AtRest s := by
  have hhandler := handler_of_rest h
  have hplayers := players_of_rest h
  have hcounters := counters_of_rest h
  obtain ⟨p, hp, hplays⟩ := playback_simulation.exists_of_reachable hreach
  have hwell := hplays.wellPlayed (Music.playbackInv_of_reachable hp) (asked_of_reachable hreach)
  obtain ⟨t, ht, hcounts⟩ := countdown_simulation.exists_of_reachable hreach
  have hclear : t.is_counting = false ∧ t.segment_counting = false := by
    refine (Segment.backed_of_reachable ht).clear ?_ ?_
    · rw [hcounts.device, State.segmentPc, hhandler]
    · intro pc hpc
      rw [hcounts.threads] at hpc
      obtain ⟨other, hother, rfl⟩ := List.mem_map.mp hpc
      rw [hcounters other hother]
      rfl
  rw [hcounts.is_counting, hcounts.segment_counting] at hclear
  have hidle := hwell.idle hplayers
  refine ⟨hhandler, hplayers, hcounters, hclear.1, hclear.2, hidle, ?_, hwell.quiet hidle⟩
  rw [Bool.eq_false_iff]
  intro hstop
  have hplaying := hwell.stop hstop
  rw [hidle] at hplaying
  cases hplaying

theorem next_of_done {p : Player} (h : p.live = false) (should_stop : Bool) :
    p.pc.next p.music should_stop = none := by
  unfold Player.live at h
  split at h
  · next hpc =>
      rw [hpc]
      rfl
  · cases h

theorem stuck_of_done (hhandler : s.handler = none) (hplayers : ∀ p ∈ s.players, p.live = false)
    (hcounters : ∀ pc ∈ s.counters, pc = .done) {a : Action} (ha : a.ofThreads = true) :
    s.step a = none := by
  cases a with
  | take cmd | sense level => cases ha
  | device mallocOk createOk => simp only [State.step, State.stepDevice, hhandler]
  | player i =>
      simp only [State.step, State.stepPlayer]
      cases hp : s.players[i]? with
      | none => rfl
      | some p =>
          rw [Option.bind_eq_bind, Option.bind_some,
            next_of_done (hplayers p (List.mem_of_getElem? hp))]
          rfl
  | counter i mallocOk createOk =>
      simp only [State.step, State.stepCounter]
      cases hpc : s.counters[i]? with
      | none => rfl
      | some pc =>
          rw [hcounters pc (List.mem_of_getElem? hpc)]
          rfl

end Rest

/-- From every reachable state, however the threads interleave: without new commands and
sensor checks they take no more steps than the work of the state says, and none of them
can take another one exactly where the devices are at rest. -/
theorem devices_come_to_rest {s : State} (h : rigMachine.Reachable s) {as : List Action}
    {t : State} (has : ∀ a ∈ as, a.ofThreads = true) (hrun : rigMachine.exec s as = some t) :
    as.length ≤ s.work ∧
      ((∀ a, a.ofThreads = true → rigMachine.step t a = none) ↔ AtRest t) := by
  have hlength : as.length + t.work ≤ s.work :=
    Machine.exec_length_le (J := fun _ => True) (fun _ _ _ _ _ => trivial)
      (fun _ _ _ _ ha hs => work_step ha hs) trivial has hrun
  refine ⟨by omega, atRest_of_stuck (h.trans (Machine.Reaches.of_exec hrun)), ?_⟩
  exact fun hrest a ha => stuck_of_done hrest.handler hrest.players hrest.counters ha

/-- A bell that a countdown rang ends with its stop. -/
theorem bell_comes_to_rest :
    ∃ s t, rigMachine.Reachable s ∧ s.devices.buzzer.is_playing = true ∧
      rigMachine.exec s [.device true true, .player 0, .player 0] = some t ∧ 3 ≤ s.work ∧
      t.players.map Player.pc = [.done true] ∧ AtRest t := by
  have hrun : (rigMachine.exec rigMachine.start
      (.take ⟨.segmentDisplay, 1, 0⟩ :: List.replicate 3 (.device true true) ++
        List.replicate 15 (.counter 0 true true) ++
        [.take ⟨.buzzerOff, 0, 0⟩, .device true true])).any (fun s =>
          decide (s.devices.buzzer.is_playing = true ∧
            (rigMachine.exec s [.device true true, .player 0, .player 0]).any (fun t =>
              decide (t.handler = none ∧ t.players.map Player.pc = [.done true] ∧
                t.counters = [.done])) = true)) = true := by
    decide +kernel
  obtain ⟨s, hreach, hfacts⟩ := Machine.Reachable.exists_of_exec hrun
  obtain ⟨hplaying, hon⟩ := of_decide_eq_true hfacts
  obtain ⟨t, ht, hend⟩ := (Option.any_eq_true _ _).mp hon
  obtain ⟨hhandler, hplayers, hcounters⟩ := of_decide_eq_true hend
  obtain ⟨hwork, hrest⟩ := devices_come_to_rest hreach (by decide) ht
  refine ⟨s, t, hreach, hplaying, ht, hwork, hplayers, hrest.mp fun a ha => ?_⟩
  refine stuck_of_done hhandler ?_ (by simp [hcounters]) ha
  intro p hp
  have hpc : p.pc ∈ t.players.map Player.pc := List.mem_map_of_mem hp
  rw [hplayers, List.mem_singleton] at hpc
  rw [Player.live, hpc]

end RsvpControl.Rig
