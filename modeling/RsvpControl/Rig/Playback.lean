import RsvpControl.Music.SinglePlayback
import RsvpControl.Rig.Threads

/-! # The playbacks of the whole device part

The device thread and the callbacks of the counting threads are callers of `buzzer.c`,
and the playback threads are the ones of its own model. So every run of the devices is a
run there, and what holds there of any number of callers holds here. The responses
account for the playbacks: each was asked for and answered or rung by a countdown, and
each that was cut short was so by a stop answered with success.
-/

namespace RsvpControl.Rig

open RsvpControl.Core Server Device
open Music (Playback PlayerPc playbackMachine)

/-! ## The correspondence -/

/-- The calls of `buzzer.c` and the steps of its threads. -/
def State.playing (s : State) : Action → List Music.Action
  | .device mallocOk createOk =>
      match s.handler with
      | some (_, .play music_num) => [.call music_num, .play 0 mallocOk createOk]
      | some (_, .stopMusic) => [.stop]
      | _ => []
  | .player t => [.thread t]
  | .counter t mallocOk createOk =>
      match s.counters[t]? with
      | some .ringing => [.call MUSIC_SCHOOL_BELL, .play 0 mallocOk createOk]
      | _ => []
  | _ => []

def Player.of (p : Playback) : Player := ⟨p.music, p.pc⟩

/-- Responses whose message starts so. -/
def State.answeredWith (s : State) (start : Bytes) : Nat :=
  s.log.countP fun e => start.isPrefixOf e.2.message

structure Plays (s : State) (t : Music.State) : Prop where
  buzzer : t.buzzer = s.devices.buzzer
  threads : t.threads.map Player.of = s.players
  callers : t.callers = []
  cleanup : t.cleanup = .idle
  initialized : t.buzzer.initialized = true
  stops : t.threads.countP Playback.stopped ≤ s.answeredWith (text "Music stopped")

theorem plays_init : ∃ t, playbackMachine.Reachable t ∧ Plays rigMachine.start t := by
  refine ⟨⟨(musicInit 21 true Buzzer.unset).1, [], [], .idle⟩, ?_, rfl, rfl, rfl, rfl, rfl, Nat.le_refl _⟩
  exact Machine.Reaches.of_step (.init 21 true) rfl

section Steps

variable {s s' : State} {t : Music.State}

theorem answeredWith_le (h : s.log <+: s'.log) (start : Bytes) :
    s.answeredWith start ≤ s'.answeredWith start :=
  List.Sublist.countP_le h.sublist

theorem Plays.of_frame (h : Plays s t) (hbuzzer : s'.devices.buzzer = s.devices.buzzer)
    (hplayers : s'.players = s.players) (hlog : s.log <+: s'.log) :
    ∃ t', playbackMachine.exec t [] = some t' ∧ Plays s' t' :=
  ⟨t, rfl, by rw [h.buzzer, hbuzzer], by rw [h.threads, hplayers], h.callers, h.cleanup,
    h.initialized, Nat.le_trans h.stops (answeredWith_le hlog _)⟩

theorem initialized_playMusicAsync (music_number : Int) (mallocOk createOk : Bool)
    (buzzer : Buzzer) :
    (playMusicAsync music_number mallocOk createOk buzzer).1.initialized =
      buzzer.initialized := by
  unfold playMusicAsync
  repeat' split
  all_goals rfl

theorem Plays.start (h : Plays s t) (music_number : Int) (mallocOk createOk : Bool)
    (hbuzzer : s'.devices.buzzer =
      (playMusicAsync music_number mallocOk createOk s.devices.buzzer).1)
    (hplayers : s'.players = (s.follow s'.devices).players) (hlog : s.log <+: s'.log) :
    ∃ t', playbackMachine.exec t [.call music_number, .play 0 mallocOk createOk] = some t' ∧
      Plays s' t' := by
  have hplay : (playMusicAsync music_number mallocOk createOk s.devices.buzzer).1 =
      (Music.playLocked music_number mallocOk createOk t.buzzer).1 := by
    rw [Music.playMusicAsync_eq, ← h.buzzer, h.initialized]
    rfl
  refine ⟨{ t with
    buzzer := s'.devices.buzzer
    threads := t.threads ++
      (s'.devices.buzzer.players.drop t.buzzer.players.length).map Playback.create }, ?_, ?_⟩
  · rw [hbuzzer, hplay]
    simp only [Machine.exec_cons, Machine.exec_nil, playbackMachine, Music.State.step,
      h.initialized, if_true, h.callers, List.nil_append, Option.bind_some,
      List.getElem?_cons_zero, List.eraseIdx_cons_zero]
  · refine ⟨rfl, ?_, h.callers, h.cleanup, ?_, ?_⟩
    · rw [hplayers, List.map_append, h.threads, h.buzzer, List.map_map]
      rfl
    · show s'.devices.buzzer.initialized = true
      rw [hbuzzer, initialized_playMusicAsync, ← h.buzzer, h.initialized]
    · have hnew : ((s'.devices.buzzer.players.drop t.buzzer.players.length).map
          Playback.create).countP Playback.stopped = 0 := by
        rw [List.countP_eq_zero]
        intro p hp
        obtain ⟨music, -, rfl⟩ := List.mem_map.mp hp
        simp [Playback.create]
      simp only [List.countP_append, hnew, Nat.add_zero]
      exact Nat.le_trans h.stops (answeredWith_le hlog _)

/-- A stop that is accepted marks the one playback in progress and is answered. -/
theorem Plays.stop (h : Plays s t) (hinv : Music.PlaybackInv t)
    (hbuzzer : s'.devices.buzzer = (stopMusic s.devices.buzzer).1)
    (hplayers : s'.players = s.players) (hlog : s.log <+: s'.log)
    (hanswer : s.devices.buzzer.is_playing = true →
      s.answeredWith (text "Music stopped") < s'.answeredWith (text "Music stopped")) :
    ∃ t', playbackMachine.exec t [.stop] = some t' ∧ Plays s' t' := by
  refine ⟨t.stopMusic, Machine.exec_singleton _ _, ?_, ?_, h.callers, h.cleanup, ?_, ?_⟩
  · rw [hbuzzer, ← h.buzzer]
    rfl
  · rw [hplayers, ← h.threads]
    simp only [Music.State.stopMusic]
    split
    · rw [List.map_map]
      refine List.map_congr_left fun p _ => ?_
      simp only [Function.comp, Player.of]
      split <;> rfl
    · rfl
  · have hinit := h.initialized
    simp only [Music.State.stopMusic, stopMusic]
    split <;> exact hinit
  · have hstops := h.stops
    simp only [Music.State.stopMusic]
    split
    · next hplaying =>
        rw [h.buzzer] at hplaying
        have hone := hinv.live_le_one
        have hmarked : (t.threads.map fun p =>
            if p.live then { p with stopped := true } else p).countP Playback.stopped ≤
              t.threads.countP Playback.stopped + t.threads.countP Playback.live :=
          Population.countP_map_mark _
        have hmore := hanswer hplaying
        simp only [Music.State.live] at hone
        omega
    · exact Nat.le_trans hstops (answeredWith_le hlog _)

theorem Plays.player (h : Plays s t) {i : Nat} (hs : s.stepPlayer i = some s') :
    ∃ t', playbackMachine.exec t [.thread i] = some t' ∧ Plays s' t' := by
  unfold State.stepPlayer at hs
  rw [← h.threads, List.getElem?_map] at hs
  cases hp : t.threads[i]? with
  | none => simp [hp] at hs
  | some p =>
      simp only [hp, Option.map_some, Option.bind_eq_bind, Option.bind_some] at hs
      cases hnext : p.pc.next p.music s.devices.buzzer.should_stop with
      | none => simp [Player.of, hnext] at hs
      | some r =>
          simp only [Player.of, hnext, Option.bind_some, Option.some.injEq] at hs
          subst hs
          refine ⟨{ t with
            threads := t.threads.set i (p.advance r.1 r.2)
            buzzer := Music.Buzzer.advance t.buzzer p.pc.clearing r.2 }, ?_, ?_, ?_, h.callers,
            h.cleanup, h.initialized, ?_⟩
          · rw [Machine.exec_singleton]
            simp only [playbackMachine, Music.State.step, Music.State.runThread, hp, h.buzzer,
              hnext, Option.bind_eq_bind, Option.bind_some]
          · simp only [h.buzzer]
          · rw [List.map_set, h.threads]
            rfl
          · have hset := Population.countP_set_getElem? (p.advance r.1 r.2) hp
              (p := Playback.stopped)
            have hsame : (p.advance r.1 r.2).stopped = p.stopped := rfl
            rw [hsame] at hset
            have hstops := h.stops
            simp only [State.answeredWith] at hstops ⊢
            omega

theorem Plays.stepDevice (h : Plays s t) (hinv : Music.PlaybackInv t)
    {mallocOk createOk : Bool} (hs : s.stepDevice mallocOk createOk = some s') :
    ∃ t', playbackMachine.exec t (s.playing (.device mallocOk createOk)) = some t' ∧
      Plays s' t' := by
  obtain ⟨cmd, pc, hpc, hdevices, hplayers, -, hcase⟩ := stepDevice_spec hs
  have hbuzzer := perform_buzzer cmd mallocOk createOk s.devices pc
  rw [← hdevices] at hbuzzer
  have hlog : s.log <+: s'.log := by
    rcases hcase with ⟨pc', -, -, hlog⟩ | ⟨response, -, -, hlog⟩
    · rw [hlog]
    · rw [hlog]
      exact List.prefix_append _ _
  cases pc with
  | play music_num =>
      simp only [State.playing, hpc]
      exact h.start music_num mallocOk createOk hbuzzer hplayers hlog
  | stopMusic =>
      simp only [State.playing, hpc]
      refine h.stop hinv hbuzzer ?_ hlog ?_
      · rw [hplayers]
        simp only [State.follow, hbuzzer, players_stopMusic, List.drop_length, List.map_nil,
          List.append_nil]
      · intro hplaying
        simp only [HandlerPc.perform, buzzerOffStop, stopMusic, hplaying, Bool.true_eq_false,
          if_false, if_true, reduceCtorEq, false_and, exists_false, false_or,
          Outcome.respond.injEq] at hcase
        obtain ⟨response, rfl, -, hlog⟩ := hcase
        simp [State.answeredWith, hlog, success]
  | _ =>
      simp only [State.playing, hpc]
      refine h.of_frame hbuzzer ?_ hlog
      rw [hplayers]
      simp only [State.follow, hbuzzer, List.drop_length, List.map_nil, List.append_nil]

theorem Plays.stepCounter (h : Plays s t) {i : Nat} {mallocOk createOk : Bool}
    (hs : s.stepCounter i mallocOk createOk = some s') :
    ∃ t', playbackMachine.exec t (s.playing (.counter i mallocOk createOk)) = some t' ∧
      Plays s' t' := by
  obtain ⟨pc, pc', hpc, -, rfl⟩ := stepCounter_spec hs
  have hbuzzer := change_buzzer mallocOk createOk s.devices pc
  by_cases hringing : pc = .ringing
  · rw [if_pos hringing] at hbuzzer
    simp only [State.playing, hpc, hringing]
    subst hringing
    exact h.start MUSIC_SCHOOL_BELL mallocOk createOk hbuzzer rfl List.prefix_rfl
  · rw [if_neg hringing] at hbuzzer
    have hquiet : s.playing (.counter i mallocOk createOk) = [] := by
      simp only [State.playing, hpc]
      split
      · next heq => exact absurd (Option.some.inj heq) hringing
      · rfl
    rw [hquiet]
    refine h.of_frame hbuzzer ?_ List.prefix_rfl
    simp only [State.follow, hbuzzer, List.drop_length, List.map_nil, List.append_nil]

theorem Plays.step (h : Plays s t) (hinv : Music.PlaybackInv t) {a : Action}
    (hs : s.step a = some s') :
    ∃ t', playbackMachine.exec t (s.playing a) = some t' ∧ Plays s' t' := by
  cases a with
  | take cmd =>
      simp only [State.step] at hs
      split at hs
      · cases hs
        exact h.of_frame rfl rfl List.prefix_rfl
      · cases hs
  | device mallocOk createOk => exact h.stepDevice hinv hs
  | sense level =>
      simp only [State.step] at hs
      split at hs
      · cases hs
        exact h.of_frame (handleSensorMonitoring_frame level s.devices).1 rfl List.prefix_rfl
      · cases hs
  | player i => exact h.player hs
  | counter i mallocOk createOk => exact h.stepCounter hs

end Steps

theorem playback_simulation :
    Machine.Simulation rigMachine playbackMachine State.playing Plays where
  start := plays_init
  step _ _ _ _ _ ht hR hs := hR.step (Music.playbackInv_of_reachable ht) hs

/-! ## Who asked for a playback -/

/-- Countdowns that have ended, by their callback or without it. -/
def State.ended (s : State) : Nat := s.counters.countP fun pc => pc == .done

def Asked (s : State) : Prop :=
  s.players.length ≤ s.answeredWith (text "Playing music ") + s.ended

theorem playMusicAsync_created (music_number : Int) (mallocOk createOk : Bool)
    (buzzer : Buzzer) :
    (playMusicAsync music_number mallocOk createOk buzzer).1.players = buzzer.players ∨
      (playMusicAsync music_number mallocOk createOk buzzer).2 = 0 ∧
        ∃ data, (playMusicAsync music_number mallocOk createOk buzzer).1.players =
          buzzer.players ++ [data] := by
  fun_cases playMusicAsync music_number mallocOk createOk buzzer
  case case6 data hdata started hcreate => exact .inr ⟨rfl, data, rfl⟩
  all_goals exact .inl rfl

section Asked

variable {s s' : State}

theorem Asked.of_frame (h : Asked s) (hplayers : s'.players.length = s.players.length)
    (hlog : s.log <+: s'.log) (hended : s.ended ≤ s'.ended) : Asked s' := by
  have hanswered := answeredWith_le hlog (text "Playing music ")
  unfold Asked at h ⊢
  omega

theorem ended_follow (devices : DeviceState) : (s.follow devices).ended = s.ended := by
  have hnew : ((devices.seg7.countdowns.drop s.devices.seg7.countdowns.length).map
      fun start_seconds => CounterPc.check start_seconds.toNat).countP (fun pc => pc == .done) =
        0 := by
    rw [List.countP_eq_zero]
    intro pc hpc
    obtain ⟨start_seconds, -, rfl⟩ := List.mem_map.mp hpc
    simp
  simp only [State.ended, State.follow, List.countP_append, hnew, Nat.add_zero]

theorem Asked.stepDevice (h : Asked s) {mallocOk createOk : Bool}
    (hs : s.stepDevice mallocOk createOk = some s') : Asked s' := by
  obtain ⟨cmd, pc, hpc, hdevices, hplayers, hcounters, hcase⟩ := stepDevice_spec hs
  have hbuzzer := perform_buzzer cmd mallocOk createOk s.devices pc
  rw [← hdevices] at hbuzzer
  have hended : s'.ended = s.ended := by
    have hfollow := ended_follow (s := s) s'.devices
    rwa [State.ended, ← hcounters] at hfollow
  have hlog : s.log <+: s'.log := by
    rcases hcase with ⟨pc', -, -, hlog⟩ | ⟨response, -, -, hlog⟩
    · rw [hlog]
    · rw [hlog]
      exact List.prefix_append _ _
  by_cases hsame : s'.devices.buzzer.players = s.devices.buzzer.players
  · refine h.of_frame ?_ hlog (Nat.le_of_eq hended.symm)
    rw [hplayers]
    simp only [State.follow, hsame, List.drop_length, List.map_nil, List.append_nil]
  · -- only the start of a playback creates one, and it is answered
    cases pc with
    | play music_num =>
        rcases playMusicAsync_created music_num mallocOk createOk s.devices.buzzer with
          hnone | ⟨hrc, data, hone⟩
        · exact absurd (by rw [hbuzzer, hnone]) hsame
        · simp only [HandlerPc.perform, buzzerOnPlay, hrc, if_true, reduceCtorEq, false_and,
            exists_false, false_or, Outcome.respond.injEq] at hcase
          obtain ⟨response, rfl, -, hlog⟩ := hcase
          have hanswered : s'.answeredWith (text "Playing music ") =
              s.answeredWith (text "Playing music ") + 1 := by
            simp [State.answeredWith, hlog, success]
          have hlength : s'.players.length = s.players.length + 1 := by
            rw [hplayers]
            simp [State.follow, hbuzzer, hone]
          unfold Asked at h ⊢
          omega
    | stopMusic => exact absurd (by rw [hbuzzer, players_stopMusic]) hsame
    | _ => exact absurd (by rw [hbuzzer]) hsame

theorem Asked.stepCounter (h : Asked s) {i : Nat} {mallocOk createOk : Bool}
    (hs : s.stepCounter i mallocOk createOk = some s') : Asked s' := by
  obtain ⟨pc, pc', hpc, hnext, rfl⟩ := stepCounter_spec hs
  have hbuzzer := change_buzzer mallocOk createOk s.devices pc
  have hset := Population.countP_set_getElem? pc' hpc (p := fun pc => pc == CounterPc.done)
  have hlive : (pc == CounterPc.done) = false := by
    cases pc with
    | done => cases hnext
    | _ => rfl
  have hended : (({ s with counters := s.counters.set i pc' } : State).follow
      (pc.change mallocOk createOk s.devices)).ended =
        s.ended + if pc' = .done then 1 else 0 := by
    rw [ended_follow]
    simp only [hlive, Bool.false_eq_true, if_false, Nat.add_zero, beq_iff_eq] at hset
    exact hset
  have hlength : (({ s with counters := s.counters.set i pc' } : State).follow
      (pc.change mallocOk createOk s.devices)).players.length ≤
        s.players.length + if pc' = .done then 1 else 0 := by
    simp only [State.follow, List.length_append, List.length_map, List.length_drop, hbuzzer]
    by_cases hringing : pc = .ringing
    · subst hringing
      cases hnext
      simp only [if_true]
      rcases playMusicAsync_created MUSIC_SCHOOL_BELL mallocOk createOk s.devices.buzzer with
        hnone | ⟨-, data, hone⟩
      · rw [hnone]
        omega
      · rw [hone]
        simp
    · simp [hringing]
  unfold Asked at h ⊢
  have hanswered : (({ s with counters := s.counters.set i pc' } : State).follow
      (pc.change mallocOk createOk s.devices)).answeredWith (text "Playing music ") =
        s.answeredWith (text "Playing music ") := rfl
  omega

theorem Asked.step (h : Asked s) {a : Action} (hs : s.step a = some s') : Asked s' := by
  cases a with
  | take cmd =>
      simp only [State.step] at hs
      split at hs
      · cases hs
        exact h
      · cases hs
  | device mallocOk createOk => exact h.stepDevice hs
  | sense level =>
      simp only [State.step] at hs
      split at hs
      · cases hs
        exact h
      · cases hs
  | player i =>
      simp only [State.step, State.stepPlayer, Option.bind_eq_bind, Option.bind_eq_some_iff] at hs
      obtain ⟨p, -, r, -, hs⟩ := hs
      cases hs
      exact h.of_frame (by simp) List.prefix_rfl (Nat.le_refl _)
  | counter i mallocOk createOk => exact h.stepCounter hs

end Asked

theorem asked_init : Asked rigMachine.start := Nat.le_refl 0

theorem asked_of_reachable {s : State} (h : rigMachine.Reachable s) : Asked s :=
  Machine.Reachable.invariant (I := Asked) asked_init (fun _ _ _ hi hs => hi.step hs) h

/-! ## The result -/

def Player.live (p : Player) : Bool :=
  match p.pc with
  | .done _ => false
  | _ => true

/-- The playbacks of a state, accounted for by the responses sent. -/
structure WellPlayed (s : State) : Prop where
  single : s.players.countP Player.live = if s.devices.buzzer.is_playing then 1 else 0
  stop : s.devices.buzzer.should_stop = true → s.devices.buzzer.is_playing = true
  quiet : s.devices.buzzer.is_playing = false → Music.Silent s.devices.buzzer
  asked : s.players.length ≤ s.answeredWith (text "Playing music ") + s.ended
  cut : s.players.countP (fun p => p.pc.interrupted) ≤ s.answeredWith (text "Music stopped")

theorem Plays.wellPlayed {s : State} {t : Music.State} (h : Plays s t)
    (hinv : Music.PlaybackInv t) (hasked : Asked s) : WellPlayed s where
  single := by
    rw [← h.threads, List.countP_map, ← h.buzzer]
    exact hinv.single
  stop := by
    rw [← h.buzzer]
    exact hinv.stop
  quiet := by
    rw [← h.buzzer]
    exact hinv.quiet
  asked := hasked
  cut := by
    rw [← h.threads, List.countP_map]
    refine Nat.le_trans (List.countP_mono_left ?_) h.stops
    exact fun p hp => (hinv.kept p hp).interrupted

/-- However the device thread in its handlers, the playback threads and the callbacks of
the countdowns interleave: at most one playback is in progress, exactly while
`is_playing` is set; the speaker is silent otherwise; every playback was answered to a
command or rung by a countdown; and no more are cut short than stops were answered. -/
theorem devices_play_one_at_a_time {s : State} (h : rigMachine.Reachable s) : WellPlayed s := by
  obtain ⟨t, ht, hplays⟩ := playback_simulation.exists_of_reachable h
  exact hplays.wellPlayed (Music.playbackInv_of_reachable ht) (asked_of_reachable h)

/-- A countdown from 1 rings and the bell is cut short by a stop. -/
theorem bell_stopped :
    ∃ s, rigMachine.Reachable s ∧ s.ended = 1 ∧ s.players.length = 1 ∧
      s.answeredWith (text "Playing music ") = 0 ∧ s.answeredWith (text "Music stopped") = 1 ∧
      s.players.countP (fun p => p.pc.interrupted) = 1 ∧ WellPlayed s := by
  have hrun : (rigMachine.exec rigMachine.start
      (.take ⟨.segmentDisplay, 1, 0⟩ :: List.replicate 3 (.device true true) ++
        List.replicate 15 (.counter 0 true true) ++
        (.take ⟨.buzzerOff, 0, 0⟩ :: List.replicate 2 (.device true true)) ++
        [.player 0])).any (fun s =>
          decide (s.ended = 1 ∧ s.players.length = 1 ∧
            s.answeredWith (text "Playing music ") = 0 ∧
            s.answeredWith (text "Music stopped") = 1 ∧
            s.players.countP (fun p => p.pc.interrupted) = 1)) = true := by
    decide +kernel
  obtain ⟨s, hreach, hfacts⟩ := Machine.Reachable.exists_of_exec hrun
  obtain ⟨hended, hplayers, hplaying, hstopped, hcut⟩ := of_decide_eq_true hfacts
  exact ⟨s, hreach, hended, hplayers, hplaying, hstopped, hcut,
    devices_play_one_at_a_time hreach⟩

end RsvpControl.Rig
