import RsvpControl.Music.SinglePlayback

/-! # The end of the library

`music_cleanup` joins `music_thread` when it samples a playback in progress after its
stop. `play_music_async` has detached every thread it created, so that is a join of a
thread that is not joinable. The runs are those of the playbacks, with the state of
each thread handle, what each join was called on, and what was still playing at each
return.
-/

namespace RsvpControl.Music

open RsvpControl.Core Device

/-! ## Thread handles -/

inductive Handle where
  /-- Created, neither detached nor joined. -/
  | joinable
  | detached
  | joined
deriving DecidableEq, Repr

def pthreadCreate (handles : List Handle) : List Handle := handles ++ [.joinable]

def pthreadDetach (handles : List Handle) (t : Nat) : List Handle := handles.set t .detached

def pthreadJoin (handles : List Handle) (t : Nat) : List Handle :=
  handles.modify t fun h => if h = .joinable then .joined else h

structure Teardown where
  playback : State
  handles : List Handle
  /-- The static variable, `none` before the first creation. -/
  music_thread : Option Nat
  /-- What each `pthread_join` found. -/
  joins : List (Option Handle)
  /-- The playbacks in progress at each return of `music_cleanup`. -/
  returns : List Nat
  /-- The threads created before the last return, and the tones they wrote after it. -/
  earlier : Nat
  lateTones : Nat
deriving DecidableEq, Repr

def State.starts (s : State) : Action → Bool
  | .play caller mallocOk createOk =>
      match s.callers[caller]? with
      | none => false
      | some music_number => (playLocked music_number mallocOk createOk s.buzzer).2 = 0
  | _ => false

def State.sounds (s : State) (t : Nat) : Bool :=
  match s.threads[t]? with
  | none => false
  | some p =>
      match p.pc.next p.music s.buzzer.should_stop with
      | some (_, some _) => true
      | _ => false

def Teardown.returned (d : Teardown) (s : State) : Teardown :=
  { d with playback := s, returns := d.returns ++ [s.live], earlier := s.threads.length }

def Teardown.step (d : Teardown) (a : Action) : Option Teardown :=
  (d.playback.step a).map fun s =>
    match a with
    | .play _ _ _ =>
        if d.playback.starts a then
          { d with
            playback := s
            handles := pthreadDetach (pthreadCreate d.handles) d.handles.length
            music_thread := some d.handles.length }
        else { d with playback := s }
    | .thread t =>
        { d with
          playback := s
          lateTones :=
            if t < d.earlier ∧ d.playback.sounds t = true then d.lateTones + 1
            else d.lateTones }
    | .cleanup =>
        match d.playback.cleanup with
        | .idle => if d.playback.buzzer.initialized then { d with playback := s } else d.returned s
        | .join =>
            { d with
              playback := s
              handles := (d.music_thread.map (pthreadJoin d.handles)).getD d.handles
              joins := d.joins ++ [d.music_thread.bind fun t => d.handles[t]?] }
        | .reset => d.returned s
        | _ => { d with playback := s }
    | _ => { d with playback := s }

def teardownMachine : Machine Teardown Action :=
  ⟨⟨playbackMachine.start, [], none, [], [], 0, 0⟩, Teardown.step⟩

/-! ## The statement -/

structure WaitsForPlayer (d : Teardown) : Prop where
  joins : ∀ h ∈ d.joins, h = some Handle.joinable
  /-- No playback has its final clear before it when `music_cleanup` returns. -/
  returns : ∀ n ∈ d.returns, n = 0
  quiet : d.lateTones = 0

def CleanupPc.sampled : CleanupPc → Bool
  | .silence => true
  | .reset => true
  | _ => false

/-- `music_cleanup` samples `is_playing`, or returns at once, with no playback in
progress, and none is started between the sample and the return. -/
def Unhurried (d : Teardown) (a : Action) : Prop :=
  (a = .cleanup → d.playback.cleanup = .read → d.playback.buzzer.is_playing = false) ∧
    (a = .cleanup → d.playback.cleanup = .idle → d.playback.buzzer.initialized = false →
      d.playback.buzzer.is_playing = false) ∧
    (d.playback.starts a = true → d.playback.cleanup.sampled = false)

instance (d : Teardown) (a : Action) : Decidable (Unhurried d a) :=
  inferInstanceAs (Decidable (_ ∧ _ ∧ _))

/-! ## Runs of the playbacks -/

theorem playback_of_step {d d' : Teardown} {a : Action} (h : d.step a = some d') :
    d.playback.step a = some d'.playback := by
  unfold Teardown.step at h
  cases hs : d.playback.step a with
  | none => simp [hs] at h
  | some s =>
      rw [hs, Option.map_some, Option.some.injEq] at h
      subst h
      congr 1
      repeat' split
      all_goals rfl

theorem playback_of_reachableUnder {ok : Teardown → Action → Prop} {d : Teardown}
    (h : teardownMachine.ReachableUnder ok d) : playbackMachine.Reachable d.playback := by
  refine Machine.ReachableUnder.invariant (I := fun d => playbackMachine.Reachable d.playback)
    Machine.ReachableUnder.start ?_ h
  intro d a d' _ hi _ hs
  exact hi.step trivial (playback_of_step hs)

/-! ## Steps of the playbacks -/

theorem step_play {s s' : State} {caller : Nat} {mallocOk createOk : Bool}
    (hs : s.step (.play caller mallocOk createOk) = some s') :
    s'.cleanup = s.cleanup ∧
      ((s.starts (.play caller mallocOk createOk) = false ∧ s'.threads = s.threads) ∨
        (s.starts (.play caller mallocOk createOk) = true ∧
          ∃ data, s'.threads = s.threads ++ [Playback.create data])) := by
  simp only [State.step] at hs
  cases hcaller : s.callers[caller]? with
  | none => simp [hcaller] at hs
  | some music_number =>
      simp only [hcaller, Option.some.injEq] at hs
      subst hs
      refine ⟨rfl, ?_⟩
      simp only [State.starts, hcaller]
      unfold playLocked
      repeat' split
      all_goals simp

def State.lives (s : State) : List Bool := s.threads.map Playback.live

theorem live_eq_count (s : State) : s.live = s.lives.count true := by
  simp only [State.live, State.lives, List.count, List.countP_map]
  congr 1
  funext p
  cases hlive : p.live <;> simp [hlive]

theorem lives_stopMusic (s : State) : s.stopMusic.lives = s.lives := by
  simp only [State.lives, State.stopMusic]
  split
  · rw [List.map_map]
    simp only [Function.comp_def, live_stopped]
  · rfl

theorem lives_runCleanup (s : State) : s.runCleanup.lives = s.lives := by
  unfold State.runCleanup
  split
  · split <;> rfl
  · exact lives_stopMusic s
  · split <;> rfl
  · rfl
  · rfl
  · rfl

/-! ## Unhurried runs -/

structure Waited (d : Teardown) : Prop where
  joins : d.joins = []
  returns : ∀ n ∈ d.returns, n = 0
  quiet : d.lateTones = 0
  unjoined : d.playback.cleanup ≠ .join
  sampled : d.playback.cleanup.sampled = true → d.playback.live = 0
  bound : d.earlier ≤ d.playback.lives.length
  ended : ∀ t, t < d.earlier → d.playback.lives[t]? = some false

theorem waited_start : Waited teardownMachine.start where
  joins := rfl
  returns n hn := by cases hn
  quiet := rfl
  unjoined h := by cases h
  sampled h := by cases h
  bound := le_rfl
  ended t ht := absurd ht (Nat.not_lt_zero t)

theorem Waited.waitsForPlayer {d : Teardown} (h : Waited d) : WaitsForPlayer d where
  joins j hj := by
    rw [h.joins] at hj
    cases hj
  returns := h.returns
  quiet := h.quiet

theorem Waited.of_frame {d : Teardown} {s : State} (h : Waited d)
    (hlives : s.lives = d.playback.lives) (hcleanup : s.cleanup = d.playback.cleanup) :
    Waited { d with playback := s } where
  joins := h.joins
  returns := h.returns
  quiet := h.quiet
  unjoined := by
    rw [hcleanup]
    exact h.unjoined
  sampled := by
    rw [hcleanup, live_eq_count, hlives, ← live_eq_count]
    exact h.sampled
  bound := by
    rw [hlives]
    exact h.bound
  ended := by
    rw [hlives]
    exact h.ended

/-- `music_cleanup` moves on without a return, to the sample's far side only with
nothing in progress. -/
theorem Waited.of_cleanup {d : Teardown} {s : State} (h : Waited d)
    (hlives : s.lives = d.playback.lives) (hjoin : s.cleanup ≠ .join)
    (hsampled : s.cleanup.sampled = true → d.playback.live = 0) :
    Waited { d with playback := s } where
  joins := h.joins
  returns := h.returns
  quiet := h.quiet
  unjoined := hjoin
  sampled := by
    rw [live_eq_count, hlives, ← live_eq_count]
    exact hsampled
  bound := by
    rw [hlives]
    exact h.bound
  ended := by
    rw [hlives]
    exact h.ended

theorem Waited.of_return {d : Teardown} {s : State} (h : Waited d) (hlive : s.live = 0)
    (hcleanup : s.cleanup = .idle) : Waited (d.returned s) where
  joins := h.joins
  returns n hn := by
    rcases List.mem_append.mp hn with hn | hn
    · exact h.returns n hn
    · rw [List.mem_singleton.mp hn, hlive]
  quiet := h.quiet
  unjoined := by
    rw [Teardown.returned, hcleanup]
    decide
  sampled _ := hlive
  bound := by
    simp [Teardown.returned, State.lives]
  ended t ht := by
    have hall : s.threads.countP Playback.live = 0 := hlive
    have hlt : t < s.threads.length := ht
    have hdone : s.threads[t].live = false := by
      simpa using List.countP_eq_zero.mp hall s.threads[t] (List.getElem_mem hlt)
    simp [Teardown.returned, State.lives, hlt, hdone]

theorem Waited.of_thread {d : Teardown} {s : State} {t : Nat} (h : Waited d)
    (hs : d.playback.runThread t = some s) :
    d.earlier ≤ t ∧ Waited { d with playback := s } := by
  obtain ⟨p, pc, written, hp, hnext, hthreads, -⟩ := runThread_spec hs
  have hlive : p.live = true := live_of_next hnext
  have hcleanup : s.cleanup = d.playback.cleanup := by
    unfold State.runThread at hs
    rw [hp] at hs
    simp only [Option.bind_eq_bind, Option.bind_some, hnext, Option.some.injEq] at hs
    rw [← hs]
  have hhere : d.playback.lives[t]? = some true := by
    simp [State.lives, hp, hlive]
  have hlate : d.earlier ≤ t := by
    by_contra hlt
    rw [h.ended t (by omega)] at hhere
    cases hhere
  have hset : s.lives = d.playback.lives.set t (p.advance pc written).live := by
    simp only [State.lives, hthreads, List.map_set]
  refine ⟨hlate, h.joins, h.returns, h.quiet, ?_, ?_, ?_, ?_⟩
  · rw [hcleanup]
    exact h.unjoined
  · rw [hcleanup]
    intro hsampled
    have hzero : d.playback.threads.countP Playback.live = 0 := h.sampled hsampled
    exact absurd hlive (by simpa using List.countP_eq_zero.mp hzero p (List.mem_of_getElem? hp))
  · rw [hset, List.length_set]
    exact h.bound
  · intro u hu
    have hne : t ≠ u := by
      have hlt : u < d.earlier := hu
      omega
    rw [hset, List.getElem?_set_ne hne]
    exact h.ended u hu

theorem Waited.of_start {d : Teardown} {s : State} {data : MusicData} (h : Waited d)
    (handles : List Handle) (music_thread : Option Nat)
    (hthreads : s.threads = d.playback.threads ++ [Playback.create data])
    (hcleanup : s.cleanup = d.playback.cleanup) (hnot : d.playback.cleanup.sampled = false) :
    Waited { d with playback := s, handles := handles, music_thread := music_thread } := by
  have hlives : s.lives = d.playback.lives ++ [true] := by
    simp only [State.lives, hthreads, List.map_append]
    rfl
  refine ⟨h.joins, h.returns, h.quiet, ?_, ?_, ?_, ?_⟩
  · rw [hcleanup]
    exact h.unjoined
  · rw [hcleanup, hnot]
    intro hfalse
    cases hfalse
  · rw [hlives, List.length_append]
    exact Nat.le_add_right_of_le h.bound
  · intro t ht
    have hlt : t < d.playback.lives.length := Nat.lt_of_lt_of_le ht h.bound
    rw [hlives, List.getElem?_append_left hlt]
    exact h.ended t ht

theorem Waited.step {d d' : Teardown} {a : Action} (h : Waited d)
    (hplayback : PlaybackInv d.playback) (ha : Unhurried d a) (hs : d.step a = some d') :
    Waited d' := by
  obtain ⟨s, hstep, rfl⟩ := Option.map_eq_some_iff.mp hs
  have hidle : d.playback.buzzer.is_playing = false → d.playback.live = 0 := by
    intro hoff
    rw [hplayback.single, hoff]
    rfl
  cases a with
  | init speaker_pin created =>
      cases hstep
      exact h.of_frame rfl rfl
  | call music_number =>
      simp only [State.step] at hstep
      split at hstep <;> cases hstep
      all_goals exact h.of_frame rfl rfl
  | play caller mallocOk createOk =>
      obtain ⟨hcleanup, ⟨hnone, hthreads⟩ | ⟨hstarts, data, hthreads⟩⟩ := step_play hstep
      · simp only [hnone, Bool.false_eq_true, if_false]
        exact h.of_frame (by rw [State.lives, hthreads, State.lives]) hcleanup
      · simp only [hstarts, if_true]
        exact h.of_start _ _ hthreads hcleanup (ha.2.2 hstarts)
  | stop =>
      cases hstep
      exact h.of_frame (lives_stopMusic _) rfl
  | query =>
      cases hstep
      exact h.of_frame rfl rfl
  | thread t =>
      obtain ⟨hlate, hwaited⟩ := h.of_thread hstep
      have hnot : ¬ (t < d.earlier ∧ d.playback.sounds t = true) := by
        rintro ⟨hlt, -⟩
        omega
      simp only [if_neg hnot]
      exact hwaited
  | cleanup =>
      cases hstep
      have hlives := lives_runCleanup d.playback
      cases hpc : d.playback.cleanup with
      | idle =>
          cases hinit : d.playback.buzzer.initialized with
          | true =>
              simp only [if_true]
              refine h.of_cleanup hlives ?_ ?_
              all_goals simp [State.runCleanup, hpc, hinit, CleanupPc.sampled]
          | false =>
              have hlive := hidle (ha.2.1 rfl hpc hinit)
              simp only [Bool.false_eq_true, if_false]
              refine h.of_return ?_ ?_
              all_goals simp [State.runCleanup, hpc, hinit, hlive]
      | stop =>
          refine h.of_cleanup hlives ?_ ?_
          all_goals simp [State.runCleanup, hpc, CleanupPc.sampled]
      | read =>
          have hoff := ha.1 rfl hpc
          refine h.of_cleanup hlives ?_ ?_
          all_goals simp [State.runCleanup, hpc, isMusicPlaying, hoff, hidle]
      | join => exact absurd hpc h.unjoined
      | silence =>
          have hlive := h.sampled (by rw [hpc]; rfl)
          refine h.of_cleanup hlives ?_ fun _ => hlive
          simp [State.runCleanup, hpc]
      | reset =>
          have hlive := h.sampled (by rw [hpc]; rfl)
          refine h.of_return ?_ ?_
          · rw [live_eq_count, hlives, ← live_eq_count, hlive]
          · simp [State.runCleanup, hpc]

theorem waited_of_reachable {d : Teardown} (h : teardownMachine.ReachableUnder Unhurried d) :
    Waited d := by
  refine Machine.ReachableUnder.invariant waited_start ?_ h
  intro d a d' hreach hi ha hs
  exact hi.step (playbackInv_of_reachable (playback_of_reachableUnder hreach)) ha hs

/-! ## Hurried steps -/

/-- `play_music_async` has detached every thread there is. -/
def Detached (d : Teardown) : Prop := ∀ h ∈ d.handles, h = .detached

theorem detached_create {handles : List Handle} (h : ∀ x ∈ handles, x = .detached) :
    ∀ x ∈ pthreadDetach (pthreadCreate handles) handles.length, x = .detached := by
  intro x hx
  rw [pthreadDetach, pthreadCreate, List.set_append_right _ _ le_rfl, Nat.sub_self] at hx
  rcases List.mem_append.mp hx with hx | hx
  · exact h x hx
  · simpa using hx

theorem detached_join {handles : List Handle} (h : ∀ x ∈ handles, x = .detached) (t : Nat) :
    ∀ x ∈ pthreadJoin handles t, x = .detached := by
  intro x hx
  obtain ⟨i, hi⟩ := List.mem_iff_getElem?.mp hx
  rw [pthreadJoin, List.getElem?_modify] at hi
  cases hold : handles[i]? with
  | none => simp [hold] at hi
  | some y =>
      have hy := h y (List.mem_of_getElem? hold)
      simp only [hold, hy, Option.map_eq_map, Option.map_some, Option.some.injEq] at hi
      rw [← hi]
      split <;> rfl

theorem Detached.step {d d' : Teardown} {a : Action} (h : Detached d)
    (hs : d.step a = some d') : Detached d' := by
  obtain ⟨s, -, rfl⟩ := Option.map_eq_some_iff.mp hs
  cases a with
  | play caller mallocOk createOk =>
      simp only
      split
      · exact detached_create h
      · exact h
  | cleanup =>
      cases d.playback.cleanup with
      | idle =>
          simp only
          split <;> exact h
      | join =>
          cases hthread : d.music_thread with
          | none => simpa [Detached, hthread] using h
          | some t => simpa [Detached, hthread] using detached_join h t
      | stop | read | silence | reset => exact h
  | init _ _ | call _ | stop | query | thread _ => exact h

theorem detached_of_reachable {d : Teardown} (h : teardownMachine.Reachable d) : Detached d :=
  h.invariant (fun x hx => by cases hx) fun _ _ _ hi hs => hi.step hs

theorem not_waits_of_join {d : Teardown} (h : Detached d) (hpc : d.playback.cleanup = .join) :
    ∃ t, teardownMachine.Reaches d t ∧ ¬ WaitsForPlayer t := by
  obtain ⟨d', hs⟩ : ∃ d', d.step .cleanup = some d' := ⟨_, rfl⟩
  refine ⟨d', Machine.Reaches.of_step Action.cleanup hs, ?_⟩
  intro hwaits
  obtain ⟨s, -, rfl⟩ := Option.map_eq_some_iff.mp hs
  simp only [hpc] at hwaits
  have hfound := hwaits.joins _ (List.mem_append_right _ (List.mem_singleton.mpr rfl))
  obtain ⟨t, -, ht⟩ := Option.bind_eq_some_iff.mp hfound
  cases h _ (List.mem_of_getElem? ht)

theorem not_waits_of_return {d : Teardown} {s : State} (hlive : s.live ≠ 0) :
    ¬ WaitsForPlayer (d.returned s) := by
  intro hwaits
  exact hlive (hwaits.returns _ (List.mem_append_right _ (List.mem_singleton.mpr rfl)))

theorem not_waits_of_reset {d : Teardown} (hpc : d.playback.cleanup = .reset)
    (hlive : d.playback.live ≠ 0) : ∃ t, teardownMachine.Reaches d t ∧ ¬ WaitsForPlayer t := by
  have hs : d.step .cleanup = some (d.returned d.playback.runCleanup) := by
    simp [Teardown.step, State.step, hpc]
  refine ⟨_, Machine.Reaches.of_step Action.cleanup hs, not_waits_of_return ?_⟩
  rw [live_eq_count, lives_runCleanup, ← live_eq_count]
  exact hlive

/-- With a playback in progress behind the sample, the return comes before its end. -/
theorem not_waits_of_sampled {d : Teardown} (hpc : d.playback.cleanup.sampled = true)
    (hlive : d.playback.live ≠ 0) : ∃ t, teardownMachine.Reaches d t ∧ ¬ WaitsForPlayer t := by
  cases hcleanup : d.playback.cleanup with
  | reset => exact not_waits_of_reset hcleanup hlive
  | silence =>
      have hs : d.step .cleanup = some { d with playback := d.playback.runCleanup } := by
        simp [Teardown.step, State.step, hcleanup]
      obtain ⟨t, hreach, ht⟩ := not_waits_of_reset
        (d := { d with playback := d.playback.runCleanup })
        (by simp [State.runCleanup, hcleanup])
        (by rw [live_eq_count, lives_runCleanup, ← live_eq_count]; exact hlive)
      exact ⟨t, Relation.ReflTransGen.trans (Machine.Reaches.of_step Action.cleanup hs) hreach, ht⟩
  | idle | stop | read | join =>
      rw [hcleanup] at hpc
      cases hpc

theorem not_waits_of_hurried {d d' : Teardown} {a : Action}
    (hreach : teardownMachine.Reachable d) (hs : d.step a = some d') (ha : ¬ Unhurried d a) :
    ∃ t, teardownMachine.Reaches d' t ∧ ¬ WaitsForPlayer t := by
  have hdetached := (detached_of_reachable hreach).step hs
  have hplayback := playbackInv_of_reachable (playback_of_reachableUnder hreach)
  have hplays : ¬ d.playback.buzzer.is_playing = false → d.playback.live ≠ 0 := by
    intro hon
    rw [hplayback.single, if_pos (by simpa using hon)]
    decide
  simp only [Unhurried, not_and_or, Classical.not_imp] at ha
  rcases ha with ⟨rfl, hpc, hon⟩ | ⟨rfl, hpc, hinit, hon⟩ | ⟨hstarts, hsampled⟩
  · refine not_waits_of_join hdetached ?_
    have hstate : d.playback.runCleanup = d'.playback := Option.some.inj (playback_of_step hs)
    have hplaying : d.playback.buzzer.is_playing = true := by simpa using hon
    rw [← hstate]
    simp [State.runCleanup, hpc, isMusicPlaying, hplaying]
  · have hreturned : d' = d.returned d.playback.runCleanup := by
      simp only [Teardown.step, State.step, Option.map_some, hpc, hinit, Bool.false_eq_true,
        if_false, Option.some.injEq] at hs
      exact hs.symm
    subst hreturned
    refine ⟨_, Relation.ReflTransGen.refl, not_waits_of_return ?_⟩
    rw [live_eq_count, lives_runCleanup, ← live_eq_count]
    exact hplays hon
  · cases a with
    | play caller mallocOk createOk =>
        obtain ⟨hcleanup, ⟨hnone, -⟩ | ⟨-, data, hthreads⟩⟩ := step_play (playback_of_step hs)
        · rw [hnone] at hstarts
          cases hstarts
        · refine not_waits_of_sampled ?_ ?_
          · rw [hcleanup]
            simpa using hsampled
          · simp only [State.live, hthreads, List.countP_append]
            simp [Playback.create, Playback.live]
    | init _ _ | call _ | stop | query | thread _ | cleanup => cases hstarts

/-! ## The result -/

/-- `music_cleanup` waits for the player in every run whose steps are unhurried; and
after any other step there is a run in which it does not. -/
theorem cleanup_waits_for_player {d : Teardown}
    (h : teardownMachine.ReachableUnder Unhurried d) :
    WaitsForPlayer d ∧ ∀ a d', d.step a = some d' → ¬ Unhurried d a →
      ∃ t, teardownMachine.Reaches d' t ∧ ¬ WaitsForPlayer t :=
  ⟨(waited_of_reachable h).waitsForPlayer,
    fun _ _ hs ha => not_waits_of_hurried h.reachable hs ha⟩

/-- `music_cleanup` after the end of a playback of two notes cut short by a stop. -/
theorem cleanup_after_playback :
    ∃ d, teardownMachine.Reachable d ∧ d.returns = [0] ∧ d.joins = [] ∧ WaitsForPlayer d := by
  have hrun : (teardownMachine.execUnder (fun d a => decide (Unhurried d a)) teardownMachine.start
      ([Action.init 21 true, .call 1, .play 0 true true, .thread 0, .stop] ++
        List.replicate 4 (Action.thread 0) ++ List.replicate 5 Action.cleanup)).any (fun d =>
        decide (d.returns = [0] ∧ d.joins = [])) = true := by
    decide +kernel
  obtain ⟨d, hreach, hfacts⟩ := Machine.ReachableUnder.exists_of_exec hrun
  obtain ⟨hreturns, hjoins⟩ := of_decide_eq_true hfacts
  have hunhurried : teardownMachine.ReachableUnder Unhurried d :=
    Machine.ReachesUnder.mono (fun _ _ h => of_decide_eq_true h) hreach
  exact ⟨d, hunhurried.reachable, hreturns, hjoins, (cleanup_waits_for_player hunhurried).1⟩

/-- `music_cleanup` in the first note of a melody: it joins the detached thread, and
may return while that still has a tone to write. -/
theorem cleanup_during_playback :
    (∃ d, teardownMachine.Reachable d ∧ d.joins = [some .detached] ∧ d.returns = [1] ∧
      d.lateTones = 1) ∧ ¬ (∀ d, teardownMachine.Reachable d → WaitsForPlayer d) := by
  have hrun : (teardownMachine.exec teardownMachine.start
      ([Action.init 21 true, .call 1, .play 0 true true, .thread 0] ++
        List.replicate 6 Action.cleanup ++ [Action.thread 0])).any (fun d =>
        decide (d.joins = [some .detached] ∧ d.returns = [1] ∧ d.lateTones = 1)) = true := by
    decide +kernel
  obtain ⟨d, hreach, hfacts⟩ := Machine.Reachable.exists_of_exec hrun
  obtain ⟨hjoins, hreturns, hlate⟩ := of_decide_eq_true hfacts
  refine ⟨⟨d, hreach, hjoins, hreturns, hlate⟩, ?_⟩
  intro h
  have hjoined := (h d hreach).joins (some .detached) (by rw [hjoins]; exact List.mem_cons_self)
  cases hjoined

end RsvpControl.Music
