import RsvpControl.Core.Population
import RsvpControl.Music.Playback

/-! # One playback at a time

`is_playing` is set with the creation of a thread and cleared by that thread's
last critical section, so it counts the playbacks in progress, and a start finds
none. The stop flag is set only while one is in progress and cleared together
with `is_playing`, so it belongs to that playback: nothing is cut short by a stop
of an earlier one.
-/

namespace RsvpControl.Music

open RsvpControl.Core Device

/-! ## The invariant -/

/-- Returned from the notes because of a stop. -/
def PlayerPc.interrupted : PlayerPc → Bool
  | .clear interrupted => interrupted
  | .done interrupted => interrupted
  | _ => false

def PlayerPc.toneNext : PlayerPc → Bool
  | .tone _ => true
  | _ => false

def State.live (s : State) : Nat := s.threads.countP Playback.live

/-- The last tone written, 0 when none has been since the tone was created. -/
def Silent (buzzer : Buzzer) : Prop := buzzer.tone.getD 0 = 0

structure Playback.Kept (should_stop : Bool) (p : Playback) : Prop where
  attributed : p.live = true → p.stopped = should_stop
  interrupted : p.pc.interrupted = true → p.stopped = true
  late : p.lateTones ≤ 1
  early : p.stopped = false → p.lateTones = 0
  pending : p.pc.toneNext = true → p.lateTones = 0

structure PlaybackInv (s : State) : Prop where
  single : s.live = if s.buzzer.is_playing then 1 else 0
  stop : s.buzzer.should_stop = true → s.buzzer.is_playing = true
  kept : ∀ p ∈ s.threads, p.Kept s.buzzer.should_stop
  quiet : s.buzzer.is_playing = false → Silent s.buzzer
  clearing : ∀ p ∈ s.threads, p.pc.clearing = true → Silent s.buzzer

theorem playbackInv_init : PlaybackInv playbackMachine.start where
  single := rfl
  stop h := by cases h
  kept p hp := by cases hp
  quiet _ := rfl
  clearing p hp := by cases hp

theorem PlaybackInv.live_le_one {s : State} (h : PlaybackInv s) : s.live ≤ 1 := by
  rw [h.single]
  split <;> omega

theorem PlaybackInv.not_live {s : State} (h : PlaybackInv s) (hidle : s.buzzer.is_playing = false)
    {p : Playback} (hp : p ∈ s.threads) : p.live = false := by
  have hzero : s.threads.countP Playback.live = 0 := by
    rw [← State.live, h.single, hidle]
    rfl
  simpa using List.countP_eq_zero.mp hzero p hp

theorem live_of_clearing {p : Playback} (h : p.pc.clearing = true) : p.live = true := by
  cases hpc : p.pc <;> simp_all [PlayerPc.clearing, Playback.live]

theorem PlaybackInv.of_frame {s s' : State} (h : PlaybackInv s) (hthreads : s'.threads = s.threads)
    (hplaying : s'.buzzer.is_playing = s.buzzer.is_playing)
    (hstop : s'.buzzer.should_stop = s.buzzer.should_stop)
    (htone : Silent s.buzzer → Silent s'.buzzer) : PlaybackInv s' := by
  refine ⟨?_, ?_, ?_, ?_, ?_⟩
  · rw [State.live, hthreads, hplaying]
    exact h.single
  · rw [hstop, hplaying]
    exact h.stop
  · rw [hthreads, hstop]
    exact h.kept
  · rw [hplaying]
    intro hidle
    exact htone (h.quiet hidle)
  · rw [hthreads]
    intro p hp hclearing
    exact htone (h.clearing p hp hclearing)

/-! ## A start -/

/-- What the critical section of a start can do. -/
theorem playLocked_cases (music_number : Int) (mallocOk createOk : Bool) (buzzer : Buzzer) :
    (playLocked music_number mallocOk createOk buzzer).1 = buzzer ∨
      (buzzer.is_playing = false ∧
        ((playLocked music_number mallocOk createOk buzzer).1 =
            { buzzer with is_playing := false, should_stop := false } ∨
          ∃ data, musicData music_number = some data ∧
            (playLocked music_number mallocOk createOk buzzer).1 =
              { buzzer with
                is_playing := true
                should_stop := false
                players := buzzer.players ++ [data] })) := by
  unfold playLocked
  split
  · exact Or.inl rfl
  · next hidle =>
      split
      · exact Or.inl rfl
      · split
        · exact Or.inl rfl
        · next data hdata =>
            refine Or.inr ⟨by simpa using hidle, ?_⟩
            split
            · exact Or.inl rfl
            · exact Or.inr ⟨data, hdata, rfl⟩

theorem Playback.Kept.idle {should_stop : Bool} {p : Playback} (h : p.Kept should_stop)
    (hlive : p.live = false) (should_stop' : Bool) : p.Kept should_stop' := by
  refine ⟨?_, h.interrupted, h.late, h.early, h.pending⟩
  rw [hlive]
  intro hfalse
  cases hfalse

theorem kept_create (data : MusicData) : (Playback.create data).Kept false where
  attributed _ := rfl
  interrupted h := by cases h
  late := Nat.zero_le 1
  early _ := rfl
  pending h := by cases h

theorem PlaybackInv.play {s s' : State} {caller : Nat} {mallocOk createOk : Bool}
    (h : PlaybackInv s) (hs : s.step (.play caller mallocOk createOk) = some s') :
    PlaybackInv s' := by
  simp only [State.step] at hs
  split at hs
  · cases hs
  · next music_number _ =>
      cases hs
      rcases playLocked_cases music_number mallocOk createOk s.buzzer with
        heq | ⟨hidle, heq | ⟨data, _, heq⟩⟩
      · simp only [heq, List.drop_length, List.map_nil, List.append_nil]
        exact h.of_frame rfl rfl rfl id
      · simp only [heq, List.drop_length, List.map_nil, List.append_nil]
        have hoff : s.buzzer.should_stop = false := by
          by_contra hne
          rw [h.stop (by simpa using hne)] at hidle
          cases hidle
        exact h.of_frame rfl hidle.symm hoff.symm id
      · simp only [heq, List.drop_left, List.map_cons, List.map_nil]
        have hnone : ∀ p ∈ s.threads, p.live = false := fun p hp => h.not_live hidle hp
        refine ⟨?_, fun _ => rfl, ?_, fun hfalse => (nomatch hfalse), ?_⟩
        · have hzero := h.single
          rw [hidle] at hzero
          simp only [State.live, List.countP_append] at hzero ⊢
          simp [hzero, Playback.create, Playback.live]
        · intro p hp
          rcases List.mem_append.mp hp with hold | hnew
          · exact (h.kept p hold).idle (hnone p hold) false
          · rw [List.mem_singleton] at hnew
            rw [hnew]
            exact kept_create data
        · intro p hp hclearing
          rcases List.mem_append.mp hp with hold | hnew
          · exact h.clearing p hold hclearing
          · rw [List.mem_singleton] at hnew
            rw [hnew] at hclearing
            cases hclearing

/-! ## A stop -/

theorem kept_stopped {should_stop : Bool} {p : Playback} (h : p.Kept should_stop) :
    (if p.live then { p with stopped := true } else p).Kept true := by
  cases hlive : p.live with
  | false => exact h.idle hlive true
  | true =>
      refine ⟨fun _ => rfl, fun _ => rfl, h.late, ?_, h.pending⟩
      intro hfalse
      cases hfalse

theorem live_stopped (p : Playback) :
    (if p.live then { p with stopped := true } else p).live = p.live := by
  split <;> rfl

theorem PlaybackInv.stopMusic {s : State} (h : PlaybackInv s) : PlaybackInv s.stopMusic := by
  cases hplaying : s.buzzer.is_playing with
  | false =>
      have hsame : s.stopMusic = s := by
        simp [State.stopMusic, Device.stopMusic, hplaying]
      rw [hsame]
      exact h
  | true =>
      have hbuzzer : s.stopMusic.buzzer = { s.buzzer with should_stop := true } := by
        simp [State.stopMusic, Device.stopMusic, hplaying]
      have hthreads : s.stopMusic.threads =
          s.threads.map fun p => if p.live then { p with stopped := true } else p := by
        simp [State.stopMusic, hplaying]
      refine ⟨?_, ?_, ?_, ?_, ?_⟩
      · have hcount := h.single
        simp only [State.live] at hcount ⊢
        rw [hthreads, List.countP_map, hbuzzer]
        simp only [Function.comp_def, live_stopped]
        exact hcount
      · rw [hbuzzer]
        exact fun _ => hplaying
      · rw [hthreads, hbuzzer]
        intro q hq
        obtain ⟨p, hp, rfl⟩ := List.mem_map.mp hq
        exact kept_stopped (h.kept p hp)
      · rw [hbuzzer]
        exact h.quiet
      · rw [hthreads, hbuzzer]
        intro q hq hclearing
        obtain ⟨p, hp, rfl⟩ := List.mem_map.mp hq
        apply h.clearing p hp
        revert hclearing
        split <;> exact id

/-! ## A step of a playback thread -/

theorem runThread_spec {s s' : State} {t : Nat} (h : s.runThread t = some s') :
    ∃ p pc written, s.threads[t]? = some p ∧
      p.pc.next p.music s.buzzer.should_stop = some (pc, written) ∧
      s'.threads = s.threads.set t (p.advance pc written) ∧
      s'.buzzer = Buzzer.advance s.buzzer p.pc.clearing written := by
  unfold State.runThread at h
  cases hp : s.threads[t]? with
  | none => simp [hp] at h
  | some p =>
      cases hnext : p.pc.next p.music s.buzzer.should_stop with
      | none => simp [hp, hnext] at h
      | some r =>
          obtain ⟨pc, written⟩ := r
          simp only [hp, hnext, Option.bind_eq_bind, Option.bind_some, Option.some.injEq] at h
          subst h
          exact ⟨p, pc, written, rfl, hnext, rfl, rfl⟩

/-- What a step of a thread does, as far as flags and tones are concerned: the
final clear, the return from the notes, a tone, or none of these. -/
inductive PlayerStep (should_stop : Bool) (pc pc' : PlayerPc) (written : Option Int) : Prop
  | finished (interrupted : Bool) (hpc : pc = .clear interrupted) (hpc' : pc' = .done interrupted)
      (hwritten : written = none)
  | returned (interrupted : Bool) (hpc : pc.clearing = false) (hpc' : pc' = .clear interrupted)
      (hwritten : written = some 0) (hstop : interrupted = true → should_stop = true)
  | tone (i : Nat) (remaining : Int) (hpc : pc = .tone i) (hpc' : pc' = .wait i remaining)
  | silent (hpc : pc.clearing = false) (hlive : ∀ interrupted, pc' ≠ .done interrupted)
      (hclearing : pc'.clearing = false) (hinterrupted : pc'.interrupted = false)
      (hwritten : written = none) (htone : pc'.toneNext = true → should_stop = false)

theorem next_cases {music : MusicData} {should_stop : Bool} {pc pc' : PlayerPc}
    {written : Option Int} (h : pc.next music should_stop = some (pc', written)) :
    PlayerStep should_stop pc pc' written := by
  cases pc with
  | note i =>
      simp only [PlayerPc.next] at h
      split at h
      · split at h
        · next hstop =>
            cases h
            exact .returned true rfl rfl rfl fun _ => hstop
        · next hstop =>
            cases h
            exact .silent rfl (by simp) rfl rfl rfl fun _ => by simpa using hstop
      · cases h
        exact .silent rfl (by simp) rfl rfl rfl fun hfalse => (nomatch hfalse)
  | tone i =>
      cases h
      exact .tone i music.tempo rfl rfl
  | wait i remaining =>
      simp only [PlayerPc.next] at h
      split at h <;> cases h
      all_goals exact .silent rfl (by simp) rfl rfl rfl fun hfalse => (nomatch hfalse)
  | recheck i remaining =>
      simp only [PlayerPc.next] at h
      split at h
      · next hstop =>
          cases h
          exact .returned true rfl rfl rfl fun _ => hstop
      · cases h
        exact .silent rfl (by simp) rfl rfl rfl fun hfalse => (nomatch hfalse)
  | silence =>
      cases h
      exact .returned false rfl rfl rfl fun hfalse => (nomatch hfalse)
  | clear interrupted =>
      cases h
      exact .finished interrupted rfl rfl rfl
  | done interrupted => cases h

theorem live_of_next {p : Playback} {should_stop : Bool} {r : PlayerPc × Option Int}
    (h : p.pc.next p.music should_stop = some r) : p.live = true := by
  cases hpc : p.pc <;> simp_all [Playback.live, PlayerPc.next]

theorem advance_live {p : Playback} {pc : PlayerPc} {written : Option Int}
    (h : ∀ interrupted, pc ≠ .done interrupted) : (p.advance pc written).live = true := by
  cases pc <;> simp_all [Playback.live, Playback.advance]

theorem advance_late {p : Playback} {pc : PlayerPc} {written : Option Int}
    (h : written = none ∨ written = some 0) :
    (p.advance pc written).lateTones = p.lateTones := by
  rcases h with rfl | rfl <;> simp [Playback.advance]

theorem Playback.Kept.advance {should_stop : Bool} {p : Playback} {pc : PlayerPc}
    {written : Option Int} (h : p.Kept should_stop) (hlive : p.live = true)
    (hnext : PlayerStep should_stop p.pc pc written) :
    (p.advance pc written).Kept (if p.pc.clearing then false else should_stop) := by
  have hattributed := h.attributed hlive
  cases hnext with
  | finished interrupted hpc hpc' hwritten =>
      have hlate := @advance_late p pc written (Or.inl hwritten)
      refine ⟨?_, ?_, ?_, ?_, ?_⟩
      · subst hpc'
        intro hfalse
        cases hfalse
      · subst hpc'
        intro htrue
        apply h.interrupted
        rw [hpc]
        exact htrue
      · rw [hlate]
        exact h.late
      · rw [hlate]
        exact h.early
      · subst hpc'
        intro hfalse
        cases hfalse
  | returned interrupted hpc hpc' hwritten hstop =>
      have hlate := @advance_late p pc written (Or.inr hwritten)
      subst hpc'
      refine ⟨?_, ?_, ?_, ?_, ?_⟩
      · rw [hpc]
        exact fun _ => hattributed
      · intro htrue
        exact hattributed.trans (hstop htrue)
      · rw [hlate]
        exact h.late
      · rw [hlate]
        exact h.early
      · intro hfalse
        cases hfalse
  | tone i remaining hpc hpc' =>
      have hnone : p.lateTones = 0 := h.pending (by rw [hpc]; rfl)
      subst hpc'
      refine ⟨?_, ?_, ?_, ?_, ?_⟩
      · rw [hpc]
        exact fun _ => hattributed
      · intro hfalse
        cases hfalse
      · simp only [Playback.advance, hnone]
        split <;> omega
      · intro hearly
        have hstopped : p.stopped = false := hearly
        simp [Playback.advance, hstopped, hnone]
      · intro hfalse
        cases hfalse
  | silent hpc hlive' hclearing hinterrupted hwritten htone =>
      have hlate := @advance_late p pc written (Or.inl hwritten)
      refine ⟨?_, ?_, ?_, ?_, ?_⟩
      · rw [hpc]
        exact fun _ => hattributed
      · intro htrue
        have hfalse : pc.interrupted = true := htrue
        rw [hinterrupted] at hfalse
        cases hfalse
      · rw [hlate]
        exact h.late
      · rw [hlate]
        exact h.early
      · intro hpending
        rw [hlate]
        exact h.early (hattributed.trans (htone hpending))

/-- Only the final clear ends a playback. -/
theorem PlayerStep.live {should_stop : Bool} {p : Playback} {pc : PlayerPc}
    {written : Option Int} (h : PlayerStep should_stop p.pc pc written) :
    (p.advance pc written).live = !p.pc.clearing := by
  cases h with
  | finished interrupted hpc hpc' hwritten =>
      subst hpc'
      rw [hpc]
      rfl
  | returned interrupted hpc hpc' hwritten hstop =>
      rw [hpc]
      exact advance_live (by simp [hpc'])
  | tone i remaining hpc hpc' =>
      rw [hpc]
      exact advance_live (by simp [hpc'])
  | silent hpc hlive hclearing hinterrupted hwritten htone =>
      rw [hpc]
      exact advance_live hlive

theorem PlaybackInv.runThread {s s' : State} {t : Nat} (h : PlaybackInv s)
    (hs : s.runThread t = some s') : PlaybackInv s' := by
  obtain ⟨p, pc, written, hp, hnext, hthreads, hbuzzer⟩ := runThread_spec hs
  have hlive := live_of_next hnext
  have hmem := List.mem_of_getElem? hp
  have hstep := next_cases hnext
  have hplaying : s.buzzer.is_playing = true := by
    by_contra hidle
    rw [h.not_live (by simpa using hidle) hmem] at hlive
    cases hlive
  -- every other thread has returned
  have hother : ∀ q ∈ s'.threads, q = p.advance pc written ∨ (q ∈ s.threads ∧ q.live = false) := by
    intro q hq
    obtain ⟨u, hu⟩ := List.mem_iff_getElem?.mp hq
    rw [hthreads] at hu
    rcases Population.getElem?_set_cases hu with ⟨_, heq⟩ | ⟨hne, hold⟩
    · exact Or.inl heq
    · refine Or.inr ⟨List.mem_of_getElem? hold, ?_⟩
      by_contra hqlive
      exact hne (Population.index_unique h.live_le_one hold (by simpa using hqlive) hp hlive)
  have hcount := Population.countP_set_getElem? (p := Playback.live) (p.advance pc written) hp
  rw [← hthreads] at hcount
  rw [hstep.live, hlive, if_pos rfl] at hcount
  have hsingle := h.single
  rw [hplaying, if_pos rfl, State.live] at hsingle
  refine ⟨?_, ?_, ?_, ?_, ?_⟩
  · rw [State.live, hbuzzer, Buzzer.advance, hplaying]
    cases hclearing : p.pc.clearing with
    | true =>
        simp only [hclearing, Bool.not_true, Bool.false_eq_true, if_false] at hcount
        simp only [if_true, Bool.false_eq_true, if_false]
        omega
    | false =>
        simp only [hclearing, Bool.not_false, if_true] at hcount
        simp only [Bool.false_eq_true, if_false, if_true]
        omega
  · rw [hbuzzer]
    simp only [Buzzer.advance]
    split
    · exact id
    · exact h.stop
  · rw [hbuzzer]
    intro q hq
    rcases hother q hq with rfl | ⟨hold, hdone⟩
    · exact (h.kept p hmem).advance hlive hstep
    · exact (h.kept q hold).idle hdone _
  · rw [hbuzzer]
    intro hidle
    cases hclearing : p.pc.clearing with
    | false => simp [Buzzer.advance, hplaying, hclearing] at hidle
    | true =>
        have hsilent := h.clearing p hmem hclearing
        cases hstep with
        | finished interrupted hpc hpc' hwritten =>
            rw [hwritten]
            exact hsilent
        | returned _ hpc _ _ _ | silent hpc _ _ _ _ _ =>
            rw [hpc] at hclearing
            cases hclearing
        | tone i remaining hpc hpc' =>
            rw [hpc] at hclearing
            cases hclearing
  · intro q hq hclearing
    rcases hother q hq with rfl | ⟨hold, hdone⟩
    · cases hstep with
      | returned interrupted hpc hpc' hwritten hstop =>
          rw [hbuzzer, hwritten]
          rfl
      | finished interrupted hpc hpc' hwritten =>
          subst hpc'
          cases hclearing
      | tone i remaining hpc hpc' =>
          subst hpc'
          cases hclearing
      | silent hpc hlive' hnot hinterrupted hwritten htone =>
          have htrue : pc.clearing = true := hclearing
          rw [hnot] at htrue
          cases htrue
    · rw [live_of_clearing hclearing] at hdone
      cases hdone

/-! ## Every run -/

theorem musicInit_frame (speaker_pin : Int) (created : Bool) (buzzer : Buzzer) :
    (musicInit speaker_pin created buzzer).1.is_playing = buzzer.is_playing ∧
      (musicInit speaker_pin created buzzer).1.should_stop = buzzer.should_stop ∧
      (musicInit speaker_pin created buzzer).1.tone = buzzer.tone := by
  unfold musicInit
  repeat' split
  all_goals exact ⟨rfl, rfl, rfl⟩

theorem PlaybackInv.runCleanup {s : State} (h : PlaybackInv s) : PlaybackInv s.runCleanup := by
  unfold State.runCleanup
  split
  · split
    · exact h.of_frame rfl rfl rfl id
    · exact h
  · exact h.stopMusic.of_frame rfl rfl rfl id
  · split
    · exact h.of_frame rfl rfl rfl id
    · exact h.of_frame rfl rfl rfl id
  · exact h.of_frame rfl rfl rfl id
  · exact h.of_frame rfl rfl rfl fun _ => rfl
  · exact h.of_frame rfl rfl rfl id

theorem PlaybackInv.step {s s' : State} {a : Action} (h : PlaybackInv s)
    (hs : s.step a = some s') : PlaybackInv s' := by
  cases a with
  | init speaker_pin created =>
      cases hs
      obtain ⟨hplaying, hstop, htone⟩ := musicInit_frame speaker_pin created s.buzzer
      refine h.of_frame rfl hplaying hstop ?_
      intro hsilent
      simpa [Silent, htone] using hsilent
  | call music_number =>
      simp only [State.step] at hs
      split at hs <;> cases hs
      · exact h.of_frame rfl rfl rfl id
      · exact h
  | play caller mallocOk createOk => exact h.play hs
  | stop =>
      cases hs
      exact h.stopMusic
  | query =>
      cases hs
      exact h
  | thread t => exact h.runThread hs
  | cleanup =>
      cases hs
      exact h.runCleanup

theorem playbackInv_of_reachable {s : State} (h : playbackMachine.Reachable s) : PlaybackInv s :=
  h.invariant playbackInv_init fun _ _ _ hi hs => hi.step hs

/-! ## The result -/

structure WellPlayed (s : State) : Prop where
  /-- `is_playing` says that exactly one created thread has its final clear before it;
  there is never a second one. -/
  single : s.live = if s.buzzer.is_playing then 1 else 0
  stop : s.buzzer.should_stop = true → s.buzzer.is_playing = true
  /-- A playback that is cut short is so by a stop accepted while it was in progress. -/
  attributed : ∀ p ∈ s.threads, p.pc.interrupted = true → p.stopped = true
  late : ∀ p ∈ s.threads, p.lateTones ≤ 1
  quiet : s.buzzer.is_playing = false → Silent s.buzzer

/-- In every run of any number of callers, playback threads, initialisations and
cleanups. -/
theorem playback_well_played {s : State} (h : playbackMachine.Reachable s) : WellPlayed s := by
  have hinv := playbackInv_of_reachable h
  refine ⟨hinv.single, hinv.stop, ?_, ?_, hinv.quiet⟩
  · intro p hp
    exact (hinv.kept p hp).interrupted
  · intro p hp
    exact (hinv.kept p hp).late

/-- A stop accepted between the test and the tone lets that one tone pass; the next
playback goes on. -/
theorem second_playback_goes_on :
    ∃ s, playbackMachine.Reachable s ∧
      s.threads.map Playback.stopped = [true, false] ∧
      s.threads.map Playback.lateTones = [1, 0] ∧ s.buzzer.tone = some 261 ∧ WellPlayed s := by
  have hrun : ((playbackMachine.exec playbackMachine.start
      ([Action.init 21 true, .call 1, .play 0 true true, .thread 0, .stop] ++
        List.replicate 4 (Action.thread 0) ++ [Action.call 2, .play 0 true true] ++
        List.replicate 2 (Action.thread 1))).any fun s =>
        s.threads.map Playback.stopped = [true, false] ∧
          s.threads.map Playback.lateTones = [1, 0] ∧ s.buzzer.tone = some 261) = true := by
    decide +kernel
  obtain ⟨s, hreach, hfacts⟩ := Machine.Reachable.exists_of_exec hrun
  obtain ⟨hstopped, hlate, htone⟩ := of_decide_eq_true hfacts
  exact ⟨s, hreach, hstopped, hlate, htone, playback_well_played hreach⟩

end RsvpControl.Music
