import RsvpControl.Core.Checkpoints
import RsvpControl.Music.SinglePlayback

/-! # The notes of one playback

`play_notes_interruptible` as the sequence of its tones and delays. The flag it
reads under the lock is given by a schedule, one answer for each test in the order
in which the player makes them. Uninterrupted, it follows a script that depends on
the notes and the tempo alone.
-/

namespace RsvpControl.Music

open RsvpControl.Core Device

inductive Output where
  /-- `softToneWrite(SPKR, note)`. -/
  | tone (note : Int)
  /-- `delay(ms)`. -/
  | delay (ms : Int)
deriving DecidableEq, Repr

def Output.ms : Output → Int
  | .tone _ => 0
  | .delay ms => ms

abbrev NoteTrace := List (Point Output)

/-! ## The two loops -/

/-- At most 50 ms, and no more than what is left. -/
def sleepTime (remaining : Int) : Int :=
  if remaining > delay_step then delay_step else remaining

theorem sleepTime_bounds {remaining : Int} (h : remaining > 0) :
    1 ≤ sleepTime remaining ∧ sleepTime remaining ≤ 50 ∧ sleepTime remaining ≤ remaining := by
  have hstep : delay_step = 50 := rfl
  by_cases hlong : remaining > delay_step
  · rw [sleepTime, if_pos hlong]
    omega
  · rw [sleepTime, if_neg hlong]
    omega

/-- The loop over the time of a note, its first test being number `k`: what it does,
and the number of the next test unless a stop was seen. -/
def playTime (stops : Nat → Bool) (k : Nat) (remaining : Int) : NoteTrace × Option Nat :=
  if remaining > 0 then
    if stops k then ([.act (.delay (sleepTime remaining)), .check true, .act (.tone 0)], none)
    else
      let (trace, next) := playTime stops (k + 1) (remaining - sleepTime remaining)
      (.act (.delay (sleepTime remaining)) :: .check false :: trace, next)
  else ([], some k)
termination_by remaining.toNat
decreasing_by
  have hsleep := sleepTime_bounds ‹_›
  omega

/-- The loop over the notes from number `i` on, and the result. -/
def playNotesFrom (notes : List Int) (length : Nat) (tempo : Int) (stops : Nat → Bool)
    (i k : Nat) : NoteTrace × Int :=
  if i < length then
    if stops k then ([.check true, .act (.tone 0)], -1)
    else
      match playTime stops (k + 1) tempo with
      | (trace, none) => (.check false :: .act (.tone ((notes[i]?).getD 0)) :: trace, -1)
      | (trace, some k') =>
          let (more, result) := playNotesFrom notes length tempo stops (i + 1) k'
          (.check false :: .act (.tone ((notes[i]?).getD 0)) :: (trace ++ more), result)
  else ([.act (.tone 0)], 0)
termination_by length - i

def playNotesInterruptible (notes : List Int) (length : Nat) (tempo : Int)
    (stops : Nat → Bool) : NoteTrace × Int :=
  playNotesFrom notes length tempo stops 0 0

/-! ## The script -/

/-- The delays that make up the time of a note. -/
def delays (remaining : Int) : List Int :=
  if remaining > 0 then sleepTime remaining :: delays (remaining - sleepTime remaining)
  else []
termination_by remaining.toNat
decreasing_by
  have hsleep := sleepTime_bounds ‹_›
  omega

theorem delays_bounds (remaining : Int) : ∀ d ∈ delays remaining, 1 ≤ d ∧ d ≤ 50 := by
  fun_induction delays remaining with
  | case1 remaining hpos ih =>
      obtain ⟨hlow, hhigh, -⟩ := sleepTime_bounds hpos
      intro d hd
      rcases List.mem_cons.mp hd with rfl | hd
      · exact ⟨hlow, hhigh⟩
      · exact ih d hd
  | case2 remaining hdone =>
      intro d hd
      cases hd

theorem delays_sum {remaining : Int} (h : 0 ≤ remaining) : (delays remaining).sum = remaining := by
  fun_induction delays remaining with
  | case1 remaining hpos ih =>
      obtain ⟨-, -, hleft⟩ := sleepTime_bounds hpos
      rw [List.sum_cons, ih (by omega)]
      omega
  | case2 remaining hdone =>
      rw [List.sum_nil]
      omega

/-- One note: a test, its tone, and a test after each delay. -/
def noteScript (tempo note : Int) : NoteTrace :=
  .check false :: .act (.tone note) ::
    (delays tempo).flatMap fun d => [.act (.delay d), .check false]

def notesScript (notes : List Int) (tempo : Int) : NoteTrace :=
  notes.flatMap (noteScript tempo) ++ [.act (.tone 0)]

theorem playTime_follow (stops : Nat → Bool) (k : Nat) (remaining : Int) (rest : NoteTrace) :
    Point.follow [.tone 0] stops k
        ((delays remaining).flatMap (fun d => [.act (.delay d), .check false]) ++ rest) =
      match playTime stops k remaining with
      | (trace, none) => (trace, true)
      | (trace, some k') =>
          (trace ++ (Point.follow [.tone 0] stops k' rest).1,
            (Point.follow [.tone 0] stops k' rest).2) := by
  fun_induction playTime stops k remaining with
  | case1 k remaining hpos hstop =>
      rw [delays, if_pos hpos]
      simp [Point.follow, hstop]
  | case2 k remaining hpos hstop trace next hrec ih =>
      rw [delays, if_pos hpos]
      simp only [List.flatMap_cons, List.cons_append, List.nil_append, Point.follow, hstop,
        Bool.false_eq_true, if_false]
      rw [ih, hrec]
      cases next <;> rfl
  | case3 k remaining hdone =>
      rw [delays, if_neg hdone]
      rfl

/-- The player follows the script of its notes. -/
theorem playNotesFrom_follow {notes : List Int} {length : Nat} (hlength : length ≤ notes.length)
    (tempo : Int) (stops : Nat → Bool) (i k : Nat) :
    playNotesFrom notes length tempo stops i k =
      ((Point.follow [.tone 0] stops k (notesScript ((notes.take length).drop i) tempo)).1,
        if (Point.follow [.tone 0] stops k
          (notesScript ((notes.take length).drop i) tempo)).2 then -1 else 0) := by
  have hcut : ∀ {i}, i < length →
      (notes.take length).drop i = (notes[i]?).getD 0 :: (notes.take length).drop (i + 1) := by
    intro i hi
    have hlt : i < (notes.take length).length := by
      rw [List.length_take]
      omega
    rw [List.drop_eq_getElem_cons hlt, List.getElem_take,
      List.getElem?_eq_getElem (by omega), Option.getD_some]
  fun_induction playNotesFrom notes length tempo stops i k with
  | case1 i k hi hstop =>
      rw [hcut hi]
      simp [notesScript, noteScript, Point.follow, hstop]
  | case2 i k hi hstop trace htime =>
      rw [hcut hi, notesScript, List.flatMap_cons, noteScript, List.append_assoc]
      simp only [List.cons_append, Point.follow, hstop, Bool.false_eq_true, if_false,
        playTime_follow, htime]
      rfl
  | case3 i k hi hstop trace k' htime more result hrec ih =>
      rw [hcut hi, notesScript, List.flatMap_cons, noteScript, List.append_assoc]
      simp only [List.cons_append, Point.follow, hstop, Bool.false_eq_true, if_false,
        playTime_follow, htime]
      rw [hrec] at ih
      obtain ⟨hmore, hresult⟩ := Prod.mk.inj ih
      rw [hmore, hresult, notesScript]
  | case4 i k hdone =>
      have hnone : (notes.take length).drop i = [] := by
        apply List.drop_eq_nil_of_le
        rw [List.length_take]
        omega
      rw [hnone]
      rfl

theorem acts_delays (ds : List Int) :
    Point.acts (ds.flatMap fun d => [Point.act (Output.delay d), .check false]) =
      ds.map Output.delay := by
  induction ds with
  | nil => rfl
  | cons d ds ih => simp [ih]

theorem acts_notesScript (notes : List Int) (tempo : Int) :
    Point.acts (notesScript notes tempo) =
      notes.flatMap (fun note => .tone note :: (delays tempo).map .delay) ++ [.tone 0] := by
  induction notes with
  | nil => rfl
  | cons note notes ih =>
      rw [notesScript, List.flatMap_cons, List.append_assoc, Point.acts_append]
      simp only [notesScript] at ih
      rw [ih, noteScript, Point.acts_check, Point.acts_act, acts_delays]
      simp

theorem notesScript_unstopped (notes : List Int) (tempo : Int) :
    ∀ stop, Point.check stop ∈ notesScript notes tempo → stop = false := by
  intro stop hmem
  simp only [notesScript, noteScript, List.mem_append, List.mem_flatMap, List.mem_cons,
    Point.check.injEq, reduceCtorEq, List.not_mem_nil, or_false, false_or] at hmem
  obtain ⟨-, -, hstop | ⟨-, -, hstop⟩⟩ := hmem
  all_goals exact hstop

/-! ## Between two tests -/

theorem spaced_delays {ds : List Int} (hds : ∀ d ∈ ds, 1 ≤ d ∧ d ≤ 50) (rest : NoteTrace)
    (hrest : Point.Spaced Output.ms 50 0 rest) :
    Point.Spaced Output.ms 50 0
      (ds.flatMap (fun d => [Point.act (Output.delay d), .check false]) ++ rest) := by
  induction ds with
  | nil => exact hrest
  | cons d ds ih =>
      have hd := (hds d List.mem_cons_self).2
      have hused : (0 : Int) + Output.ms (.delay d) ≤ 50 := by
        simpa [Output.ms] using hd
      exact ⟨hused, ih fun e he => hds e (List.mem_cons_of_mem _ he)⟩

theorem spaced_notesScript (notes : List Int) (tempo : Int) :
    Point.Spaced Output.ms 50 0 (notesScript notes tempo) := by
  induction notes with
  | nil => trivial
  | cons note notes ih =>
      rw [notesScript, List.flatMap_cons, List.append_assoc]
      exact ⟨by decide, spaced_delays (delays_bounds tempo) _ ih⟩

/-! ## The playback thread -/

def toneTrace (written : Option Int) : NoteTrace := written.toList.map fun note => .act (.tone note)

/-- What a step of the thread does besides moving on, the flag being `stop`. -/
def PlayerPc.points (music : MusicData) (stop : Bool) (written : Option Int) :
    PlayerPc → NoteTrace
  | .note i => if i < music.length then .check stop :: toneTrace written else toneTrace written
  | .wait _ remaining =>
      if remaining > 0 then .act (.delay (sleepTime remaining)) :: toneTrace written
      else toneTrace written
  | .recheck _ _ => .check stop :: toneTrace written
  | _ => toneTrace written

/-- Steps of one playback thread whose tests, from number `k` on, see what the
schedule holds. -/
inductive PlayerPc.Runs (music : MusicData) (stops : Nat → Bool) :
    PlayerPc → Nat → NoteTrace → PlayerPc → Prop where
  | refl (pc : PlayerPc) (k : Nat) : Runs music stops pc k [] pc
  | step {pc pc' last : PlayerPc} {k : Nat} {written : Option Int} {trace : NoteTrace} :
      pc.next music (stops k) = some (pc', written) →
      Runs music stops pc' (k + Point.checks (pc.points music (stops k) written)) trace last →
      Runs music stops pc k (pc.points music (stops k) written ++ trace) last

variable {music : MusicData} {stops : Nat → Bool}

theorem PlayerPc.Runs.of_next {pc pc' last : PlayerPc} {k : Nat} (written : Option Int)
    (points trace : NoteTrace) (hnext : pc.next music (stops k) = some (pc', written))
    (hpoints : pc.points music (stops k) written = points)
    (hrest : Runs music stops pc' (k + Point.checks points) trace last) :
    Runs music stops pc k (points ++ trace) last := by
  subst hpoints
  exact Runs.step hnext hrest

/-- A test that sees the stop ends in the last critical section of the thread. -/
theorem PlayerPc.Runs.stop {pc : PlayerPc} {k : Nat} (hstop : stops k = true)
    (hnext : pc.next music true = some (.clear true, some 0))
    (hpoints : pc.points music true (some 0) = [.check true, .act (.tone 0)]) :
    Runs music stops pc k [.check true, .act (.tone 0)] (.clear true) :=
  Runs.of_next (some 0) [.check true, .act (.tone 0)] [] (by rw [hstop, hnext])
    (by rw [hstop, hpoints]) (Runs.refl _ _)

theorem PlayerPc.Runs.delay {i k : Nat} {remaining : Int} (hpos : remaining > 0)
    {trace : NoteTrace} {last : PlayerPc}
    (hrest : Runs music stops (.recheck i (remaining - sleepTime remaining)) k trace last) :
    Runs music stops (.wait i remaining) k (.act (.delay (sleepTime remaining)) :: trace) last :=
  Runs.of_next none [.act (.delay (sleepTime remaining))] trace
    (by simp only [PlayerPc.next, if_pos hpos]; rfl)
    (by simp only [PlayerPc.points, if_pos hpos]; rfl) hrest

theorem PlayerPc.Runs.recheck {i k : Nat} {remaining : Int} (hgo : stops k = false)
    {trace : NoteTrace} {last : PlayerPc}
    (hrest : Runs music stops (.wait i remaining) (k + 1) trace last) :
    Runs music stops (.recheck i remaining) k (.check false :: trace) last :=
  Runs.of_next none [.check false] trace (by simp [PlayerPc.next, hgo])
    (by rw [hgo]; rfl) hrest

theorem PlayerPc.Runs.time (music : MusicData) (stops : Nat → Bool) (i k : Nat)
    (remaining : Int) :
    match playTime stops k remaining with
    | (trace, none) => Runs music stops (.wait i remaining) k trace (.clear true)
    | (trace, some k') => ∀ {more : NoteTrace} {last : PlayerPc},
        Runs music stops (.note (i + 1)) k' more last →
          Runs music stops (.wait i remaining) k (trace ++ more) last := by
  fun_induction playTime stops k remaining with
  | case1 k remaining hpos hstop => exact Runs.delay hpos (Runs.stop hstop rfl rfl)
  | case2 k remaining hpos hstop trace next hrec ih =>
      have hgo : stops k = false := by simpa using hstop
      rw [hrec] at ih
      cases next with
      | none => exact Runs.delay hpos (Runs.recheck hgo ih)
      | some k' =>
          intro more last hmore
          exact Runs.delay hpos (Runs.recheck hgo (ih hmore))
  | case3 k remaining hdone =>
      intro more last hmore
      exact Runs.of_next none [] more (by simp only [PlayerPc.next, if_neg hdone])
        (by simp only [PlayerPc.points, if_neg hdone]; rfl) hmore

theorem PlayerPc.Runs.tone {i k : Nat} (hi : i < music.length) (hgo : stops k = false)
    {trace : NoteTrace} {last : PlayerPc}
    (hrest : Runs music stops (.wait i music.tempo) (k + 1) trace last) :
    Runs music stops (.note i) k
      (.check false :: .act (.tone ((music.notes[i]?).getD 0)) :: trace) last := by
  have htone : Runs music stops (.tone i) (k + 1)
      (.act (.tone ((music.notes[i]?).getD 0)) :: trace) last :=
    Runs.of_next (some _) [.act (.tone ((music.notes[i]?).getD 0))] trace rfl rfl hrest
  exact Runs.of_next none [.check false] (.act (.tone ((music.notes[i]?).getD 0)) :: trace)
    (by simp [PlayerPc.next, hi, hgo]) (by simp [PlayerPc.points, hi, hgo, toneTrace]) htone

theorem PlayerPc.Runs.notes (music : MusicData) (stops : Nat → Bool) (i k : Nat) :
    Runs music stops (.note i) k (playNotesFrom music.notes music.length music.tempo stops i k).1
      (.clear (decide ((playNotesFrom music.notes music.length music.tempo stops i k).2 = -1))) := by
  fun_induction playNotesFrom music.notes music.length music.tempo stops i k with
  | case1 i k hi hstop =>
      exact Runs.stop hstop (by simp [PlayerPc.next, hi])
        (by simp [PlayerPc.points, hi, toneTrace])
  | case2 i k hi hstop trace htime =>
      have hloop := Runs.time music stops i (k + 1) music.tempo
      rw [htime] at hloop
      exact Runs.tone hi (by simpa using hstop) hloop
  | case3 i k hi hstop trace k' htime more result hrec ih =>
      have hloop := Runs.time music stops i (k + 1) music.tempo
      rw [htime] at hloop
      rw [hrec] at ih
      exact Runs.tone hi (by simpa using hstop) (hloop ih)
  | case4 i k hdone =>
      have hsilence : Runs music stops .silence k [.act (.tone 0)] (.clear false) :=
        Runs.of_next (some 0) [.act (.tone 0)] [] rfl rfl (Runs.refl _ _)
      exact Runs.of_next none [] [.act (.tone 0)] (by simp [PlayerPc.next, hdone])
        (by simp [PlayerPc.points, hdone, toneTrace]) hsilence

/-! ## The trace -/

def uninterrupted (notes : List Int) (length : Nat) (tempo : Int) : NoteTrace × Int :=
  playNotesInterruptible notes length tempo fun _ => false

section Array

variable {notes : List Int} {length : Nat} (hlength : length ≤ notes.length) (tempo : Int)
include hlength

theorem playNotes_follow (stops : Nat → Bool) :
    playNotesInterruptible notes length tempo stops =
      ((Point.follow [.tone 0] stops 0 (notesScript (notes.take length) tempo)).1,
        if (Point.follow [.tone 0] stops 0 (notesScript (notes.take length) tempo)).2 then -1
        else 0) := by
  rw [playNotesInterruptible, playNotesFrom_follow hlength, List.drop_zero]

theorem uninterrupted_eq :
    uninterrupted notes length tempo = (notesScript (notes.take length) tempo, 0) := by
  rw [uninterrupted, playNotes_follow hlength, Point.follow_self (notesScript_unstopped _ _)]
  rfl

theorem playNotes_unstopped {stops : Nat → Bool}
    (hnone : ∀ k < Point.checks (uninterrupted notes length tempo).1, stops k = false) :
    Point.acts (playNotesInterruptible notes length tempo stops).1 =
        Point.acts (uninterrupted notes length tempo).1 ∧
      (playNotesInterruptible notes length tempo stops).2 = 0 := by
  rw [uninterrupted_eq hlength] at hnone ⊢
  have hfollow : Point.acts (Point.follow [.tone 0] stops 0
        (notesScript (notes.take length) tempo)).1 =
      Point.acts (notesScript (notes.take length) tempo) ∧
      (Point.follow [.tone 0] stops 0 (notesScript (notes.take length) tempo)).2 = false :=
    Point.follow_unstopped fun j hj => by rw [Nat.zero_add]; exact hnone j hj
  rw [playNotes_follow hlength, hfollow.1, hfollow.2]
  exact ⟨rfl, rfl⟩

theorem playNotes_stopped {stops : Nat → Bool} {k : Nat}
    (hk : k < Point.checks (uninterrupted notes length tempo).1) (hstop : stops k = true)
    (hfirst : ∀ j < k, stops j = false) :
    Point.acts (playNotesInterruptible notes length tempo stops).1 =
        Point.acts (Point.before k (uninterrupted notes length tempo).1) ++ [.tone 0] ∧
      (playNotesInterruptible notes length tempo stops).2 = -1 := by
  rw [uninterrupted_eq hlength] at hk ⊢
  have hfollow : Point.acts (Point.follow [.tone 0] stops 0
        (notesScript (notes.take length) tempo)).1 =
      Point.acts (Point.before k (notesScript (notes.take length) tempo)) ++ [.tone 0] ∧
      (Point.follow [.tone 0] stops 0 (notesScript (notes.take length) tempo)).2 = true :=
    Point.follow_stopped hk (by rwa [Nat.zero_add])
      fun j hj => by rw [Nat.zero_add]; exact hfirst j hj
  rw [playNotes_follow hlength, hfollow.1, hfollow.2]
  exact ⟨rfl, rfl⟩

/-- The tone is off at the end. -/
theorem playNotes_silent (stops : Nat → Bool) :
    (Point.acts (playNotesInterruptible notes length tempo stops).1).getLast? =
      some (.tone 0) := by
  have hclosed : ∃ done, Point.acts (Point.follow [.tone 0] stops 0
      ((notes.take length).flatMap (noteScript tempo) ++ [Output.tone 0].map .act)).1 =
        done ++ [.tone 0] := Point.follow_closed _ 0
  obtain ⟨done, hdone⟩ := hclosed
  rw [List.map_singleton] at hdone
  rw [playNotes_follow hlength, notesScript, hdone, List.getLast?_concat]

/-- Two consecutive tests are at most 50 ms apart. -/
theorem playNotes_spaced (stops : Nat → Bool) {first mid rest : NoteTrace} {stop stop' : Bool}
    (hcut : (playNotesInterruptible notes length tempo stops).1 =
      first ++ .check stop :: (mid ++ .check stop' :: rest))
    (hmid : ∀ s, Point.check s ∉ mid) : ((Point.acts mid).map Output.ms).sum ≤ 50 := by
  have hspaced : Point.Spaced Output.ms 50 0
      (Point.follow [.tone 0] stops 0 (notesScript (notes.take length) tempo)).1 :=
    (spaced_notesScript (notes.take length) tempo).follow 0
  rw [playNotes_follow hlength] at hcut
  simp only at hcut
  rw [hcut] at hspaced
  exact hspaced.between hmid

end Array

/-- The player for every array, tempo and schedule: the time of each note is cut into
delays of at most 50 ms, a stop cuts the uninterrupted trace at the test that sees
it, and the playback thread takes just these steps. -/
theorem play_notes_trace (notes : List Int) (length : Nat) (tempo : Int)
    (hlength : length ≤ notes.length) (htempo : 0 < tempo) :
    ∃ ds : List Int, (∀ d ∈ ds, 1 ≤ d ∧ d ≤ 50) ∧ ds.sum = tempo ∧
      Point.acts (uninterrupted notes length tempo).1 =
        (notes.take length).flatMap (fun note => .tone note :: ds.map .delay) ++ [.tone 0] ∧
      (uninterrupted notes length tempo).2 = 0 ∧
      ∀ stops : Nat → Bool,
        ((∀ k < Point.checks (uninterrupted notes length tempo).1, stops k = false) →
          Point.acts (playNotesInterruptible notes length tempo stops).1 =
              Point.acts (uninterrupted notes length tempo).1 ∧
            (playNotesInterruptible notes length tempo stops).2 = 0) ∧
        (∀ k < Point.checks (uninterrupted notes length tempo).1,
          stops k = true → (∀ j < k, stops j = false) →
          Point.acts (playNotesInterruptible notes length tempo stops).1 =
              Point.acts (Point.before k (uninterrupted notes length tempo).1) ++ [.tone 0] ∧
            (playNotesInterruptible notes length tempo stops).2 = -1) ∧
        (Point.acts (playNotesInterruptible notes length tempo stops).1).getLast? =
          some (.tone 0) ∧
        (∀ (first mid rest : NoteTrace) (stop stop' : Bool),
          (playNotesInterruptible notes length tempo stops).1 =
              first ++ .check stop :: (mid ++ .check stop' :: rest) →
            (∀ s, Point.check s ∉ mid) → ((Point.acts mid).map Output.ms).sum ≤ 50) ∧
        PlayerPc.Runs ⟨notes, length, tempo⟩ stops (.note 0) 0
          (playNotesInterruptible notes length tempo stops).1
          (.clear (decide ((playNotesInterruptible notes length tempo stops).2 = -1))) := by
  refine ⟨delays tempo, delays_bounds tempo, delays_sum (Int.le_of_lt htempo), ?_, ?_, ?_⟩
  · rw [uninterrupted_eq hlength, acts_notesScript]
  · rw [uninterrupted_eq hlength]
  · intro stops
    refine ⟨playNotes_unstopped hlength tempo, ?_, playNotes_silent hlength tempo stops, ?_, ?_⟩
    · exact fun k hk hstop hfirst => playNotes_stopped hlength tempo hk hstop hfirst
    · exact fun first mid rest stop stop' hcut hmid =>
        playNotes_spaced hlength tempo stops hcut hmid
    · exact PlayerPc.Runs.notes ⟨notes, length, tempo⟩ stops 0 0

/-- The first two notes of a melody at its tempo, stopped in the second one. -/
theorem play_notes_trace_butterfly :
    ∃ ds : List Int, ds.sum = 280 ∧
      Point.acts (uninterrupted butterfly 2 280).1 =
        .tone 261 :: ds.map .delay ++ (.tone 293 :: ds.map .delay) ++ [.tone 0] ∧
      (Point.acts (playNotesInterruptible butterfly 2 280 fun k => k == 9).1).getLast? =
        some (.tone 0) := by
  obtain ⟨ds, -, hsum, htrace, -, hall⟩ :=
    play_notes_trace butterfly 2 280 (by decide) (by decide)
  refine ⟨ds, hsum, ?_, (hall fun k => k == 9).2.2.1⟩
  rw [htrace]
  simp [butterfly, DO, RE]

end RsvpControl.Music
