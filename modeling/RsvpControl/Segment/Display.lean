import RsvpControl.Core.Population
import RsvpControl.Segment.Countdown

/-! # Who writes the display

The counting library alone: any number of calls of `seg7_counting` and
`seg7_stop_counting`, from any threads, with the counting threads they create.
The threads tell a restart from their own countdown only by the shared flag, so
a thread that sleeps over a stop and a restart goes on counting next to the new
one, and one that has yet to clear the flag ends the new countdown instead of its
own. Neither happens when every start comes after the end of the one before.
-/

namespace RsvpControl.Segment

open RsvpControl.Core

/-! ## The library -/

/-- What has become of a countdown since its call set `is_counting`. -/
inductive Standing where
  | underWay
  | stopped
  /-- Its own thread has cleared `is_counting` after the loop. -/
  | complete
deriving DecidableEq, Repr

/-- A countdown as the display shows it. -/
structure Countdown where
  start_seconds : Nat
  standing : Standing
  /-- Digits written to the display while it was under way, each with the thread
  that wrote it. -/
  shown : List (Nat × Nat)
deriving DecidableEq, Repr

def Countdown.see (c : Countdown) (digit : Nat × Nat) : Countdown :=
  if c.standing = .underWay then { c with shown := c.shown ++ [digit] } else c

def Countdown.stop (c : Countdown) : Countdown :=
  if c.standing = .underWay then { c with standing := .stopped } else c

def Countdown.complete (c : Countdown) : Countdown :=
  if c.standing = .underWay then { c with standing := .complete } else c

structure Display where
  is_counting : Bool
  threads : List CountingPc
  /-- The countdown of each thread. -/
  countdowns : List Countdown
  /-- Countdowns of the calls of `seg7_counting` between the set of `is_counting`
  and the creation of their thread. -/
  starting : List Countdown
  /-- Calls whose creation failed, about to clear `is_counting`. -/
  undoing : Nat
  /-- Digits written to the display, each with the thread that wrote it. -/
  written : List (Nat × Nat)
deriving DecidableEq, Repr

inductive DisplayAction where
  /-- A call of `seg7_counting` up to its test and set of `is_counting`. -/
  | count (start_seconds : Int)
  /-- The rest of a call: `created` is the joint outcome of the allocation and the
  thread creation. -/
  | create (caller : Nat) (created : Bool)
  | undo
  /-- The critical section of `seg7_stop_counting`; the sleep after it only delays
  the return. -/
  | stop
  | thread (t : Nat)
deriving DecidableEq, Repr

def Display.write (s : Display) (digit : Nat × Nat) : Display :=
  { s with
    countdowns := s.countdowns.map fun c => c.see digit
    starting := s.starting.map fun c => c.see digit
    written := s.written ++ [digit] }

def Display.runThread (s : Display) (t : Nat) : Option Display := do
  let pc ← s.threads[t]?
  let pc' ← pc.next s.is_counting
  let moved := { s with threads := s.threads.set t pc' }
  some (match pc with
    | .output i => moved.write (t, i)
    | .finish =>
        { moved with
          is_counting := false
          countdowns := s.countdowns.modify t Countdown.complete }
    | _ => moved)

def Display.step (s : Display) : DisplayAction → Option Display
  | .count start_seconds =>
      if start_seconds < 0 ∨ start_seconds > 9 then some s
      else if s.is_counting then some s
      else
        some { s with
          is_counting := true
          starting := s.starting ++ [⟨start_seconds.toNat, .underWay, []⟩] }
  | .create caller created =>
      match s.starting[caller]? with
      | none => none
      | some c =>
          if created then
            some { s with
              starting := s.starting.eraseIdx caller
              threads := s.threads ++ [.check c.start_seconds]
              countdowns := s.countdowns ++ [c] }
          else
            some { s with starting := s.starting.eraseIdx caller, undoing := s.undoing + 1 }
  | .undo =>
      match s.undoing with
      | 0 => none
      | undoing + 1 => some { s with is_counting := false, undoing := undoing }
  | .stop =>
      some { s with
        is_counting := false
        countdowns := s.countdowns.map Countdown.stop
        starting := s.starting.map Countdown.stop }
  | .thread t => s.runThread t

def displayMachine : Machine Display DisplayAction := ⟨⟨false, [], [], [], 0, []⟩, Display.step⟩

/-! ## The condition -/

def CountingPc.inLoop : CountingPc → Bool
  | .check _ => true
  | .output _ => true
  | .sleeping _ => true
  | _ => false

/-- In the loop, or past it and about to clear `is_counting`. -/
def CountingPc.unfinished (pc : CountingPc) : Bool := pc.inLoop || pc = .finish

/-- A call that finds `is_counting` clear finds no thread that has yet to leave its
loop or to clear `is_counting`, and no other call about to create one or to undo its
start. -/
def Display.startsAlone (s : Display) : DisplayAction → Bool
  | .count start_seconds =>
      start_seconds < 0 || start_seconds > 9 || s.is_counting ||
        (s.starting.isEmpty && s.undoing == 0 && s.threads.all fun pc => !pc.unfinished)
  | _ => true

/-! ## What the display shows -/

def countdown (start_seconds k : Nat) : List Nat :=
  (List.range k).map fun j => start_seconds - j

theorem countdown_succ (start_seconds k : Nat) :
    countdown start_seconds (k + 1) = countdown start_seconds k ++ [start_seconds - k] := by
  simp [countdown, List.range_succ]

/-- While it was under way the display has shown its first `k` digits, written by
the thread `t`, and nothing else. -/
def Countdown.Shows (c : Countdown) (t k : Nat) : Prop :=
  c.shown = (countdown c.start_seconds k).map fun d => (t, d)

/-- Some continuation brings the thread to its next write. -/
def Display.CanWrite (s : Display) (t : Nat) : Prop :=
  t < s.threads.length ∧ ∃ s' i, displayMachine.Reaches s s' ∧ s'.threads[t]? = some (.output i)

/-- At most one thread can still write, and from its start up to its completion or
stop a countdown has the display to itself. -/
structure Display.DrivenByOne (s : Display) : Prop where
  writers : ∀ t u, s.CanWrite t → s.CanWrite u → t = u
  countdowns : ∀ (t : Nat) (c : Countdown), s.countdowns[t]? = some c →
    ∃ k ≤ c.start_seconds + 1, c.Shows t k ∧
      (c.standing = .complete → k = c.start_seconds + 1)
  calls : ∀ c ∈ s.starting, c.shown = []

/-! ## Where a thread is in its countdown -/

/-- The thread has written the first `k` digits and the flag is still its own. -/
def CountingPc.wrote (start_seconds k : Nat) : CountingPc → Prop
  | .check i => i ≤ start_seconds ∧ k = start_seconds - i
  | .output i => i ≤ start_seconds ∧ k = start_seconds - i
  | .sleeping i => 0 < i ∧ i ≤ start_seconds ∧ k = start_seconds - i + 1
  | .finish => k = start_seconds + 1
  | _ => False

theorem wrote_le {start_seconds k : Nat} {pc : CountingPc} (h : pc.wrote start_seconds k) :
    k ≤ start_seconds + 1 := by
  cases pc <;> simp only [CountingPc.wrote] at h <;> omega

theorem unfinished_of_wrote {start_seconds k : Nat} {pc : CountingPc}
    (h : pc.wrote start_seconds k) : pc.unfinished = true := by
  cases pc with
  | callback | clearing | playing | done => exact h.elim
  | check | output | sleeping | finish => rfl

/-- A thread past its loop stays past it. -/
theorem inLoop_of_next {is_counting : Bool} {pc pc' : CountingPc}
    (h : pc.next is_counting = some pc') (hin : pc'.inLoop = true) : pc.inLoop = true := by
  cases pc <;> simp_all [CountingPc.next, CountingPc.inLoop]
  all_goals subst h
  all_goals cases hin

theorem unfinished_of_next {is_counting : Bool} {pc pc' : CountingPc}
    (h : pc.next is_counting = some pc') (hin : pc'.unfinished = true) :
    pc.unfinished = true := by
  cases pc with
  | check | output | sleeping | finish => rfl
  | callback | clearing | playing =>
      cases h
      exact absurd hin (by decide)
  | done => cases h

theorem wrote_next_quiet {start_seconds k : Nat} {pc pc' : CountingPc}
    (h : pc.wrote start_seconds k) (hnext : pc.next true = some pc')
    (hout : ∀ i, pc ≠ .output i) (hfinish : pc ≠ .finish) : pc'.wrote start_seconds k := by
  cases pc with
  | check i =>
      cases hnext
      exact h
  | output i => exact absurd rfl (hout i)
  | sleeping i =>
      cases hnext
      obtain ⟨hpos, hle, hk⟩ := h
      constructor <;> omega
  | finish => exact absurd rfl hfinish
  | callback | clearing | playing | done => exact h.elim

theorem wrote_next_output {start_seconds k i : Nat} {is_counting : Bool} {pc' : CountingPc}
    (h : (CountingPc.output i).wrote start_seconds k)
    (hnext : (CountingPc.output i).next is_counting = some pc') :
    i = start_seconds - k ∧ pc'.wrote start_seconds (k + 1) := by
  obtain ⟨hle, hk⟩ := h
  refine ⟨by omega, ?_⟩
  simp only [CountingPc.next, Option.some.injEq] at hnext
  subst hnext
  split
  · exact ⟨by omega, by omega, by omega⟩
  · show k + 1 = start_seconds + 1
    omega

theorem display_runThread_spec {s s' : Display} {t : Nat} (h : s.runThread t = some s') :
    ∃ pc pc', s.threads[t]? = some pc ∧ pc.next s.is_counting = some pc' ∧
      ((∃ i, pc = .output i ∧
          s' = ({ s with threads := s.threads.set t pc' } : Display).write (t, i)) ∨
        (pc = .finish ∧ s' = { s with
          threads := s.threads.set t pc'
          is_counting := false
          countdowns := s.countdowns.modify t Countdown.complete }) ∨
        ((∀ i, pc ≠ .output i) ∧ pc ≠ .finish ∧
          s' = { s with threads := s.threads.set t pc' })) := by
  unfold Display.runThread at h
  cases hpc : s.threads[t]? with
  | none => simp [hpc] at h
  | some pc =>
      cases hnext : pc.next s.is_counting with
      | none => simp [hpc, hnext] at h
      | some pc' =>
          simp only [hpc, hnext, Option.bind_eq_bind, Option.bind_some, Option.some.injEq] at h
          refine ⟨pc, pc', rfl, hnext, ?_⟩
          cases pc with
          | output i => exact Or.inl ⟨i, rfl, h.symm⟩
          | finish => exact Or.inr (Or.inl ⟨rfl, h.symm⟩)
          | check | sleeping | callback | clearing | playing | done =>
              exact Or.inr (Or.inr ⟨by simp, by simp, h.symm⟩)

theorem display_runThread_threads {s s' : Display} {t : Nat} (h : s.runThread t = some s') :
    ∃ pc pc', s.threads[t]? = some pc ∧ pc.next s.is_counting = some pc' ∧
      s'.threads = s.threads.set t pc' := by
  obtain ⟨pc, pc', hpc, hnext, ⟨i, -, rfl⟩ | ⟨-, rfl⟩ | ⟨-, -, rfl⟩⟩ := display_runThread_spec h
  · exact ⟨pc, pc', hpc, hnext, rfl⟩
  · exact ⟨pc, pc', hpc, hnext, rfl⟩
  · exact ⟨pc, pc', hpc, hnext, rfl⟩

/-! ## Runs in which every start is alone -/

/-- The countdown of thread `t`, given where the thread is. -/
def Countdown.InCourse (c : Countdown) (t : Nat) (pc : CountingPc) (is_counting : Bool) : Prop :=
  ∃ k ≤ c.start_seconds + 1, c.Shows t k ∧
    (c.standing = .underWay → is_counting = true ∧ pc.wrote c.start_seconds k) ∧
    (c.standing = .complete → k = c.start_seconds + 1)

structure Driven (s : Display) : Prop where
  /-- One thread that has yet to finish, or one call at work. -/
  alone : s.threads.countP CountingPc.unfinished + s.starting.length + s.undoing ≤ 1
  paired : s.countdowns.length = s.threads.length
  course : ∀ (t : Nat) (c : Countdown) (pc : CountingPc), s.countdowns[t]? = some c →
    s.threads[t]? = some pc → c.InCourse t pc s.is_counting
  calls : ∀ c ∈ s.starting, c.shown = [] ∧ c.standing ≠ .complete ∧
    (c.standing = .underWay → s.is_counting = true)

theorem driven_init : Driven displayMachine.start where
  alone := by decide
  paired := rfl
  course t c pc h := by simp [displayMachine] at h
  calls c h := by simp [displayMachine] at h

theorem Countdown.InCourse.unfinished {c : Countdown} {t : Nat} {pc : CountingPc}
    {is_counting : Bool} (h : c.InCourse t pc is_counting) (hway : c.standing = .underWay) :
    pc.unfinished = true := by
  obtain ⟨k, -, -, hwrote, -⟩ := h
  exact unfinished_of_wrote (hwrote hway).2

/-- What holds of a countdown that is no longer under way does not depend on its
thread or the flag. -/
theorem Countdown.InCourse.of_over {c : Countdown} {t : Nat} {pc : CountingPc}
    {is_counting : Bool} (h : c.InCourse t pc is_counting) (hway : c.standing ≠ .underWay)
    (pc' : CountingPc) (is_counting' : Bool) : c.InCourse t pc' is_counting' := by
  obtain ⟨k, hk, hshows, -, hcomplete⟩ := h
  exact ⟨k, hk, hshows, fun hon => absurd hon hway, hcomplete⟩

theorem Countdown.InCourse.flag {c : Countdown} {t : Nat} {pc : CountingPc} {is_counting : Bool}
    (h : c.InCourse t pc is_counting) : c.InCourse t pc true := by
  obtain ⟨k, hk, hshows, hwrote, hcomplete⟩ := h
  exact ⟨k, hk, hshows, fun hway => ⟨rfl, (hwrote hway).2⟩, hcomplete⟩

@[simp] theorem stop_start_seconds (c : Countdown) : c.stop.start_seconds = c.start_seconds := by
  unfold Countdown.stop
  split <;> rfl

@[simp] theorem stop_shown (c : Countdown) : c.stop.shown = c.shown := by
  unfold Countdown.stop
  split <;> rfl

theorem stop_not_underWay (c : Countdown) : c.stop.standing ≠ .underWay := by
  unfold Countdown.stop
  split
  · simp
  · assumption

theorem stop_complete {c : Countdown} (h : c.stop.standing = .complete) :
    c.standing = .complete := by
  unfold Countdown.stop at h
  split at h
  · cases h
  · exact h

theorem Countdown.InCourse.stop {c : Countdown} {t : Nat} {pc : CountingPc} {is_counting : Bool}
    (h : c.InCourse t pc is_counting) : c.stop.InCourse t pc false := by
  obtain ⟨k, hk, hshows, -, hcomplete⟩ := h
  refine ⟨k, ?_, ?_, ?_, ?_⟩
  · rw [stop_start_seconds]
    exact hk
  · simp only [Countdown.Shows, stop_shown, stop_start_seconds]
    exact hshows
  · intro hway
    exact absurd hway (stop_not_underWay c)
  · intro hdone
    rw [stop_start_seconds]
    exact hcomplete (stop_complete hdone)

theorem see_of_not_underWay {c : Countdown} (digit : Nat × Nat) (h : c.standing ≠ .underWay) :
    c.see digit = c := if_neg h

/-- Its own thread writes the next digit. -/
theorem Countdown.InCourse.see {c : Countdown} {t i : Nat} {pc' : CountingPc}
    {is_counting : Bool} (h : c.InCourse t (.output i) is_counting)
    (hnext : (CountingPc.output i).next is_counting = some pc') :
    (c.see (t, i)).InCourse t pc' is_counting := by
  by_cases hway : c.standing = .underWay
  · obtain ⟨k, -, hshows, hwrote, hcomplete⟩ := h
    obtain ⟨hflag, hplace⟩ := hwrote hway
    obtain ⟨hi, hplace'⟩ := wrote_next_output hplace hnext
    have hsee : c.see (t, i) = { c with shown := c.shown ++ [(t, i)] } := if_pos hway
    rw [hsee]
    refine ⟨k + 1, wrote_le hplace', ?_, fun _ => ⟨hflag, hplace'⟩, ?_⟩
    · unfold Countdown.Shows at hshows ⊢
      rw [hshows, countdown_succ, List.map_append, hi]
      rfl
    · intro hdone
      exact absurd (hway.symm.trans hdone) (by decide)
  · rw [see_of_not_underWay _ hway]
    exact h.of_over hway _ _

theorem Countdown.InCourse.finish {c : Countdown} {t : Nat} {is_counting : Bool}
    (h : c.InCourse t .finish is_counting) (pc' : CountingPc) :
    c.complete.InCourse t pc' false := by
  unfold Countdown.complete
  split
  · next hway =>
      obtain ⟨k, hk, hshows, hwrote, -⟩ := h
      exact ⟨k, hk, hshows, nofun, fun _ => (hwrote hway).2⟩
  · next hway => exact h.of_over hway _ _

theorem Driven.count {s s' : Display} {start_seconds : Int} (h : Driven s)
    (halone : s.startsAlone (.count start_seconds) = true)
    (hs : s.step (.count start_seconds) = some s') : Driven s' := by
  simp only [Display.step] at hs
  split at hs
  · cases hs
    exact h
  · next hrange =>
      split at hs
      · cases hs
        exact h
      · next hclear =>
          cases hs
          have hnobody : (s.starting = [] ∧ s.undoing = 0) ∧
              ∀ pc ∈ s.threads, pc.unfinished = false := by
            simp only [not_or, Int.not_lt, gt_iff_lt] at hrange
            simp only [Display.startsAlone, Bool.or_eq_true, decide_eq_true_eq, Bool.and_eq_true,
              List.isEmpty_iff, beq_iff_eq, List.all_eq_true, Bool.not_eq_true'] at halone
            rcases halone with ((hlow | hhigh) | hon) | hrest
            · omega
            · omega
            · exact absurd hon hclear
            · exact hrest
          have hzero : s.threads.countP CountingPc.unfinished = 0 := by
            rw [List.countP_eq_zero]
            intro pc hpc
            simp [hnobody.2 pc hpc]
          refine ⟨?_, h.paired, ?_, ?_⟩
          · simp [hzero, hnobody.1.1, hnobody.1.2]
          · intro t c pc hc hpc
            exact (h.course t c pc hc hpc).flag
          · intro c hc
            simp only [hnobody.1.1, List.nil_append, List.mem_singleton] at hc
            subst hc
            exact ⟨rfl, nofun, fun _ => rfl⟩

theorem Driven.create {s s' : Display} {caller : Nat} {created : Bool} (h : Driven s)
    (hs : s.step (.create caller created) = some s') : Driven s' := by
  simp only [Display.step] at hs
  split at hs
  · cases hs
  · next c hcaller =>
      have hmem : c ∈ s.starting := List.mem_of_getElem? hcaller
      have hlen := List.length_eraseIdx_of_lt (List.getElem?_eq_some_iff.mp hcaller).1
      have hpos := List.length_pos_of_mem hmem
      have halone := h.alone
      have hcalls : ∀ d ∈ s.starting.eraseIdx caller, d ∈ s.starting := fun d hd =>
        List.mem_of_mem_eraseIdx hd
      split at hs
      · cases hs
        refine ⟨?_, ?_, ?_, fun d hd => h.calls d (hcalls d hd)⟩
        · simp only [List.countP_append, List.countP_singleton, hlen]
          split <;> omega
        · simp [h.paired]
        · intro t d pc hd hpc
          rw [List.getElem?_append] at hd hpc
          rw [h.paired] at hd
          split at hd
          · next hlt =>
              rw [if_pos hlt] at hpc
              exact h.course t d pc hd hpc
          · next hge =>
              rw [if_neg hge] at hpc
              rw [List.getElem?_singleton] at hd hpc
              split at hd
              · next hzero =>
                  rw [if_pos hzero, Option.some.injEq] at hpc
                  subst hpc
                  cases hd
                  obtain ⟨hshown, hnot, hflag⟩ := h.calls c hmem
                  refine ⟨0, Nat.zero_le _, hshown, fun hway => ⟨hflag hway, ?_⟩, ?_⟩
                  · exact ⟨Nat.le_refl _, by omega⟩
                  · exact fun hdone => absurd hdone hnot
              · cases hd
      · cases hs
        refine ⟨?_, h.paired, h.course, fun d hd => h.calls d (hcalls d hd)⟩
        simp only [hlen]
        omega

theorem Driven.undo {s s' : Display} (h : Driven s) (hs : s.step .undo = some s') : Driven s' := by
  simp only [Display.step] at hs
  split at hs
  · cases hs
  · next undoing hundoing =>
      cases hs
      have halone := h.alone
      have hzero : s.threads.countP CountingPc.unfinished = 0 := by omega
      have hnone : s.starting = [] := by
        apply List.eq_nil_of_length_eq_zero
        omega
      refine ⟨?_, h.paired, ?_, ?_⟩
      · show s.threads.countP CountingPc.unfinished + s.starting.length + undoing ≤ 1
        omega
      · intro t c pc hc hpc
        have hcourse := h.course t c pc hc hpc
        -- nobody is unfinished, so no countdown is under way
        refine hcourse.of_over ?_ pc false
        intro hway
        have hun := hcourse.unfinished hway
        rw [Population.not_of_countP_eq_zero hzero hpc] at hun
        cases hun
      · intro c hc
        rw [show s.starting = [] from hnone] at hc
        cases hc

theorem Driven.stop {s s' : Display} (h : Driven s) (hs : s.step .stop = some s') : Driven s' := by
  cases hs
  refine ⟨?_, ?_, ?_, ?_⟩
  · simpa using h.alone
  · simpa using h.paired
  · intro t c pc hc hpc
    rw [List.getElem?_map, Option.map_eq_some_iff] at hc
    obtain ⟨d, hd, rfl⟩ := hc
    exact (h.course t d pc hd hpc).stop
  · intro c hc
    obtain ⟨d, hd, rfl⟩ := List.mem_map.mp hc
    obtain ⟨hshown, hnot, -⟩ := h.calls d hd
    refine ⟨by rw [stop_shown]; exact hshown, fun hdone => hnot (stop_complete hdone), ?_⟩
    intro hway
    exact absurd hway (stop_not_underWay d)

/-- While one thread is unfinished every other countdown is over and no call is at
work. -/
theorem Driven.others_over {s : Display} (h : Driven s) {t : Nat} {pc : CountingPc}
    (hpc : s.threads[t]? = some pc) (hun : pc.unfinished = true) :
    (∀ (u : Nat) (c : Countdown), u ≠ t → s.countdowns[u]? = some c → c.standing ≠ .underWay) ∧
      s.starting = [] := by
  have hpos : 0 < s.threads.countP CountingPc.unfinished :=
    List.countP_pos_iff.mpr ⟨pc, List.mem_of_getElem? hpc, hun⟩
  have halone := h.alone
  refine ⟨?_, List.eq_nil_of_length_eq_zero (by omega)⟩
  intro u c hne hc hway
  have hlt : u < s.threads.length := h.paired ▸ (List.getElem?_eq_some_iff.mp hc).1
  have hpcu : s.threads[u]? = some s.threads[u] := List.getElem?_eq_getElem hlt
  have hunu := (h.course u c _ hc hpcu).unfinished hway
  exact hne (Population.index_unique (by omega) hpcu hunu hpc hun)

theorem Driven.runThread {s s' : Display} {t : Nat} (h : Driven s)
    (hs : s.runThread t = some s') : Driven s' := by
  obtain ⟨pc, pc', hpc, hnext, hcases⟩ := display_runThread_spec hs
  have hcount := Population.countP_set_getElem? (p := CountingPc.unfinished) pc' hpc
  have hfewer : (s.threads.set t pc').countP CountingPc.unfinished ≤
      s.threads.countP CountingPc.unfinished := by
    by_cases hun : pc'.unfinished = true
    · rw [unfinished_of_next hnext hun, hun] at hcount
      omega
    · rw [if_neg hun] at hcount
      omega
  have halone := h.alone
  obtain ⟨i, rfl, rfl⟩ | ⟨rfl, rfl⟩ | ⟨hout, hfinish, rfl⟩ := hcases
  · obtain ⟨hothers, hnone⟩ := h.others_over hpc rfl
    refine ⟨?_, ?_, ?_, ?_⟩
    · simp only [Display.write, List.length_map]
      omega
    · simpa [Display.write] using h.paired
    · intro u c pcu hc hpcu
      simp only [Display.write, List.getElem?_map, Option.map_eq_some_iff] at hc
      obtain ⟨d, hd, rfl⟩ := hc
      rcases Population.getElem?_set_cases hpcu with ⟨rfl, rfl⟩ | ⟨hne, hold⟩
      · exact (h.course u d _ hd hpc).see hnext
      · rw [see_of_not_underWay _ (hothers u d hne hd)]
        exact h.course u d pcu hd hold
    · intro c hc
      simp only [Display.write, hnone, List.map_nil] at hc
      cases hc
  · obtain ⟨hothers, hnone⟩ := h.others_over hpc rfl
    refine ⟨?_, ?_, ?_, ?_⟩
    · simp only
      omega
    · simpa using h.paired
    · intro u c pcu hc hpcu
      rw [List.getElem?_modify] at hc
      rcases Population.getElem?_set_cases hpcu with ⟨rfl, rfl⟩ | ⟨hne, hold⟩
      · simp only [if_true, Option.map_eq_map, Option.map_eq_some_iff] at hc
        obtain ⟨d, hd, rfl⟩ := hc
        exact (h.course u d _ hd hpc).finish _
      · simp only [Ne.symm hne, if_false, Option.map_eq_map, Option.map_id'] at hc
        exact (h.course u c pcu hc hold).of_over (hothers u c hne hc) _ _
    · intro c hc
      simp only [hnone] at hc
      cases hc
  · refine ⟨?_, ?_, ?_, h.calls⟩
    · simp only
      omega
    · simpa using h.paired
    · intro u c pcu hc hpcu
      rcases Population.getElem?_set_cases hpcu with ⟨rfl, rfl⟩ | ⟨hne, hold⟩
      · obtain ⟨k, hk, hshows, hwrote, hcomplete⟩ := h.course u c pc hc hpc
        refine ⟨k, hk, hshows, fun hway => ?_, hcomplete⟩
        obtain ⟨hflag, hplace⟩ := hwrote hway
        rw [hflag] at hnext
        exact ⟨hflag, wrote_next_quiet hplace hnext hout hfinish⟩
      · exact h.course u c pcu hc hold

theorem Driven.step {s s' : Display} {a : DisplayAction} (h : Driven s)
    (ha : s.startsAlone a = true) (hs : s.step a = some s') : Driven s' := by
  cases a with
  | count start_seconds => exact h.count ha hs
  | create caller created => exact h.create hs
  | undo => exact h.undo hs
  | stop => exact h.stop hs
  | thread t => exact h.runThread hs

theorem driven_of_reachable {s : Display}
    (h : displayMachine.ReachableUnder (fun s a => s.startsAlone a = true) s) : Driven s :=
  Machine.ReachableUnder.invariant driven_init (fun _ _ _ _ hi ha hs => hi.step ha hs) h

/-! ## Which threads can still write -/

theorem step_thread {s : Display} {t : Nat} {pc pc' : CountingPc}
    (hpc : s.threads[t]? = some pc) (hnext : pc.next s.is_counting = some pc') :
    ∃ s', displayMachine.step s (.thread t) = some s' ∧ s'.threads[t]? = some pc' := by
  cases hs : s.runThread t with
  | none => simp [Display.runThread, hpc, hnext] at hs
  | some s' =>
      obtain ⟨pcu, pcu', hpcu, hnextu, hthreads⟩ := display_runThread_threads hs
      rw [hpc, Option.some.injEq] at hpcu
      subst hpcu
      rw [hnext, Option.some.injEq] at hnextu
      subst hnextu
      refine ⟨s', hs, ?_⟩
      rw [hthreads, List.getElem?_set_self (List.getElem?_eq_some_iff.mp hpc).1]

theorem step_count {s : Display} {start_seconds : Int} (hlow : 0 ≤ start_seconds)
    (hhigh : start_seconds ≤ 9) (hclear : s.is_counting = false) :
    displayMachine.step s (.count start_seconds) = some { s with
      is_counting := true
      starting := s.starting ++ [⟨start_seconds.toNat, .underWay, []⟩] } := by
  have hrange : ¬ (start_seconds < 0 ∨ start_seconds > 9) := by omega
  simp [displayMachine, Display.step, hrange, hclear]

/-- A thread at its test can be given the flag it needs: a call of `seg7_counting`
sets it. -/
theorem canWrite_of_check {s : Display} {t i : Nat} (hpc : s.threads[t]? = some (.check i)) :
    ∃ s' j, displayMachine.Reaches s s' ∧ s'.threads[t]? = some (.output j) := by
  cases hflag : s.is_counting with
  | true =>
      obtain ⟨s', hs, hpc'⟩ := step_thread hpc (by rw [hflag]; rfl)
      exact ⟨s', i, Machine.Reaches.of_step _ hs, hpc'⟩
  | false =>
      have hcount := step_count (s := s) (Int.le_refl 0) (by decide) hflag
      obtain ⟨s', hs, hpc'⟩ := @step_thread
        { s with is_counting := true, starting := s.starting ++ [⟨0, .underWay, []⟩] } t
        (.check i) (.output i) hpc rfl
      exact ⟨s', i, (Machine.Reaches.of_step _ hcount).step trivial hs, hpc'⟩

theorem outLoop_step {s s' : Display} {a : DisplayAction} {t : Nat} {pc : CountingPc}
    (hpc : s.threads[t]? = some pc) (hout : pc.inLoop = false) (hs : s.step a = some s') :
    ∃ pc', s'.threads[t]? = some pc' ∧ pc'.inLoop = false := by
  cases a with
  | count start_seconds =>
      simp only [Display.step] at hs
      repeat' split at hs
      all_goals cases hs
      all_goals exact ⟨pc, hpc, hout⟩
  | create caller created =>
      simp only [Display.step] at hs
      repeat' split at hs
      all_goals cases hs
      · refine ⟨pc, ?_, hout⟩
        rw [List.getElem?_append_left (List.getElem?_eq_some_iff.mp hpc).1, hpc]
      · exact ⟨pc, hpc, hout⟩
  | undo =>
      simp only [Display.step] at hs
      split at hs <;> cases hs
      exact ⟨pc, hpc, hout⟩
  | stop =>
      cases hs
      exact ⟨pc, hpc, hout⟩
  | thread v =>
      obtain ⟨pcv, pc', hpcv, hnext, hthreads⟩ := display_runThread_threads hs
      rw [hthreads]
      by_cases hv : v = t
      · subst hv
        rw [hpc, Option.some.injEq] at hpcv
        subst hpcv
        rw [List.getElem?_set_self (List.getElem?_eq_some_iff.mp hpc).1]
        refine ⟨_, rfl, ?_⟩
        by_contra hin
        rw [inLoop_of_next hnext (by simpa using hin)] at hout
        cases hout
      · exact ⟨pc, by rw [List.getElem?_set_ne hv, hpc], hout⟩

theorem canWrite_iff {s : Display} {t : Nat} :
    s.CanWrite t ↔ ∃ pc, s.threads[t]? = some pc ∧ pc.inLoop = true := by
  constructor
  · rintro ⟨hlt, s', i, hrun, hpc'⟩
    refine ⟨s.threads[t], List.getElem?_eq_getElem hlt, ?_⟩
    by_contra hout
    have hstays : ∃ pc, s'.threads[t]? = some pc ∧ pc.inLoop = false := by
      refine hrun.invariant (I := fun u => ∃ pc, u.threads[t]? = some pc ∧ pc.inLoop = false) ?_ ?_
      · exact ⟨_, List.getElem?_eq_getElem hlt, by simpa using hout⟩
      · rintro u a u' - ⟨pc, hpc, hin⟩ - hs
        exact outLoop_step hpc hin hs
    obtain ⟨pc, hpc, hin⟩ := hstays
    rw [hpc', Option.some.injEq] at hpc
    subst hpc
    cases hin
  · rintro ⟨pc, hpc, hin⟩
    refine ⟨(List.getElem?_eq_some_iff.mp hpc).1, ?_⟩
    cases pc with
    | output i => exact ⟨s, i, Relation.ReflTransGen.refl, hpc⟩
    | check i => exact canWrite_of_check hpc
    | sleeping i =>
        obtain ⟨s', hs, hpc'⟩ := step_thread hpc rfl
        obtain ⟨s'', j, hrun, hpc''⟩ := canWrite_of_check hpc'
        exact ⟨s'', j, (Machine.Reaches.of_step _ hs).trans hrun, hpc''⟩
    | finish | callback | clearing | playing | done => cases hin

theorem Driven.drivenByOne {s : Display} (h : Driven s) : s.DrivenByOne := by
  refine ⟨?_, ?_, ?_⟩
  · intro t u ht hu
    obtain ⟨pct, hpct, hint⟩ := canWrite_iff.mp ht
    obtain ⟨pcu, hpcu, hinu⟩ := canWrite_iff.mp hu
    have halone := h.alone
    refine Population.index_unique (p := CountingPc.unfinished) (by omega) hpct ?_ hpcu ?_
    · rw [CountingPc.unfinished, hint, Bool.true_or]
    · rw [CountingPc.unfinished, hinu, Bool.true_or]
  · intro t c hc
    have hlt : t < s.threads.length := h.paired ▸ (List.getElem?_eq_some_iff.mp hc).1
    obtain ⟨k, hk, hshows, -, hcomplete⟩ := h.course t c _ hc (List.getElem?_eq_getElem hlt)
    exact ⟨k, hk, hshows, hcomplete⟩
  · intro c hc
    exact (h.calls c hc).1

/-! ## Starts that are not alone -/

theorem step_create {s : Display} {c : Countdown} {rest : List Countdown}
    (h : s.starting = c :: rest) :
    displayMachine.step s (.create 0 true) = some { s with
      starting := rest
      threads := s.threads ++ [.check c.start_seconds]
      countdowns := s.countdowns ++ [c] } := by
  simp [displayMachine, Display.step, h]

theorem reaches_alone {s s' : Display} {a : DisplayAction} (ha : s.startsAlone a = true)
    (hs : displayMachine.step s a = some s') :
    displayMachine.ReachesUnder (fun s a => s.startsAlone a = true) s s' :=
  Machine.ReachesUnder.of_step ha hs

/-- A thread that can write and a call about to create another. -/
theorem contended_of_starting {s : Display} {c : Countdown} {rest : List Countdown} {t : Nat}
    (hstarting : s.starting = c :: rest) (ht : s.CanWrite t) :
    ∃ s', displayMachine.ReachesUnder (fun s a => s.startsAlone a = true) s s' ∧
      ¬ s'.DrivenByOne := by
  refine ⟨_, reaches_alone rfl (step_create hstarting), ?_⟩
  intro hone
  obtain ⟨pc, hpc, hin⟩ := canWrite_iff.mp ht
  have hlt : t < s.threads.length := ht.1
  have hsame := hone.writers t s.threads.length
    (canWrite_iff.mpr ⟨pc, by simp only [List.getElem?_append_left hlt, hpc], hin⟩)
    (canWrite_iff.mpr ⟨_, List.getElem?_concat_length, rfl⟩)
  omega

/-- A countdown that an older thread's late clear has ended, although it was neither
stopped nor complete: the next one writes in its place. -/
theorem foreign_digit {s : Display} {t n : Nat} (hflag : s.is_counting = false)
    (hstarting : s.starting = []) (hundoing : s.undoing = 0)
    (hpaired : s.countdowns.length = s.threads.length)
    (hothers : ∀ (u : Nat) (pc : CountingPc), u ≠ t → s.threads[u]? = some pc →
      pc.unfinished = false)
    (hpc : s.threads[t]? = some (.check n))
    (hc : s.countdowns[t]? = some ⟨n, .underWay, []⟩) :
    ∃ s', displayMachine.ReachesUnder (fun s a => s.startsAlone a = true) s s' ∧
      ¬ s'.DrivenByOne := by
  have hlt : t < s.threads.length := (List.getElem?_eq_some_iff.mp hpc).1
  -- the thread finds the flag clear and returns
  let s₁ : Display := { s with threads := s.threads.set t .done }
  have h₁ : displayMachine.step s (.thread t) = some s₁ := by
    simp [displayMachine, Display.step, Display.runThread, hpc, CountingPc.next, hflag, s₁]
  -- a countdown from 0 starts, alone
  have halone : s₁.startsAlone (.count 0) = true := by
    have hall : ∀ pc ∈ s₁.threads, pc.unfinished = false := by
      intro pc hmem
      obtain ⟨u, hu⟩ := List.mem_iff_getElem?.mp hmem
      rcases Population.getElem?_set_cases hu with ⟨-, rfl⟩ | ⟨hne, hold⟩
      · rfl
      · exact hothers u pc hne hold
    have hrest : s₁.threads.all (fun pc => !pc.unfinished) = true := by simpa using hall
    simp only [Display.startsAlone, hrest]
    simp [s₁, hstarting, hundoing]
  let s₂ : Display := { s₁ with is_counting := true, starting := [⟨0, .underWay, []⟩] }
  have h₂ : displayMachine.step s₁ (.count 0) = some s₂ := by
    rw [step_count (s := s₁) (Int.le_refl 0) (by decide) hflag]
    simp [s₂, s₁, hstarting]
  let s₃ : Display := { s₂ with
    starting := [], threads := s₁.threads ++ [.check 0]
    countdowns := s.countdowns ++ [⟨0, .underWay, []⟩] }
  have h₃ : displayMachine.step s₂ (.create 0 true) = some s₃ := @step_create s₂ _ [] rfl
  -- its thread writes its digit
  have hlen : s₁.threads.length = s.threads.length := List.length_set
  have hnew : s₃.threads[s.threads.length]? = some (.check 0) := by
    rw [← hlen]
    exact List.getElem?_concat_length
  let s₄ : Display := { s₃ with threads := s₃.threads.set s.threads.length (.output 0) }
  have h₄ : displayMachine.step s₃ (.thread s.threads.length) = some s₄ := by
    simp only [displayMachine, Display.step, Display.runThread, hnew, Option.bind_eq_bind,
      Option.bind_some]
    rfl
  have hnew' : s₄.threads[s.threads.length]? = some (.output 0) :=
    List.getElem?_set_self (List.getElem?_eq_some_iff.mp hnew).1
  have h₅ : displayMachine.step s₄ (.thread s.threads.length) =
      some (({ s₄ with threads := s₄.threads.set s.threads.length .finish } : Display).write
        (s.threads.length, 0)) := by
    simp only [displayMachine, Display.step, Display.runThread, hnew', Option.bind_eq_bind,
      Option.bind_some]
    rfl
  refine ⟨_, ((((reaches_alone rfl h₁).step halone h₂).step rfl h₃).step rfl
    h₄).step rfl h₅, ?_⟩
  intro hone
  have hshown : (({ s₄ with threads := s₄.threads.set s.threads.length .finish } : Display).write
      (s.threads.length, 0)).countdowns[t]? =
        some ⟨n, .underWay, [(s.threads.length, 0)]⟩ := by
    have hold : (s.countdowns ++ [⟨0, .underWay, []⟩])[t]? =
        some (⟨n, .underWay, []⟩ : Countdown) := by
      rw [List.getElem?_append_left (hpaired ▸ hlt), hc]
    show ((s.countdowns ++ [(⟨0, .underWay, []⟩ : Countdown)]).map fun c =>
      c.see (s.threads.length, 0))[t]? = _
    rw [List.getElem?_map, hold]
    rfl
  obtain ⟨k, -, hshows, -⟩ := hone.countdowns t _ hshown
  have hmem : (s.threads.length, 0) ∈ (countdown n k).map fun d => (t, d) := by
    rw [← hshows]
    exact List.mem_singleton_self _
  obtain ⟨d, -, hd⟩ := List.mem_map.mp hmem
  have heq : t = s.threads.length := congrArg Prod.fst hd
  omega

/-- A start past a thread or a call that has yet to clear the flag: the late clear
comes once the new thread exists. -/
theorem lost_of_late_clear {s s' : Display} {n : Nat} (h : Driven s) {late : DisplayAction}
    (hclear : (late = .undo ∧ s.undoing = 1) ∨
      ∃ u, late = .thread u ∧ s.threads[u]? = some .finish)
    (hs : s' = { s with is_counting := true, starting := [⟨n, .underWay, []⟩] }) :
    ∃ s'', displayMachine.ReachesUnder (fun s a => s.startsAlone a = true) s' s'' ∧
      ¬ s''.DrivenByOne := by
  subst hs
  have halone := h.alone
  let s₁ : Display := { s with
    is_counting := true
    starting := []
    threads := s.threads ++ [.check n]
    countdowns := s.countdowns ++ [⟨n, .underWay, []⟩] }
  have h₁ : displayMachine.step
      { s with is_counting := true, starting := [⟨n, .underWay, []⟩] } (.create 0 true) =
        some s₁ :=
    @step_create { s with is_counting := true, starting := [⟨n, .underWay, []⟩] } _ [] rfl
  have hcount : s₁.countdowns[s.threads.length]? = some ⟨n, .underWay, []⟩ := by
    rw [← h.paired]
    exact List.getElem?_concat_length
  have hnew : s₁.threads[s.threads.length]? = some (.check n) := List.getElem?_concat_length
  obtain ⟨rfl, hundoing⟩ | ⟨u, rfl, hu⟩ := hclear
  · let s₂ : Display := { s₁ with is_counting := false, undoing := 0 }
    have h₂ : displayMachine.step s₁ .undo = some s₂ := by
      simp [displayMachine, Display.step, s₁, s₂, hundoing]
    have hzero : s.threads.countP CountingPc.unfinished = 0 := by omega
    obtain ⟨s'', hrun, hnot⟩ := @foreign_digit s₂ s.threads.length n rfl rfl rfl
      (by simp [s₂, s₁, h.paired]) (by
        intro v pc hne hv
        have hold : s.threads[v]? = some pc := by
          rw [← hv]
          exact (List.getElem?_append_left (by
            have hlt := (List.getElem?_eq_some_iff.mp hv).1
            simp only [s₂, s₁, List.length_append, List.length_singleton] at hlt
            omega)).symm
        exact Population.not_of_countP_eq_zero hzero hold) hnew hcount
    exact ⟨s'', ((reaches_alone rfl h₁).step rfl h₂).trans hrun, hnot⟩
  · have hlt : u < s.threads.length := (List.getElem?_eq_some_iff.mp hu).1
    have hpos : 0 < s.threads.countP CountingPc.unfinished :=
      List.countP_pos_iff.mpr ⟨_, List.mem_of_getElem? hu, rfl⟩
    have hundoing : s.undoing = 0 := by omega
    let s₂ : Display := { s₁ with
      threads := s₁.threads.set u .callback
      is_counting := false
      countdowns := s₁.countdowns.modify u Countdown.complete }
    have h₂ : displayMachine.step s₁ (.thread u) = some s₂ := by
      have hu₁ : s₁.threads[u]? = some .finish := by
        rw [← hu]
        exact List.getElem?_append_left hlt
      simp only [displayMachine, Display.step, Display.runThread, hu₁, Option.bind_eq_bind,
        Option.bind_some]
      rfl
    obtain ⟨s'', hrun, hnot⟩ := @foreign_digit s₂ s.threads.length n rfl rfl hundoing
      (by simp [s₂, s₁, h.paired]) (by
        intro v pc hne hv
        rcases Population.getElem?_set_cases hv with ⟨-, rfl⟩ | ⟨hvu, hold⟩
        · rfl
        · have hlast : v < s.threads.length := by
            have hlt := (List.getElem?_eq_some_iff.mp hold).1
            simp only [s₁, List.length_append, List.length_singleton] at hlt
            omega
          have hpc : s.threads[v]? = some pc := by
            rw [← hold]
            exact (List.getElem?_append_left hlast).symm
          by_contra hun
          have hsame := Population.index_unique (p := CountingPc.unfinished) (by omega) hu rfl hpc
            (by simpa using hun)
          exact hvu hsame.symm)
      (by simp only [s₂, List.getElem?_set_ne (Nat.ne_of_lt hlt), hnew])
      (by simp [s₂, Nat.ne_of_lt hlt, hcount])
    exact ⟨s'', ((reaches_alone rfl h₁).step rfl h₂).trans hrun, hnot⟩

theorem lost_of_crowded_start {s s' : Display} {a : DisplayAction} (h : Driven s)
    (hs : displayMachine.step s a = some s') (hcrowd : s.startsAlone a = false) :
    ∃ s'', displayMachine.ReachesUnder (fun s a => s.startsAlone a = true) s' s'' ∧
      ¬ s''.DrivenByOne := by
  cases a with
  | create | undo | stop | thread => cases hcrowd
  | count start_seconds =>
      simp only [Display.startsAlone, Bool.or_eq_false_iff, decide_eq_false_iff_not] at hcrowd
      obtain ⟨⟨⟨hlow, hhigh⟩, hclear⟩, hcrowd⟩ := hcrowd
      rw [step_count (by omega) (by omega) hclear, Option.some.injEq] at hs
      subst hs
      cases hstarting : s.starting with
      | cons first rest =>
          -- two calls are about to create their threads
          have hfirst := @step_create { s with
            is_counting := true
            starting := s.starting ++ [⟨start_seconds.toNat, .underWay, []⟩] } first
              (rest ++ [⟨start_seconds.toNat, .underWay, []⟩]) (by simp [hstarting])
          rw [hstarting] at hfirst
          obtain ⟨second, others, hnext⟩ : ∃ second others,
              rest ++ [⟨start_seconds.toNat, .underWay, []⟩] = second :: others := by
            cases rest with
            | nil => exact ⟨_, _, rfl⟩
            | cons second others => exact ⟨_, _, rfl⟩
          have hwrites : Display.CanWrite { s with
              is_counting := true
              starting := rest ++ [⟨start_seconds.toNat, .underWay, []⟩]
              threads := s.threads ++ [.check first.start_seconds]
              countdowns := s.countdowns ++ [first] } s.threads.length :=
            canWrite_iff.mpr ⟨_, List.getElem?_concat_length, rfl⟩
          obtain ⟨s'', hrun, hnot⟩ := contended_of_starting hnext hwrites
          exact ⟨s'', (reaches_alone rfl hfirst).trans hrun, hnot⟩
      | nil =>
          by_cases hloop : ∃ pc ∈ s.threads, pc.inLoop = true
          · obtain ⟨pc, hmem, hin⟩ := hloop
            obtain ⟨t, ht⟩ := List.mem_iff_getElem?.mp hmem
            exact contended_of_starting rfl (canWrite_iff.mpr ⟨pc, ht, hin⟩)
          · by_cases hundoing : s.undoing = 0
            · obtain ⟨pc, hmem, hun⟩ : ∃ pc ∈ s.threads, pc.unfinished = true := by
                simpa [hstarting, hundoing] using hcrowd
              have hfinish : pc = .finish := by
                have hout : pc.inLoop = false := by
                  by_contra hin
                  exact hloop ⟨pc, hmem, by simpa using hin⟩
                simpa [CountingPc.unfinished, hout] using hun
              subst hfinish
              obtain ⟨u, hu⟩ := List.mem_iff_getElem?.mp hmem
              exact lost_of_late_clear h (Or.inr ⟨u, rfl, hu⟩) rfl
            · have halone := h.alone
              exact lost_of_late_clear h (Or.inl ⟨rfl, by omega⟩) rfl

/-! ## The result -/

/-- As long as every start is alone, one countdown at a time drives the display.
After a start that is not, it can fail to without another such start. -/
theorem one_countdown_drives_display {s : Display}
    (h : displayMachine.ReachableUnder (fun s a => s.startsAlone a = true) s) :
    s.DrivenByOne ∧
      ∀ a s', displayMachine.step s a = some s' → s.startsAlone a = false →
        ∃ s'', displayMachine.ReachesUnder (fun s a => s.startsAlone a = true) s' s'' ∧
          ¬ s''.DrivenByOne :=
  ⟨(driven_of_reachable h).drivenByOne,
    fun _ _ hs hcrowd => lost_of_crowded_start (driven_of_reachable h) hs hcrowd⟩

/-- A countdown runs to its end, the next one starts and is stopped. -/
theorem two_countdowns_in_turn :
    ∃ s, displayMachine.Reachable s ∧
      s.countdowns = [⟨1, .complete, [(0, 1), (0, 0)]⟩, ⟨2, .stopped, [(1, 2)]⟩] ∧
      s.DrivenByOne := by
  have hrun : ((displayMachine.execUnder Display.startsAlone displayMachine.start
      ([DisplayAction.count 1, .create 0 true] ++ List.replicate 6 (DisplayAction.thread 0) ++
        [DisplayAction.count 2, .create 0 true, .thread 1, .thread 1, .stop])).any fun s =>
        s.countdowns = [⟨1, .complete, [(0, 1), (0, 0)]⟩, ⟨2, .stopped, [(1, 2)]⟩]) = true := by
    decide +kernel
  obtain ⟨s, hreach, hfacts⟩ := Machine.ReachableUnder.exists_of_exec hrun
  exact ⟨s, hreach.reachable, of_decide_eq_true hfacts, (one_countdown_drives_display hreach).1⟩

/-- A countdown from 5 is stopped and one from 9 started while the first thread
sleeps: both go on. -/
theorem two_countdowns_drive_display :
    ∃ s, displayMachine.Reachable s ∧ s.written = [(0, 5), (1, 9), (0, 4), (1, 8)] ∧
      ¬ s.DrivenByOne := by
  have hrun : ((displayMachine.exec displayMachine.start
      ([.count 5, .create 0 true, .thread 0, .thread 0, .stop, .count 9, .create 0 true,
        .thread 1, .thread 1, .thread 0, .thread 0, .thread 0, .thread 1, .thread 1,
        .thread 1])).any fun s =>
        s.written = [(0, 5), (1, 9), (0, 4), (1, 8)] ∧
          s.countdowns[1]? = some ⟨9, .underWay, [(1, 9), (0, 4), (1, 8)]⟩) = true := by
    decide +kernel
  obtain ⟨s, hreach, hfacts⟩ := Machine.Reachable.exists_of_exec hrun
  obtain ⟨hwritten, hshown⟩ := of_decide_eq_true hfacts
  refine ⟨s, hreach, hwritten, ?_⟩
  intro hone
  obtain ⟨k, -, hshows, -⟩ := hone.countdowns 1 _ hshown
  have hmem : (0, 4) ∈ (countdown 9 k).map fun d => (1, d) := by
    rw [← hshows]
    decide
  simp at hmem

end RsvpControl.Segment
