import RsvpControl.Core.Population
import RsvpControl.Rig.Threads

/-! # Digits on the display

A digit is four pin writes, and nothing keeps another counting thread from writing in
between. When every countdown is started with no other thread in its loop, the display
shows whole digits: the one a thread sleeps on, and while the next is written, its pins up
to there and the rest of the one before.
-/

namespace RsvpControl.Rig

open RsvpControl.Core Server Device

/-! ## Levels -/

def levels (digit : Nat) : List Int := (BCD_VALUES[digit]?).getD []

theorem levels_length {digit : Nat} (h : digit ≤ 9) : (levels digit).length = 4 := by
  have hall : ∀ d < 10, (levels d).length = 4 := by decide
  exact hall digit (by omega)

theorem levels_eq {digit : Nat} (h : digit ≤ 9) : BCD_VALUES[digit]? = some (levels digit) := by
  have hlt : digit < BCD_VALUES.length := Nat.lt_succ_of_le h
  rw [levels, List.getElem?_eq_getElem hlt, Option.getD_some]

theorem set_take_drop {α : Type} {row old : List α} {k : Nat} (hk : k < row.length)
    (hlength : old.length = row.length) :
    (row.take k ++ old.drop k).set k row[k] = row.take (k + 1) ++ old.drop (k + 1) := by
  have htake : (row.take k).length = k := by
    rw [List.length_take]
    omega
  rw [List.set_append_right _ _ (by omega), htake, Nat.sub_self,
    List.drop_eq_getElem_cons (by omega : k < old.length), List.set_cons_zero,
    List.take_succ_eq_append_getElem hk, List.append_assoc]
  rfl

def Whole (display : Option (List Int)) : Prop := ∃ n ≤ 9, display = some (levels n)

/-! ## The invariant -/

def CounterPc.inLoop : CounterPc → Bool
  | .check _ => true
  | .output _ _ => true
  | .sleeping _ => true
  | _ => false

/-- What a counting thread leaves on the display. -/
def CounterPc.Shows (display : Option (List Int)) : CounterPc → Prop
  | .check i => i ≤ 9 ∧ Whole display
  | .output i pin =>
      i ≤ 9 ∧ pin ≤ 3 ∧ ∃ n ≤ 9, display = some ((levels i).take pin ++ (levels n).drop pin)
  | .sleeping i => 0 < i ∧ i ≤ 9 ∧ display = some (levels i)
  | _ => True

/-- A thread is created only when no other is in its loop. -/
def State.startsAlone (s : State) : Action → Bool
  | .device mallocOk createOk =>
      match s.handler with
      | some (_, .countingCreate) =>
          !(mallocOk && createOk) || s.counters.all fun pc => !pc.inLoop
      | _ => true
  | _ => true

structure Shown (s : State) : Prop where
  alone : s.counters.countP CounterPc.inLoop ≤ 1
  shows : ∀ pc ∈ s.counters, pc.Shows s.devices.seg7.display
  rest : (∀ pc ∈ s.counters, pc.inLoop = false) → Whole s.devices.seg7.display
  asked : ∀ cmd pc, s.handler = some (cmd, pc) → pc = .countingTest ∨ pc = .countingCreate →
    0 ≤ cmd.param1 ∧ cmd.param1 ≤ 9

theorem shown_init : Shown rigMachine.start where
  alone := Nat.zero_le 1
  shows pc hpc := by cases hpc
  rest _ := ⟨0, by omega, rfl⟩
  asked cmd pc h := by cases h

theorem shows_of_not_inLoop {pc : CounterPc} (h : pc.inLoop = false)
    (display : Option (List Int)) : pc.Shows display := by
  cases pc <;> first | exact trivial | cases h

theorem CounterPc.Shows.whole {display : Option (List Int)} {pc : CounterPc}
    (h : pc.Shows display) (hin : pc.inLoop = true)
    (hout : ∀ i pin, pc ≠ .output i pin) : Whole display := by
  cases pc with
  | check i => exact h.2
  | output i pin => exact absurd rfl (hout i pin)
  | sleeping i => exact ⟨i, h.2.1, h.2.2⟩
  | _ => cases hin

section Steps

variable {s s' : State}

theorem Shown.of_frame (h : Shown s) (hdisplay : s'.devices.seg7.display = s.devices.seg7.display)
    (hcounters : s'.counters = s.counters)
    (hasked : ∀ cmd pc, s'.handler = some (cmd, pc) → pc = .countingTest ∨ pc = .countingCreate →
      0 ≤ cmd.param1 ∧ cmd.param1 ≤ 9) : Shown s' where
  alone := by rw [hcounters]; exact h.alone
  shows := by rw [hcounters, hdisplay]; exact h.shows
  rest := by rw [hcounters, hdisplay]; exact h.rest
  asked := hasked

theorem Shown.stepDevice (h : Shown s) {mallocOk createOk : Bool}
    (halone : s.startsAlone (.device mallocOk createOk) = true)
    (hs : s.stepDevice mallocOk createOk = some s') : Shown s' := by
  obtain ⟨cmd, pc, hpc, hdevices, -, hcounters, hcase⟩ := stepDevice_spec hs
  obtain ⟨hdisplay, hcreated⟩ := perform_seg7 cmd mallocOk createOk s.devices pc
  rw [← hdevices] at hdisplay hcreated
  have hasked : ∀ cmd' pc', s'.handler = some (cmd', pc') →
      pc' = .countingTest ∨ pc' = .countingCreate → 0 ≤ cmd'.param1 ∧ cmd'.param1 ≤ 9 := by
    intro cmd' pc' hhandler hpc'
    rcases hcase with ⟨next, hout, hnext, -⟩ | ⟨response, -, hnone, -⟩
    · rw [hnext] at hhandler
      cases hhandler
      rcases perform_counting cmd mallocOk createOk s.devices hout hpc' with htest | hdigit
      · exact h.asked cmd pc hpc (.inl htest)
      · exact hdigit
    · rw [hnone] at hhandler
      cases hhandler
  rcases hcreated with hsame | ⟨hcreate, rfl, rfl, hone⟩
  · refine h.of_frame hdisplay ?_ hasked
    rw [hcounters]
    simp only [State.follow, hsame, List.drop_length, List.map_nil, List.append_nil]
  · subst hcreate
    have hdigit := h.asked cmd .countingCreate hpc (.inr rfl)
    have hidle : ∀ pc ∈ s.counters, pc.inLoop = false := by
      simpa [State.startsAlone, hpc] using halone
    have hnew : s'.counters = s.counters ++ [.check cmd.param1.toNat] := by
      rw [hcounters]
      simp only [State.follow, hone, List.drop_left]
      rfl
    have hwhole := h.rest hidle
    refine ⟨?_, ?_, ?_, hasked⟩
    · have hnone : s.counters.countP CounterPc.inLoop = 0 :=
        List.countP_eq_zero.mpr fun pc hpc => by simp [hidle pc hpc]
      rw [hnew, List.countP_append, hnone]
      exact Nat.le_refl 1
    · rw [hnew, hdisplay]
      intro pc hpc
      rcases List.mem_append.mp hpc with hpc | hpc
      · exact h.shows pc hpc
      · rw [List.mem_singleton] at hpc
        subst hpc
        exact ⟨by omega, hwhole⟩
    · rw [hdisplay]
      exact fun _ => hwhole

/-- What a step of a counting thread leaves on the display. -/
theorem CounterPc.Shows.next {devices : DeviceState} {pc pc' : CounterPc}
    (h : pc.Shows devices.seg7.display) (hnext : pc.next devices.seg7.is_counting = some pc')
    (mallocOk createOk : Bool) :
    pc'.Shows (pc.change mallocOk createOk devices).seg7.display ∧
      (pc.inLoop = true → pc'.inLoop = false →
        Whole (pc.change mallocOk createOk devices).seg7.display) := by
  cases pc with
  | check i =>
      cases hcounting : devices.seg7.is_counting with
      | false =>
          rw [hcounting] at hnext
          cases hnext
          exact ⟨trivial, fun _ _ => h.2⟩
      | true =>
          rw [hcounting] at hnext
          cases hnext
          obtain ⟨hi, n, hn, hdisplay⟩ := h
          exact ⟨⟨hi, by omega, n, hn, hdisplay⟩, (fun _ hout => by cases hout)⟩
  | output i pin =>
      obtain ⟨hi, hpin, n, hn, hdisplay⟩ := h
      have hlength := levels_length hi
      have hwritten : ((CounterPc.output i pin).change mallocOk createOk devices).seg7.display =
          some ((levels i).take (pin + 1) ++ (levels n).drop (pin + 1)) := by
        have hlt : pin < (levels i).length := by omega
        have hrow : (BCD_VALUES[i]?).bind (fun row => row[pin]?) = some (levels i)[pin] := by
          rw [levels_eq hi, Option.bind_some, List.getElem?_eq_getElem hlt]
        simp only [CounterPc.change, hrow, digitalWrite, hdisplay, Option.map_some]
        rw [set_take_drop hlt (by rw [levels_length hn, hlength])]
      rw [hwritten]
      simp only [CounterPc.next] at hnext
      split at hnext
      · next hmore =>
          cases hnext
          exact ⟨⟨hi, by omega, n, hn, rfl⟩, (fun _ hout => by cases hout)⟩
      · next hlast =>
          -- the fourth pin completes the digit
          have hfour : pin = 3 := by omega
          have hshown : (levels i).take (pin + 1) ++ (levels n).drop (pin + 1) = levels i := by
            rw [hfour, List.take_of_length_le (by omega),
              List.drop_of_length_le (by rw [levels_length hn]), List.append_nil]
          rw [hshown]
          by_cases hpos : 0 < i
          · rw [if_pos hpos] at hnext
            cases hnext
            exact ⟨⟨hpos, hi, rfl⟩, (fun _ hout => by cases hout)⟩
          · rw [if_neg hpos] at hnext
            cases hnext
            exact ⟨trivial, fun _ _ => ⟨i, hi, rfl⟩⟩
  | sleeping i =>
      cases hnext
      obtain ⟨hpos, hi, hdisplay⟩ := h
      exact ⟨⟨by omega, i, hi, hdisplay⟩, (fun _ hout => by cases hout)⟩
  | done => cases hnext
  | _ =>
      cases hnext
      exact ⟨trivial, (fun hin _ => by cases hin)⟩

theorem change_display {pc : CounterPc} (mallocOk createOk : Bool) (devices : DeviceState)
    (hout : pc.inLoop = false) :
    (pc.change mallocOk createOk devices).seg7.display = devices.seg7.display := by
  cases pc with
  | check i | output i pin | sleeping i => cases hout
  | _ => rfl

theorem inLoop_next {is_counting : Bool} {pc pc' : CounterPc}
    (h : pc.next is_counting = some pc') (hout : pc.inLoop = false) : pc'.inLoop = false := by
  cases pc with
  | check i | output i pin | sleeping i => cases hout
  | done => cases h
  | _ =>
      cases h
      rfl

theorem Shown.stepCounter (h : Shown s) {t : Nat} {mallocOk createOk : Bool}
    (hs : s.stepCounter t mallocOk createOk = some s') : Shown s' := by
  obtain ⟨pc, pc', hpc, hnext, rfl⟩ := stepCounter_spec hs
  have hmem : pc ∈ s.counters := List.mem_of_getElem? hpc
  have hset := Population.countP_set_getElem? pc' hpc (p := CounterPc.inLoop)
  have halone := h.alone
  have hcounters : (({ s with counters := s.counters.set t pc' } : State).follow
      (pc.change mallocOk createOk s.devices)).counters = s.counters.set t pc' := by
    simp only [State.follow, (change_seg7 mallocOk createOk s.devices pc).1, List.drop_length,
      List.map_nil, List.append_nil]
  obtain ⟨hshows, hleft⟩ := (h.shows pc hmem).next hnext mallocOk createOk
  refine ⟨?_, ?_, ?_, h.asked⟩
  · rw [hcounters]
    cases hin : pc.inLoop with
    | true =>
        rw [hin, if_pos rfl] at hset
        split at hset <;> omega
    | false =>
        rw [hin, inLoop_next hnext hin] at hset
        simp only [Bool.false_eq_true, if_false] at hset
        omega
  · rw [hcounters]
    intro q hq
    obtain ⟨j, hj⟩ := List.mem_iff_getElem?.mp hq
    rcases Population.getElem?_set_cases hj with ⟨-, rfl⟩ | ⟨hne, hold⟩
    · exact hshows
    · cases hin : pc.inLoop with
      | true =>
          have hout : q.inLoop = false := by
            by_contra hq
            exact hne (Population.index_unique halone hold (by simpa using hq) hpc hin)
          exact shows_of_not_inLoop hout _
      | false =>
          have hdisplay := change_display mallocOk createOk s.devices hin
          show q.Shows (pc.change mallocOk createOk s.devices).seg7.display
          rw [hdisplay]
          exact h.shows q (List.mem_of_getElem? hold)
  · rw [hcounters]
    intro hidle
    have hlt : t < s.counters.length := (List.getElem?_eq_some_iff.mp hpc).1
    have hout' : pc'.inLoop = false := hidle pc' (List.mem_set hlt pc')
    cases hin : pc.inLoop with
    | true => exact hleft hin hout'
    | false =>
        show Whole (pc.change mallocOk createOk s.devices).seg7.display
        rw [change_display mallocOk createOk s.devices hin]
        refine h.rest fun q hq => ?_
        obtain ⟨j, hj⟩ := List.mem_iff_getElem?.mp hq
        by_cases hjt : j = t
        · subst hjt
          rw [hpc] at hj
          cases hj
          exact hin
        · refine hidle q (List.mem_of_getElem? (i := j) ?_)
          rw [List.getElem?_set_ne (Ne.symm hjt), hj]

theorem Shown.step (h : Shown s) {a : Action} (halone : s.startsAlone a = true)
    (hs : s.step a = some s') : Shown s' := by
  cases a with
  | take cmd =>
      simp only [State.step] at hs
      split at hs
      · cases hs
        refine h.of_frame rfl rfl fun cmd' pc hpc hcounting => ?_
        cases hpc
        rcases hcounting with heq | heq <;> cases heq
      · cases hs
  | device mallocOk createOk => exact h.stepDevice halone hs
  | sense level =>
      have hseg7 := (handleSensorMonitoring_frame level s.devices).2.1
      simp only [State.step] at hs
      split at hs
      · cases hs
        exact h.of_frame (congrArg Seg7.display hseg7) rfl h.asked
      · cases hs
  | player i =>
      simp only [State.step, State.stepPlayer, Option.bind_eq_bind, Option.bind_eq_some_iff] at hs
      obtain ⟨p, -, r, -, hs⟩ := hs
      cases hs
      exact h.of_frame rfl rfl h.asked
  | counter i mallocOk createOk => exact h.stepCounter hs

end Steps

theorem shown_of_reachable {s : State}
    (h : rigMachine.ReachableUnder (fun s a => s.startsAlone a = true) s) : Shown s :=
  Machine.ReachableUnder.invariant shown_init (fun _ _ _ _ hi ha hs => hi.step ha hs) h

/-! ## The result -/

/-- As long as every countdown is started with no other thread in its loop: a thread that
sleeps on a digit is the only one in its loop and its digit is displayed; while a thread
writes one, the pins it has written are those of its digit and the others those of the
digit before; and otherwise a whole digit is displayed. -/
theorem digits_are_whole {s : State}
    (h : rigMachine.ReachableUnder (fun s a => s.startsAlone a = true) s) :
    s.counters.countP CounterPc.inLoop ≤ 1 ∧
      (∀ i, .sleeping i ∈ s.counters → s.devices.seg7.display = some (levels i)) ∧
      (∀ i pin, .output i pin ∈ s.counters → pin ≤ 3 ∧ ∃ n ≤ 9,
        s.devices.seg7.display = some ((levels i).take pin ++ (levels n).drop pin)) ∧
      ((∀ i pin, .output i pin ∉ s.counters) → Whole s.devices.seg7.display) := by
  have hshown := shown_of_reachable h
  refine ⟨hshown.alone, fun i hi => (hshown.shows _ hi).2.2, fun i pin hi => ?_, fun hout => ?_⟩
  · exact (hshown.shows _ hi).2
  · by_cases hidle : ∀ pc ∈ s.counters, pc.inLoop = false
    · exact hshown.rest hidle
    · obtain ⟨pc, hpc, hin⟩ : ∃ pc ∈ s.counters, pc.inLoop = true := by simpa using hidle
      exact (hshown.shows pc hpc).whole hin fun i pin heq => hout i pin (heq ▸ hpc)

/-- A countdown from 8, half over its 7. -/
theorem seven_half_written :
    ∃ s, rigMachine.Reachable s ∧ s.counters = [.output 7 2] ∧
      s.devices.seg7.display = some [1, 1, 0, 1] ∧
      ∃ n ≤ 9, s.devices.seg7.display = some ((levels 7).take 2 ++ (levels n).drop 2) := by
  have hrun : (rigMachine.execUnder State.startsAlone rigMachine.start
      (.take ⟨.segmentDisplay, 8, 0⟩ :: List.replicate 3 (.device true true) ++
        List.replicate 9 (.counter 0 true true))).any (fun s =>
          decide (s.counters = [.output 7 2] ∧
            s.devices.seg7.display = some [1, 1, 0, 1])) = true := by
    decide +kernel
  obtain ⟨s, hreach, hfacts⟩ := Machine.ReachableUnder.exists_of_exec hrun
  obtain ⟨hcounters, hdisplay⟩ := of_decide_eq_true hfacts
  obtain ⟨-, -, hwriting, -⟩ := digits_are_whole hreach
  have hhalf := hwriting 7 2 (by rw [hcounters]; exact List.mem_singleton.mpr rfl)
  exact ⟨s, hreach.reachable, hcounters, hdisplay, hhalf.2⟩

/-- A countdown from 8 is stopped while it writes that digit and one from 7 started: the
pins of both stay, and they are no digit. -/
theorem torn_digit :
    ∃ s, rigMachine.Reachable s ∧ (∀ i pin, .output i pin ∉ s.counters) ∧
      ¬ Whole s.devices.seg7.display := by
  have hrun : (rigMachine.exec rigMachine.start
      (.take ⟨.segmentDisplay, 8, 0⟩ :: List.replicate 3 (.device true true) ++
        List.replicate 3 (.counter 0 true true) ++
        (.take ⟨.segmentStop, 0, 0⟩ :: List.replicate 3 (.device true true)) ++
        (.take ⟨.segmentDisplay, 7, 0⟩ :: List.replicate 3 (.device true true)) ++
        List.replicate 5 (.counter 1 true true) ++
        List.replicate 2 (.counter 0 true true))).any (fun s =>
          decide (s.counters = [.sleeping 8, .sleeping 7] ∧
            s.devices.seg7.display = some [1, 1, 0, 1])) = true := by
    decide +kernel
  obtain ⟨s, hreach, hfacts⟩ := Machine.Reachable.exists_of_exec hrun
  obtain ⟨hcounters, hdisplay⟩ := of_decide_eq_true hfacts
  refine ⟨s, hreach, by simp [hcounters], ?_⟩
  rintro ⟨n, hn, hwhole⟩
  have hno : ∀ n < 10, some [1, 1, 0, 1] ≠ some (levels n) := by decide
  exact hno n (by omega) (hdisplay ▸ hwhole)

end RsvpControl.Rig
