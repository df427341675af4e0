import RsvpControl.Segment.Mirror

/-! # What keeps a flag set

A countdown flag that is set has someone who will clear it, also in the runs in which
the two flags come apart: `is_counting` the thread created last, or the handler that is
creating one; `segment_counting` a running countdown, a callback on its way to clearing
it, or the handler that will.
-/

namespace RsvpControl.Segment

open RsvpControl.Core

def CountingPc.counting : CountingPc → Bool
  | .check _ | .output _ | .sleeping _ | .finish => true
  | _ => false

/-- `is_counting` set, and no thread for it yet. -/
def DevicePc.creating : DevicePc → Bool
  | .countingCreate _ | .countingUndo => true
  | _ => false

/-- About to set `is_counting`, or to clear `segment_counting`. -/
def DevicePc.deciding : DevicePc → Bool
  | .countingTest _ | .countingUndo | .displayUndo | .stopSleep | .stopAnswer => true
  | _ => false

structure Backed (s : State) : Prop where
  is_counting : s.is_counting = true →
    s.threads.getLast?.any CountingPc.counting = true ∨ s.device.creating = true
  segment_counting : s.segment_counting = true →
    s.is_counting = true ∨ (∃ pc ∈ s.threads, pc.halfCleared = true) ∨ s.device.deciding = true

theorem backed_init : Backed init where
  is_counting h := by cases h
  segment_counting h := by cases h

section Steps

variable {s s' : State}

theorem counting_next {pc pc' : CountingPc} (hcounting : pc.counting = true)
    (hfinish : pc ≠ .finish) (h : pc.next true = some pc') : pc'.counting = true := by
  cases pc with
  | check i | sleeping i =>
      cases h
      rfl
  | output i =>
      cases h
      split <;> rfl
  | finish => exact absurd rfl hfinish
  | callback | clearing | playing | done => cases hcounting

theorem Backed.runThread {t : Nat} (h : Backed s) (hs : s.runThread t = some s') : Backed s' := by
  obtain ⟨pc, pc', hpc, hnext, hthreads, hcount, hseg, -, hdevice, -⟩ := runThread_spec hs
  have hlt : t < s.threads.length := (List.getElem?_eq_some_iff.mp hpc).1
  constructor
  · intro hon
    have hfinish : pc ≠ .finish := by
      intro heq
      rw [hcount, if_pos heq] at hon
      cases hon
    rw [hcount, if_neg hfinish] at hon
    rw [hdevice]
    refine (h.is_counting hon).imp_left fun hlast => ?_
    rw [hthreads, List.getLast?_eq_getElem?, List.length_set]
    rw [List.getLast?_eq_getElem?] at hlast
    by_cases ht : t = s.threads.length - 1
    · rw [← ht, hpc] at hlast
      rw [← ht, List.getElem?_set_self hlt]
      rw [hon] at hnext
      exact counting_next hlast hfinish hnext
    · rw [List.getElem?_set_ne ht]
      exact hlast
  · intro hon
    have hclear : pc ≠ .clearing := by
      intro heq
      rw [hseg, if_pos heq] at hon
      cases hon
    rw [hseg, if_neg hclear] at hon
    have hhalf := next_halfCleared hnext
    have hself : pc' ∈ s'.threads := by
      rw [hthreads]
      exact List.mem_set hlt pc'
    rw [hdevice]
    by_cases hmine : pc = .finish ∨ pc = .callback
    · exact .inr (.inl ⟨pc', hself, hhalf.mpr hmine⟩)
    · rw [hcount, if_neg fun heq => hmine (.inl heq)]
      refine (h.segment_counting hon).imp_right (Or.imp_left ?_)
      rintro ⟨other, hother, hhalved⟩
      refine ⟨other, ?_, hhalved⟩
      have hne : other ≠ pc := by
        rintro rfl
        cases other <;> simp_all [CountingPc.halfCleared]
      obtain ⟨u, hu⟩ := List.mem_iff_getElem?.mp hother
      have htu : t ≠ u := by
        rintro rfl
        rw [hpc, Option.some.injEq] at hu
        exact hne hu.symm
      rw [hthreads]
      exact List.mem_of_getElem? ((List.getElem?_set_ne htu).trans hu)

theorem Backed.last (h : Backed s) (hcreating : s.device.creating = false)
    (hon : s.is_counting = true) : s.threads.getLast?.any CountingPc.counting = true := by
  rcases h.is_counting hon with hlast | hcreate
  · exact hlast
  · rw [hcreating] at hcreate
    cases hcreate

theorem Backed.move (h : Backed s) {pc : DevicePc} (hcreating : s.device.creating = false)
    (hdeciding : s.device.deciding = true → pc.deciding = true) :
    Backed { s with device := pc } where
  is_counting hon := .inl (h.last hcreating hon)
  segment_counting hon := (h.segment_counting hon).imp_right (Or.imp_right hdeciding)

theorem Backed.runDevice {created : Bool} (h : Backed s) (hs : s.runDevice created = some s') :
    Backed s' := by
  unfold State.runDevice at hs
  cases hdevice : s.device with
  | idle => simp [hdevice] at hs
  | displayTest start_seconds =>
      simp only [hdevice] at hs
      split at hs <;> cases hs
      · exact h.move (by rw [hdevice]; rfl) (by rw [hdevice]; simp [DevicePc.deciding])
      · exact ⟨fun hon => .inl (h.last (by rw [hdevice]; rfl) hon), fun _ => .inr (.inr rfl)⟩
  | countingTest start_seconds =>
      simp only [hdevice] at hs
      repeat' split at hs
      all_goals cases hs
      · exact h.move (by rw [hdevice]; rfl) fun _ => rfl
      · exact h.move (by rw [hdevice]; rfl) fun _ => rfl
      · exact ⟨fun _ => .inr rfl, fun _ => .inl rfl⟩
  | countingCreate start_seconds =>
      simp only [hdevice] at hs
      split at hs <;> cases hs
      · refine ⟨fun _ => .inl ?_, fun hon => ?_⟩
        · rw [List.getLast?_concat]
          rfl
        · refine (h.segment_counting hon).imp_right fun hrest => ?_
          rcases hrest with ⟨pc, hpc, hhalf⟩ | hdeciding
          · exact .inl ⟨pc, List.mem_append_left _ hpc, hhalf⟩
          · rw [hdevice] at hdeciding
            cases hdeciding
      · exact ⟨fun _ => .inr rfl, fun _ => .inr (.inr rfl)⟩
  | countingUndo =>
      simp only [hdevice, Option.some.injEq] at hs
      subst hs
      exact ⟨fun hon => Bool.noConfusion hon, fun _ => .inr (.inr rfl)⟩
  | displayUndo | stopAnswer =>
      simp only [hdevice, Option.some.injEq] at hs
      subst hs
      exact ⟨fun hon => .inl (h.last (by rw [hdevice]; rfl) hon), fun hon => Bool.noConfusion hon⟩
  | stopRead =>
      simp only [hdevice] at hs
      split at hs <;> cases hs
      · exact h.move (by rw [hdevice]; rfl) (by rw [hdevice]; simp [DevicePc.deciding])
      · exact h.move (by rw [hdevice]; rfl) (by rw [hdevice]; simp [DevicePc.deciding])
  | stopClear =>
      simp only [hdevice] at hs
      split at hs <;> cases hs
      · exact ⟨fun hon => Bool.noConfusion hon, fun _ => .inr (.inr rfl)⟩
      · exact h.move (by rw [hdevice]; rfl) fun _ => rfl
  | stopSleep =>
      simp only [hdevice, Option.some.injEq] at hs
      subst hs
      exact h.move (by rw [hdevice]; rfl) fun _ => rfl

theorem Backed.step {a : Action} (h : Backed s) (hs : s.step a = some s') : Backed s' := by
  cases a with
  | display param1 =>
      simp only [State.step] at hs
      split at hs
      · next hidle =>
          split at hs <;> cases hs
          · exact h
          · exact h.move (by rw [hidle]; rfl) (by rw [hidle]; simp [DevicePc.deciding])
      · cases hs
  | stop =>
      simp only [State.step] at hs
      split at hs
      · next hidle =>
          cases hs
          exact h.move (by rw [hidle]; rfl) (by rw [hidle]; simp [DevicePc.deciding])
      · cases hs
  | device created => exact h.runDevice hs
  | thread t => exact h.runThread hs

end Steps

theorem backed_of_reachable {s : State} (h : countdownMachine.Reachable s) : Backed s :=
  h.invariant backed_init fun _ _ _ hbacked hs => hbacked.step hs

/-- With the device thread in no handler and every counting thread done both flags are
clear. -/
theorem Backed.clear {s : State} (h : Backed s) (hidle : s.device = .idle)
    (hdone : ∀ pc ∈ s.threads, pc = .done) : s.is_counting = false ∧ s.segment_counting = false := by
  have hcount : s.is_counting = false := by
    rw [Bool.eq_false_iff]
    intro hon
    have hlast := h.last (by rw [hidle]; rfl) hon
    obtain ⟨pc, hpc, hcounting⟩ := (Option.any_eq_true _ _).mp hlast
    rw [hdone pc (List.mem_of_getLast? hpc)] at hcounting
    cases hcounting
  refine ⟨hcount, ?_⟩
  rw [Bool.eq_false_iff]
  intro hon
  rcases h.segment_counting hon with hcounting | ⟨pc, hpc, hhalf⟩ | hdeciding
  · rw [hcount] at hcounting
    cases hcounting
  · rw [hdone pc hpc] at hhalf
    cases hhalf
  · rw [hidle] at hdeciding
    cases hdeciding

end RsvpControl.Segment
