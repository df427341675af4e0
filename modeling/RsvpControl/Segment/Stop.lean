import RsvpControl.Segment.Countdown

/-! # Stopped countdowns

A stop clears `is_counting` and relies on the counting thread to see it at its
next test. The thread misses the stop in two ways: it is already past its last
test, or a new countdown sets the shared flag again before the old thread's
next test. Without these two the stopped thread stays harmless.
-/

namespace RsvpControl.Segment

open RsvpControl.Core

/-! ## Classes of program points -/

def CountingPc.ended : CountingPc → Bool
  | .clearing => true
  | .playing => true
  | .done => true
  | _ => false

/-- Past the last test of `is_counting`, with the callback still to come. -/
def CountingPc.committed : CountingPc → Bool
  | .output 0 => true
  | .finish => true
  | .callback => true
  | _ => false

/-- The thread cannot start its callback unless `is_counting` is set again. -/
def CountingPc.harmless (is_counting : Bool) (pc : CountingPc) : Bool :=
  pc.ended || (!is_counting && !pc.committed)

theorem harmless_of_ended {is_counting : Bool} {pc : CountingPc} (h : pc.ended = true) :
    pc.harmless is_counting = true := by
  rw [CountingPc.harmless, h, Bool.true_or]

theorem harmless_false {is_counting : Bool} {pc : CountingPc}
    (h : pc.harmless is_counting = true) : pc.harmless false = true := by
  cases is_counting with
  | false => exact h
  | true =>
      apply harmless_of_ended
      simpa [CountingPc.harmless] using h

theorem not_callback_of_harmless {is_counting : Bool} {pc : CountingPc}
    (h : pc.harmless is_counting = true) : pc ≠ .callback := by
  rintro rfl
  simp [CountingPc.harmless, CountingPc.ended, CountingPc.committed] at h

theorem harmless_next {is_counting : Bool} {pc pc' : CountingPc}
    (h : pc.harmless is_counting = true) (hnext : pc.next is_counting = some pc') :
    pc'.harmless is_counting = true := by
  cases is_counting with
  | true =>
      have hended : pc.ended = true := by simpa [CountingPc.harmless] using h
      cases pc with
      | clearing | playing =>
          cases hnext
          rfl
      | _ => cases hended <;> cases hnext
  | false =>
      cases pc with
      | output i =>
          cases i with
          | zero => cases h
          | succ i =>
              cases hnext
              rfl
      | finish | callback => cases h
      | check i | sleeping i | clearing | playing =>
          cases hnext
          rfl
      | done => cases hnext

/-! ## The condition -/

/-- A stop is answered only when the countdown it stops is not past its last
test, and `is_counting` is set again only when every stopped countdown has ended. -/
def State.stopsTimely (s : State) : Action → Bool
  | .device _ =>
      match s.device with
      | .countingTest start_seconds =>
          start_seconds < 0 || start_seconds > 9 || s.is_counting ||
            s.stopped.all fun t => (s.threads[t]?).all CountingPc.ended
      | .stopAnswer => s.latest.all fun t => (s.threads[t]?).all fun pc => !pc.committed
      | _ => true
  | _ => true

def DevicePc.stopping : DevicePc → Bool
  | .stopSleep => true
  | .stopAnswer => true
  | _ => false

/-! ## The invariant -/

structure Halted (s : State) : Prop where
  harmless : ∀ t ∈ s.stopped, ∃ pc : CountingPc,
    s.threads[t]? = some pc ∧ pc.harmless s.is_counting = true
  stopping : s.device.stopping = true → s.is_counting = false

theorem halted_init : Halted init where
  harmless t ht := by cases ht
  stopping h := by cases h

theorem Halted.runThread {s s' : State} {t : Nat} (h : Halted s) (hs : s.runThread t = some s') :
    Halted s' := by
  rcases runThread_spec hs with
    ⟨pc, pc', hpc, hnext, hthreads, hcount, _, _, hdevice, hstopped⟩
  have hlt : t < s.threads.length := (List.getElem?_eq_some_iff.mp hpc).1
  constructor
  · rw [hstopped]
    intro u hu
    obtain ⟨pcu, hpcu, hharm⟩ := h.harmless u hu
    have hfin : ∀ {pcv : CountingPc}, pcv.harmless s.is_counting = true →
        pcv.harmless s'.is_counting = true := by
      intro pcv hpcv
      rw [hcount]
      split
      · exact harmless_false hpcv
      · exact hpcv
    by_cases htu : t = u
    · subst htu
      rw [hpc, Option.some.injEq] at hpcu
      subst hpcu
      refine ⟨pc', ?_, hfin (harmless_next hharm hnext)⟩
      rw [hthreads, List.getElem?_set_self hlt]
    · refine ⟨pcu, ?_, hfin hharm⟩
      rw [hthreads, List.getElem?_set_ne htu]
      exact hpcu
  · rw [hdevice, hcount]
    intro hstop
    rw [h.stopping hstop]
    simp

theorem latest_mem {s : State} {t : Nat} (h : t ∈ s.latest) :
    ∃ pc, s.threads[t]? = some pc := by
  unfold State.latest at h
  cases hlen : s.threads.length with
  | zero => simp [hlen] at h
  | succ n =>
      simp only [hlen, List.mem_singleton] at h
      subst h
      exact ⟨_, List.getElem?_eq_getElem (by omega)⟩

theorem Halted.device_of_eq {s s' : State} (h : Halted s) (hthreads : s'.threads = s.threads)
    (hstopped : s'.stopped = s.stopped)
    (hcount : s'.is_counting = s.is_counting ∨ s'.is_counting = false)
    (hstopping : s'.device.stopping = true → s'.is_counting = false) : Halted s' := by
  refine ⟨?_, hstopping⟩
  rw [hstopped, hthreads]
  intro t ht
  obtain ⟨pc, hpc, hharm⟩ := h.harmless t ht
  refine ⟨pc, hpc, ?_⟩
  rcases hcount with heq | hoff
  · rw [heq]
    exact hharm
  · rw [hoff]
    exact harmless_false hharm

theorem Halted.runDevice {s s' : State} {created : Bool} (h : Halted s)
    (hok : s.stopsTimely (.device created) = true) (hs : s.runDevice created = some s') :
    Halted s' := by
  unfold State.runDevice at hs
  cases hdev : s.device with
  | idle => simp [hdev] at hs
  | displayTest n =>
      simp only [hdev] at hs
      split at hs <;>
        (cases hs
         exact h.device_of_eq rfl rfl (Or.inl rfl) (fun hstop => by cases hstop))
  | countingTest n =>
      simp only [hdev] at hs
      by_cases hrange : n < 0 ∨ n > 9
      · rw [if_pos hrange] at hs
        cases hs
        exact h.device_of_eq rfl rfl (Or.inl rfl) (fun hstop => by cases hstop)
      · rw [if_neg hrange] at hs
        by_cases hon : s.is_counting = true
        · rw [if_pos hon] at hs
          cases hs
          exact h.device_of_eq rfl rfl (Or.inl rfl) (fun hstop => by cases hstop)
        · rw [if_neg hon] at hs
          cases hs
          have hended : ∀ t ∈ s.stopped, (s.threads[t]?).all CountingPc.ended = true := by
            simp only [State.stopsTimely, hdev, Bool.or_eq_true, decide_eq_true_eq] at hok
            rcases hok with (hbad | hbad) | hall
            · exact absurd hbad hrange
            · exact absurd hbad hon
            · exact List.all_eq_true.mp hall
          refine ⟨?_, fun hstop => by cases hstop⟩
          intro t ht
          obtain ⟨pc, hpc, _⟩ := h.harmless t ht
          refine ⟨pc, hpc, harmless_of_ended ?_⟩
          simpa [hpc] using hended t ht
  | countingCreate n =>
      simp only [hdev] at hs
      split at hs
      · cases hs
        refine ⟨?_, fun hstop => by cases hstop⟩
        intro t ht
        obtain ⟨pc, hpc, hharm⟩ := h.harmless t ht
        have hlt : t < s.threads.length := (List.getElem?_eq_some_iff.mp hpc).1
        exact ⟨pc, by rw [List.getElem?_append_left hlt]; exact hpc, hharm⟩
      · cases hs
        exact h.device_of_eq rfl rfl (Or.inl rfl) (fun hstop => by cases hstop)
  | countingUndo =>
      simp only [hdev, Option.some.injEq] at hs
      subst hs
      exact h.device_of_eq rfl rfl (Or.inr rfl) (fun hstop => by cases hstop)
  | displayUndo =>
      simp only [hdev, Option.some.injEq] at hs
      subst hs
      exact h.device_of_eq rfl rfl (Or.inl rfl) (fun hstop => by cases hstop)
  | stopRead =>
      simp only [hdev] at hs
      split at hs <;>
        (cases hs
         exact h.device_of_eq rfl rfl (Or.inl rfl) (fun hstop => by cases hstop))
  | stopClear =>
      simp only [hdev] at hs
      split at hs
      · cases hs
        exact h.device_of_eq rfl rfl (Or.inr rfl) (fun _ => rfl)
      · next hoff =>
          cases hs
          exact h.device_of_eq rfl rfl (Or.inl rfl) (fun _ => Bool.not_eq_true _ ▸ hoff)
  | stopSleep =>
      simp only [hdev, Option.some.injEq] at hs
      subst hs
      exact h.device_of_eq rfl rfl (Or.inl rfl) (fun _ => h.stopping (by rw [hdev]; rfl))
  | stopAnswer =>
      simp only [hdev, Option.some.injEq] at hs
      subst hs
      have hoff : s.is_counting = false := h.stopping (by rw [hdev]; rfl)
      refine ⟨?_, fun hstop => by cases hstop⟩
      intro t ht
      rcases List.mem_append.mp ht with ht | ht
      · exact h.harmless t ht
      · obtain ⟨pc, hpc⟩ := latest_mem ht
        refine ⟨pc, hpc, ?_⟩
        simp only [State.stopsTimely, hdev, List.all_eq_true] at hok
        have hnot : pc.committed = false := by simpa [hpc] using hok t ht
        simp [CountingPc.harmless, hoff, hnot]

theorem Halted.step {s s' : State} {a : Action} (h : Halted s) (hok : s.stopsTimely a = true)
    (hs : s.step a = some s') : Halted s' := by
  cases a with
  | display param1 =>
      simp only [State.step] at hs
      split at hs
      · split at hs <;> cases hs
        · exact h
        · exact h.device_of_eq rfl rfl (Or.inl rfl) (fun hstop => by cases hstop)
      · cases hs
  | stop =>
      simp only [State.step] at hs
      split at hs <;> cases hs
      exact h.device_of_eq rfl rfl (Or.inl rfl) (fun hstop => by cases hstop)
  | device created => exact h.runDevice hok hs
  | thread t => exact h.runThread hs

/-! ## Callbacks -/

/-- Who starts a callback in a step, and what becomes of the stopped countdowns. -/
theorem step_callbacks {s s' : State} {a : Action} (hs : s.step a = some s') :
    s.stopped ⊆ s'.stopped ∧
      (s'.callbacks = s.callbacks ∨
        ∃ t, a = .thread t ∧ s.threads[t]? = some .callback ∧ s'.callbacks = s.callbacks ++ [t]) := by
  cases a with
  | display param1 =>
      simp only [State.step] at hs
      split at hs
      · split at hs <;> cases hs <;> exact ⟨List.Subset.refl _, Or.inl rfl⟩
      · cases hs
  | stop =>
      simp only [State.step] at hs
      split at hs <;> cases hs
      exact ⟨List.Subset.refl _, Or.inl rfl⟩
  | device created =>
      simp only [State.step, State.runDevice] at hs
      cases hdev : s.device with
      | stopAnswer =>
          simp only [hdev, Option.some.injEq] at hs
          subst hs
          exact ⟨List.subset_append_left _ _, Or.inl rfl⟩
      | countingTest n =>
          simp only [hdev] at hs
          split at hs
          · cases hs
            exact ⟨List.Subset.refl _, Or.inl rfl⟩
          · split at hs <;> cases hs <;> exact ⟨List.Subset.refl _, Or.inl rfl⟩
      | displayTest n | countingCreate n | stopRead | stopClear =>
          simp only [hdev] at hs
          split at hs <;> cases hs <;> exact ⟨List.Subset.refl _, Or.inl rfl⟩
      | countingUndo | displayUndo | stopSleep =>
          simp only [hdev, Option.some.injEq] at hs
          subst hs
          exact ⟨List.Subset.refl _, Or.inl rfl⟩
      | idle => simp [hdev] at hs
  | thread t =>
      obtain ⟨pc, _, hpc, _, _, _, _, hcallbacks, _, hstopped⟩ := runThread_spec hs
      rw [hstopped, hcallbacks]
      refine ⟨List.Subset.refl _, ?_⟩
      split
      · next hcall => exact Or.inr ⟨t, rfl, hcall ▸ hpc, rfl⟩
      · exact Or.inl rfl

/-- No step starts the callback of a harmless stopped countdown. -/
theorem Halted.count_step {s s' : State} {a : Action} (h : Halted s) (hs : s.step a = some s')
    {t : Nat} (ht : t ∈ s.stopped) : s'.callbacks.count t = s.callbacks.count t := by
  rcases (step_callbacks hs).2 with heq | ⟨u, _, hu, heq⟩
  · rw [heq]
  · have hne : u ≠ t := by
      rintro rfl
      obtain ⟨pc, hpc, hharm⟩ := h.harmless u ht
      rw [hu, Option.some.injEq] at hpc
      exact not_callback_of_harmless hharm hpc.symm
    rw [heq, List.count_append, List.count_singleton, if_neg (by simpa using hne), Nat.add_zero]

/-- Every callback started belongs to a thread that is past the call, and no
thread starts it twice. -/
structure CalledOnce (s : State) : Prop where
  ended : ∀ t ∈ s.callbacks, ∃ pc : CountingPc, s.threads[t]? = some pc ∧ pc.ended = true
  nodup : s.callbacks.Nodup

theorem calledOnce_init : CalledOnce init where
  ended t ht := by cases ht
  nodup := List.nodup_nil

theorem ended_next {is_counting : Bool} {pc pc' : CountingPc} (h : pc.ended = true)
    (hnext : pc.next is_counting = some pc') : pc'.ended = true := by
  cases pc with
  | clearing | playing =>
      cases hnext
      rfl
  | _ => cases h <;> cases hnext

theorem step_threads {s s' : State} {a : Action} (hs : s.step a = some s')
    (ha : ∀ t, a ≠ .thread t) {t : Nat} {pc : CountingPc} (hpc : s.threads[t]? = some pc) :
    s'.threads[t]? = some pc := by
  cases a with
  | display param1 =>
      simp only [State.step] at hs
      split at hs
      · split at hs <;> cases hs <;> exact hpc
      · cases hs
  | stop =>
      simp only [State.step] at hs
      split at hs <;> cases hs
      exact hpc
  | device created =>
      simp only [State.step, State.runDevice] at hs
      have hlt : t < s.threads.length := (List.getElem?_eq_some_iff.mp hpc).1
      split at hs
      all_goals (repeat' split at hs)
      all_goals cases hs
      all_goals first
        | exact hpc
        | (rw [List.getElem?_append_left hlt]
           exact hpc)
  | thread t => exact absurd rfl (ha t)

theorem CalledOnce.step {s s' : State} {a : Action} (h : CalledOnce s) (hs : s.step a = some s') :
    CalledOnce s' := by
  by_cases hthread : ∃ t, a = .thread t
  · obtain ⟨t, rfl⟩ := hthread
    obtain ⟨pc, pc', hpc, hnext, hthreads, _, _, hcallbacks, _, _⟩ := runThread_spec hs
    have hlt : t < s.threads.length := (List.getElem?_eq_some_iff.mp hpc).1
    have hkept : ∀ u ∈ s.callbacks, ∃ pcu : CountingPc,
        s'.threads[u]? = some pcu ∧ pcu.ended = true := by
      intro u hu
      obtain ⟨pcu, hpcu, hended⟩ := h.ended u hu
      by_cases htu : t = u
      · subst htu
        rw [hpc, Option.some.injEq] at hpcu
        subst hpcu
        exact ⟨pc', by rw [hthreads, List.getElem?_set_self hlt], ended_next hended hnext⟩
      · exact ⟨pcu, by rw [hthreads, List.getElem?_set_ne htu]; exact hpcu, hended⟩
    by_cases hcall : pc = .callback
    · subst hcall
      cases hnext
      rw [if_pos rfl] at hcallbacks
      have hfresh : t ∉ s.callbacks := by
        intro ht
        obtain ⟨pcu, hpcu, hended⟩ := h.ended t ht
        rw [hpc, Option.some.injEq] at hpcu
        subst hpcu
        cases hended
      constructor
      · intro u hu
        rw [hcallbacks] at hu
        rcases List.mem_append.mp hu with hu | hu
        · exact hkept u hu
        · rw [List.mem_singleton.mp hu]
          exact ⟨.clearing, by rw [hthreads, List.getElem?_set_self hlt], rfl⟩
      · rw [hcallbacks]
        exact List.nodup_append.mpr ⟨h.nodup, (by simp), by
          intro u hu v hv
          rw [List.mem_singleton.mp hv]
          rintro rfl
          exact hfresh hu⟩
    · rw [if_neg hcall] at hcallbacks
      exact ⟨by rw [hcallbacks]; exact hkept, by rw [hcallbacks]; exact h.nodup⟩
  · have ha : ∀ t, a ≠ .thread t := fun t heq => hthread ⟨t, heq⟩
    have hcallbacks : s'.callbacks = s.callbacks := by
      rcases (step_callbacks hs).2 with heq | ⟨t, heq, _⟩
      · exact heq
      · exact absurd heq (ha t)
    constructor
    · rw [hcallbacks]
      intro t ht
      obtain ⟨pc, hpc, hended⟩ := h.ended t ht
      exact ⟨pc, step_threads hs ha hpc, hended⟩
    · rw [hcallbacks]
      exact h.nodup

theorem halted_of_reachable {s : State}
    (h : countdownMachine.ReachableUnder (fun s a => s.stopsTimely a = true) s) : Halted s :=
  h.invariant halted_init fun _ _ _ _ hi hok hs => hi.step hok hs

theorem calledOnce_of_reachable {s : State} (h : countdownMachine.Reachable s) : CalledOnce s :=
  h.invariant calledOnce_init fun _ _ _ hi hs => hi.step hs

/-! ## An untimely stop or start -/

/-- A run in which thread `t` starts its callback once more. -/
def CallsLater (s : State) (t : Nat) : Prop :=
  ∃ s', countdownMachine.Reaches s s' ∧ s'.callbacks.count t = s.callbacks.count t + 1

/-- A step of the thread other than the call itself puts nothing in the way. -/
theorem callsLater_of_thread_step {s s' : State} {t : Nat}
    (hs : countdownMachine.step s (.thread t) = some s') (hcallbacks : s'.callbacks = s.callbacks)
    (h : CallsLater s' t) : CallsLater s t := by
  obtain ⟨s'', hrun, hcount⟩ := h
  rw [hcallbacks] at hcount
  exact ⟨s'', Relation.ReflTransGen.head ⟨.thread t, trivial, hs⟩ hrun, hcount⟩

theorem callsLater_of_committed {s : State} {t : Nat} {pc : CountingPc}
    (hpc : s.threads[t]? = some pc) (hcommitted : pc.committed = true) : CallsLater s t := by
  have hcall : ∀ {s : State}, s.threads[t]? = some .callback → CallsLater s t := by
    intro s hpc
    obtain ⟨s', hs, _, _, _, _, hcallbacks, _⟩ := thread_step hpc rfl
    refine ⟨s', Machine.Reaches.of_step _ hs, ?_⟩
    rw [hcallbacks, if_pos rfl, List.count_append, List.count_singleton_self]
  have hfinish : ∀ {s : State}, s.threads[t]? = some .finish → CallsLater s t := by
    intro s hpc
    obtain ⟨s', hs, hpc', _, _, _, hcallbacks, _⟩ := thread_step hpc rfl
    exact callsLater_of_thread_step hs hcallbacks (hcall hpc')
  cases pc with
  | output i =>
      cases i with
      | zero =>
          obtain ⟨s', hs, hpc', _, _, _, hcallbacks, _⟩ := thread_step hpc rfl
          exact callsLater_of_thread_step hs hcallbacks (hfinish hpc')
      | succ i => cases hcommitted
  | finish => exact hfinish hpc
  | callback => exact hcall hpc
  | check i | sleeping i | clearing | playing | done => cases hcommitted

/-- While `is_counting` is set every thread not yet ended counts down to its call. -/
theorem callsLater_of_counting {s : State} {t : Nat} {pc : CountingPc}
    (hpc : s.threads[t]? = some pc) (hnot : pc.ended = false) (hon : s.is_counting = true) :
    CallsLater s t := by
  have hstep : ∀ {s : State} {pc pc' : CountingPc}, s.threads[t]? = some pc →
      pc.next s.is_counting = some pc' → pc ≠ .finish → pc ≠ .callback → s.is_counting = true →
      (∀ {s' : State}, s'.threads[t]? = some pc' → s'.is_counting = true → CallsLater s' t) →
      CallsLater s t := by
    intro s pc pc' hpc hnext hfin hcall hon hlater
    obtain ⟨s', hs, hpc', _, hcount, _, hcallbacks, _⟩ := thread_step hpc hnext
    rw [if_neg hfin] at hcount
    rw [if_neg hcall] at hcallbacks
    exact callsLater_of_thread_step hs hcallbacks (hlater hpc' (hcount.trans hon))
  have hcheck : ∀ (i : Nat) {s : State}, s.threads[t]? = some (.check i) →
      s.is_counting = true → CallsLater s t := by
    intro i
    induction i with
    | zero =>
        intro s hpc hon
        apply hstep hpc (by rw [hon]; rfl) (by simp) (by simp) hon
        intro s' hpc' _
        exact callsLater_of_committed hpc' rfl
    | succ i ih =>
        intro s hpc hon
        apply hstep hpc (by rw [hon]; rfl) (by simp) (by simp) hon
        intro s hpc hon
        apply hstep hpc rfl (by simp) (by simp) hon
        intro s hpc hon
        exact hstep hpc rfl (by simp) (by simp) hon ih
  have hsleeping : ∀ (i : Nat) {s : State}, s.threads[t]? = some (.sleeping i) →
      s.is_counting = true → CallsLater s t := by
    intro i s hpc hon
    exact hstep hpc rfl (by simp) (by simp) hon (hcheck (i - 1))
  cases pc with
  | check i => exact hcheck i hpc hon
  | output i =>
      cases i with
      | zero => exact callsLater_of_committed hpc rfl
      | succ i => exact hstep hpc rfl (by simp) (by simp) hon (hsleeping (i + 1))
  | sleeping i => exact hsleeping i hpc hon
  | finish | callback => exact callsLater_of_committed hpc rfl
  | clearing | playing | done => cases hnot

/-- After a step the condition does not allow, some stopped countdown can still
start its callback. -/
theorem Halted.callsLater_of_untimely {s s' : State} {a : Action} (h : Halted s)
    (hbad : s.stopsTimely a = false) (hs : countdownMachine.step s a = some s') :
    ∃ t ∈ s'.stopped, CallsLater s' t := by
  cases a with
  | display param1 | stop | thread t => cases hbad
  | device created =>
      simp only [countdownMachine, State.step, State.runDevice] at hs
      cases hdev : s.device with
      | countingTest n =>
          simp only [hdev] at hs
          simp only [State.stopsTimely, hdev, Bool.or_eq_false_iff, decide_eq_false_iff_not,
            List.all_eq_false] at hbad
          obtain ⟨⟨⟨hlow, hhigh⟩, hoff⟩, t, ht, hnot⟩ := hbad
          rw [if_neg (by omega), hoff] at hs
          cases hs
          obtain ⟨pc, hpc, _⟩ := h.harmless t ht
          refine ⟨t, ht, callsLater_of_counting hpc ?_ rfl⟩
          simpa [hpc] using hnot
      | stopAnswer =>
          simp only [hdev, Option.some.injEq] at hs
          subst hs
          simp only [State.stopsTimely, hdev, List.all_eq_false] at hbad
          obtain ⟨t, ht, hcommitted⟩ := hbad
          obtain ⟨pc, hpc⟩ := latest_mem ht
          refine ⟨t, List.mem_append_right _ ht, callsLater_of_committed hpc ?_⟩
          simpa [hpc] using hcommitted
      | _ => simp [State.stopsTimely, hdev] at hbad

/-! ## The result -/

/-- In every run whose stops and starts are timely a stopped countdown's callback
is not started after the stop has been answered, and no countdown starts its
callback twice. Each step the condition excludes is one after which a stopped
countdown's callback can still be started. -/
theorem stopped_stays_stopped {s : State}
    (h : countdownMachine.ReachableUnder (fun s a => s.stopsTimely a = true) s) :
    s.callbacks.Nodup ∧
      (∀ s', countdownMachine.ReachesUnder (fun s a => s.stopsTimely a = true) s s' →
        ∀ t ∈ s.stopped, s'.callbacks.count t = s.callbacks.count t) ∧
      (∀ a s', countdownMachine.step s a = some s' → s.stopsTimely a = false →
        ∃ t ∈ s'.stopped, CallsLater s' t) := by
  have hhalted := halted_of_reachable h
  refine ⟨(calledOnce_of_reachable h.reachable).nodup, ?_,
    fun a s' hs hbad => hhalted.callsLater_of_untimely hbad hs⟩
  intro s' hrun t ht
  have hkept : Halted s' ∧ t ∈ s'.stopped ∧ s'.callbacks.count t = s.callbacks.count t := by
    refine hrun.invariant (I := fun u => Halted u ∧ t ∈ u.stopped ∧
      u.callbacks.count t = s.callbacks.count t) ⟨hhalted, ht, rfl⟩ ?_
    intro u a u' _ ⟨hu, htu, hcount⟩ hok hs
    exact ⟨hu.step hok hs, (step_callbacks hs).1 htu, (hu.count_step hs htu).trans hcount⟩
  exact hkept.2.2

/-- A stop that catches the countdown in its first second: the thread returns at
its next test. -/
theorem stopped_in_first_second :
    ∃ s s', countdownMachine.Reachable s ∧ s.stopped = [0] ∧
      countdownMachine.exec s [.thread 0, .thread 0] = some s' ∧
      s'.threads = [.done] ∧ s'.callbacks.count 0 = 0 := by
  have hrun : countdownMachine.execUnder State.stopsTimely init
      [.display 9, .device true, .device true, .device true, .thread 0, .thread 0,
        .stop, .device true, .device true, .device true, .device true] =
      some ⟨false, false, [.sleeping 9], .idle, [(0, 9)], [], [0]⟩ := rfl
  have hlast : countdownMachine.execUnder State.stopsTimely
      ⟨false, false, [.sleeping 9], .idle, [(0, 9)], [], [0]⟩ [.thread 0, .thread 0] =
      some ⟨false, false, [.done], .idle, [(0, 9)], [], [0]⟩ := rfl
  have hreach := Machine.ReachesUnder.of_exec hrun
  have hstays := stopped_stays_stopped hreach
  exact ⟨_, _, Machine.ReachableUnder.reachable hreach, rfl, rfl, rfl,
    hstays.2.1 _ (Machine.ReachesUnder.of_exec hlast) 0 (List.mem_singleton.mpr rfl)⟩

/-- A stop answered with success while the thread is between clearing
`is_counting` and its callback: the callback is started after the answer. -/
theorem callback_after_stop :
    ∃ s s', countdownMachine.Reachable s ∧ s.stopped = [0] ∧ s.callbacks = [] ∧
      countdownMachine.Reaches s s' ∧ s'.callbacks = [0] := by
  have hrun : countdownMachine.exec init
      [.display 1, .device true, .device true, .device true, .thread 0, .thread 0, .thread 0,
        .thread 0, .thread 0, .thread 0, .stop, .device true, .device true, .device true] =
      some ⟨false, false, [.callback], .idle, [(0, 1), (0, 0)], [], [0]⟩ := rfl
  exact ⟨_, _, Machine.Reachable.of_exec hrun, rfl, rfl,
    Machine.Reaches.of_step (.thread 0) rfl, rfl⟩

end RsvpControl.Segment
