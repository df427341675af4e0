import RsvpControl.Core.Locking

/-! # The end of a mutex

A mutex may be destroyed while threads still run, if none of them will lock it again.
A second static pass finds what a thread has ahead of it when the flags stay as they
are: a test of a flag that is clear keeps it from the code behind. The discipline holds
in every run that destroys a mutex only when this pass finds no lock of it, in any
thread.
-/

namespace RsvpControl.Core.Locking

universe u v w z

variable {μ : Type u} {β : Type v} {κ : Type w} {φ : Type z} [DecidableEq μ]

/-! ## What lies ahead -/

/-- No lock of the mutex, no change of a flag and no new thread. -/
def Stmt.plain (m : μ) : Stmt μ β κ φ → Bool
  | .lock m' => m' ≠ m
  | .wait m' => m' ≠ m
  | .set _ _ => false
  | .spawn _ => false
  | .seq first second => first.plain m && second.plain m
  | .ite first second => first.plain m && second.plain m
  | .test _ first second => first.plain m && second.plain m
  | .loop b => b.plain m
  | .call b => b.plain m
  | _ => true

/-- Whether the statement can end normally, given the flags; `none` when it may lock the
mutex or change a flag. -/
def Stmt.spares (program : κ → Stmt μ β κ φ) (m : μ) (flags : φ → Bool) :
    Stmt μ β κ φ → Option Bool
  | .lock m' => if m' = m then none else some true
  | .wait m' => if m' = m then none else some true
  | .set flag value => if flags flag = value then some true else none
  | .spawn kind => if (program kind).plain m then some true else none
  | .seq first second =>
      match first.spares program m flags with
      | some true => second.spares program m flags
      | r => r
  | .ite first second =>
      (first.spares program m flags).bind fun r =>
        (second.spares program m flags).map fun r' => r || r'
  | .test flag first second =>
      if flags flag then first.spares program m flags else second.spares program m flags
  | .loop b => (b.spares program m flags).map fun _ => true
  | .call b => (b.spares program m flags).map fun _ => true
  | .brk => some false
  | .cont => some false
  | .ret => some false
  | _ => some true

/-- The same for what a thread has still to do; the frames behind an early exit are
skipped up to where it may lead. -/
def sparesFrames (program : κ → Stmt μ β κ φ) (m : μ) (flags : φ → Bool) :
    Bool → List (Frame μ β κ φ) → Bool
  | _, [] => true
  | true, .run stmt :: k =>
      match stmt.spares program m flags with
      | none => false
      | some r => sparesFrames program m flags r k
  | false, .run _ :: k => sparesFrames program m flags false k
  | _, .again b :: k => (b.spares program m flags).isSome && sparesFrames program m flags true k
  | _, .returns _ :: k => sparesFrames program m flags true k
  | _, .asleep m' :: k => m' ≠ m && sparesFrames program m flags true k

/-- Where a step destroys a mutex, no thread has a lock of it ahead. -/
def State.settled (program : κ → Stmt μ β κ φ) (s : State μ β κ φ) (a : Nat × Bool) : Bool :=
  match s.threads[a.1]? with
  | some (.run (.destroy m) :: k) =>
      (s.holder m).isSome ||
        (s.threads.set a.1 k).all fun k' => sparesFrames program m s.flags true k'
  | _ => true

/-! ## A thread keeps to what lies ahead -/

section Frames

variable {program : κ → Stmt μ β κ φ} {m : μ} {flags : φ → Bool}

theorem spares_of_plain {stmt : Stmt μ β κ φ} (h : stmt.plain m = true) :
    ∃ r, stmt.spares program m flags = some r := by
  induction stmt with
  | lock m' | wait m' =>
      refine ⟨true, ?_⟩
      simp only [Stmt.plain, decide_eq_true_eq] at h
      simp only [Stmt.spares, if_neg h]
  | set flag value | spawn kind => cases h
  | seq first second ihfirst ihsecond =>
      simp only [Stmt.plain, Bool.and_eq_true] at h
      obtain ⟨r, hr⟩ := ihfirst h.1
      cases r with
      | true =>
          obtain ⟨r', hr'⟩ := ihsecond h.2
          exact ⟨r', by simp only [Stmt.spares, hr, hr']⟩
      | false => exact ⟨false, by simp only [Stmt.spares, hr]⟩
  | ite first second ihfirst ihsecond =>
      simp only [Stmt.plain, Bool.and_eq_true] at h
      obtain ⟨r, hr⟩ := ihfirst h.1
      obtain ⟨r', hr'⟩ := ihsecond h.2
      exact ⟨r || r', by simp only [Stmt.spares, hr, hr']; rfl⟩
  | test flag first second ihfirst ihsecond =>
      simp only [Stmt.plain, Bool.and_eq_true] at h
      simp only [Stmt.spares]
      split
      · exact ihfirst h.1
      · exact ihsecond h.2
  | loop b ih | call b ih =>
      obtain ⟨r, hr⟩ := ih h
      exact ⟨true, by simp only [Stmt.spares, hr]; rfl⟩
  | brk | cont | ret => exact ⟨false, rfl⟩
  | act | unlock | destroy | block | join => exact ⟨true, rfl⟩

theorem sparesFrames_skip {reached : Bool} {k : List (Frame μ β κ φ)}
    (h : sparesFrames program m flags reached k = true) :
    sparesFrames program m flags false k = true := by
  induction k generalizing reached with
  | nil => rfl
  | cons f k ih =>
      cases f with
      | run stmt =>
          cases reached with
          | true =>
              simp only [sparesFrames] at h ⊢
              split at h
              · cases h
              · exact ih h
          | false => exact h
      | again b | returns entry | asleep m' => cases reached <;> exact h

theorem sparesFrames_or {r r' : Bool} {k : List (Frame μ β κ φ)}
    (h : sparesFrames program m flags (r || r') k = true) :
    sparesFrames program m flags r k = true ∧ sparesFrames program m flags r' k = true := by
  cases r with
  | true =>
      refine ⟨h, ?_⟩
      cases r' with
      | true => exact h
      | false => exact sparesFrames_skip h
  | false => exact ⟨sparesFrames_skip h, h⟩

theorem sparesFrames_tail {reached : Bool} {f : Frame μ β κ φ} {k : List (Frame μ β κ φ)}
    (h : sparesFrames program m flags reached (f :: k) = true) :
    ∃ reached', sparesFrames program m flags reached' k = true := by
  cases f with
  | run stmt =>
      cases reached with
      | true =>
          simp only [sparesFrames] at h
          split at h
          · cases h
          · exact ⟨_, h⟩
      | false => exact ⟨false, h⟩
  | again b | asleep m' =>
      refine ⟨true, ?_⟩
      cases reached <;>
        (simp only [sparesFrames, Bool.and_eq_true] at h
         exact h.2)
  | returns entry =>
      refine ⟨true, ?_⟩
      cases reached <;> exact h

theorem sparesFrames_again {reached : Bool} {b : Stmt μ β κ φ} {k : List (Frame μ β κ φ)}
    (h : sparesFrames program m flags reached (.again b :: k) = true) :
    (b.spares program m flags).isSome = true ∧ sparesFrames program m flags true k = true := by
  cases reached <;> simpa only [sparesFrames, Bool.and_eq_true] using h

theorem sparesFrames_breaks {reached : Bool} {k : List (Frame μ β κ φ)}
    (h : sparesFrames program m flags reached k = true) :
    sparesFrames program m flags true (breaks k) = true := by
  induction k generalizing reached with
  | nil => rfl
  | cons f k ih =>
      obtain ⟨reached', htail⟩ := sparesFrames_tail h
      cases f with
      | again b => exact (sparesFrames_again h).2
      | run stmt | returns entry | asleep m' => exact ih htail

theorem sparesFrames_continues {reached : Bool} {k : List (Frame μ β κ φ)}
    (h : sparesFrames program m flags reached k = true) :
    sparesFrames program m flags true (continues k) = true := by
  induction k generalizing reached with
  | nil => rfl
  | cons f k ih =>
      obtain ⟨reached', htail⟩ := sparesFrames_tail h
      cases f with
      | again b => cases reached <;> exact h
      | run stmt | returns entry | asleep m' => exact ih htail

theorem sparesFrames_unwind {reached : Bool} {k : List (Frame μ β κ φ)}
    (h : sparesFrames program m flags reached k = true) :
    sparesFrames program m flags true (unwind k) = true := by
  induction k generalizing reached with
  | nil => rfl
  | cons f k ih =>
      obtain ⟨reached', htail⟩ := sparesFrames_tail h
      cases f with
      | returns entry => cases reached <;> exact h
      | run stmt | again b | asleep m' => exact ih htail

theorem sparesFrames_run {stmt : Stmt μ β κ φ} {r : Bool} {k : List (Frame μ β κ φ)}
    (hstmt : stmt.spares program m flags = some r)
    (hk : sparesFrames program m flags r k = true) :
    sparesFrames program m flags true (.run stmt :: k) = true := by
  simp only [sparesFrames, hstmt]
  exact hk

theorem spares_of_frames {stmt : Stmt μ β κ φ} {k : List (Frame μ β κ φ)}
    (h : sparesFrames program m flags true (.run stmt :: k) = true) :
    ∃ r, stmt.spares program m flags = some r ∧ sparesFrames program m flags r k = true := by
  simp only [sparesFrames] at h
  split at h
  · cases h
  · next r hr => exact ⟨r, hr, h⟩

end Frames

/-! ## Runs -/

section Runs

variable {program : κ → Stmt μ β κ φ} {m : μ}

/-- No thread has a lock of the mutex ahead. -/
def State.Spared (program : κ → Stmt μ β κ φ) (s : State μ β κ φ) (m : μ) : Prop :=
  ∀ k ∈ s.threads, sparesFrames program m s.flags true k = true

theorem State.Spared.resume {s s' : State μ β κ φ} {t : Nat} {k' : List (Frame μ β κ φ)}
    (h : s.Spared program m) (hk' : sparesFrames program m s.flags true k' = true)
    (hthreads : s'.threads = s.threads.set t k') (hflags : s'.flags = s.flags) :
    s'.Spared program m := by
  intro k hk
  rw [hthreads] at hk
  rw [hflags]
  rcases List.mem_or_eq_of_mem_set hk with hold | rfl
  · exact h k hold
  · exact hk'

/-- What holds in runs that destroy a mutex only when no thread has a lock of it ahead. -/
structure Retired (program : κ → Stmt μ β κ φ) (rank : μ → Nat) (s : State μ β κ φ) : Prop where
  locks : LockInv rank s
  spared : ∀ m, s.destroyed m = true → s.Spared program m

/-- No thread is about to lock a destroyed mutex. -/
theorem Retired.live {rank : μ → Nat} {s : State μ β κ φ} (h : Retired program rank s) {t : Nat}
    {m : μ} (hawaits : s.awaits t = some m) : s.destroyed m = false := by
  rw [Bool.eq_false_iff]
  intro hdestroyed
  obtain ⟨k, hk⟩ := awaits_eq_some hawaits
  obtain ⟨r, hr, -⟩ := spares_of_frames (h.spared m hdestroyed _ (List.mem_of_getElem? hk))
  simp [Stmt.spares] at hr

variable [DecidableEq κ] [DecidableEq φ]

theorem State.Spared.runFrame {s s' : State μ β κ φ} {t : Nat} {choice : Bool}
    {f : Frame μ β κ φ} {k : List (Frame μ β κ φ)} (h : s.Spared program m)
    (hframes : sparesFrames program m s.flags true (f :: k) = true)
    (hs : s.runFrame program t choice k f = some s') : s'.Spared program m := by
  cases f with
  | again b =>
      cases hs
      obtain ⟨hb, hk⟩ := sparesFrames_again hframes
      obtain ⟨r, hr⟩ := Option.isSome_iff_exists.mp hb
      exact h.resume (sparesFrames_run (r := true) (by simp [Stmt.spares, hr]) hk) rfl rfl
  | returns entry =>
      cases hs
      have hk : sparesFrames program m s.flags true k = true := hframes
      exact h.resume hk rfl rfl
  | asleep m' =>
      cases hs
      simp only [sparesFrames, Bool.and_eq_true, decide_eq_true_eq] at hframes
      exact h.resume (sparesFrames_run (r := true) (by simp [Stmt.spares, hframes.1]) hframes.2)
        rfl rfl
  | run stmt =>
      obtain ⟨r, hstmt, hk⟩ := spares_of_frames hframes
      cases stmt with
      | act | unlock m' | block call =>
          cases hstmt
          cases hs
          exact h.resume hk rfl rfl
      | lock m' =>
          simp only [Stmt.spares] at hstmt
          simp only [State.runFrame] at hs
          split at hstmt <;> cases hstmt
          repeat' split at hs
          all_goals cases hs
          · exact h.resume hk rfl rfl
          · exact h.resume hk rfl rfl
      | wait m' =>
          simp only [Stmt.spares] at hstmt
          cases hs
          split at hstmt <;> cases hstmt
          next hne =>
            refine h.resume ?_ rfl rfl
            simp only [sparesFrames, Bool.and_eq_true, decide_eq_true_eq]
            exact ⟨hne, hk⟩
      | destroy m' =>
          cases hstmt
          simp only [State.runFrame] at hs
          split at hs <;> cases hs
          · exact h.resume hk rfl rfl
          · exact h.resume hk rfl rfl
      | join call kind =>
          cases hstmt
          simp only [State.runFrame] at hs
          split at hs <;> cases hs
          exact h.resume hk rfl rfl
      | set flag value =>
          simp only [Stmt.spares] at hstmt
          cases hs
          split at hstmt <;> cases hstmt
          next hsame =>
            refine h.resume hk rfl ?_
            show Function.update s.flags flag value = s.flags
            rw [← hsame, Function.update_eq_self]
      | spawn kind =>
          simp only [Stmt.spares] at hstmt
          cases hs
          split at hstmt <;> cases hstmt
          next hplain =>
            obtain ⟨r, hr⟩ := @spares_of_plain _ _ _ _ _ program m s.flags _ hplain
            intro k' hk'
            rw [List.mem_append, List.mem_singleton] at hk'
            rcases hk' with hold | rfl
            · rcases List.mem_or_eq_of_mem_set hold with hold | rfl
              · exact h k' hold
              · exact hk
            · exact sparesFrames_run (r := true) (by simp [Stmt.spares, hr]) rfl
      | seq first second =>
          simp only [Stmt.spares] at hstmt
          cases hs
          refine h.resume ?_ rfl rfl
          split at hstmt
          · next hfirst => exact sparesFrames_run hfirst (sparesFrames_run hstmt hk)
          · next hother =>
              cases r with
              | true => exact absurd hstmt hother
              | false => exact sparesFrames_run hstmt hk
      | ite first second =>
          simp only [Stmt.spares, Option.bind_eq_some_iff, Option.map_eq_some_iff] at hstmt
          obtain ⟨r₁, hfirst, r₂, hsecond, rfl⟩ := hstmt
          cases hs
          refine h.resume ?_ rfl rfl
          cases choice with
          | true => exact sparesFrames_run hfirst (sparesFrames_or hk).1
          | false => exact sparesFrames_run hsecond (sparesFrames_or hk).2
      | test flag first second =>
          simp only [Stmt.spares] at hstmt
          cases hs
          refine h.resume ?_ rfl rfl
          split at hstmt
          · next hset =>
              rw [if_pos hset]
              exact sparesFrames_run hstmt hk
          · next hclear =>
              rw [if_neg hclear]
              exact sparesFrames_run hstmt hk
      | loop b =>
          simp only [Stmt.spares, Option.map_eq_some_iff] at hstmt
          obtain ⟨r₁, hb, rfl⟩ := hstmt
          cases hs
          refine h.resume ?_ rfl rfl
          cases choice with
          | true =>
              refine sparesFrames_run hb ?_
              cases r₁ <;>
                (simp only [sparesFrames, hb, Option.isSome_some, Bool.true_and]
                 exact hk)
          | false => exact hk
      | call b =>
          simp only [Stmt.spares, Option.map_eq_some_iff] at hstmt
          obtain ⟨r₁, hb, rfl⟩ := hstmt
          cases hs
          refine h.resume (sparesFrames_run hb ?_) rfl rfl
          cases r₁ <;> exact hk
      | brk =>
          cases hs
          exact h.resume (sparesFrames_breaks hk) rfl rfl
      | cont =>
          cases hs
          exact h.resume (sparesFrames_continues hk) rfl rfl
      | ret =>
          cases hs
          exact h.resume (sparesFrames_unwind hk) rfl rfl

theorem State.Spared.step {s s' : State μ β κ φ} {a : Nat × Bool} (h : s.Spared program m)
    (hs : s.step program a = some s') : s'.Spared program m := by
  unfold State.step at hs
  split at hs
  · next f k hk => exact h.runFrame (h _ (List.mem_of_getElem? hk)) hs
  · cases hs

theorem spared_of_destroyed {s s' : State μ β κ φ} {a : Nat × Bool}
    (hsettled : s.settled program a = true) (hs : s.step program a = some s')
    (hnew : s'.destroyed m = true) : s.destroyed m = true ∨ s'.Spared program m := by
  unfold State.step at hs
  split at hs
  · next f k hk =>
      by_cases hdestroy : f = .run (.destroy m)
      · subst hdestroy
        simp only [State.runFrame] at hs
        split at hs <;> cases hs
        · next hfree =>
            right
            simp only [State.settled, hk, hfree, Option.isSome_none, Bool.false_or,
              List.all_eq_true] at hsettled
            exact hsettled
        · exact Or.inl hnew
      · left
        cases f with
        | run stmt =>
            cases stmt with
            | destroy m' =>
                simp only [State.runFrame] at hs
                split at hs <;> cases hs
                · have hne : m ≠ m' := by
                    rintro rfl
                    exact hdestroy rfl
                  simpa [Function.update_of_ne hne] using hnew
                · exact hnew
            | lock | join =>
                simp only [State.runFrame] at hs
                repeat' split at hs
                all_goals cases hs
                all_goals exact hnew
            | _ =>
                cases hs
                exact hnew
        | _ =>
            cases hs
            exact hnew
  · cases hs

theorem retired_of_reachable {rank : μ → Nat} {main : κ} {s : State μ β κ φ}
    (hprogram : ∀ kind, Checked rank (program kind))
    (h : (lockMachine program main).ReachableUnder (fun s a => s.settled program a = true) s) :
    Retired program rank s := by
  refine h.invariant ⟨lockInv_start (hprogram main), fun m hm => by cases hm⟩ ?_
  intro s a s' _ hretired hsettled hs
  refine ⟨hretired.locks.step hprogram (fun m hm => hretired.live hm) hs, fun m hm => ?_⟩
  rcases spared_of_destroyed hsettled hs hm with hold | hnew
  · exact (hretired.spared m hold).step hs
  · exact hnew

end Runs

end RsvpControl.Core.Locking
