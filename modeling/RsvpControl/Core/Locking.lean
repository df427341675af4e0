import Mathlib.Logic.Function.Basic
import Mathlib.Logic.Relation
import RsvpControl.Core.Machine

/-! # Threads that lock mutexes

The locking skeleton of a structured program: lock, unlock, destroy, condition wait and
blocking call, with the sequencing, branches, loops and early exits around them.
Tests are choices, but for those of a few flags, so every run of the program is a run
of its skeleton. A static pass computes the mutexes held at each point and asks that
they are taken in rank order; the threads of checked programs never deadlock on
mutexes, as long as none comes to lock one that has been destroyed.
-/

namespace RsvpControl.Core.Locking

universe u v w z

/-! ## Programs -/

/-- Mutexes `μ`, blocking calls `β`, kinds of threads `κ` and shared flags `φ`. -/
inductive Stmt (μ : Type u) (β : Type v) (κ : Type w) (φ : Type z) where
  /-- Anything that neither locks nor blocks. -/
  | act
  | lock (mutex : μ)
  | unlock (mutex : μ)
  /-- A wait on a condition variable with this mutex. -/
  | wait (mutex : μ)
  | destroy (mutex : μ)
  | block (call : β)
  /-- A blocking call that returns when the threads of this kind have ended. -/
  | join (call : β) (kind : κ)
  | spawn (kind : κ)
  | set (flag : φ) (value : Bool)
  | seq (first second : Stmt μ β κ φ)
  | ite (first second : Stmt μ β κ φ)
  | test (flag : φ) (first second : Stmt μ β κ φ)
  | loop (body : Stmt μ β κ φ)
  | brk
  | cont
  | ret
  | call (body : Stmt μ β κ φ)

/-- What a thread has still to do, innermost first. -/
inductive Frame (μ : Type u) (β : Type v) (κ : Type w) (φ : Type z) where
  | run (stmt : Stmt μ β κ φ)
  /-- The end of a loop body. -/
  | again (body : Stmt μ β κ φ)
  /-- The end of a function, with the mutexes its caller held. -/
  | returns (entry : μ → Bool)
  /-- In the wait set of a condition variable. -/
  | asleep (mutex : μ)

structure State (μ : Type u) (β : Type v) (κ : Type w) (φ : Type z) where
  threads : List (List (Frame μ β κ φ))
  /-- The kind of each thread. -/
  kinds : List κ
  holder : μ → Option Nat
  destroyed : μ → Bool
  flags : φ → Bool

variable {μ : Type u} {β : Type v} {κ : Type w} {φ : Type z}

namespace Stmt

def body : List (Stmt μ β κ φ) → Stmt μ β κ φ
  | [] => .act
  | [stmt] => stmt
  | stmt :: rest => .seq stmt (body rest)

/-- A test without an else branch. -/
def guarded (stmts : List (Stmt μ β κ φ)) : Stmt μ β κ φ := .ite (body stmts) .act

def whileLoop (stmts : List (Stmt μ β κ φ)) : Stmt μ β κ φ := .loop (body stmts)

def function (stmts : List (Stmt μ β κ φ)) : Stmt μ β κ φ := .call (body stmts)

def oneOf : List (Stmt μ β κ φ) → Stmt μ β κ φ
  | [] => .act
  | [stmt] => stmt
  | stmt :: rest => .ite stmt (oneOf rest)

end Stmt

/-! ## Steps -/

/-- Out of the innermost loop. -/
def breaks : List (Frame μ β κ φ) → List (Frame μ β κ φ)
  | [] => []
  | .again _ :: k => k
  | _ :: k => breaks k

/-- To the end of the body of the innermost loop. -/
def continues : List (Frame μ β κ φ) → List (Frame μ β κ φ)
  | [] => []
  | .again b :: k => .again b :: k
  | _ :: k => continues k

/-- To the end of the function. -/
def unwind : List (Frame μ β κ φ) → List (Frame μ β κ φ)
  | [] => []
  | .returns entry :: k => .returns entry :: k
  | _ :: k => unwind k

def State.joined [DecidableEq κ] (s : State μ β κ φ) (kind : κ) : Bool :=
  (s.kinds.zip s.threads).all fun thread => decide (thread.1 ≠ kind) || thread.2.isEmpty

def State.resume (s : State μ β κ φ) (t : Nat) (k : List (Frame μ β κ φ)) : State μ β κ φ :=
  { s with threads := s.threads.set t k }

def State.holding (s : State μ β κ φ) (t : Nat) : μ → Bool := fun m => s.holder m == some t

section Steps

variable [DecidableEq μ] [DecidableEq κ] [DecidableEq φ]

/-- A step of thread `t` at a frame, with its choice at a test. A blocking call may
return, and a waiting thread wake, at any time. A lock of a destroyed mutex fails, and
so does the destruction of one that is held; neither result is read. -/
def State.runFrame (program : κ → Stmt μ β κ φ) (s : State μ β κ φ) (t : Nat) (choice : Bool)
    (k : List (Frame μ β κ φ)) : Frame μ β κ φ → Option (State μ β κ φ)
  | .run .act => some (s.resume t k)
  | .run (.lock m) =>
      if s.destroyed m then some (s.resume t k)
      else if s.holder m = none then
        some { s.resume t k with holder := Function.update s.holder m (some t) }
      else none
  | .run (.unlock m) => some { s.resume t k with holder := Function.update s.holder m none }
  | .run (.wait m) =>
      some { s.resume t (.asleep m :: k) with holder := Function.update s.holder m none }
  | .run (.destroy m) =>
      if s.holder m = none then
        some { s.resume t k with destroyed := Function.update s.destroyed m true }
      else some (s.resume t k)
  | .run (.block _) => some (s.resume t k)
  | .run (.join _ kind) => if s.joined kind then some (s.resume t k) else none
  | .run (.spawn kind) =>
      some { s with
        threads := s.threads.set t k ++ [[.run (.call (program kind))]]
        kinds := s.kinds ++ [kind] }
  | .run (.set flag value) =>
      some { s.resume t k with flags := Function.update s.flags flag value }
  | .run (.seq first second) => some (s.resume t (.run first :: .run second :: k))
  | .run (.ite first second) => some (s.resume t (.run (if choice then first else second) :: k))
  | .run (.test flag first second) =>
      some (s.resume t (.run (if s.flags flag then first else second) :: k))
  | .run (.loop b) =>
      some (s.resume t (if choice then .run b :: .again b :: k else k))
  | .run .brk => some (s.resume t (breaks k))
  | .run .cont => some (s.resume t (continues k))
  | .run .ret => some (s.resume t (unwind k))
  | .run (.call b) => some (s.resume t (.run b :: .returns (s.holding t) :: k))
  | .again b => some (s.resume t (.run (.loop b) :: k))
  | .returns _ => some (s.resume t k)
  | .asleep m => some (s.resume t (.run (.lock m) :: k))

def State.step (program : κ → Stmt μ β κ φ) (s : State μ β κ φ) (a : Nat × Bool) :
    Option (State μ β κ φ) :=
  match s.threads[a.1]? with
  | some (f :: k) => s.runFrame program a.1 a.2 k f
  | _ => none

/-- One thread of the kind `main`, with no mutex held or destroyed and no flag set. -/
def lockMachine (program : κ → Stmt μ β κ φ) (main : κ) :
    Machine (State μ β κ φ) (Nat × Bool) :=
  ⟨⟨[[.run (.call (program main))]], [main], fun _ => none, fun _ => false, fun _ => false⟩,
    State.step program⟩

end Steps

/-! ## The discipline -/

/-- The mutex a thread is about to lock. -/
def State.awaits (s : State μ β κ φ) (t : Nat) : Option μ :=
  match s.threads[t]? with
  | some (.run (.lock m) :: _) => some m
  | _ => none

/-- Thread `t` is blocked on a mutex that `u` holds. -/
def State.WaitsFor (s : State μ β κ φ) (t u : Nat) : Prop :=
  ∃ m, s.awaits t = some m ∧ s.holder m = some u

structure Disciplined (s : State μ β κ φ) : Prop where
  acyclic : ∀ t, ¬ Relation.TransGen s.WaitsFor t t
  relock : ∀ t m, s.awaits t = some m → s.holder m ≠ some t
  unlock : ∀ (t : Nat) m k, s.threads[t]? = some (.run (.unlock m) :: k) → s.holder m = some t
  /-- A condition wait releases the only mutex its thread holds. -/
  wait : ∀ (t : Nat) m k, s.threads[t]? = some (.run (.wait m) :: k) →
    ∀ m', s.holder m' = some t ↔ m' = m
  asleep : ∀ (t : Nat) m k, s.threads[t]? = some (.asleep m :: k) → ∀ m', s.holder m' ≠ some t
  block : ∀ (t : Nat) call k, s.threads[t]? = some (.run (.block call) :: k) →
    ∀ m, s.holder m ≠ some t
  join : ∀ (t : Nat) call kind k, s.threads[t]? = some (.run (.join call kind) :: k) →
    ∀ m, s.holder m ≠ some t
  /-- A function returns with the mutexes it was called with. -/
  returns : ∀ (t : Nat) entry k, s.threads[t]? = some (.returns entry :: k) →
    ∀ m, s.holder m = some t ↔ entry m = true
  ended : ∀ t : Nat, s.threads[t]? = some [] → ∀ m, s.holder m ≠ some t

section Pass

variable [DecidableEq μ]

/-! ## The static pass -/

/-- The mutexes that must be held where a break, a continue and a return lead; `none`
where there is no such place. -/
structure Exits (μ : Type u) where
  brk : Option (List μ)
  cont : Option (List μ)
  ret : Option (List μ)

/-- Both ways of a test go on with the same mutexes, or one of them does not go on. -/
def merge (r r' : Option (List μ)) : Option (Option (List μ)) :=
  if r = none then some r' else if r' = none ∨ r' = r then some r else none

/-- `r` is where a loop or a function may end when it started with `held`. -/
def restores (held : List μ) (r : Option (List μ)) : Option (Option (List μ)) :=
  if r = none ∨ r = some held then some (some held) else none

/-- From the mutexes held before to those held after; inside, `none` when the
statement does not end normally. -/
def Stmt.flow (rank : μ → Nat) : Exits μ → Stmt μ β κ φ → List μ → Option (Option (List μ))
  | _, .act, held => some (some held)
  | _, .lock m, held =>
      if ∀ m' ∈ held, rank m' < rank m then some (some (m :: held)) else none
  | _, .unlock m, held => if m ∈ held then some (some (held.filter (· ≠ m))) else none
  | _, .wait m, held => if held = [m] then some (some held) else none
  | _, .destroy _, held => some (some held)
  | _, .block _, held => if held = [] then some (some held) else none
  | _, .join _ _, held => if held = [] then some (some held) else none
  | _, .spawn _, held => some (some held)
  | _, .set _ _, held => some (some held)
  | e, .seq first second, held =>
      match first.flow rank e held with
      | some (some held') => second.flow rank e held'
      | r => r
  | e, .ite first second, held =>
      (first.flow rank e held).bind fun r => (second.flow rank e held).bind fun r' => merge r r'
  | e, .test _ first second, held =>
      (first.flow rank e held).bind fun r => (second.flow rank e held).bind fun r' => merge r r'
  | e, .loop b, held => (b.flow rank ⟨some held, some held, e.ret⟩ held).bind (restores held)
  | e, .brk, held => if e.brk = some held then some none else none
  | e, .cont, held => if e.cont = some held then some none else none
  | e, .ret, held => if e.ret = some held then some none else none
  | _, .call b, held => (b.flow rank ⟨none, none, some held⟩ held).bind (restores held)

/-- The body of a thread starts and ends with no mutex. -/
def Checked (rank : μ → Nat) (program : Stmt μ β κ φ) : Prop :=
  (Stmt.call program).flow rank ⟨none, none, none⟩ [] = some (some [])

instance (rank : μ → Nat) (program : Stmt μ β κ φ) : Decidable (Checked rank program) :=
  inferInstanceAs (Decidable (_ = _))

theorem merge_left {r r' r'' : Option (List μ)} (h : merge r r' = some r'') :
    r = none ∨ r = r'' := by
  unfold merge at h
  split at h
  · exact Or.inl ‹_›
  · split at h <;> cases h
    exact Or.inr rfl

theorem merge_right {r r' r'' : Option (List μ)} (h : merge r r' = some r'') :
    r' = none ∨ r' = r'' := by
  unfold merge at h
  split at h
  · cases h
    exact Or.inr rfl
  · split at h <;> cases h
    assumption

theorem restores_eq_some {held : List μ} {r r' : Option (List μ)}
    (h : restores held r = some r') : (r = none ∨ r = some held) ∧ r' = some held := by
  unfold restores at h
  split at h <;> cases h
  exact ⟨‹_›, rfl⟩

/-! ## Typed stacks -/

/-- `Typed rank e r k`: with the mutexes `r` held the frames `k` can be run, and with the
ones in `e` they can be left by a break, a continue or a return. Where `r` is `none` the
frames are only left. -/
inductive Typed (rank : μ → Nat) : Exits μ → Option (List μ) → List (Frame μ β κ φ) → Prop where
  | done {r : Option (List μ)} (hr : r = none ∨ r = some []) : Typed rank ⟨none, none, none⟩ r []
  | run {e : Exits μ} {stmt : Stmt μ β κ φ} {held : List μ} {r : Option (List μ)}
      {k : List (Frame μ β κ φ)} (hflow : stmt.flow rank e held = some r) (hk : Typed rank e r k) :
      Typed rank e (some held) (.run stmt :: k)
  | dead {e : Exits μ} {stmt : Stmt μ β κ φ} {k : List (Frame μ β κ φ)} (hk : Typed rank e none k) :
      Typed rank e none (.run stmt :: k)
  | again {e : Exits μ} {body : Stmt μ β κ φ} {held : List μ} {r : Option (List μ)}
      {k : List (Frame μ β κ φ)} (hr : r = none ∨ r = some held)
      (hflow : (Stmt.loop body).flow rank e held = some (some held))
      (hk : Typed rank e (some held) k) :
      Typed rank ⟨some held, some held, e.ret⟩ r (.again body :: k)
  | returns {e : Exits μ} {entry : μ → Bool} {held : List μ} {r : Option (List μ)}
      {k : List (Frame μ β κ φ)} (hr : r = none ∨ r = some held)
      (hentry : ∀ m, m ∈ held ↔ entry m = true) (hk : Typed rank e (some held) k) :
      Typed rank ⟨none, none, some held⟩ r (.returns entry :: k)
  | asleep {e : Exits μ} {m : μ} {r : Option (List μ)} {k : List (Frame μ β κ φ)}
      (hr : r = none ∨ r = some []) (hk : Typed rank e (some [m]) k) :
      Typed rank e r (.asleep m :: k)

variable {rank : μ → Nat} {e : Exits μ} {held : List μ} {r : Option (List μ)}
  {k : List (Frame μ β κ φ)}

theorem Typed.weaken (h : Typed rank e r k) : Typed rank e none k := by
  induction h with
  | done _ => exact .done (Or.inl rfl)
  | run _ _ ih => exact .dead ih
  | dead _ ih => exact .dead ih
  | again _ hflow hk _ => exact .again (Or.inl rfl) hflow hk
  | returns _ hentry hk _ => exact .returns (Or.inl rfl) hentry hk
  | asleep _ hk _ => exact .asleep (Or.inl rfl) hk

theorem Typed.of_or {r' : Option (List μ)} (h : Typed rank e r k) (hr : r' = none ∨ r' = r) :
    Typed rank e r' k := by
  rcases hr with rfl | rfl
  · exact h.weaken
  · exact h

theorem Typed.breaks (h : Typed rank e r k) (he : e.brk = some held) :
    ∃ e', Typed rank e' (some held) (Locking.breaks k) := by
  induction h with
  | done _ => cases he
  | run _ _ ih | dead _ ih => exact ih he
  | again _ _ hk _ =>
      cases he
      exact ⟨_, hk⟩
  | returns _ _ _ _ => cases he
  | asleep _ _ ih => exact ih he

theorem Typed.continues (h : Typed rank e r k) (he : e.cont = some held) :
    ∃ e', Typed rank e' (some held) (Locking.continues k) := by
  induction h with
  | done _ => cases he
  | run _ _ ih | dead _ ih => exact ih he
  | again _ hflow hk _ =>
      cases he
      exact ⟨_, .again (Or.inr rfl) hflow hk⟩
  | returns _ _ _ _ => cases he
  | asleep _ _ ih => exact ih he

theorem Typed.unwind (h : Typed rank e r k) (he : e.ret = some held) :
    ∃ e', Typed rank e' (some held) (Locking.unwind k) := by
  induction h with
  | done _ => cases he
  | run _ _ ih | dead _ ih | again _ _ _ ih => exact ih he
  | returns _ hentry hk _ =>
      cases he
      exact ⟨_, .returns (Or.inr rfl) hentry hk⟩
  | asleep _ _ ih => exact ih he

theorem typed_start {program : Stmt μ β κ φ} (h : Checked rank program) :
    Typed rank ⟨none, none, none⟩ (some []) [.run (.call program)] :=
  .run h (.done (Or.inr rfl))

/-! ## What a step keeps -/

def State.Holds (rank : μ → Nat) (s : State μ β κ φ) (t : Nat) (k : List (Frame μ β κ φ)) : Prop :=
  ∃ e held, Typed rank e (some held) k ∧ ∀ m, s.holder m = some t ↔ m ∈ held

structure LockInv (rank : μ → Nat) (s : State μ β κ φ) : Prop where
  typed : ∀ (t : Nat) k, s.threads[t]? = some k → s.Holds rank t k
  bound : ∀ m t, s.holder m = some t → t < s.threads.length

theorem lockInv_start [DecidableEq κ] [DecidableEq φ] {program : κ → Stmt μ β κ φ} {main : κ}
    (h : Checked rank (program main)) :
    LockInv rank (lockMachine program main).start where
  typed t k hk := by
    obtain ⟨ht, rfl⟩ : t = 0 ∧ k = [.run (.call (program main))] := by
      cases t with
      | zero => exact ⟨rfl, by simpa [lockMachine] using hk.symm⟩
      | succ t => simp [lockMachine] at hk
    exact ⟨_, [], typed_start h, fun m => by simp [lockMachine]⟩
  bound m t hm := by cases hm

/-- One thread moves; the others keep their stacks and their mutexes. -/
theorem LockInv.of_thread {s s' : State μ β κ φ} {t : Nat} {k' : List (Frame μ β κ φ)}
    (h : LockInv rank s) (hlt : t < s.threads.length) (hthreads : s'.threads = s.threads.set t k')
    (hholds : s'.Holds rank t k')
    (hothers : ∀ m u, u ≠ t → (s'.holder m = some u ↔ s.holder m = some u)) :
    LockInv rank s' where
  typed u k hk := by
    rw [hthreads, List.getElem?_set] at hk
    by_cases hu : t = u
    · subst hu
      simp only [if_true, hlt, Option.some.injEq] at hk
      exact hk ▸ hholds
    · rw [if_neg hu] at hk
      obtain ⟨e, held, htyped, hholder⟩ := h.typed u k hk
      exact ⟨e, held, htyped, fun m => (hothers m u (Ne.symm hu)).trans (hholder m)⟩
  bound m u hm := by
    rw [hthreads, List.length_set]
    by_cases hu : u = t
    · exact hu ▸ hlt
    · exact h.bound m u ((hothers m u hu).mp hm)

theorem LockInv.proceed {s s' : State μ β κ φ} {t : Nat} {k k' : List (Frame μ β κ φ)}
    {e' : Exits μ} {held' : List μ} (h : LockInv rank s) (hk : s.threads[t]? = some k)
    (hholder : ∀ m, s.holder m = some t ↔ m ∈ held') (htyped : Typed rank e' (some held') k')
    (hthreads : s'.threads = s.threads.set t k') (hsame : s'.holder = s.holder) :
    LockInv rank s' := by
  refine h.of_thread (List.getElem?_eq_some_iff.mp hk).1 hthreads ⟨e', held', htyped, ?_⟩ ?_
  · intro m
    rw [hsame]
    exact hholder m
  · intro m u _
    rw [hsame]

theorem LockInv.resume {s : State μ β κ φ} {t : Nat} {k k' : List (Frame μ β κ φ)} {e' : Exits μ}
    {held' : List μ} (h : LockInv rank s) (hk : s.threads[t]? = some k)
    (hholder : ∀ m, s.holder m = some t ↔ m ∈ held') (htyped : Typed rank e' (some held') k') :
    LockInv rank (s.resume t k') :=
  h.proceed hk hholder htyped rfl rfl

theorem LockInv.lock {s : State μ β κ φ} {t : Nat} {m : μ} {k k' : List (Frame μ β κ φ)}
    (h : LockInv rank s) (hk : s.threads[t]? = some k) (hfree : s.holder m = none)
    (hholder : ∀ m', s.holder m' = some t ↔ m' ∈ held)
    (htyped : Typed rank e (some (m :: held)) k') :
    LockInv rank { s.resume t k' with holder := Function.update s.holder m (some t) } := by
  refine h.of_thread (List.getElem?_eq_some_iff.mp hk).1 rfl ⟨e, m :: held, htyped, ?_⟩ ?_
  · intro m'
    by_cases hm : m' = m
    · subst hm
      simp
    · simp [hm, hholder]
  · intro m' u hu
    by_cases hm : m' = m
    · subst hm
      simp [hfree, Ne.symm hu]
    · simp [hm]

theorem LockInv.unlock {s : State μ β κ φ} {t : Nat} {m : μ} {k k' : List (Frame μ β κ φ)}
    (h : LockInv rank s) (hk : s.threads[t]? = some k)
    (hholder : ∀ m', s.holder m' = some t ↔ m' ∈ held) (hmem : m ∈ held)
    (htyped : Typed rank e (some (held.filter (· ≠ m))) k') :
    LockInv rank { s.resume t k' with holder := Function.update s.holder m none } := by
  have hown : s.holder m = some t := (hholder m).mpr hmem
  refine h.of_thread (List.getElem?_eq_some_iff.mp hk).1 rfl ⟨e, _, htyped, ?_⟩ ?_
  · intro m'
    by_cases hm : m' = m
    · subst hm
      simp
    · simp [hm, hholder]
  · intro m' u hu
    by_cases hm : m' = m
    · subst hm
      simp [hown, Ne.symm hu]
    · simp [hm]

theorem LockInv.spawn {s : State μ β κ φ} {t : Nat} {program : Stmt μ β κ φ} {kinds : List κ}
    {k k' : List (Frame μ β κ φ)} (h : LockInv rank s) (hprogram : Checked rank program)
    (hk : s.threads[t]? = some k) (hholder : ∀ m, s.holder m = some t ↔ m ∈ held)
    (htyped : Typed rank e (some held) k') :
    LockInv rank { s with
      threads := s.threads.set t k' ++ [[.run (.call program)]]
      kinds := kinds } := by
  have hmoved := h.resume hk hholder htyped
  constructor
  · intro u ku hku
    rcases Nat.lt_trichotomy u s.threads.length with hlt | heq | hgt
    · rw [List.getElem?_append_left (by simpa using hlt)] at hku
      exact hmoved.typed u ku hku
    · subst heq
      have hnew : ku = [.run (.call program)] := by simpa using hku.symm
      subst hnew
      refine ⟨_, [], typed_start hprogram, fun m => ?_⟩
      simp only [List.not_mem_nil, iff_false]
      intro hm
      exact Nat.lt_irrefl _ (h.bound m _ hm)
    · rw [List.getElem?_eq_none (by simp; omega)] at hku
      cases hku
  · intro m u hm
    have hlt := h.bound m u hm
    simp
    omega

section Runs

variable [DecidableEq κ] [DecidableEq φ]

theorem LockInv.runStmt {program : κ → Stmt μ β κ φ} {s s' : State μ β κ φ} {t : Nat}
    {choice : Bool} {stmt : Stmt μ β κ φ} (hprogram : ∀ kind, Checked rank (program kind))
    (h : LockInv rank s) (hk : s.threads[t]? = some (.run stmt :: k))
    (hholder : ∀ m, s.holder m = some t ↔ m ∈ held) (hflow : stmt.flow rank e held = some r)
    (hlive : ∀ m, s.awaits t = some m → s.destroyed m = false)
    (hrest : Typed rank e r k) (hs : s.runFrame program t choice k (.run stmt) = some s') :
    LockInv rank s' := by
  cases stmt with
  | act =>
      cases hflow
      cases hs
      exact h.resume hk hholder hrest
  | lock m =>
      simp only [Stmt.flow] at hflow
      simp only [State.runFrame] at hs
      rw [hlive m (by simp [State.awaits, hk]), if_neg Bool.false_ne_true] at hs
      split at hflow <;> cases hflow
      split at hs <;> cases hs
      exact h.lock hk ‹_› hholder hrest
  | unlock m =>
      simp only [Stmt.flow] at hflow
      cases hs
      split at hflow <;> cases hflow
      exact h.unlock hk hholder ‹_› hrest
  | wait m =>
      simp only [Stmt.flow] at hflow
      cases hs
      split at hflow <;> cases hflow
      next hheld =>
        subst hheld
        exact h.unlock hk hholder (List.mem_singleton.mpr rfl)
          (.asleep (Or.inr (by simp)) hrest)
  | destroy m =>
      cases hflow
      simp only [State.runFrame] at hs
      split at hs <;> cases hs
      · exact h.proceed hk hholder hrest rfl rfl
      · exact h.resume hk hholder hrest
  | block call =>
      simp only [Stmt.flow] at hflow
      cases hs
      split at hflow <;> cases hflow
      exact h.resume hk hholder hrest
  | join call kind =>
      simp only [Stmt.flow] at hflow
      simp only [State.runFrame] at hs
      split at hflow <;> cases hflow
      split at hs <;> cases hs
      exact h.resume hk hholder hrest
  | set flag value =>
      cases hflow
      cases hs
      exact h.proceed hk hholder hrest rfl rfl
  | test flag first second =>
      obtain ⟨r₁, hfirst, hrest₁⟩ := Option.bind_eq_some_iff.mp hflow
      obtain ⟨r₂, hsecond, hmerge⟩ := Option.bind_eq_some_iff.mp hrest₁
      cases hs
      cases s.flags flag with
      | true => exact h.resume hk hholder (.run hfirst (hrest.of_or (merge_left hmerge)))
      | false => exact h.resume hk hholder (.run hsecond (hrest.of_or (merge_right hmerge)))
  | spawn kind =>
      cases hflow
      cases hs
      exact h.spawn (hprogram kind) hk hholder hrest
  | seq first second =>
      simp only [Stmt.flow] at hflow
      cases hs
      have htyped : Typed rank e (some held) (.run first :: .run second :: k) := by
        split at hflow
        · next held' hfirst => exact .run hfirst (.run hflow hrest)
        · next hdead =>
            cases r with
            | none => exact .run hflow (.dead hrest)
            | some held' => exact absurd hflow (hdead held')
      exact h.resume hk hholder htyped
  | ite first second =>
      obtain ⟨r₁, hfirst, hrest₁⟩ := Option.bind_eq_some_iff.mp hflow
      obtain ⟨r₂, hsecond, hmerge⟩ := Option.bind_eq_some_iff.mp hrest₁
      cases hs
      cases choice with
      | true => exact h.resume hk hholder (.run hfirst (hrest.of_or (merge_left hmerge)))
      | false => exact h.resume hk hholder (.run hsecond (hrest.of_or (merge_right hmerge)))
  | loop b =>
      obtain ⟨r₁, hbody, hrestores⟩ := Option.bind_eq_some_iff.mp hflow
      obtain ⟨hr₁, rfl⟩ := restores_eq_some hrestores
      cases hs
      cases choice with
      | true => exact h.resume hk hholder (.run hbody (.again hr₁ hflow hrest))
      | false => exact h.resume hk hholder hrest
  | brk =>
      simp only [Stmt.flow] at hflow
      cases hs
      split at hflow <;> cases hflow
      obtain ⟨e', htyped⟩ := hrest.breaks ‹_›
      exact h.resume hk hholder htyped
  | cont =>
      simp only [Stmt.flow] at hflow
      cases hs
      split at hflow <;> cases hflow
      obtain ⟨e', htyped⟩ := hrest.continues ‹_›
      exact h.resume hk hholder htyped
  | ret =>
      simp only [Stmt.flow] at hflow
      cases hs
      split at hflow <;> cases hflow
      obtain ⟨e', htyped⟩ := hrest.unwind ‹_›
      exact h.resume hk hholder htyped
  | call b =>
      obtain ⟨r₁, hbody, hrestores⟩ := Option.bind_eq_some_iff.mp hflow
      obtain ⟨hr₁, rfl⟩ := restores_eq_some hrestores
      cases hs
      refine h.resume hk hholder (.run hbody (.returns hr₁ ?_ hrest))
      intro m
      simp [State.holding, ← hholder m]

theorem LockInv.step {program : κ → Stmt μ β κ φ} {s s' : State μ β κ φ} {a : Nat × Bool}
    (hprogram : ∀ kind, Checked rank (program kind)) (h : LockInv rank s)
    (hlive : ∀ m, s.awaits a.1 = some m → s.destroyed m = false)
    (hs : s.step program a = some s') : LockInv rank s' := by
  unfold State.step at hs
  split at hs
  · next f k hk =>
      obtain ⟨e, held, htyped, hholder⟩ := h.typed _ _ hk
      cases htyped with
      | run hflow hrest => exact h.runStmt hprogram hk hholder hflow hlive hrest hs
      | again hr hflow hrest =>
          cases hs
          rcases hr with hr | hr <;> cases hr
          exact h.resume hk hholder (.run hflow hrest)
      | returns hr _ hrest =>
          cases hs
          rcases hr with hr | hr <;> cases hr
          exact h.resume hk hholder hrest
      | asleep hr hrest =>
          cases hs
          rcases hr with hr | hr <;> cases hr
          exact h.resume hk hholder (.run (by simp [Stmt.flow]) hrest)
  · cases hs

end Runs

/-! ## The discipline holds -/

theorem LockInv.top {s : State μ β κ φ} {t : Nat} {stmt : Stmt μ β κ φ} (h : LockInv rank s)
    (hk : s.threads[t]? = some (.run stmt :: k)) :
    ∃ e held r, stmt.flow rank e held = some r ∧ ∀ m, s.holder m = some t ↔ m ∈ held := by
  obtain ⟨e, held, htyped, hholder⟩ := h.typed t _ hk
  cases htyped with
  | run hflow _ => exact ⟨e, held, _, hflow, hholder⟩

omit [DecidableEq μ] in
theorem awaits_eq_some {s : State μ β κ φ} {t : Nat} {m : μ} (h : s.awaits t = some m) :
    ∃ k, s.threads[t]? = some (.run (.lock m) :: k) := by
  unfold State.awaits at h
  split at h
  · next k hk =>
      cases h
      exact ⟨k, hk⟩
  · cases h

theorem LockInv.rank_lt {s : State μ β κ φ} {t : Nat} {m m' : μ} (h : LockInv rank s)
    (hawaits : s.awaits t = some m) (hm' : s.holder m' = some t) : rank m' < rank m := by
  obtain ⟨k, hk⟩ := awaits_eq_some hawaits
  obtain ⟨e, held, r, hflow, hholder⟩ := h.top hk
  simp only [Stmt.flow] at hflow
  split at hflow
  · next hranks => exact hranks m' ((hholder m').mp hm')
  · cases hflow

/-- Along the wait-for graph the ranks waited for increase. -/
theorem LockInv.rank_le_of_waits {s : State μ β κ φ} {t u : Nat} (h : LockInv rank s)
    (hwaits : Relation.TransGen s.WaitsFor t u) :
    ∃ m m', s.awaits t = some m ∧ s.holder m' = some u ∧ rank m ≤ rank m' := by
  induction hwaits with
  | single hedge =>
      obtain ⟨m, hawaits, hm⟩ := hedge
      exact ⟨m, m, hawaits, hm, Nat.le_refl _⟩
  | tail _ hedge ih =>
      obtain ⟨m, m₁, hawaits, hm₁, hle⟩ := ih
      obtain ⟨m₂, hawaits₂, hm₂⟩ := hedge
      have hlt := h.rank_lt hawaits₂ hm₁
      exact ⟨m, m₂, hawaits, hm₂, by omega⟩

theorem LockInv.disciplined {s : State μ β κ φ} (h : LockInv rank s) : Disciplined s where
  acyclic t hcycle := by
    obtain ⟨m, m', hawaits, hm', hle⟩ := h.rank_le_of_waits hcycle
    exact absurd (h.rank_lt hawaits hm') (Nat.not_lt.mpr hle)
  relock t m hawaits hm := absurd (h.rank_lt hawaits hm) (Nat.lt_irrefl _)
  unlock t m k hk := by
    obtain ⟨e, held, r, hflow, hholder⟩ := h.top hk
    simp only [Stmt.flow] at hflow
    split at hflow
    · exact (hholder m).mpr ‹_›
    · cases hflow
  wait t m k hk m' := by
    obtain ⟨e, held, r, hflow, hholder⟩ := h.top hk
    simp only [Stmt.flow] at hflow
    split at hflow
    · next hheld => rw [hholder, hheld, List.mem_singleton]
    · cases hflow
  asleep t m k hk m' hm' := by
    obtain ⟨e, held, htyped, hholder⟩ := h.typed t _ hk
    cases htyped with
    | asleep hr _ =>
        rcases hr with hr | hr <;> cases hr
        exact absurd ((hholder m').mp hm') List.not_mem_nil
  block t call k hk m hm := by
    obtain ⟨e, held, r, hflow, hholder⟩ := h.top hk
    simp only [Stmt.flow] at hflow
    split at hflow
    · next hheld =>
        rw [hholder, hheld] at hm
        exact List.not_mem_nil hm
    · cases hflow
  join t call kind k hk m hm := by
    obtain ⟨e, held, r, hflow, hholder⟩ := h.top hk
    simp only [Stmt.flow] at hflow
    split at hflow
    · next hheld =>
        rw [hholder, hheld] at hm
        exact List.not_mem_nil hm
    · cases hflow
  returns t entry k hk m := by
    obtain ⟨e, held, htyped, hholder⟩ := h.typed t _ hk
    cases htyped with
    | returns hr hentry _ =>
        rcases hr with hr | hr <;> cases hr
        exact (hholder m).trans (hentry m)
  ended t hk m hm := by
    obtain ⟨e, held, htyped, hholder⟩ := h.typed t _ hk
    cases htyped with
    | done hr =>
        rcases hr with hr | hr <;> cases hr
        exact List.not_mem_nil ((hholder m).mp hm)

section Moves

variable [DecidableEq κ] [DecidableEq φ]

/-- A thread that holds a mutex can move, unless it is blocked on a higher one. -/
theorem LockInv.moves_or_blocked (program : κ → Stmt μ β κ φ) {s : State μ β κ φ} {t : Nat} {m : μ}
    (h : LockInv rank s) (hm : s.holder m = some t) :
    (∃ s', s.step program (t, true) = some s') ∨
      ∃ m' u, s.awaits t = some m' ∧ s.holder m' = some u ∧ rank m < rank m' := by
  have hlt := h.bound m t hm
  obtain ⟨frames, hframes⟩ : ∃ frames, s.threads[t]? = some frames :=
    ⟨_, List.getElem?_eq_getElem hlt⟩
  cases frames with
  | nil => exact absurd hm (h.disciplined.ended t hframes m)
  | cons f k =>
      cases hs : s.step program (t, true) with
      | some s' => exact Or.inl ⟨s', rfl⟩
      | none =>
          simp only [State.step, hframes] at hs
          cases f with
          | run stmt =>
              cases stmt with
              | lock m' =>
                  simp only [State.runFrame] at hs
                  split at hs
                  · cases hs
                  · split at hs
                    · cases hs
                    · next hheld =>
                        obtain ⟨u, hu⟩ := Option.ne_none_iff_exists'.mp hheld
                        have hawaits : s.awaits t = some m' := by
                          simp [State.awaits, hframes]
                        exact Or.inr ⟨m', u, hawaits, hu, h.rank_lt hawaits hm⟩
              | join call kind => exact absurd hm (h.disciplined.join t call kind k hframes m)
              | destroy m' =>
                  simp only [State.runFrame] at hs
                  split at hs <;> cases hs
              | _ => cases hs
          | _ => cases hs

/-- The chain of threads blocked on mutexes ends with a holder that can move. -/
theorem LockInv.holder_moves (program : κ → Stmt μ β κ φ) {s : State μ β κ φ} (h : LockInv rank s)
    {top : Nat} (htop : ∀ m, rank m ≤ top) (left : Nat) :
    ∀ {t : Nat} {m : μ}, top - rank m ≤ left → s.holder m = some t →
      ∃ u m', s.holder m' = some u ∧ ∃ s', s.step program (u, true) = some s' := by
  induction left with
  | zero =>
      intro t m hleft hm
      rcases h.moves_or_blocked program hm with hmoves | ⟨m', _, _, _, hrank⟩
      · exact ⟨t, m, hm, hmoves⟩
      · have hbound := htop m'
        omega
  | succ left ih =>
      intro t m hleft hm
      rcases h.moves_or_blocked program hm with hmoves | ⟨m', u, _, hu, hrank⟩
      · exact ⟨t, m, hm, hmoves⟩
      · exact ih (by omega) hu

end Moves

end Pass

end RsvpControl.Core.Locking
