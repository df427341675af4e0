import RsvpControl.Server.CommandQueue

/-! # The command queue refines a bounded FIFO

Any sequence of interface calls after `queue_init`, with allocation failing at
any push, is matched call by call by the abstract queue of commands. The
correspondence is carried by the list of queued blocks, each live and holding
the command of its position.
-/

namespace RsvpControl.Server

open RsvpControl.Core

/-! ## Calls on the two levels -/

/-- One call of the queue's interface; a push carries the outcome of its
allocation. -/
inductive QueueCall where
  | push (cmd : Command) (mallocOk : Bool)
  | pop
  | isEmpty
  | cleanup

structure QueueState where
  heap : CommandHeap
  queue : CommandQueue

def QueueState.init : QueueState := ⟨[], queueInit⟩

def QueueState.call (s : QueueState) : QueueCall → QueueState
  | .push cmd mallocOk =>
      let r := queuePush s.heap s.queue cmd mallocOk
      ⟨r.1, r.2.1⟩
  | .pop => ⟨s.heap, (queuePop s.queue).1⟩
  | .isEmpty => s
  | .cleanup =>
      let r := queueCleanup s.heap s.queue
      ⟨r.1, r.2⟩

def QueueState.calls (s : QueueState) (cs : List QueueCall) : QueueState :=
  cs.foldl QueueState.call s

/-- The abstract queue's view of a call. -/
def fifoCall (xs : List Command) : QueueCall → List Command
  | .push cmd mallocOk =>
      if mallocOk then (Fifo.push MAX_QUEUE_SIZE xs cmd).getD xs else xs
  | .pop => xs.tail
  | .isEmpty => xs
  | .cleanup => []

def fifoCalls (xs : List Command) (cs : List QueueCall) : List Command := cs.foldl fifoCall xs

def QueueState.contents (s : QueueState) : List (Option Command) :=
  (List.range s.queue.count.toNat).map fun k =>
    (s.queue.commands[(s.queue.front.toNat + k) % MAX_QUEUE_SIZE]?.join).bind s.heap.deref

/-- The concrete queue represents distinct live blocks holding `xs`. -/
def QueueState.Holds (s : QueueState) (blocks : List Nat) (xs : List Command) : Prop :=
  Represents s.queue blocks ∧ blocks.Nodup ∧ blocks.map s.heap.deref = xs.map some

namespace QueueState.Holds

variable {s : QueueState} {blocks : List Nat} {xs : List Command}

theorem length_eq (h : s.Holds blocks xs) : blocks.length = xs.length := by
  simpa using congrArg List.length h.2.2

theorem deref_of_mem (h : s.Holds blocks xs) {a : Nat} (ha : a ∈ blocks) :
    ∃ cmd, s.heap.deref a = some cmd := by
  have hmem : s.heap.deref a ∈ xs.map some := by
    rw [← h.2.2]
    exact List.mem_map_of_mem ha
  obtain ⟨cmd, _, hcmd⟩ := List.mem_map.mp hmem
  exact ⟨cmd, hcmd.symm⟩

theorem contents_eq (h : s.Holds blocks xs) : s.contents = xs.map some := by
  have hcount : s.queue.count.toNat = blocks.length := by rw [h.1.count_eq]; omega
  have hle := h.1.length_le
  rw [← h.2.2]
  apply List.ext_getElem?
  intro k
  simp only [contents, hcount, List.getElem?_map]
  by_cases hk : k < blocks.length
  · rw [List.getElem?_range hk, List.getElem?_eq_getElem hk, Option.map_some, Option.map_some,
      h.1.slot (by omega), List.getElem?_eq_getElem hk]
    rfl
  · rw [List.getElem?_eq_none (by simpa using hk), List.getElem?_eq_none (by omega)]
    rfl

theorem push (h : s.Holds blocks xs) (hroom : xs.length < MAX_QUEUE_SIZE) (cmd : Command) :
    (queuePush s.heap s.queue cmd true).2.2 = true ∧
      (s.call (.push cmd true)).Holds (blocks ++ [s.heap.length]) (xs ++ [cmd]) := by
  obtain ⟨queue', hpush, hrep⟩ := h.1.push_room (by rw [h.length_eq]; exact hroom) s.heap cmd
  refine ⟨by rw [hpush], ?_⟩
  simp only [QueueState.call, hpush]
  refine ⟨hrep, ?_, ?_⟩
  · rw [List.nodup_append]
    refine ⟨h.2.1, by simp, ?_⟩
    intro a ha b hb hab
    obtain ⟨c, hc⟩ := h.deref_of_mem ha
    have hlt := Heap.lt_length_of_deref hc
    rw [List.mem_singleton] at hb
    omega
  · rw [List.map_append, List.map_append, ← h.2.2]
    congr 1
    · refine List.map_congr_left fun a ha => ?_
      obtain ⟨c, hc⟩ := h.deref_of_mem ha
      rw [hc, Heap.alloc_deref_of_some hc]
    · exact congrArg (· :: []) Heap.alloc_deref_new

theorem pop (h : s.Holds blocks xs) : (s.call .pop).Holds blocks.tail xs.tail := by
  cases blocks with
  | nil =>
      have hxs : xs = [] := List.length_eq_zero_iff.mp h.length_eq.symm
      subst hxs
      simpa only [QueueState.call, h.1.pop_empty, List.tail_nil] using h
  | cons block rest =>
      obtain ⟨queue', hpop, hrep⟩ := h.1.pop_cons
      cases xs with
      | nil => exact absurd h.length_eq (by simp)
      | cons x xs =>
          have hderef := h.2.2
          simp only [List.map_cons, List.cons.injEq] at hderef
          simp only [QueueState.call, hpop, List.tail_cons]
          exact ⟨hrep, (List.nodup_cons.mp h.2.1).2, hderef.2⟩

theorem cleanup (h : s.Holds blocks xs) : (s.call .cleanup).Holds [] [] := by
  obtain ⟨queue', hclean, hrep⟩ := queueCleanup_of_represents h.1 s.heap
  simp only [QueueState.call, hclean]
  exact ⟨hrep, List.nodup_nil, rfl⟩

theorem push_rejected (h : s.Holds blocks xs) {mallocOk : Bool}
    (hno : ¬ (xs.length < MAX_QUEUE_SIZE ∧ mallocOk = true)) (cmd : Command) :
    queuePush s.heap s.queue cmd mallocOk = (s.heap, s.queue, false) := by
  cases mallocOk with
  | false => exact queuePush_no_memory _ _ _
  | true =>
      have hle := h.1.length_le
      rw [h.length_eq] at hle
      simp only [and_true, Nat.not_lt] at hno
      exact h.1.push_full (by rw [h.length_eq]; omega) s.heap cmd true

theorem call (h : s.Holds blocks xs) (c : QueueCall) :
    ∃ blocks', (s.call c).Holds blocks' (fifoCall xs c) := by
  cases c with
  | push cmd mallocOk =>
      by_cases hok : xs.length < MAX_QUEUE_SIZE ∧ mallocOk = true
      · obtain ⟨hroom, rfl⟩ := hok
        simp only [fifoCall, Fifo.push, if_pos hroom]
        exact ⟨_, (h.push hroom cmd).2⟩
      · have hspec : fifoCall xs (.push cmd mallocOk) = xs := by
          cases mallocOk with
          | false => rfl
          | true =>
              simp only [and_true] at hok
              simp only [fifoCall, Fifo.push, if_neg hok, if_true, Option.getD_none]
        rw [hspec, QueueState.call, h.push_rejected hok]
        exact ⟨blocks, h⟩
  | pop => exact ⟨_, h.pop⟩
  | isEmpty => exact ⟨_, h⟩
  | cleanup => exact ⟨_, h.cleanup⟩

end QueueState.Holds

theorem calls_hold (cs : List QueueCall) :
    ∃ blocks, (QueueState.init.calls cs).Holds blocks (fifoCalls [] cs) := by
  have hrun : ∀ (cs : List QueueCall) (s : QueueState) (blocks : List Nat) (xs : List Command),
      s.Holds blocks xs → ∃ blocks', (s.calls cs).Holds blocks' (fifoCalls xs cs) := by
    intro cs
    induction cs with
    | nil => exact fun s blocks xs h => ⟨blocks, h⟩
    | cons c cs ih =>
        intro s blocks xs h
        obtain ⟨blocks', h'⟩ := h.call c
        exact ih _ _ _ h'
  exact hrun cs _ [] [] ⟨represents_queueInit, List.nodup_nil, rfl⟩

/-! ## The refinement theorem -/

theorem freeAll_blocks_of_holds {s : QueueState} {blocks : List Nat} {xs : List Command}
    (h : s.Holds blocks xs) (b : Nat) :
    (s.call .cleanup).heap.frees b = s.heap.frees b + if b ∈ blocks then 1 else 0 := by
  obtain ⟨queue', hclean, _⟩ := queueCleanup_of_represents h.1 s.heap
  simp only [QueueState.call, hclean]
  refine freeAll_frees h.2.1 ?_ b
  intro a ha
  obtain ⟨cmd, hcmd⟩ := h.deref_of_mem ha
  exact Heap.lt_length_of_deref hcmd

/-- The counters stay in range and consistent, and the occupied slots are
exactly the `count` slots starting at `front`. -/
def CommandQueue.WellFormed (queue : CommandQueue) : Prop :=
  (0 ≤ queue.count ∧ queue.count ≤ MAX_QUEUE_SIZE) ∧
    (0 ≤ queue.front ∧ queue.front < MAX_QUEUE_SIZE) ∧
    (0 ≤ queue.rear ∧ queue.rear < MAX_QUEUE_SIZE) ∧
    queue.rear = (queue.front + queue.count) % MAX_QUEUE_SIZE ∧
    queue.commands.length = MAX_QUEUE_SIZE ∧
    ∀ k < MAX_QUEUE_SIZE,
      queue.commands[(queue.front.toNat + k) % MAX_QUEUE_SIZE]? ≠ some none ↔
        (k : Int) < queue.count

theorem Represents.wellFormed {queue : CommandQueue} {blocks : List Nat}
    (h : Represents queue blocks) : queue.WellFormed :=
  ⟨h.count_range, h.front_range, h.rear_range, h.rear_eq, h.slots_length,
    fun _ hk => h.slot_nonnull_iff hk⟩

/-- What one further push does: it succeeds exactly when there is room and
memory, appending a copy, and otherwise changes nothing. -/
def PushSpec (s : QueueState) (xs : List Command) : Prop :=
  ∀ cmd mallocOk,
    ((queuePush s.heap s.queue cmd mallocOk).2.2 = true ↔
        xs.length < MAX_QUEUE_SIZE ∧ mallocOk = true) ∧
      ((queuePush s.heap s.queue cmd mallocOk).2.2 = true →
        (s.call (.push cmd mallocOk)).contents = (xs ++ [cmd]).map some) ∧
      ((queuePush s.heap s.queue cmd mallocOk).2.2 = false →
        s.call (.push cmd mallocOk) = s)

/-- What one further pop does: it hands out a block holding the oldest command,
or null exactly when the queue is empty. -/
def PopSpec (s : QueueState) (xs : List Command) : Prop :=
  ((queuePop s.queue).2 = none ↔ xs = []) ∧
    (∀ block, (queuePop s.queue).2 = some block → s.heap.deref block = xs.head?) ∧
    (s.call .pop).contents = xs.tail.map some

/-- Cleanup empties the queue and releases every queued block, each live until
then, and no other block. -/
def CleanupSpec (s : QueueState) : Prop :=
  (s.call .cleanup).contents = [] ∧ queueIsEmpty (s.call .cleanup).queue = true ∧
    ∀ block,
      (s.call .cleanup).heap.frees block =
          s.heap.frees block + (if some block ∈ s.queue.commands then 1 else 0) ∧
        (some block ∈ s.queue.commands → s.heap.frees block = 0)

theorem QueueState.Holds.pushSpec {s : QueueState} {blocks : List Nat} {xs : List Command}
    (h : s.Holds blocks xs) : PushSpec s xs := by
  intro cmd mallocOk
  by_cases hok : xs.length < MAX_QUEUE_SIZE ∧ mallocOk = true
  · obtain ⟨hroom, rfl⟩ := hok
    obtain ⟨hres, hafter⟩ := h.push hroom cmd
    refine ⟨by simp [hres, hroom], fun _ => hafter.contents_eq, ?_⟩
    intro hfail
    rw [hres] at hfail
    cases hfail
  · have hrej := h.push_rejected hok cmd
    refine ⟨by simp [hrej, hok], ?_, fun _ => by rw [QueueState.call, hrej]⟩
    intro hres
    rw [hrej] at hres
    cases hres

theorem QueueState.Holds.popSpec {s : QueueState} {blocks : List Nat} {xs : List Command}
    (h : s.Holds blocks xs) : PopSpec s xs := by
  refine ⟨?_, ?_, h.pop.contents_eq⟩
  · have hlen := h.length_eq
    cases blocks with
    | nil =>
        rw [h.1.pop_empty]
        simpa [eq_comm, List.length_eq_zero_iff] using hlen
    | cons block rest =>
        obtain ⟨queue', hpop, _⟩ := h.1.pop_cons
        rw [hpop]
        cases xs with
        | nil => exact absurd hlen (by simp)
        | cons x xs => simp
  · intro block hblock
    cases blocks with
    | nil =>
        rw [h.1.pop_empty] at hblock
        cases hblock
    | cons first rest =>
        obtain ⟨queue', hpop, _⟩ := h.1.pop_cons
        rw [hpop, Option.some.injEq] at hblock
        subst hblock
        cases xs with
        | nil => exact absurd h.length_eq (by simp)
        | cons x xs =>
            have hderef := h.2.2
            simp only [List.map_cons, List.cons.injEq] at hderef
            exact hderef.1

theorem QueueState.Holds.cleanupSpec {s : QueueState} {blocks : List Nat} {xs : List Command}
    (h : s.Holds blocks xs) : CleanupSpec s := by
  refine ⟨h.cleanup.contents_eq, h.cleanup.1.isEmpty_iff.mpr rfl, ?_⟩
  intro block
  refine ⟨?_, ?_⟩
  · rw [freeAll_blocks_of_holds h]
    simp only [h.1.mem_commands_iff]
  · intro hmem
    obtain ⟨cmd, hcmd⟩ := h.deref_of_mem ((h.1.mem_commands_iff block).mp hmem)
    exact Heap.frees_of_deref hcmd

/-- After any calls, with allocation failing at any push, the queue is well
formed, its contents are the abstract queue, and every further call acts on it
as the bounded FIFO does. -/
theorem queue_refines_bounded_fifo (cs : List QueueCall) :
    (QueueState.init.calls cs).queue.WellFormed ∧
      (QueueState.init.calls cs).contents = (fifoCalls [] cs).map some ∧
      PushSpec (QueueState.init.calls cs) (fifoCalls [] cs) ∧
      PopSpec (QueueState.init.calls cs) (fifoCalls [] cs) ∧
      (queueIsEmpty (QueueState.init.calls cs).queue = true ↔ fifoCalls [] cs = []) ∧
      CleanupSpec (QueueState.init.calls cs) := by
  obtain ⟨blocks, h⟩ := calls_hold cs
  refine ⟨h.1.wellFormed, h.contents_eq, h.pushSpec, h.popSpec, ?_, h.cleanupSpec⟩
  rw [h.1.isEmpty_iff, ← List.length_eq_zero_iff, h.length_eq, List.length_eq_zero_iff]

end RsvpControl.Server
