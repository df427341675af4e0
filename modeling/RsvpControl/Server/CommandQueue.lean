import RsvpControl.Core.Heap
import RsvpControl.Core.Ring
import RsvpControl.Server.Types

/-! # The command queue

The ring buffer of `command_queue.c` over an explicit heap: the slots hold
block names, so which block the queue owns and when it is released stay
visible. `Represents` ties the three counters and the slots to the list of
queued blocks; every operation keeps it and acts on that list as a bounded FIFO.
-/

namespace RsvpControl.Server

open RsvpControl.Core

structure CommandQueue where
  /-- Slot contents; `none` is the null pointer. -/
  commands : List (Option Nat)
  front : Int
  rear : Int
  count : Int
deriving DecidableEq, Repr

abbrev CommandHeap := Heap Command

/-- Slots are compared as the values they are. -/
instance lawfulBEqSlot : LawfulBEq (Option Nat) := inferInstance

def queueInit : CommandQueue :=
  ⟨List.replicate MAX_QUEUE_SIZE none, 0, 0, 0⟩

/-- `mallocOk` is the outcome of the allocation, which is only attempted when
there is room. -/
def queuePush (heap : CommandHeap) (queue : CommandQueue) (cmd : Command) (mallocOk : Bool) :
    CommandHeap × CommandQueue × Bool :=
  if queue.count ≥ MAX_QUEUE_SIZE then (heap, queue, false)
  else if mallocOk = false then (heap, queue, false)
  else
    let (heap', new_cmd) := heap.alloc cmd
    (heap',
      { queue with
        commands := queue.commands.set queue.rear.toNat (some new_cmd)
        rear := (queue.rear + 1).tmod MAX_QUEUE_SIZE
        count := queue.count + 1 },
      true)

def queuePop (queue : CommandQueue) : CommandQueue × Option Nat :=
  if queue.count = 0 then (queue, none)
  else
    ({ queue with
        commands := queue.commands.set queue.front.toNat none
        front := (queue.front + 1).tmod MAX_QUEUE_SIZE
        count := queue.count - 1 },
      queue.commands[queue.front.toNat]?.join)

def queueIsEmpty (queue : CommandQueue) : Bool := queue.count == 0

/-- The loop of `queue_cleanup`, with a bound on its iterations. -/
def queueCleanupLoop : Nat → CommandHeap → CommandQueue → CommandHeap × CommandQueue
  | 0, heap, queue => (heap, queue)
  | fuel + 1, heap, queue =>
      if queueIsEmpty queue then (heap, queue)
      else
        match queuePop queue with
        | (queue', some cmd) => queueCleanupLoop fuel (heap.free cmd) queue'
        | (queue', none) => queueCleanupLoop fuel heap queue'

/-- Each iteration takes one element out, so the count bounds the iterations. -/
def queueCleanup (heap : CommandHeap) (queue : CommandQueue) : CommandHeap × CommandQueue :=
  queueCleanupLoop queue.count.toNat heap queue

theorem queuePush_no_memory (heap : CommandHeap) (queue : CommandQueue) (cmd : Command) :
    queuePush heap queue cmd false = (heap, queue, false) := by
  unfold queuePush
  split <;> simp

/-! ## The representation invariant -/

/-- The queue holds exactly the blocks `blocks`, oldest first. -/
structure Represents (queue : CommandQueue) (blocks : List Nat) : Prop where
  slots_length : queue.commands.length = MAX_QUEUE_SIZE
  front_range : 0 ≤ queue.front ∧ queue.front < MAX_QUEUE_SIZE
  count_eq : queue.count = blocks.length
  length_le : blocks.length ≤ MAX_QUEUE_SIZE
  rear_eq : queue.rear = (queue.front + queue.count) % MAX_QUEUE_SIZE
  window : Window queue.commands queue.front.toNat blocks

theorem represents_queueInit : Represents queueInit [] where
  slots_length := by simp [queueInit]
  front_range := by decide
  count_eq := rfl
  length_le := by simp
  rear_eq := by decide
  window := Window.empty MAX_QUEUE_SIZE 0

namespace Represents

variable {queue : CommandQueue} {blocks : List Nat}

theorem rear_range (h : Represents queue blocks) :
    0 ≤ queue.rear ∧ queue.rear < MAX_QUEUE_SIZE := by
  rw [h.rear_eq]
  exact ⟨Int.emod_nonneg _ (by decide), Int.emod_lt_of_pos _ (by decide)⟩

theorem count_range (h : Represents queue blocks) :
    0 ≤ queue.count ∧ queue.count ≤ MAX_QUEUE_SIZE := by
  have hlen := h.length_le
  rw [h.count_eq]
  omega

theorem isEmpty_iff (h : Represents queue blocks) : queueIsEmpty queue = true ↔ blocks = [] := by
  simp [queueIsEmpty, h.count_eq]

theorem slot (h : Represents queue blocks) {k : Nat} (hk : k < MAX_QUEUE_SIZE) :
    queue.commands[(queue.front.toNat + k) % MAX_QUEUE_SIZE]? = some blocks[k]? := by
  have hlen := h.slots_length
  have hf := h.front_range
  have hread := h.window.read (k := k) (by omega) (by omega)
  rwa [hlen] at hread

theorem slot_nonnull_iff (h : Represents queue blocks) {k : Nat} (hk : k < MAX_QUEUE_SIZE) :
    queue.commands[(queue.front.toNat + k) % MAX_QUEUE_SIZE]? ≠ some none ↔
      (k : Int) < queue.count := by
  rw [h.slot hk, h.count_eq]
  simp

/-- The slots that are not null hold exactly the represented blocks. -/
theorem mem_commands_iff (h : Represents queue blocks) (b : Nat) :
    some b ∈ queue.commands ↔ b ∈ blocks := by
  have hf := h.front_range
  have hlen := h.slots_length
  have hle := h.length_le
  constructor
  · intro hmem
    obtain ⟨i, hi, hget⟩ := List.mem_iff_getElem.mp hmem
    have hwin := h.window i hi
    rw [List.getElem?_eq_getElem hi, hget, Option.some.injEq] at hwin
    exact List.mem_of_getElem? hwin.symm
  · intro hmem
    obtain ⟨k, hk, hget⟩ := List.mem_iff_getElem.mp hmem
    have hslot := h.slot (k := k) (by omega)
    rw [List.getElem?_eq_getElem hk, hget] at hslot
    exact List.mem_of_getElem? hslot

theorem rear_toNat (h : Represents queue blocks) :
    queue.rear.toNat = (queue.front.toNat + blocks.length) % queue.commands.length := by
  have hf := h.front_range
  rw [h.rear_eq, h.count_eq, h.slots_length]
  simp only [MAX_QUEUE_SIZE] at hf ⊢
  omega

/-! ## What each operation does to the represented list -/

theorem push_full (h : Represents queue blocks) (hfull : blocks.length = MAX_QUEUE_SIZE)
    (heap : CommandHeap) (cmd : Command) (mallocOk : Bool) :
    queuePush heap queue cmd mallocOk = (heap, queue, false) := by
  have hcount := h.count_eq
  unfold queuePush
  rw [if_pos (by omega)]

/-- A successful push appends a fresh live block holding a copy of the command. -/
theorem push_room (h : Represents queue blocks) (hroom : blocks.length < MAX_QUEUE_SIZE)
    (heap : CommandHeap) (cmd : Command) :
    ∃ queue', queuePush heap queue cmd true = ((heap.alloc cmd).1, queue', true) ∧
      Represents queue' (blocks ++ [heap.length]) := by
  have hlen := h.slots_length
  have hf := h.front_range
  have hr := h.rear_range
  have hcount := h.count_eq
  have hrear := h.rear_eq
  refine ⟨_, by unfold queuePush; rw [if_neg (by omega)]; rfl, ?_⟩
  exact {
    slots_length := by simpa using hlen
    front_range := hf
    count_eq := by simp [hcount]
    length_le := by
      rw [List.length_append, List.length_singleton]
      omega
    rear_eq := by
      rw [Int.tmod_eq_emod_of_nonneg (by omega)]
      simp only [MAX_QUEUE_SIZE] at hrear ⊢
      omega
    window := by
      simp only [h.rear_toNat]
      exact h.window.push (by omega) (by omega) }

theorem pop_empty (h : Represents queue []) : queuePop queue = (queue, none) := by
  have hcount : queue.count = 0 := h.count_eq
  unfold queuePop
  rw [if_pos hcount]

theorem pop_cons {block : Nat} (h : Represents queue (block :: blocks)) :
    ∃ queue', queuePop queue = (queue', some block) ∧ Represents queue' blocks := by
  have hlen := h.slots_length
  have hf := h.front_range
  have hcount := h.count_eq
  have hle := h.length_le
  have hrear := h.rear_eq
  rw [List.length_cons] at hcount hle
  obtain ⟨hslot, hwindow⟩ := h.window.pop (by omega) (by rw [List.length_cons]; omega)
  refine ⟨_, by unfold queuePop; rw [if_neg (by omega), hslot]; rfl, ?_⟩
  exact {
    slots_length := by simpa using hlen
    front_range := by
      rw [Int.tmod_eq_emod_of_nonneg (by omega)]
      exact ⟨Int.emod_nonneg _ (by decide), Int.emod_lt_of_pos _ (by decide)⟩
    count_eq := by simp only; omega
    length_le := by omega
    rear_eq := by
      rw [Int.tmod_eq_emod_of_nonneg (by omega)]
      simp only [MAX_QUEUE_SIZE] at hrear ⊢
      omega
    window := by
      have hfront : ((queue.front + 1).tmod MAX_QUEUE_SIZE).toNat =
          (queue.front.toNat + 1) % queue.commands.length := by
        rw [Int.tmod_eq_emod_of_nonneg (by omega), hlen]
        simp only [MAX_QUEUE_SIZE] at hf ⊢
        omega
      rw [hfront]
      exact hwindow }

end Represents

/-! ## Cleanup -/

/-- Release of a list of blocks, oldest first. -/
def freeAll (heap : CommandHeap) (blocks : List Nat) : CommandHeap := blocks.foldl Heap.free heap

theorem queueCleanupLoop_of_represents {fuel : Nat} {queue : CommandQueue} {blocks : List Nat}
    (h : Represents queue blocks) (hfuel : blocks.length ≤ fuel) (heap : CommandHeap) :
    ∃ queue', queueCleanupLoop fuel heap queue = (freeAll heap blocks, queue') ∧
      Represents queue' [] := by
  induction fuel generalizing heap queue blocks with
  | zero =>
      have hnil : blocks = [] := List.length_eq_zero_iff.mp (by omega)
      subst hnil
      exact ⟨queue, rfl, h⟩
  | succ fuel ih =>
      cases blocks with
      | nil => exact ⟨queue, by simp [queueCleanupLoop, h.isEmpty_iff, freeAll], h⟩
      | cons block rest =>
          obtain ⟨queue₁, hpop, hrest⟩ := h.pop_cons
          rw [List.length_cons] at hfuel
          obtain ⟨queue₂, hloop, hdone⟩ := ih hrest (by omega) (heap.free block)
          have hne : queueIsEmpty queue = false := by
            rw [Bool.eq_false_iff]
            simp [h.isEmpty_iff]
          exact ⟨queue₂, by simp [queueCleanupLoop, hne, hpop, hloop, freeAll], hdone⟩

theorem queueCleanup_of_represents {queue : CommandQueue} {blocks : List Nat}
    (h : Represents queue blocks) (heap : CommandHeap) :
    ∃ queue', queueCleanup heap queue = (freeAll heap blocks, queue') ∧ Represents queue' [] :=
  queueCleanupLoop_of_represents h (by rw [h.count_eq]; omega) heap

@[simp] theorem freeAll_nil (heap : CommandHeap) : freeAll heap [] = heap := rfl

@[simp] theorem freeAll_cons (heap : CommandHeap) (block : Nat) (blocks : List Nat) :
    freeAll heap (block :: blocks) = freeAll (heap.free block) blocks := rfl

@[simp] theorem freeAll_length (heap : CommandHeap) (blocks : List Nat) :
    (freeAll heap blocks).length = heap.length := by
  induction blocks generalizing heap with
  | nil => rfl
  | cons block rest ih => rw [freeAll_cons, ih, Heap.free_length]

theorem freeAll_read {heap : CommandHeap} {a frees : Nat} {cmd : Command} (blocks : List Nat)
    (hread : heap[a]? = some ⟨cmd, frees⟩) :
    ∃ frees', (freeAll heap blocks)[a]? = some ⟨cmd, frees'⟩ := by
  induction blocks generalizing heap frees with
  | nil => exact ⟨frees, hread⟩
  | cons block rest ih =>
      rw [freeAll_cons]
      by_cases hb : block = a
      · have hread' : (heap.free block)[a]? = some ⟨cmd, frees + 1⟩ := by
          rw [Heap.free_getElem?, if_pos hb, hread]
          rfl
        exact ih hread'
      · apply ih
        rw [Heap.free_getElem?, if_neg hb]
        exact hread

theorem freeAll_frees {heap : CommandHeap} {blocks : List Nat} (hnodup : blocks.Nodup)
    (hlt : ∀ a ∈ blocks, a < heap.length) (b : Nat) :
    (freeAll heap blocks).frees b = heap.frees b + if b ∈ blocks then 1 else 0 := by
  induction blocks generalizing heap with
  | nil => simp
  | cons block rest ih =>
      obtain ⟨hnotin, hrest⟩ := List.nodup_cons.mp hnodup
      rw [freeAll_cons, ih hrest (by simpa using fun a ha => hlt a (List.mem_cons_of_mem _ ha))]
      by_cases hb : block = b
      · subst hb
        rw [Heap.free_frees_self (hlt block List.mem_cons_self)]
        simp [hnotin]
      · rw [Heap.free_frees_of_ne hb]
        simp [Ne.symm hb]

end RsvpControl.Server
