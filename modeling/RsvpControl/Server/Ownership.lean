import RsvpControl.Server.Sessions

/-! # Ownership and order of commands

Every block `queue_push` allocates is in the queue, with the device thread, or
released. Only six kinds of step touch the blocks; each keeps a ledger that says
who has which block and that what has been dispatched, what the device thread
has popped and what is queued are, in this order, what has been pushed.
-/

namespace RsvpControl.Server

open RsvpControl.Core

/-! ## Custody of the device thread -/

inductive Custody where
  | nothing
  | popped (block : Nat)
  /-- Dispatched, not yet released. -/
  | executed (block : Nat)
deriving DecidableEq, Repr

def DevicePc.custody : DevicePc → Custody
  | .dispatch block => .popped block
  | .publishLock block _ => .executed block
  | .publish block _ => .executed block
  | .freeCmd block => .executed block
  | .freeSkipped block => .executed block
  | _ => .nothing

def Custody.undispatched : Custody → List Nat
  | .popped block => [block]
  | _ => []

def Custody.held : Custody → List Nat
  | .nothing => []
  | .popped block => [block]
  | .executed block => [block]

theorem custody_signalled (pc : DevicePc) : pc.signalled.custody = pc.custody := by
  cases pc <;> rfl

theorem custody_afterDispatch (block : Nat) (cmd : Command) (response : CommandResponse) :
    (afterDispatch block cmd response).custody = .executed block := by
  unfold afterDispatch
  split
  · split <;> rfl
  · rfl

def MainPc.cleaned : MainPc → Bool
  | .cleanDevices => true
  | .destroy => true
  | .finished => true
  | _ => false

/-! ## Steps that touch blocks -/

structure SameBlocks (s s' : System) : Prop where
  heap : s'.heap = s.heap
  cmd_queue : s'.cmd_queue = s.cmd_queue
  pushed : s'.pushed = s.pushed
  dispatched : s'.dispatched = s.dispatched
  misused : s'.misused = s.misused
  custody : s'.device.custody = s.device.custody
  cleaned : s'.main.cleaned = s.main.cleaned

inductive BlockStep (s s' : System) : Prop
  | same (h : SameBlocks s s')
  | push (cmd : Command) (hcomm : s.comm = .push cmd)
      (hpush : queuePush s.heap s.cmd_queue cmd true = (s'.heap, s'.cmd_queue, true))
      (hpushed : s'.pushed = s.pushed ++ [(s.heap.length, cmd)])
      (hdispatched : s'.dispatched = s.dispatched) (hmisused : s'.misused = s.misused)
      (hcustody : s'.device.custody = s.device.custody) (hmain : s'.main = s.main)
  | pop (block : Nat) (hcustody : s.device.custody = .nothing)
      (hrunning : s.server_running = true)
      (hpop : queuePop s.cmd_queue = (s'.cmd_queue, some block)) (hheap : s'.heap = s.heap)
      (hpushed : s'.pushed = s.pushed) (hdispatched : s'.dispatched = s.dispatched)
      (hmisused : s'.misused = s.misused) (hcustody' : s'.device.custody = .popped block)
      (hmain : s'.main = s.main)
  | popNull (hne : queueIsEmpty s.cmd_queue = false)
      (hpop : (queuePop s.cmd_queue).2 = none)
  | dispatch (block frees : Nat) (cmd : Command) (hcustody : s.device.custody = .popped block)
      (hread : s.heap[block]? = some ⟨cmd, frees⟩) (hheap : s'.heap = s.heap)
      (hqueue : s'.cmd_queue = s.cmd_queue) (hpushed : s'.pushed = s.pushed)
      (hdispatched : s'.dispatched = s.dispatched ++ [(block, cmd)])
      (hmisused : s'.misused = if frees = 0 then s.misused else s.misused ++ [block])
      (hcustody' : s'.device.custody = .executed block) (hmain : s'.main = s.main)
  | free (block : Nat) (hcustody : s.device.custody = .executed block)
      (hheap : s'.heap = s.heap.free block) (hqueue : s'.cmd_queue = s.cmd_queue)
      (hpushed : s'.pushed = s.pushed) (hdispatched : s'.dispatched = s.dispatched)
      (hmisused : s'.misused = s.misused) (hcustody' : s'.device.custody = .nothing)
      (hmain : s'.main = s.main)
  | clean (hmain : s.main = .cleanQueue)
      (hclean : queueCleanup s.heap s.cmd_queue = (s'.heap, s'.cmd_queue))
      (hpushed : s'.pushed = s.pushed) (hdispatched : s'.dispatched = s.dispatched)
      (hmisused : s'.misused = s.misused) (hcustody : s'.device.custody = s.device.custody)
      (hcleaned : s'.main.cleaned = true)

theorem stepMain_blocks {s s' : System} {accepted : Accepted} {ok : Bool}
    (hs : s.stepMain accepted ok = some s') : BlockStep s s' := by
  unfold System.stepMain at hs
  cases hmain : s.main with
  | cleanQueue =>
      simp only [hmain, Option.some.injEq] at hs
      subst hs
      exact .clean hmain rfl rfl rfl rfl rfl rfl
  | _ =>
      simp only [hmain] at hs
      repeat' split at hs
      all_goals cases hs
      all_goals
        refine .same ⟨rfl, rfl, rfl, rfl, rfl, ?_, ?_⟩
      all_goals
        simp [hmain, MainPc.cleaned, System.close, System.send, System.signalNotEmpty,
          System.signalResponse, custody_signalled]

theorem stepComm_blocks {s s' : System} {ok : Bool} (hs : s.stepComm ok = some s') :
    BlockStep s s' := by
  unfold System.stepComm at hs
  cases hcomm : s.comm with
  | push cmd =>
      simp only [hcomm] at hs
      cases ok with
      | false =>
          rw [queuePush_no_memory] at hs
          cases hs
          exact .same ⟨rfl, rfl, rfl, rfl, rfl, rfl, rfl⟩
      | true =>
          split at hs
          · next heap cmd_queue hpush =>
              cases hs
              exact .push cmd hcomm hpush rfl rfl rfl (custody_signalled _) rfl
          · cases hs
            exact .same ⟨rfl, rfl, rfl, rfl, rfl, rfl, rfl⟩
  | _ =>
      simp only [hcomm] at hs
      repeat' split at hs
      all_goals cases hs
      all_goals
        exact .same ⟨rfl, rfl, rfl, rfl, rfl, rfl, rfl⟩

theorem stepDevice_blocks {s s' : System} {mallocOk createOk : Bool} {level : Int}
    (hs : s.stepDevice mallocOk createOk level = some s') : BlockStep s s' := by
  unfold System.stepDevice at hs
  cases hdevice : s.device with
  | head =>
      simp only [hdevice] at hs
      split at hs
      · cases hs
        exact .same ⟨rfl, rfl, rfl, rfl, rfl, by rw [hdevice]; rfl, rfl⟩
      · next htest =>
          split at hs
          · cases hs
            exact .same ⟨rfl, rfl, rfl, rfl, rfl, by rw [hdevice]; rfl, rfl⟩
          · next hrunning =>
              split at hs
              · next cmd_queue block hpop =>
                  cases hs
                  exact .pop block (by rw [hdevice]; rfl) (by simpa using hrunning) hpop rfl rfl
                    rfl rfl rfl rfl
              · next cmd_queue hpop =>
                  cases hs
                  refine .popNull ?_ (by rw [hpop])
                  simpa [hrunning] using htest
  | dispatch block =>
      simp only [hdevice] at hs
      split at hs
      · cases hs
      · next cmd frees hread =>
          cases hs
          exact .dispatch block frees cmd (by rw [hdevice]; rfl) hread rfl rfl rfl rfl rfl
            (custody_afterDispatch _ _ _) rfl
  | freeCmd block | freeSkipped block =>
      simp only [hdevice, Option.some.injEq] at hs
      subst hs
      exact .free block (by rw [hdevice]; rfl) rfl rfl rfl rfl rfl rfl rfl
  | _ =>
      simp only [hdevice] at hs
      repeat' split at hs
      all_goals cases hs
      all_goals
        exact .same ⟨rfl, rfl, rfl, rfl, rfl, by rw [hdevice]; rfl, rfl⟩

theorem step_blocks {s s' : System} {a : Action} (hs : s.step a = some s') : BlockStep s s' := by
  cases a with
  | main accepted ok => exact stepMain_blocks hs
  | comm ok => exact stepComm_blocks hs
  | commWake wake =>
      obtain ⟨block, _, rfl⟩ := wakeComm_eq hs
      exact .same ⟨rfl, rfl, rfl, rfl, rfl, rfl, rfl⟩
  | device mallocOk createOk level => exact stepDevice_blocks hs
  | deviceWake wake =>
      obtain ⟨hdevice, rfl⟩ := wakeDevice_eq hs
      exact .same ⟨rfl, rfl, rfl, rfl, rfl, by rw [hdevice]; rfl, rfl⟩
  | interrupt | hangUp socket | libraries devices =>
      cases hs
      exact .same ⟨rfl, rfl, rfl, rfl, rfl, rfl, rfl⟩
  | arrive socket chunk =>
      simp only [System.step] at hs
      split at hs
      · cases hs
      · split at hs <;> cases hs
        exact .same ⟨rfl, rfl, rfl, rfl, rfl, rfl, rfl⟩

/-! ## The ledger -/

/-- `queued` are the blocks in the queue, oldest first, and `dropped` those the
cleanup has released undispatched. -/
structure Ledger (s : System) (queued dropped : List Nat) : Prop where
  names : s.pushed.map Prod.fst = List.range s.heap.length
  contents : ∀ e ∈ s.pushed, ∃ frees, s.heap[e.1]? = some ⟨e.2, frees⟩
  unmisused : s.misused = []
  represents : Represents s.cmd_queue queued
  order : ∃ rest, s.pushed = s.dispatched ++ rest ∧
    rest.map Prod.fst = s.device.custody.undispatched ++ queued ++ dropped
  undropped : s.main.cleaned = false → dropped = []
  emptied : s.main.cleaned = true → queued = []
  executed : ∀ b, s.device.custody = .executed b →
    (s.dispatched.map Prod.fst).getLast? = some b
  frees : ∀ b < s.heap.length,
    s.heap.frees b = if b ∈ queued ∨ b ∈ s.device.custody.held then 0 else 1

theorem ledger_init (server_ip : Bytes) : Ledger (System.init server_ip) [] [] where
  names := rfl
  contents e he := by cases he
  unmisused := rfl
  represents := represents_queueInit
  order := ⟨[], rfl, rfl⟩
  undropped _ := rfl
  emptied _ := rfl
  executed b hb := by cases hb
  frees b hb := by cases hb

namespace Ledger

variable {s s' : System} {queued dropped : List Nat}

theorem of_same (h : Ledger s queued dropped) (hsame : SameBlocks s s') :
    Ledger s' queued dropped := by
  obtain ⟨hheap, hqueue, hpushed, hdispatched, hmisused, hcustody, hcleaned⟩ := hsame
  exact {
    names := by rw [hpushed, hheap]; exact h.names
    contents := by rw [hpushed, hheap]; exact h.contents
    unmisused := by rw [hmisused]; exact h.unmisused
    represents := by rw [hqueue]; exact h.represents
    order := by rw [hpushed, hdispatched, hcustody]; exact h.order
    undropped := by rw [hcleaned]; exact h.undropped
    emptied := by rw [hcleaned]; exact h.emptied
    executed := by rw [hcustody, hdispatched]; exact h.executed
    frees := by rw [hheap, hcustody]; exact h.frees }

/-- Blocks with the device thread or in the queue are pushed once each, in this
order after what has been dispatched. -/
theorem nodup (h : Ledger s queued dropped) :
    (s.dispatched.map Prod.fst ++ (s.device.custody.undispatched ++ queued ++ dropped)).Nodup := by
  obtain ⟨rest, hpushed, hrest⟩ := h.order
  rw [← hrest, ← List.map_append, ← hpushed, h.names]
  exact List.nodup_range

theorem queued_lt (h : Ledger s queued dropped) {b : Nat} (hb : b ∈ queued) :
    b < s.heap.length := by
  obtain ⟨rest, hpushed, hrest⟩ := h.order
  rw [← List.mem_range, ← h.names, hpushed, List.map_append, hrest]
  simp [hb]

theorem held_not_queued (h : Ledger s queued dropped) {b : Nat}
    (hb : b ∈ s.device.custody.held) : b ∉ queued := by
  have hnodup := h.nodup
  cases hc : s.device.custody with
  | nothing => simp [hc, Custody.held] at hb
  | popped c =>
      simp only [hc, Custody.held, List.mem_singleton] at hb
      subst hb
      rw [hc, List.nodup_append] at hnodup
      have hrest := hnodup.2.1
      simp only [Custody.undispatched, List.cons_append, List.nil_append, List.nodup_cons,
        List.mem_append, not_or] at hrest
      exact hrest.1.1
  | executed c =>
      simp only [hc, Custody.held, List.mem_singleton] at hb
      subst hb
      have hmem := List.mem_of_getLast? (h.executed b hc)
      rw [List.nodup_append] at hnodup
      intro hq
      exact hnodup.2.2 b hmem b (by simp [hq]) rfl

theorem push (h : Ledger s queued dropped) {cmd : Command} (hsession : SessionInv s)
    (hcomm : s.comm = .push cmd)
    (hpush : queuePush s.heap s.cmd_queue cmd true = (s'.heap, s'.cmd_queue, true))
    (hpushed : s'.pushed = s.pushed ++ [(s.heap.length, cmd)])
    (hdispatched : s'.dispatched = s.dispatched) (hmisused : s'.misused = s.misused)
    (hcustody : s'.device.custody = s.device.custody) (hmain : s'.main = s.main) :
    Ledger s' (queued ++ [s.heap.length]) dropped := by
  have hroom : queued.length < MAX_QUEUE_SIZE := by
    by_contra hfull
    have hlen := h.represents.length_le
    rw [h.represents.push_full (by omega)] at hpush
    simp at hpush
  obtain ⟨queue', hpush', hrep⟩ := h.represents.push_room hroom s.heap cmd
  rw [hpush'] at hpush
  simp only [Prod.mk.injEq, and_true] at hpush
  obtain ⟨hheap, hqueue⟩ := hpush
  have huncleaned : s.main.cleaned = false := by
    rw [hsession.joining.mp (by rw [hcomm]; simp)]
    rfl
  exact {
    names := by
      rw [hpushed, ← hheap, Heap.alloc_length, List.range_succ, List.map_append, h.names]
      rfl
    contents := by
      intro e he
      rw [hpushed] at he
      rw [← hheap]
      rcases List.mem_append.mp he with he | he
      · obtain ⟨frees, hread⟩ := h.contents e he
        refine ⟨frees, ?_⟩
        rw [Heap.alloc, List.getElem?_append_left (List.getElem?_eq_some_iff.mp hread).1]
        exact hread
      · rw [List.mem_singleton.mp he]
        exact ⟨0, by simp [Heap.alloc]⟩
    unmisused := by rw [hmisused]; exact h.unmisused
    represents := by rw [← hqueue]; exact hrep
    order := by
      obtain ⟨rest, hall, hrest⟩ := h.order
      refine ⟨rest ++ [(s.heap.length, cmd)], ?_, ?_⟩
      · rw [hpushed, hall, hdispatched, List.append_assoc]
      · rw [List.map_append, hrest, hcustody, h.undropped huncleaned]
        simp
    undropped := by rw [hmain]; exact h.undropped
    emptied := by
      rw [hmain, huncleaned]
      intro hfalse
      cases hfalse
    executed := by rw [hcustody, hdispatched]; exact h.executed
    frees := by
      intro b hb
      rw [← hheap, Heap.alloc_length] at hb
      rw [← hheap, Heap.alloc_frees, hcustody]
      by_cases hnew : b = s.heap.length
      · subst hnew
        rw [if_pos (by simp)]
        simp [Heap.frees]
      · rw [h.frees b (by omega)]
        simp [hnew] }

theorem pop (h : Ledger s queued dropped) {block : Nat} (hcustody : s.device.custody = .nothing)
    (hpop : queuePop s.cmd_queue = (s'.cmd_queue, some block)) (hheap : s'.heap = s.heap)
    (hpushed : s'.pushed = s.pushed) (hdispatched : s'.dispatched = s.dispatched)
    (hmisused : s'.misused = s.misused) (hcustody' : s'.device.custody = .popped block)
    (hmain : s'.main = s.main) :
    ∃ rest, queued = block :: rest ∧ Ledger s' rest dropped := by
  cases queued with
  | nil =>
      rw [h.represents.pop_empty] at hpop
      simp at hpop
  | cons first rest =>
      obtain ⟨queue', hpop', hrep⟩ := h.represents.pop_cons
      rw [hpop'] at hpop
      simp only [Prod.mk.injEq, Option.some.injEq] at hpop
      obtain ⟨hqueue, rfl⟩ := hpop
      refine ⟨rest, rfl, ?_⟩
      exact {
        names := by rw [hpushed, hheap]; exact h.names
        contents := by rw [hpushed, hheap]; exact h.contents
        unmisused := by rw [hmisused]; exact h.unmisused
        represents := by rw [← hqueue]; exact hrep
        order := by
          rw [hpushed, hdispatched, hcustody']
          simpa [hcustody, Custody.undispatched] using h.order
        undropped := by rw [hmain]; exact h.undropped
        emptied := by
          rw [hmain]
          intro hcleaned
          have hnil := h.emptied hcleaned
          cases hnil
        executed := by rw [hcustody']; intro b hb; cases hb
        frees := by
          rw [hheap, hcustody']
          intro b hb
          rw [h.frees b hb]
          simp [hcustody, Custody.held, or_comm] }

theorem dispatch (h : Ledger s queued dropped) {block frees : Nat} {cmd : Command}
    (hcustody : s.device.custody = .popped block)
    (hread : s.heap[block]? = some ⟨cmd, frees⟩) (hheap : s'.heap = s.heap)
    (hqueue : s'.cmd_queue = s.cmd_queue) (hpushed : s'.pushed = s.pushed)
    (hdispatched : s'.dispatched = s.dispatched ++ [(block, cmd)])
    (hmisused : s'.misused = if frees = 0 then s.misused else s.misused ++ [block])
    (hcustody' : s'.device.custody = .executed block) (hmain : s'.main = s.main) :
    Ledger s' queued dropped := by
  have hlive : frees = 0 := by
    have hcount := h.frees block (List.getElem?_eq_some_iff.mp hread).1
    rw [if_pos (Or.inr (by simp [hcustody, Custody.held]))] at hcount
    simpa [Heap.frees, hread] using hcount
  exact {
    names := by rw [hpushed, hheap]; exact h.names
    contents := by rw [hpushed, hheap]; exact h.contents
    unmisused := by rw [hmisused, if_pos hlive]; exact h.unmisused
    represents := by rw [hqueue]; exact h.represents
    order := by
      obtain ⟨rest, hall, hrest⟩ := h.order
      rw [hcustody] at hrest
      cases rest with
      | nil => simp [Custody.undispatched] at hrest
      | cons e rest =>
          simp only [List.map_cons, Custody.undispatched, List.cons_append, List.nil_append,
            List.cons.injEq] at hrest
          -- the entry at the front of the rest is the one whose block was read
          obtain ⟨frees', hread'⟩ := h.contents e (by rw [hall]; simp)
          rw [hrest.1, hread, Option.some.injEq, Block.mk.injEq] at hread'
          have he : e = (block, cmd) := Prod.ext hrest.1 hread'.1.symm
          refine ⟨rest, ?_, ?_⟩
          · rw [hpushed, hall, hdispatched, he]
            simp
          · rw [hcustody']
            exact hrest.2
    undropped := by rw [hmain]; exact h.undropped
    emptied := by rw [hmain]; exact h.emptied
    executed := by
      intro b hb
      rw [hcustody', Custody.executed.injEq] at hb
      rw [hdispatched, ← hb]
      simp
    frees := by
      rw [hheap, hcustody']
      intro b hb
      rw [h.frees b hb, hcustody]
      rfl }

theorem free (h : Ledger s queued dropped) {block : Nat}
    (hcustody : s.device.custody = .executed block)
    (hheap : s'.heap = s.heap.free block) (hqueue : s'.cmd_queue = s.cmd_queue)
    (hpushed : s'.pushed = s.pushed) (hdispatched : s'.dispatched = s.dispatched)
    (hmisused : s'.misused = s.misused) (hcustody' : s'.device.custody = .nothing)
    (hmain : s'.main = s.main) : Ledger s' queued dropped := by
  have hheld : block ∈ s.device.custody.held := by simp [hcustody, Custody.held]
  exact {
    names := by rw [hpushed, hheap, Heap.free_length]; exact h.names
    contents := by
      rw [hpushed]
      intro e he
      obtain ⟨frees, hread⟩ := h.contents e he
      rw [hheap, Heap.free_getElem?, hread]
      by_cases hb : block = e.1
      · exact ⟨frees + 1, by simp [hb]⟩
      · exact ⟨frees, by simp [hb]⟩
    unmisused := by rw [hmisused]; exact h.unmisused
    represents := by rw [hqueue]; exact h.represents
    order := by
      rw [hpushed, hdispatched, hcustody']
      simpa [hcustody, Custody.undispatched] using h.order
    undropped := by rw [hmain]; exact h.undropped
    emptied := by rw [hmain]; exact h.emptied
    executed := by rw [hcustody']; intro b hb; cases hb
    frees := by
      rw [hheap, hcustody', Heap.free_length]
      intro b hb
      by_cases heq : block = b
      · subst heq
        rw [Heap.free_frees_self hb, h.frees block hb, if_pos (Or.inr hheld)]
        simp [h.held_not_queued hheld, Custody.held]
      · rw [Heap.free_frees_of_ne heq, h.frees b hb, hcustody]
        simp [Custody.held, Ne.symm heq] }

theorem clean (h : Ledger s queued dropped) (hsession : SessionInv s)
    (hmain : s.main = .cleanQueue)
    (hclean : queueCleanup s.heap s.cmd_queue = (s'.heap, s'.cmd_queue))
    (hpushed : s'.pushed = s.pushed) (hdispatched : s'.dispatched = s.dispatched)
    (hmisused : s'.misused = s.misused) (hcustody : s'.device.custody = s.device.custody)
    (hcleaned : s'.main.cleaned = true) : Ledger s' [] (queued ++ dropped) := by
  obtain ⟨queue', hclean', hrep⟩ := queueCleanup_of_represents h.represents s.heap
  rw [hclean', Prod.mk.injEq] at hclean
  obtain ⟨hheap, hqueue⟩ := hclean
  have hnothing : s.device.custody = .nothing := by
    rw [hsession.device (by rw [hmain]; rfl)]
    rfl
  have hnodup : queued.Nodup := by
    have hall := h.nodup
    rw [List.nodup_append, List.nodup_append, List.nodup_append] at hall
    exact hall.2.1.1.2.1
  exact {
    names := by rw [hpushed, ← hheap, freeAll_length]; exact h.names
    contents := by
      rw [hpushed, ← hheap]
      intro e he
      obtain ⟨frees, hread⟩ := h.contents e he
      exact freeAll_read queued hread
    unmisused := by rw [hmisused]; exact h.unmisused
    represents := by rw [← hqueue]; exact hrep
    order := by
      rw [hpushed, hdispatched, hcustody]
      simpa using h.order
    undropped := by rw [hcleaned]; intro hfalse; cases hfalse
    emptied := fun _ => rfl
    executed := by rw [hcustody, hnothing]; intro b hb; cases hb
    frees := by
      rw [← hheap, freeAll_length, hcustody, hnothing]
      intro b hb
      rw [freeAll_frees hnodup (fun a ha => h.queued_lt ha), h.frees b hb, hnothing]
      by_cases hq : b ∈ queued
      · simp [hq, Custody.held]
      · simp [hq, Custody.held] }

theorem read_popped (h : Ledger s queued dropped) {block : Nat}
    (hcustody : s.device.custody = .popped block) :
    ∃ cmd frees, s.heap[block]? = some ⟨cmd, frees⟩ := by
  obtain ⟨rest, hpushed, hrest⟩ := h.order
  have hmem : block ∈ s.pushed.map Prod.fst := by
    rw [hpushed, List.map_append, hrest, hcustody]
    simp [Custody.undispatched]
  obtain ⟨e, he, rfl⟩ := List.mem_map.mp hmem
  obtain ⟨frees, hread⟩ := h.contents e he
  exact ⟨e.2, frees, hread⟩

theorem pop_some (h : Ledger s queued dropped) (hne : queueIsEmpty s.cmd_queue = false) :
    (queuePop s.cmd_queue).2 ≠ none := by
  have hrep := h.represents
  cases queued with
  | nil =>
      rw [hrep.isEmpty_iff.mpr rfl] at hne
      cases hne
  | cons first rest =>
      obtain ⟨queue', hpop, _⟩ := hrep.pop_cons
      rw [hpop]
      simp

theorem step (h : Ledger s queued dropped) (hsession : SessionInv s) {a : Action}
    (hs : s.step a = some s') : ∃ queued' dropped', Ledger s' queued' dropped' := by
  cases step_blocks hs with
  | same hsame => exact ⟨_, _, h.of_same hsame⟩
  | push cmd hcomm hpush hpushed hdispatched hmisused hcustody hmain =>
      exact ⟨_, _, h.push hsession hcomm hpush hpushed hdispatched hmisused hcustody hmain⟩
  | pop block hcustody _ hpop hheap hpushed hdispatched hmisused hcustody' hmain =>
      rcases h.pop hcustody hpop hheap hpushed hdispatched hmisused hcustody' hmain with
        ⟨rest, _, hrest⟩
      exact ⟨_, _, hrest⟩
  | popNull hne hpop => exact absurd hpop (h.pop_some hne)
  | dispatch block frees cmd hcustody hread hheap hqueue hpushed hdispatched hmisused hcustody'
      hmain =>
      exact ⟨_, _, h.dispatch hcustody hread hheap hqueue hpushed hdispatched hmisused hcustody'
        hmain⟩
  | free block hcustody hheap hqueue hpushed hdispatched hmisused hcustody' hmain =>
      exact ⟨_, _, h.free hcustody hheap hqueue hpushed hdispatched hmisused hcustody' hmain⟩
  | clean hmain hclean hpushed hdispatched hmisused hcustody hcleaned =>
      exact ⟨_, _, h.clean hsession hmain hclean hpushed hdispatched hmisused hcustody hcleaned⟩

/-- A block is named by at most one of the commands pushed. -/
theorem dispatched_nodup (h : Ledger s queued dropped) :
    (s.dispatched.map Prod.fst).Nodup :=
  (List.nodup_append.mp h.nodup).1

end Ledger

theorem ledger_of_reachable {server_ip : Bytes} {s : System}
    (h : (serverMachine server_ip).Reachable s) : ∃ queued dropped, Ledger s queued dropped := by
  refine Machine.ReachableUnder.invariant (I := fun t => ∃ queued dropped, Ledger t queued dropped)
    ⟨[], [], ledger_init server_ip⟩ ?_ h
  rintro t a t' ht ⟨queued, dropped, hledger⟩ _ hs
  exact hledger.step (sessionInv_of_reachable ht) hs

/-! ## The result -/

/-- Who has a block. -/
inductive Owner where
  | queue
  | device
  | nobody
deriving DecidableEq, Repr

/-- The block is in the queue, popped and not yet released by the device thread,
or released. -/
def System.Owns (s : System) (b : Nat) : Owner → Prop
  | .queue => some b ∈ s.cmd_queue.commands
  | .device => b ∈ s.device.custody.held
  | .nobody => 0 < s.heap.frees b

/-- In a ledger every block has exactly one owner and is released at most once. -/
theorem Ledger.owner {s : System} {queued dropped : List Nat} (h : Ledger s queued dropped)
    {b : Nat} (hb : b < s.heap.length) : (∃! o, s.Owns b o) ∧ s.heap.frees b ≤ 1 := by
  have hfrees := h.frees b hb
  have hqueue := h.represents.mem_commands_iff b
  by_cases hq : b ∈ queued
  · rw [if_pos (Or.inl hq)] at hfrees
    refine ⟨⟨.queue, hqueue.mpr hq, ?_⟩, by omega⟩
    intro o ho
    cases o with
    | queue => rfl
    | device => exact absurd hq (h.held_not_queued ho)
    | nobody => exact absurd hfrees (Nat.pos_iff_ne_zero.mp ho)
  · by_cases hd : b ∈ s.device.custody.held
    · rw [if_pos (Or.inr hd)] at hfrees
      refine ⟨⟨.device, hd, ?_⟩, by omega⟩
      intro o ho
      cases o with
      | queue => exact absurd (hqueue.mp ho) hq
      | device => rfl
      | nobody => exact absurd hfrees (Nat.pos_iff_ne_zero.mp ho)
    · rw [if_neg (by simp [hq, hd])] at hfrees
      have hpos : 0 < s.heap.frees b := by omega
      refine ⟨⟨.nobody, hpos, ?_⟩, by omega⟩
      intro o ho
      cases o with
      | queue => exact absurd (hqueue.mp ho) hq
      | device => exact absurd ho hd
      | nobody => rfl

/-- The commands dispatched are a prefix of those pushed, none twice; every block
is owned by exactly one of the queue, the device thread and nobody, and read only
before its release; once the server has shut down each has been released exactly
once. -/
theorem commands_in_order_and_owned {server_ip : Bytes} {s : System}
    (h : (serverMachine server_ip).Reachable s) :
    s.pushed.map Prod.fst = List.range s.heap.length ∧
      s.dispatched <+: s.pushed ∧ (s.dispatched.map Prod.fst).Nodup ∧ s.misused = [] ∧
      (∀ b < s.heap.length, (∃! o, s.Owns b o) ∧ s.heap.frees b ≤ 1) ∧
      (s.main = .finished → ∀ b < s.heap.length, s.heap.frees b = 1) := by
  obtain ⟨queued, dropped, hledger⟩ := ledger_of_reachable h
  have hsession := sessionInv_of_reachable h
  refine ⟨hledger.names, ?_, hledger.dispatched_nodup, hledger.unmisused,
    fun b hb => hledger.owner hb, ?_⟩
  · obtain ⟨rest, hpushed, _⟩ := hledger.order
    exact ⟨rest, hpushed.symm⟩
  · intro hmain b hb
    have hempty : queued = [] := hledger.emptied (by rw [hmain]; rfl)
    have hreturned : s.device = .returned := hsession.device (by rw [hmain]; rfl)
    rw [hledger.frees b hb, hempty, hreturned]
    rfl

/-- One command served, and one pushed just before a shutdown that leaves it in
the queue. -/
def oneServedOneDropped : List Action :=
  connect ++ pushLine (text "1 0 0\n") ++ deviceSteps 8 ++ commSteps 5 ++
    pushLine (text "2 0 0\n") ++ [.interrupt, .commWake .timeout] ++ commSteps 5 ++
    mainSteps 5 ++ deviceSteps 1 ++ mainSteps 6

theorem one_dispatched_both_released :
    ∃ s, (serverMachine []).Reachable s ∧ s.pushed.length = 2 ∧ s.dispatched.length = 1 ∧
      s.heap.frees 0 = 1 ∧ s.heap.frees 1 = 1 := by
  have hrun : (((serverMachine []).exec (System.init []) oneServedOneDropped).any fun s =>
      s.main = .finished ∧ s.heap.length = 2 ∧ s.pushed.length = 2 ∧ s.dispatched.length = 1) =
      true := by decide +kernel
  obtain ⟨s, hreach, hfacts⟩ := Machine.Reachable.exists_of_exec hrun
  obtain ⟨hmain, hlen, hpushed, hdispatched⟩ := of_decide_eq_true hfacts
  have hfrees := (commands_in_order_and_owned hreach).2.2.2.2.2 hmain
  exact ⟨s, hreach, hpushed, hdispatched, hfrees 0 (by omega), hfrees 1 (by omega)⟩

end RsvpControl.Server
