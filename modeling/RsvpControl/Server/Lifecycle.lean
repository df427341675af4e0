import RsvpControl.Server.Sessions

/-! # The life of a connection

Ownership of an accepted socket passes from `main` to the session it registers
and ends with the one close that gives it up. The machine here adds to the
server what the code does not keep: the descriptor number of every connection,
which `accept` may have used before, the sessions registered and not torn down,
and the communication threads not joined.
-/

namespace RsvpControl.Server

open RsvpControl.Core

/-! ## Tracking -/

structure Lifecycle where
  system : System
  /-- The descriptor number of each accepted connection. -/
  numbers : List Nat
  /-- Connections of the sessions registered by `main` and not torn down. -/
  sessions : List Nat
  /-- Communication threads created and not joined. -/
  threads : Nat
deriving DecidableEq, Repr

def System.isOpen (s : System) (k : Nat) : Bool := (s.sockets[k]?).any fun socket => socket.closes == 0

def Lifecycle.resolve (l : Lifecycle) (number : Nat) : List Nat :=
  (List.range l.system.sockets.length).filter fun k =>
    l.system.isOpen k && l.numbers[k]? == some number

def Lifecycle.stepSessions (l : Lifecycle) : Action → List Nat
  | .main _ ok =>
      match l.system.main with
      | .register k => if l.system.client_connected then l.sessions else l.sessions ++ [k]
      | .create k => if ok then l.sessions else l.sessions.erase k
      | _ => l.sessions
  | .comm _ =>
      match l.system.comm with
      | .teardown => l.sessions.erase l.system.commSocket
      | _ => l.sessions
  | _ => l.sessions

def Lifecycle.stepThreads (l : Lifecycle) : Action → Nat
  | .main _ ok =>
      match l.system.main with
      | .create _ => if ok then l.threads + 1 else l.threads
      | .joinComm => l.threads - 1
      | .cleanupJoinComm => l.threads - 1
      | _ => l.threads
  | _ => l.threads

/-- A step with the descriptor number the system would hand out next: not one of
an open connection. -/
def Lifecycle.step (l : Lifecycle) (a : Action × Nat) : Option Lifecycle :=
  match l.system.step a.1 with
  | none => none
  | some s' =>
      if s'.sockets.length = l.system.sockets.length then
        some ⟨s', l.numbers, l.stepSessions a.1, l.stepThreads a.1⟩
      else if l.resolve a.2 = [] then
        some ⟨s', l.numbers ++ [a.2], l.stepSessions a.1, l.stepThreads a.1⟩
      else none

def lifecycleMachine (server_ip : Bytes) : Machine Lifecycle (Action × Nat) :=
  ⟨⟨System.init server_ip, [], [], 0⟩, Lifecycle.step⟩

/-- The connection a step hands to `send`, `recv` or `close`. -/
def System.uses (s : System) : Action → Option Nat
  | .main _ ok =>
      match s.main with
      | .busy k => some k
      | .create k => if ok then none else some k
      | .closeSockets => s.client_socket
      | _ => none
  | .comm _ =>
      match s.comm with
      | .start => s.client_socket
      | .sendMenu | .recvCommand | .sendInvalid | .sendBye | .sendPrompt _ _ | .recvReply _
      | .sendFull | .sendResponse _ | .sendTimeout | .teardown => some s.commSocket
      | _ => none
  | _ => none

/-- Connections come and go only through `arrive` and `hangUp` otherwise. -/
def Action.fromPeer : Action → Bool
  | .arrive _ _ => true
  | .hangUp _ => true
  | _ => false

/-! ## What a step does to the sockets -/

theorem sockets_send_ne {s : System} {k j : Nat} (m : Bytes) (ok : Bool) (h : k ≠ j) :
    (s.send k m ok).sockets[j]? = s.sockets[j]? := by
  cases ok with
  | false => rfl
  | true => simp [System.send, h]

theorem sockets_close_ne {s : System} {k j : Nat} (h : k ≠ j) :
    (s.close k).sockets[j]? = s.sockets[j]? := by
  simp [System.close, h]

theorem sockets_recv_ne {s : System} {sockets : List Socket} {result : Option Bytes}
    (hs : s.recv = some (sockets, result)) {j : Nat} (h : s.commSocket ≠ j) :
    sockets[j]? = s.sockets[j]? := by
  unfold System.recv at hs
  split at hs
  · cases hs
    simp [h]
  · split at hs <;> cases hs
    rfl

/-- Only the connection a step uses changes in it. -/
theorem uses_frame {s s' : System} {a : Action} (hs : s.step a = some s')
    (ha : a.fromPeer = false) {j : Nat} {socket : Socket} (hj : s.sockets[j]? = some socket)
    (huses : s.uses a ≠ some j) : s'.sockets[j]? = some socket := by
  cases a with
  | main accepted ok =>
      have hlt : j < s.sockets.length := (List.getElem?_eq_some_iff.mp hj).1
      revert hs
      simp only [System.step]
      fun_cases System.stepMain s accepted ok
      all_goals intro hs
      all_goals cases hs
      all_goals
        simp_all [System.uses, sockets_close_ne, sockets_send_ne, System.signalNotEmpty,
          System.signalResponse, List.getElem?_append_left]
  | comm ok =>
      revert hs
      simp only [System.step]
      fun_cases System.stepComm s ok
      all_goals intro hs
      all_goals cases hs
      all_goals
        simp_all [System.uses, sockets_close_ne, sockets_send_ne, System.signalNotEmpty]
      all_goals
        rw [sockets_recv_ne (by assumption) huses, hj]
  | commWake wake =>
      obtain ⟨_, _, rfl⟩ := wakeComm_eq hs
      exact hj
  | device mallocOk createOk level =>
      rw [(stepDevice_frame hs).2.1]
      exact hj
  | deviceWake wake =>
      obtain ⟨_, rfl⟩ := wakeDevice_eq hs
      exact hj
  | interrupt | libraries devices =>
      cases hs
      exact hj
  | hangUp socket | arrive socket chunk => cases ha

/-! ## How often each connection has been closed -/

def System.closes (s : System) : List Nat := s.sockets.map Socket.closes

/-- A change to one socket, seen through what is recorded of it. -/
theorem map_modify {β : Type} {f : Socket → Socket} {p : Socket → β} {g : β → β}
    (xs : List Socket) (j : Nat) (hf : ∀ k, p (f k) = g (p k)) :
    (xs.modify j f).map p = (xs.map p).modify j g := by
  apply List.ext_getElem?
  intro i
  simp only [List.getElem?_map, List.getElem?_modify]
  cases xs[i]? with
  | none => rfl
  | some socket => by_cases hi : j = i <;> simp [hi, hf]

theorem map_modify_same {β : Type} {f : Socket → Socket} {p : Socket → β} (xs : List Socket)
    (j : Nat) (hf : ∀ k, p (f k) = p k) : (xs.modify j f).map p = xs.map p := by
  rw [map_modify xs j (g := id) hf, List.modify_id]

@[simp] theorem closes_send (s : System) (k : Nat) (m : Bytes) (ok : Bool) :
    (s.send k m ok).closes = s.closes := by
  cases ok with
  | false => rfl
  | true => exact map_modify_same _ _ fun _ => rfl

@[simp] theorem closes_close (s : System) (k : Nat) :
    (s.close k).closes = s.closes.modify k (· + 1) :=
  map_modify s.sockets k fun _ => rfl

theorem closes_recv {s : System} {sockets : List Socket} {result : Option Bytes}
    (hs : s.recv = some (sockets, result)) : sockets.map Socket.closes = s.closes := by
  unfold System.recv at hs
  split at hs
  · cases hs
    exact map_modify_same _ _ fun _ => rfl
  · split at hs <;> cases hs
    rfl

/-! ## Who owns a connection -/

/-- Owned by `main` before the registration, or by the session. -/
def System.owned (s : System) (k : Nat) : Prop :=
  s.main = .register k ∨ s.client_socket = some k

instance (s : System) (k : Nat) : Decidable (s.owned k) :=
  inferInstanceAs (Decidable (_ ∨ _))

structure ConnectionInv (s : System) : Prop where
  cleared : s.client_connected = false → s.client_socket = none
  creating : ∀ k, s.main = .create k → s.client_socket = some k
  copied : s.comm.inSession = true → s.comm ≠ .start → s.client_socket = some s.commSocket
  notBusy : ∀ k, s.main ≠ .busy k
  range : ∀ k, s.owned k → k < s.closes.length
  closes : ∀ k c, s.closes[k]? = some c → c = if s.owned k then 0 else 1

theorem connectionInv_init (server_ip : Bytes) : ConnectionInv (System.init server_ip) where
  cleared _ := rfl
  creating k h := by cases h
  copied h := by cases h
  notBusy k h := by cases h
  range k h := by rcases h with h | h <;> cases h
  closes k c h := by simp [System.closes, System.init] at h

theorem ConnectionInv.closes_after {s : System} (h : ConnectionInv s) {k : Nat}
    (howned : s.owned k) (honly : ∀ j, s.owned j → j = k) {j c : Nat}
    (hc : (s.closes.modify k (· + 1))[j]? = some c) : c = 1 := by
  rw [List.getElem?_modify] at hc
  cases hold : s.closes[j]? with
  | none => simp [hold] at hc
  | some c' =>
      have hc' := h.closes j c' hold
      by_cases hj : k = j
      · subst hj
        rw [if_pos howned] at hc'
        simpa [hold, hc'] using hc.symm
      · have hnot : ¬ s.owned j := fun howns => hj (honly j howns).symm
        rw [if_neg hnot] at hc'
        simpa [hold, hj, hc'] using hc.symm

theorem ConnectionInv.of_main {s s' : System} (h : ConnectionInv s)
    (hregister : ∀ k, s.main ≠ .register k) (hregister' : ∀ k, s'.main ≠ .register k)
    (hcreate' : ∀ k, s'.main ≠ .create k) (hbusy' : ∀ k, s'.main ≠ .busy k)
    (hconn : s'.client_connected = s.client_connected)
    (hsocket : s'.client_socket = s.client_socket)
    (hcopied : s'.comm.inSession = true → s'.comm ≠ .start →
      s'.client_socket = some s'.commSocket)
    (hcloses : s'.closes = s.closes) : ConnectionInv s' := by
  have howned : ∀ k, s'.owned k ↔ s.owned k := by
    intro k
    simp only [System.owned, hregister k, hregister' k, hsocket]
  refine ⟨?_, ?_, hcopied, hbusy', ?_, ?_⟩
  · rw [hconn, hsocket]
    exact h.cleared
  · intro k hk
    exact absurd hk (hcreate' k)
  · intro k hk
    rw [hcloses]
    exact h.range k ((howned k).mp hk)
  · intro k c hc
    rw [hcloses] at hc
    rw [h.closes k c hc]
    simp only [howned]

/-- While a session is set up or open, its connection is the only one owned. -/
theorem System.owned_eq {s : System} {j k : Nat} (hsocket : s.client_socket = some k)
    (hmain : ∀ i, s.main ≠ .register i) (hj : s.owned j) : j = k := by
  rcases hj with hj | hj
  · exact absurd hj (hmain j)
  · rw [hsocket, Option.some.injEq] at hj
    exact hj.symm

theorem ConnectionInv.of_released {s s' : System} (h : ConnectionInv s) {k : Nat}
    (hsocket : s.client_socket = some k) (hmain : ∀ j, s.main ≠ .register j)
    (hnone : s'.client_socket = none)
    (hmain' : ∀ j, s'.main ≠ .register j ∧ s'.main ≠ .create j ∧ s'.main ≠ .busy j)
    (hover : s'.comm.inSession = false) (hcloses : s'.closes = s.closes.modify k (· + 1)) :
    ConnectionInv s' := by
  have hunowned : ∀ j, ¬ s'.owned j := by
    rintro j (hj | hj)
    · exact (hmain' j).1 hj
    · rw [hnone] at hj
      cases hj
  refine ⟨fun _ => hnone, fun j hj => absurd hj (hmain' j).2.1, ?_, fun j => (hmain' j).2.2,
    fun j hj => absurd hj (hunowned j), ?_⟩
  · intro hin
    rw [hover] at hin
    cases hin
  · intro j c hc
    rw [if_neg (hunowned j)]
    exact h.closes_after (Or.inr hsocket) (fun i hi => System.owned_eq hsocket hmain hi)
      (hcloses ▸ hc)

theorem SessionInv.not_inSession {s : System} (h : SessionInv s) (hmain : s.main ≠ .joinComm) :
    s.comm.inSession = false := by
  cases hin : s.comm.inSession with
  | false => rfl
  | true => exact absurd (h.joining.mp (inSession_ne_absent hin)) hmain

theorem ConnectionInv.accept {s : System} (h : ConnectionInv s) (hsession : SessionInv s)
    (hmain : s.main = .accept) : ConnectionInv { s with
      sockets := s.sockets ++ [⟨[], false, [], 0⟩]
      main := .register s.sockets.length } := by
  have hnone := h.cleared (hsession.unconnected (by simp [hmain]) (by simp [hmain]))
  refine ⟨h.cleared, by simp, h.copied, by simp, ?_, ?_⟩
  · intro k hk
    simp_all [System.owned, System.closes]
  · intro k c hc
    have happend : (s.closes ++ [0])[k]? = some c := by
      simpa [System.closes] using hc
    rcases Nat.lt_trichotomy k s.closes.length with hlt | heq | hgt
    · rw [List.getElem?_append_left hlt] at happend
      have hold := h.closes k c happend
      have hne : s.sockets.length ≠ k := by
        simp only [System.closes, List.length_map] at hlt
        omega
      simpa [System.owned, hmain, hnone, hne] using hold
    · subst heq
      rw [List.getElem?_concat_length] at happend
      simp_all [System.owned, System.closes]
    · rw [List.getElem?_eq_none (by simp; omega)] at happend
      cases happend

theorem ConnectionInv.register {s : System} (h : ConnectionInv s) (hsession : SessionInv s)
    {k : Nat} (hmain : s.main = .register k) : ConnectionInv { s with
      client_socket := some k
      client_connected := true
      main := .create k } := by
  have hnone := h.cleared (hsession.unconnected (by simp [hmain]) (by simp [hmain]))
  have howned : ∀ j, System.owned { s with
      client_socket := some k, client_connected := true, main := .create k } j ↔ s.owned j := by
    intro j
    simp [System.owned, hmain, hnone]
  refine ⟨by simp, by simp, ?_, by simp, ?_, ?_⟩
  · intro hin
    have hout := hsession.not_inSession (by simp [hmain])
    exact absurd hin (by simp [hout])
  · intro j hj
    exact h.range j ((howned j).mp hj)
  · intro j c hc
    rw [h.closes j c hc]
    simp only [howned]

theorem ConnectionInv.stepMain {s s' : System} {accepted : Accepted} {ok : Bool}
    (h : ConnectionInv s) (hsession : SessionInv s) (hs : s.stepMain accepted ok = some s') :
    ConnectionInv s' := by
  cases hmain : s.main with
  | accept =>
      simp only [System.stepMain, hmain] at hs
      cases accepted with
      | connection =>
          cases hs
          exact h.accept hsession hmain
      | _ =>
          cases hs
          exact h.of_main (by simp [hmain]) (by simp) (by simp) (by simp) rfl rfl h.copied rfl
  | register k =>
      have hconn := hsession.unconnected (by simp [hmain]) (by simp [hmain])
      simp only [System.stepMain, hmain, hconn] at hs
      cases hs
      exact h.register hsession hmain
  | busy k => exact absurd hmain (h.notBusy k)
  | create k =>
      simp only [System.stepMain, hmain] at hs
      split at hs
      · cases hs
        exact h.of_main (by simp [hmain]) (by simp) (by simp) (by simp) rfl rfl
          (fun _ hne => absurd rfl hne) rfl
      · cases hs
        exact h.of_released (h.creating k hmain) (by simp [hmain]) rfl (by simp)
          (hsession.not_inSession (by simp [hmain])) (closes_close s k)
  | joinComm | cleanupJoinComm =>
      simp only [System.stepMain, hmain] at hs
      split at hs <;> cases hs
      all_goals
        exact h.of_main (by simp [hmain]) (by simp) (by simp) (by simp) rfl rfl
          (by intro hin; cases hin) rfl
  | wakeComm =>
      have hforced := hsession.unforced
      rw [hmain] at hforced
      cases hforced
  | closeSockets =>
      have hnone := h.cleared (hsession.unconnected (by simp [hmain]) (by simp [hmain]))
      simp only [System.stepMain, hmain] at hs
      split at hs
      · next socket hsome =>
          rw [hnone] at hsome
          cases hsome
      · cases hs
        exact h.of_main (by simp [hmain]) (by simp) (by simp) (by simp) rfl rfl h.copied rfl
  | _ =>
      simp only [System.stepMain, hmain] at hs
      repeat' split at hs
      all_goals cases hs
      all_goals
        exact h.of_main (by simp [hmain]) (by simp) (by simp) (by simp) rfl rfl h.copied rfl

theorem ConnectionInv.of_comm {s s' : System} (h : ConnectionInv s) (hmain : s'.main = s.main)
    (hconn : s'.client_connected = s.client_connected)
    (hsocket : s'.client_socket = s.client_socket)
    (hcopied : s'.comm.inSession = true → s'.comm ≠ .start →
      s'.client_socket = some s'.commSocket)
    (hcloses : s'.closes = s.closes) : ConnectionInv s' := by
  have howned : ∀ k, s'.owned k ↔ s.owned k := by
    intro k
    rw [System.owned, System.owned, hmain, hsocket]
  refine ⟨?_, ?_, hcopied, ?_, ?_, ?_⟩
  · rw [hconn, hsocket]
    exact h.cleared
  · rw [hmain, hsocket]
    exact h.creating
  · rw [hmain]
    exact h.notBusy
  · intro k hk
    rw [hcloses]
    exact h.range k ((howned k).mp hk)
  · intro k c hc
    rw [hcloses] at hc
    rw [h.closes k c hc]
    simp only [howned]

theorem ConnectionInv.stepComm {s s' : System} {ok : Bool} (h : ConnectionInv s)
    (hsession : SessionInv s) (hs : s.stepComm ok = some s') : ConnectionInv s' := by
  have hin := (stepComm_control hs).1
  cases hpc : s.comm with
  | absent | returned =>
      rw [hpc] at hin
      cases hin
  | start =>
      simp only [System.stepComm, hpc] at hs
      split at hs
      · next socket hsocket =>
          cases hs
          exact h.of_comm rfl rfl rfl (fun _ _ => hsocket) (closes_send _ _ _ _)
      · cases hs
  | teardown =>
      have hjoin := hsession.joining.mp (inSession_ne_absent hin)
      simp only [System.stepComm, hpc, Option.some.injEq] at hs
      subst hs
      exact h.of_released (h.copied hin (by simp [hpc])) (by simp [hjoin]) rfl
        (by simp [System.close, hjoin]) rfl (closes_close s _)
  | _ =>
      have hcopied := h.copied hin (by simp [hpc])
      simp only [System.stepComm, hpc] at hs
      repeat' split at hs
      all_goals cases hs
      all_goals
        refine h.of_comm rfl rfl rfl (fun _ _ => hcopied) ?_
      all_goals first
        | rfl
        | exact closes_send _ _ _ _
        | exact closes_send _ _ _ true
        | exact closes_recv (by assumption)

theorem ConnectionInv.step {s s' : System} {a : Action} (h : ConnectionInv s)
    (hsession : SessionInv s) (hs : s.step a = some s') : ConnectionInv s' := by
  cases a with
  | main accepted ok => exact h.stepMain hsession hs
  | comm ok => exact h.stepComm hsession hs
  | commWake wake =>
      obtain ⟨block, hcomm, rfl⟩ := wakeComm_eq hs
      have hcopied := h.copied (by rw [hcomm]; rfl) (by simp [hcomm])
      exact h.of_comm rfl rfl rfl (fun _ _ => hcopied) rfl
  | device mallocOk createOk level =>
      obtain ⟨_, hmain, hconn, hsocket, hcomm⟩ := stepDevice_control hs
      obtain ⟨_, hsockets, hcopy⟩ := stepDevice_frame hs
      apply h.of_comm hmain hconn hsocket ?_ (by rw [System.closes, hsockets, System.closes])
      rw [hsocket, hcopy]
      rcases hcomm with heq | heq
      · rw [heq]
        exact h.copied
      · rw [heq, inSession_signalled]
        intro hin hne
        exact h.copied hin fun hstart => hne (by rw [hstart]; rfl)
  | deviceWake wake =>
      obtain ⟨_, rfl⟩ := wakeDevice_eq hs
      exact h.of_comm rfl rfl rfl h.copied rfl
  | interrupt | libraries devices =>
      cases hs
      exact h.of_comm rfl rfl rfl h.copied rfl
  | hangUp socket =>
      cases hs
      exact h.of_comm rfl rfl rfl h.copied (map_modify_same _ _ fun _ => rfl)
  | arrive socket chunk =>
      simp only [System.step] at hs
      repeat' split at hs
      all_goals cases hs
      exact h.of_comm rfl rfl rfl h.copied (map_modify_same _ _ fun _ => rfl)

theorem connectionInv_of_reachable {server_ip : Bytes} {s : System}
    (h : (serverMachine server_ip).Reachable s) : ConnectionInv s := by
  refine Machine.ReachableUnder.invariant (connectionInv_init server_ip) ?_ h
  intro t a t' ht hinv _ hs
  exact hinv.step (sessionInv_of_reachable ht) hs

/-! ## Open connections -/

theorem ConnectionInv.isOpen_iff {s : System} (h : ConnectionInv s) (k : Nat) :
    s.isOpen k = true ↔ s.owned k := by
  cases hk : s.sockets[k]? with
  | none =>
      have hlen : s.closes.length ≤ k := by
        simpa [System.closes] using List.getElem?_eq_none_iff.mp hk
      simp only [System.isOpen, hk, Option.any_none, Bool.false_eq_true, false_iff]
      intro howned
      have hlt := h.range k howned
      omega
  | some socket =>
      have hc := h.closes k socket.closes (by simp [System.closes, hk])
      simp only [System.isOpen, hk, Option.any_some, beq_iff_eq]
      rw [hc]
      split <;> simp_all

/-- At most one connection is open at any time. -/
theorem ConnectionInv.owned_unique {s : System} (h : ConnectionInv s) (hsession : SessionInv s)
    {j k : Nat} (hj : s.owned j) (hk : s.owned k) : j = k := by
  have hregister : ∀ i, s.main = .register i → s.client_socket = none := by
    intro i hi
    exact h.cleared (hsession.unconnected (by simp [hi]) (by simp [hi]))
  rcases hj with hj | hj <;> rcases hk with hk | hk
  · rw [hj] at hk
    cases hk
    rfl
  · rw [hregister j hj] at hk
    cases hk
  · rw [hregister k hk] at hj
    cases hj
  · rw [hj] at hk
    cases hk
    rfl

/-- Whatever a step hands to `send`, `recv` or `close` is owned. -/
theorem ConnectionInv.uses_owned {s s' : System} {a : Action} (h : ConnectionInv s)
    (hs : s.step a = some s') {k : Nat} (huses : s.uses a = some k) : s.owned k := by
  right
  cases a with
  | main accepted ok =>
      cases hmain : s.main with
      | busy j => exact absurd hmain (h.notBusy j)
      | create j =>
          simp only [System.uses, hmain] at huses
          split at huses <;> cases huses
          exact h.creating k hmain
      | closeSockets =>
          simpa [System.uses, hmain] using huses
      | _ => simp [System.uses, hmain] at huses
  | comm ok =>
      have hin := (stepComm_control hs).1
      cases hpc : s.comm with
      | start => simpa [System.uses, hpc] using huses
      | _ =>
          have hcopied := h.copied hin (by simp [hpc])
          simp only [System.uses, hpc] at huses
          all_goals first
            | (cases huses; exact hcopied)
            | cases huses
  | _ => cases huses

/-! ## The tracked sessions and threads -/

structure LifecycleInv (l : Lifecycle) : Prop where
  sessions : l.sessions = l.system.client_socket.toList
  threads : l.threads = if l.system.comm = .absent then 0 else 1
  numbers : l.numbers.length = l.system.sockets.length

theorem sockets_length {s s' : System} {a : Action} (hs : s.step a = some s') :
    s'.sockets.length = s.sockets.length ∨ s'.sockets.length = s.sockets.length + 1 := by
  have hsame : ∀ {t : System}, t.closes = s.closes → t.sockets.length = s.sockets.length := by
    intro t ht
    simpa [System.closes] using congrArg List.length ht
  cases a with
  | main accepted ok =>
      revert hs
      simp only [System.step]
      fun_cases System.stepMain s accepted ok
      all_goals intro hs
      all_goals cases hs
      all_goals
        simp [System.close, System.send, System.signalNotEmpty, System.signalResponse]
      all_goals
        split <;> simp
  | comm ok =>
      revert hs
      simp only [System.step]
      fun_cases System.stepComm s ok
      all_goals intro hs
      all_goals cases hs
      all_goals first
        | exact Or.inl rfl
        | exact Or.inl (hsame (closes_send _ _ _ _))
        | exact Or.inl (hsame (closes_send _ _ _ true))
        | exact Or.inl (hsame (closes_recv (by assumption)))
        | exact Or.inl (List.length_modify _ _ _)
  | commWake wake =>
      obtain ⟨_, _, rfl⟩ := wakeComm_eq hs
      exact Or.inl rfl
  | device mallocOk createOk level =>
      rw [(stepDevice_frame hs).2.1]
      exact Or.inl rfl
  | deviceWake wake =>
      obtain ⟨_, rfl⟩ := wakeDevice_eq hs
      exact Or.inl rfl
  | interrupt | libraries devices =>
      cases hs
      exact Or.inl rfl
  | hangUp socket =>
      cases hs
      exact Or.inl (List.length_modify _ _ _)
  | arrive socket chunk =>
      simp only [System.step] at hs
      repeat' split at hs
      all_goals cases hs
      exact Or.inl (List.length_modify _ _ _)

theorem lifecycle_step_spec {l l' : Lifecycle} {a : Action × Nat} (hs : l.step a = some l') :
    l.system.step a.1 = some l'.system ∧ l'.sessions = l.stepSessions a.1 ∧
      l'.threads = l.stepThreads a.1 ∧
      (l.numbers.length = l.system.sockets.length →
        l'.numbers.length = l'.system.sockets.length) := by
  unfold Lifecycle.step at hs
  split at hs
  · cases hs
  · next s' hstep =>
      split at hs
      · next hlen =>
          cases hs
          exact ⟨hstep, rfl, rfl, fun hnumbers => hnumbers.trans hlen.symm⟩
      · next hlen =>
          split at hs <;> cases hs
          refine ⟨hstep, rfl, rfl, fun hnumbers => ?_⟩
          rcases sockets_length hstep with hsame | hmore
          · exact absurd hsame hlen
          · simp [hnumbers, hmore]

theorem LifecycleInv.stepSessions {l : Lifecycle} {s' : System} {a : Action}
    (h : LifecycleInv l) (hconn : ConnectionInv l.system) (hsession : SessionInv l.system)
    (hs : l.system.step a = some s') : l.stepSessions a = s'.client_socket.toList := by
  cases a with
  | main accepted ok =>
      cases hmain : l.system.main with
      | register k =>
          have hoff := hsession.unconnected (by simp [hmain]) (by simp [hmain])
          simp only [System.step, System.stepMain, hmain, hoff] at hs
          cases hs
          simp [Lifecycle.stepSessions, hmain, hoff, h.sessions, hconn.cleared hoff]
      | create k =>
          have hsocket := hconn.creating k hmain
          simp only [System.step, System.stepMain, hmain] at hs
          cases ok with
          | true =>
              cases hs
              simp [Lifecycle.stepSessions, hmain, h.sessions]
          | false =>
              cases hs
              simp [Lifecycle.stepSessions, hmain, h.sessions, hsocket]
      | _ =>
          simp only [System.step, System.stepMain, hmain] at hs
          repeat' split at hs
          all_goals cases hs
          all_goals
            simp only [Lifecycle.stepSessions, hmain]
            exact h.sessions
  | comm ok =>
      have hin := (stepComm_control hs).1
      cases hpc : l.system.comm with
      | teardown =>
          have hcopied := hconn.copied hin (by simp [hpc])
          simp only [System.step, System.stepComm, hpc, Option.some.injEq] at hs
          subst hs
          simp [Lifecycle.stepSessions, hpc, h.sessions, hcopied]
      | _ =>
          simp only [System.step, System.stepComm, hpc] at hs
          repeat' split at hs
          all_goals cases hs
          all_goals
            simp only [Lifecycle.stepSessions, hpc]
            exact h.sessions
  | commWake wake =>
      obtain ⟨_, _, rfl⟩ := wakeComm_eq hs
      exact h.sessions
  | device mallocOk createOk level =>
      rw [(stepDevice_control hs).2.2.2.1]
      exact h.sessions
  | deviceWake wake =>
      obtain ⟨_, rfl⟩ := wakeDevice_eq hs
      exact h.sessions
  | interrupt | hangUp socket | libraries devices =>
      cases hs
      exact h.sessions
  | arrive socket chunk =>
      simp only [System.step] at hs
      repeat' split at hs
      all_goals cases hs
      exact h.sessions

theorem LifecycleInv.stepThreads {l : Lifecycle} {s' : System} {a : Action}
    (h : LifecycleInv l) (hsession : SessionInv l.system) (hs : l.system.step a = some s') :
    l.stepThreads a = if s'.comm = .absent then 0 else 1 := by
  have hsame : (s'.comm = .absent ↔ l.system.comm = .absent) →
      l.threads = if s'.comm = .absent then 0 else 1 := by
    intro hiff
    rw [h.threads]
    simp only [hiff]
  cases a with
  | main accepted ok =>
      cases hmain : l.system.main with
      | create k =>
          have habsent : l.system.comm = .absent := by
            by_contra hne
            have hjoin := hsession.joining.mp hne
            rw [hmain] at hjoin
            cases hjoin
          simp only [System.step, System.stepMain, hmain] at hs
          cases ok with
          | true =>
              cases hs
              simp [Lifecycle.stepThreads, hmain, h.threads, habsent]
          | false =>
              cases hs
              simp [Lifecycle.stepThreads, hmain, h.threads, habsent, System.close]
      | joinComm | cleanupJoinComm =>
          simp only [System.step, System.stepMain, hmain] at hs
          split at hs <;> cases hs
          simp_all [Lifecycle.stepThreads, h.threads]
      | wakeComm =>
          have hforced := hsession.unforced
          rw [hmain] at hforced
          cases hforced
      | _ =>
          simp only [System.step, System.stepMain, hmain] at hs
          repeat' split at hs
          all_goals cases hs
          all_goals
            simp only [Lifecycle.stepThreads, hmain]
            exact hsame Iff.rfl
  | _ => exact hsame (step_main_frame hs (by simp)).2.1

theorem lifecycle_of_reachable {server_ip : Bytes} {l : Lifecycle}
    (h : (lifecycleMachine server_ip).Reachable l) :
    (serverMachine server_ip).Reachable l.system ∧ LifecycleInv l := by
  refine Machine.Reachable.invariant (I := fun l => (serverMachine server_ip).Reachable l.system ∧
    LifecycleInv l) ?_ ?_ h
  · exact ⟨Machine.ReachableUnder.start, rfl, rfl, rfl⟩
  · rintro l a l' ⟨hreach, hinv⟩ hs
    obtain ⟨hstep, hsessions, hthreads, hnumbers⟩ := lifecycle_step_spec hs
    have hsession := sessionInv_of_reachable hreach
    refine ⟨hreach.step trivial hstep, ?_, ?_, hnumbers hinv.numbers⟩
    · rw [hsessions]
      exact hinv.stepSessions (connectionInv_of_reachable hreach) hsession hstep
    · rw [hthreads]
      exact hinv.stepThreads hsession hstep

/-! ## The result -/

structure WellKept (l : Lifecycle) : Prop where
  /-- `client_connected` says that `client_socket` is the open connection of the one
  registered session. -/
  connected : l.system.client_connected = true ↔
    ∃ k, l.sessions = [k] ∧ l.system.client_socket = some k ∧ l.system.isOpen k = true
  disconnected : l.system.client_connected = false →
    l.sessions = [] ∧ l.system.client_socket = none
  joined : l.threads ≤ 1
  /-- Closed once, as soon as neither `main` nor a session owns it any more. -/
  once : ∀ (k : Nat) (socket : Socket), l.system.sockets[k]? = some socket →
    socket.closes = if l.system.main = .register k ∨ k ∈ l.sessions then 0 else 1
  /-- What a step uses is open, and the only open connection of its number. -/
  used : ∀ a s' k, l.system.step a = some s' → l.system.uses a = some k →
    l.system.isOpen k = true ∧ ∃ number, l.numbers[k]? = some number ∧ l.resolve number = [k]
  cleanup : l.system.main.accepting = false → l.system.client_connected = false ∧
    l.system.client_socket = none ∧
    ∀ (k : Nat) (socket : Socket), l.system.sockets[k]? = some socket → socket.closes = 1

theorem resolve_owned {l : Lifecycle} (h : LifecycleInv l) (hconn : ConnectionInv l.system)
    (hsession : SessionInv l.system) {k : Nat} (howned : l.system.owned k) :
    ∃ number, l.numbers[k]? = some number ∧ l.resolve number = [k] := by
  have hlt : k < l.system.sockets.length := by
    simpa [System.closes] using hconn.range k howned
  obtain ⟨number, hnumber⟩ : ∃ number, l.numbers[k]? = some number :=
    ⟨_, List.getElem?_eq_getElem (h.numbers ▸ hlt)⟩
  refine ⟨number, hnumber, ?_⟩
  have hpred : ∀ j ∈ List.range l.system.sockets.length,
      (l.system.isOpen j && l.numbers[j]? == some number) = (j == k) := by
    intro j _
    by_cases hj : j = k
    · subst hj
      simp [(hconn.isOpen_iff j).mpr howned, hnumber]
    · have hclosed : l.system.isOpen j = false := by
        rw [← Bool.not_eq_true, hconn.isOpen_iff]
        intro hjowned
        exact hj (hconn.owned_unique hsession hjowned howned)
      simp [hclosed, hj]
  rw [Lifecycle.resolve, List.filter_congr hpred, List.filter_beq,
    List.count_range, if_pos hlt]
  rfl

theorem owned_iff_sessions {l : Lifecycle} (h : LifecycleInv l) (k : Nat) :
    l.system.owned k ↔ l.system.main = .register k ∨ k ∈ l.sessions := by
  rw [System.owned, h.sessions, Option.mem_toList]

/-- Over every run of the accept loop and of the sessions it starts. -/
theorem sessions_well_kept {server_ip : Bytes} {l : Lifecycle}
    (h : (lifecycleMachine server_ip).Reachable l) : WellKept l := by
  obtain ⟨hreach, hinv⟩ := lifecycle_of_reachable h
  have hsession := sessionInv_of_reachable hreach
  have hconn := connectionInv_of_reachable hreach
  have hcloses : ∀ (k : Nat) (socket : Socket), l.system.sockets[k]? = some socket →
      socket.closes = if l.system.owned k then 0 else 1 := by
    intro k socket hk
    exact hconn.closes k socket.closes (by simp [System.closes, hk])
  refine ⟨?_, ?_, ?_, ?_, ?_, ?_⟩
  · constructor
    · intro hon
      obtain ⟨k, hk⟩ := hsession.socket hon
      refine ⟨k, ?_, hk, (hconn.isOpen_iff k).mpr (Or.inr hk)⟩
      rw [hinv.sessions, hk, Option.toList_some]
    · rintro ⟨k, -, hk, -⟩
      by_contra hoff
      rw [Bool.not_eq_true] at hoff
      rw [hconn.cleared hoff] at hk
      cases hk
  · intro hoff
    have hnone := hconn.cleared hoff
    exact ⟨by rw [hinv.sessions, hnone, Option.toList_none], hnone⟩
  · rw [hinv.threads]
    split <;> omega
  · intro k socket hk
    rw [hcloses k socket hk]
    simp only [owned_iff_sessions hinv]
  · intro a s' k hs huses
    have howned := hconn.uses_owned hs huses
    exact ⟨(hconn.isOpen_iff k).mpr howned, resolve_owned hinv hconn hsession howned⟩
  · intro hcleanup
    have hne : ∀ pc, l.system.main = pc → pc.accepting = false := by
      rintro pc rfl
      exact hcleanup
    have hoff : l.system.client_connected = false := by
      apply hsession.unconnected
      · intro hjoin
        cases hne _ hjoin
      · intro k hcreate
        cases hne _ hcreate
    have hnone := hconn.cleared hoff
    refine ⟨hoff, hnone, ?_⟩
    intro k socket hk
    rw [hcloses k socket hk, if_neg]
    rintro (hregister | hsocket)
    · cases hne _ hregister
    · rw [hnone] at hsocket
      cases hsocket

/-- Two sessions one after the other on the same descriptor number, the second
still open. -/
theorem number_reused :
    ∃ l, (lifecycleMachine []).Reachable l ∧ l.numbers = [4, 4] ∧ l.sessions = [1] ∧
      l.resolve 4 = [1] ∧ WellKept l := by
  have hrun : (((lifecycleMachine []).exec (lifecycleMachine []).start
      ((connect ++ [Action.hangUp 0] ++ commSteps 2 ++ mainSteps 5).map fun a => (a, 4))).any fun l =>
        l.numbers = [4, 4] ∧ l.sessions = [1] ∧ l.resolve 4 = [1]) = true := by
    decide +kernel
  obtain ⟨l, hreach, hfacts⟩ := Machine.Reachable.exists_of_exec hrun
  obtain ⟨hnumbers, hsessions, hresolve⟩ := of_decide_eq_true hfacts
  exact ⟨l, hreach, hnumbers, hsessions, hresolve, sessions_well_kept hreach⟩

end RsvpControl.Server
