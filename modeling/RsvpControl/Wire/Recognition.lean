import RsvpControl.Server.Sessions

/-! # Recognised commands

The commands the communication thread recognises in the results of successive
receives, as a function of these results alone, and over the runs of the server:
during a session the commands handed to `queue_push` or acted on as EXIT are those
the function finds in what the session has received.
-/

namespace RsvpControl.Wire

open RsvpControl.Core Server

inductive Recognised where
  | push (cmd : Command)
  | exit
deriving DecidableEq, Repr

/-- The commands recognised in the results of successive receives, with the
command whose parameter the next receive is to bring. -/
def recognise : Option Command → List Bytes → List Recognised
  | _, [] => []
  | none, buffer :: buffers =>
      match commandReceived buffer with
      | .invalid => recognise none buffers
      | .exit => [.exit]
      | .askParameter cmd _ => recognise (some cmd) buffers
      | .push cmd => .push cmd :: recognise none buffers
  | some cmd, buffer :: buffers => .push (replyReceived cmd buffer) :: recognise none buffers

/-! ## In the threads of the server -/

/-- The result of the receive that a step performs. -/
def received (s : System) : Action → List Bytes
  | .comm _ =>
      match s.comm with
      | .recvCommand | .recvReply _ => s.inbox.take 1
      | _ => []
  | _ => []

/-- The command that a step hands to `queue_push` or acts on as EXIT. -/
def actedOn (s : System) : Action → List Recognised
  | .comm _ =>
      match s.comm with
      | .push cmd => [.push cmd]
      | .sendBye => [.exit]
      | _ => []
  | _ => []

/-- Recognised and not yet acted on. -/
def inHand : CommPc → List Recognised
  | .lock cmd | .push cmd => [.push cmd]
  | .sendBye => [.exit]
  | _ => []

/-- Past its last receive. -/
def ended : CommPc → Bool
  | .absent | .sendBye | .teardown | .returned => true
  | _ => false

/-- The command whose parameter the next receive is to bring. -/
def awaited : CommPc → Option Command
  | .sendPrompt cmd _ | .recvReply cmd => some cmd
  | _ => none

theorem control_signalled (pc : CommPc) :
    inHand pc.signalled = inHand pc ∧ ended pc.signalled = ended pc ∧
      awaited pc.signalled = awaited pc := by
  cases pc <;> exact ⟨rfl, rfl, rfl⟩

theorem recv_eq {s : System} {sockets : List Socket} {result : Option Bytes}
    (hs : s.recv = some (sockets, result)) : s.inbox.take 1 = result.toList := by
  unfold System.recv at hs
  split at hs
  · next hinbox =>
      cases hs
      simp [hinbox]
  · next hinbox =>
      split at hs <;> cases hs
      simp [hinbox]

/-- A step of the communication thread: what it had in hand and what it receives
is what it acts on and what it has in hand afterwards. -/
theorem stepComm_recognises {s s' : System} {ok : Bool} (hs : s.stepComm ok = some s') :
    (ended s.comm = true → ended s'.comm = true ∧ received s (.comm ok) = [] ∧
      inHand s.comm = actedOn s (.comm ok) ++ inHand s'.comm) ∧
    (ended s.comm = false → ∀ buffers, (ended s'.comm = true → buffers = []) →
      inHand s.comm ++ recognise (awaited s.comm) (received s (.comm ok) ++ buffers) =
        actedOn s (.comm ok) ++ (inHand s'.comm ++ recognise (awaited s'.comm) buffers)) := by
  cases hpc : s.comm with
  | recvCommand =>
      refine ⟨(by simp [ended]), fun _ buffers hdone => ?_⟩
      simp only [System.stepComm, hpc] at hs
      split at hs
      · cases hs
      · next hrecv =>
          cases hs
          have hempty := hdone rfl
          simp [received, actedOn, inHand, awaited, hpc, recv_eq hrecv, hempty, recognise]
      · next sockets buffer hrecv =>
          have htake := recv_eq hrecv
          cases hreceived : commandReceived buffer
          all_goals simp only [hreceived] at hs
          all_goals cases hs
          all_goals
            simp_all [received, actedOn, inHand, awaited, ended, recognise]
  | recvReply cmd =>
      refine ⟨(by simp [ended]), fun _ buffers hdone => ?_⟩
      simp only [System.stepComm, hpc] at hs
      split at hs
      · cases hs
      · next hrecv =>
          cases hs
          have hempty := hdone rfl
          simp [received, actedOn, inHand, awaited, hpc, recv_eq hrecv, hempty, recognise]
      · next sockets buffer hrecv =>
          cases hs
          simp [received, actedOn, inHand, awaited, hpc, recv_eq hrecv, recognise]
  | _ =>
      simp only [System.stepComm, hpc] at hs
      repeat' split at hs
      all_goals cases hs
      all_goals
        simp_all [received, actedOn, inHand, awaited, ended, recognise]

theorem step_others {s s' : System} {a : Action} (hinv : SessionInv s) (hs : s.step a = some s')
    (hopen : s.comm ≠ .absent) (hopen' : s'.comm ≠ .absent) (ha : ∀ ok, a ≠ .comm ok) :
    received s a = [] ∧ actedOn s a = [] ∧ inHand s'.comm = inHand s.comm ∧
      ended s'.comm = ended s.comm ∧ awaited s'.comm = awaited s.comm := by
  have hkeep := (hinv.step_frame hs hopen (fun _ => hopen') ha).1
  have hnone : received s a = [] ∧ actedOn s a = [] := by
    cases a with
    | comm ok => exact absurd rfl (ha ok)
    | _ => exact ⟨rfl, rfl⟩
  refine ⟨hnone.1, hnone.2, ?_⟩
  rcases hkeep with hcomm | hcomm | ⟨block, inTime, hcomm, hcomm'⟩
  · rw [hcomm]
    exact ⟨rfl, rfl, rfl⟩
  · rw [hcomm]
    exact control_signalled _
  · rw [hcomm, hcomm']
    exact ⟨rfl, rfl, rfl⟩

theorem step_recognises {s s' : System} {a : Action} (hinv : SessionInv s)
    (hs : s.step a = some s') (hopen : s.comm ≠ .absent) (hopen' : s'.comm ≠ .absent) :
    (ended s.comm = true → ended s'.comm = true ∧ received s a = [] ∧
      inHand s.comm = actedOn s a ++ inHand s'.comm) ∧
    (ended s.comm = false → ∀ buffers, (ended s'.comm = true → buffers = []) →
      inHand s.comm ++ recognise (awaited s.comm) (received s a ++ buffers) =
        actedOn s a ++ (inHand s'.comm ++ recognise (awaited s'.comm) buffers)) := by
  by_cases hcomm : ∃ ok, a = .comm ok
  · obtain ⟨ok, rfl⟩ := hcomm
    exact stepComm_recognises hs
  · have hothers := step_others hinv hs hopen hopen' fun ok h => hcomm ⟨ok, h⟩
    obtain ⟨hreceived, hacted, hhand, hended, hawaited⟩ := hothers
    rw [hreceived, hacted, hhand, hended, hawaited]
    exact ⟨fun h => ⟨h, rfl, rfl⟩, fun _ buffers _ => rfl⟩

/-- After its last receive a thread receives nothing and only finishes what it
has in hand. -/
theorem observed_ended {server_ip : Bytes} {s t : System} {as : List Action}
    (hinv : SessionInv s) (hended : ended s.comm = true)
    (hrun : (serverMachine server_ip).exec s as = some t)
    (hopen : ∀ u ∈ (serverMachine server_ip).states s as, u.comm ≠ .absent) :
    (serverMachine server_ip).observed received s as = [] ∧
      inHand s.comm = (serverMachine server_ip).observed actedOn s as ++ inHand t.comm := by
  induction as generalizing s with
  | nil =>
      cases hrun
      exact ⟨rfl, rfl⟩
  | cons a as ih =>
      cases hs : (serverMachine server_ip).step s a with
      | none => simp [Machine.exec_cons, hs] at hrun
      | some s' =>
          simp only [Machine.exec_cons, hs, Option.bind_some] at hrun
          simp only [Machine.states, hs, List.mem_cons, forall_eq_or_imp] at hopen
          have hstep := (step_recognises hinv hs hopen.1
            (hopen.2 s' (Machine.mem_states_self s' as))).1 hended
          have hrest := ih (hinv.step hs) hstep.1 hrun hopen.2
          simp only [Machine.observed, hs]
          refine ⟨by rw [hstep.2.1, hrest.1, List.nil_append], ?_⟩
          rw [hstep.2.2, hrest.2, List.append_assoc]

theorem observed_recognises {server_ip : Bytes} {s t : System} {as : List Action}
    (hinv : SessionInv s) (hended : ended s.comm = false)
    (hrun : (serverMachine server_ip).exec s as = some t)
    (hopen : ∀ u ∈ (serverMachine server_ip).states s as, u.comm ≠ .absent) :
    inHand s.comm ++
        recognise (awaited s.comm) ((serverMachine server_ip).observed received s as) =
      (serverMachine server_ip).observed actedOn s as ++ inHand t.comm := by
  induction as generalizing s with
  | nil =>
      cases hrun
      cases awaited t.comm <;> simp [Machine.observed, recognise]
  | cons a as ih =>
      cases hs : (serverMachine server_ip).step s a with
      | none => simp [Machine.exec_cons, hs] at hrun
      | some s' =>
          simp only [Machine.exec_cons, hs, Option.bind_some] at hrun
          simp only [Machine.states, hs, List.mem_cons, forall_eq_or_imp] at hopen
          have hstep := (step_recognises hinv hs hopen.1
            (hopen.2 s' (Machine.mem_states_self s' as))).2 hended
          simp only [Machine.observed, hs]
          cases hended' : ended s'.comm with
          | true =>
              have hrest := observed_ended (hinv.step hs) hended' hrun hopen.2
              rw [hrest.1, hstep [] fun _ => rfl, hrest.2]
              cases awaited s'.comm <;> simp [recognise]
          | false =>
              have hrest := ih (hinv.step hs) hended' hrun hopen.2
              rw [hstep _ fun h => absurd h (by simp [hended']), hrest, List.append_assoc]

/-- In every run of a session, from the start of its communication thread, the
commands acted on and the one in hand are those recognised in what was received. -/
theorem session_recognises {server_ip : Bytes} {s t : System} {as : List Action}
    (hreach : (serverMachine server_ip).Reachable s) (hstart : s.comm = .start)
    (hrun : (serverMachine server_ip).exec s as = some t)
    (hopen : ∀ u ∈ (serverMachine server_ip).states s as, u.comm ≠ .absent) :
    (serverMachine server_ip).observed actedOn s as ++ inHand t.comm =
      recognise none ((serverMachine server_ip).observed received s as) := by
  have hended : ended s.comm = false := by
    rw [hstart]
    rfl
  have h := observed_recognises (sessionInv_of_reachable hreach) hended hrun hopen
  rw [hstart] at h
  exact h.symm

end RsvpControl.Wire
