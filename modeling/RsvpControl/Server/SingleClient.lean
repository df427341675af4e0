import RsvpControl.Server.Lifecycle

/-! # A second client

`main` has a branch that turns a client away while another is connected. It joins the
communication thread before it accepts again, though, so while a session lasts a
second connection is not accepted at all, and the branch is never taken.
-/

namespace RsvpControl.Server

open RsvpControl.Core

/-- Steps of `main` alone, whatever its `accept`, `send` and `pthread_create` return. -/
def MainReaches (server_ip : Bytes) : System → System → Prop :=
  (serverMachine server_ip).ReachesUnder fun _ a => ∃ accepted ok, a = .main accepted ok

/-- The session of `s` goes on in `t`. -/
structure SameSession (s t : System) : Prop where
  client_socket : t.client_socket = s.client_socket
  client_connected : t.client_connected = true
  comm : t.comm = s.comm

/-- By its own steps, and with the session going on, `main` comes to reject another
connection, and that leaves the session as it was. -/
def TurnsAway (server_ip : Bytes) (s : System) : Prop :=
  ∃ t u socket accepted ok, MainReaches server_ip s t ∧ SameSession s t ∧
    t.main = .busy socket ∧ t.stepMain accepted ok = some u ∧ SameSession s u

theorem MainReaches.reaches {server_ip : Bytes} {s t : System}
    (h : MainReaches server_ip s t) : (serverMachine server_ip).Reaches s t :=
  Machine.ReachesUnder.mono (fun _ _ _ => trivial) h

theorem not_turnsAway {server_ip : Bytes} {s : System}
    (h : (serverMachine server_ip).Reachable s) : ¬ TurnsAway server_ip s := by
  rintro ⟨t, u, socket, accepted, ok, hrun, -, hbusy, -, -⟩
  have hreach : (serverMachine server_ip).Reachable t :=
    Relation.ReflTransGen.trans h hrun.reaches
  exact (connectionInv_of_reachable hreach).notBusy socket hbusy

/-- `main` waits in the join for as long as the session lasts. -/
theorem stepMain_of_inSession {s : System} (h : SessionInv s) (hcomm : s.comm.inSession = true)
    (accepted : Accepted) (ok : Bool) : s.stepMain accepted ok = none := by
  have hjoin : s.main = .joinComm := h.joining.mp (inSession_ne_absent hcomm)
  have hlasts : s.comm ≠ .returned := by
    intro hreturned
    rw [hreturned] at hcomm
    cases hcomm
  simp only [System.stepMain, hjoin, if_neg hlasts]

theorem MainReaches.eq_of_inSession {server_ip : Bytes} {s t : System} (h : SessionInv s)
    (hcomm : s.comm.inSession = true) (hrun : MainReaches server_ip s t) : t = s := by
  refine Machine.ReachesUnder.invariant (I := fun t => t = s) rfl ?_ hrun
  rintro t a t' - rfl ⟨accepted, ok, rfl⟩ hs
  have hnone := stepMain_of_inSession h hcomm accepted ok
  simp only [serverMachine, System.step, hnone] at hs
  cases hs

/-- However a session has been reached: no second client is turned away, and once
the communication thread runs `main` takes no step until it has returned. -/
theorem second_client_not_turned_away (server_ip : Bytes) {s : System}
    (h : (serverMachine server_ip).Reachable s) (hconnected : s.client_connected = true) :
    ¬ TurnsAway server_ip s ∧
      ((∃ socket, s.main = .create socket ∧ s.client_socket = some socket) ∨
        (s.main = .joinComm ∧ ∀ t, MainReaches server_ip s t → t = s)) := by
  refine ⟨not_turnsAway h, ?_⟩
  have hsession := sessionInv_of_reachable h
  rcases hsession.connected.mp hconnected with ⟨socket, hcreate⟩ | hcomm
  · exact Or.inl ⟨socket, hcreate, (connectionInv_of_reachable h).creating socket hcreate⟩
  · exact Or.inr ⟨hsession.joining.mp (inSession_ne_absent hcomm),
      fun t hrun => hrun.eq_of_inSession hsession hcomm⟩

/-- The first client is connected and has its menu. -/
theorem second_client_waits_for_first :
    ∃ s, (serverMachine []).Reachable s ∧ s.client_connected = true ∧
      s.comm = .recvCommand ∧ ¬ TurnsAway [] s := by
  have hrun : ((serverMachine []).exec (serverMachine []).start connect).any (fun s =>
      decide (s.client_connected = true ∧ s.comm = .recvCommand)) = true := by
    decide +kernel
  obtain ⟨s, hreach, hfacts⟩ := Machine.Reachable.exists_of_exec hrun
  obtain ⟨hconnected, hcomm⟩ := of_decide_eq_true hfacts
  exact ⟨s, hreach, hconnected, hcomm,
    (second_client_not_turned_away [] hreach hconnected).1⟩

/-- Not every session lets `main` turn another client away. -/
theorem busy_branch_unreached :
    ¬ (∀ (server_ip : Bytes) (s : System), (serverMachine server_ip).Reachable s →
      s.client_connected = true → s.server_running = true → TurnsAway server_ip s) := by
  intro h
  have hrun : ((serverMachine []).exec (serverMachine []).start connect).any (fun s =>
      decide (s.client_connected = true ∧ s.server_running = true)) = true := by
    decide +kernel
  obtain ⟨s, hreach, hfacts⟩ := Machine.Reachable.exists_of_exec hrun
  obtain ⟨hconnected, hrunning⟩ := of_decide_eq_true hfacts
  exact not_turnsAway hreach (h [] s hreach hconnected hrunning)

end RsvpControl.Server
