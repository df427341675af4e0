import RsvpControl.Client.Turns

/-! # Deadlocks of client and server

Both parties wait for each other only after an answer for which the client sends
nothing: the server sends its menu or prompt once, and the client asks the user
only on receiving one.
-/

namespace RsvpControl.Client

open RsvpControl.Core Server

/-! ## The invariant -/

/-- While the session is open and the server running: the client has left, a party
has the turn, or both wait for each other. -/
structure ConversationInv (socket : Nat) (c : Conversation) : Prop where
  sessions : SessionInv c.server
  spoken : Spoken c.server
  found : ∃ k, c.server.sockets[socket]? = some k
  state : c.live socket = true →
    c.client.left = true ∨ (∃ k, Held socket c k) ∨ c.deadlocked socket = true

theorem step_server {socket : Nat} {c c' : Conversation} {e : Event}
    (hs : c.step socket e = some c') :
    c'.server = c.server ∨ ∃ a, c.server.step a = some c'.server := by
  have hanswered : ∀ outcome, c.answered socket outcome = some c' →
      c'.server = c.server ∨ ∃ a, c.server.step a = some c'.server := by
    rintro ⟨pc, message⟩ hs
    cases message with
    | none =>
        cases hs
        exact Or.inl rfl
    | some message =>
        obtain ⟨s', hstep, rfl⟩ := Option.map_eq_some_iff.mp hs
        exact Or.inr ⟨_, hstep⟩
  cases e with
  | server a =>
      simp only [Conversation.step] at hs
      split at hs
      · obtain ⟨s', hstep, rfl⟩ := Option.map_eq_some_iff.mp hs
        exact Or.inr ⟨a, hstep⟩
      · cases hs
  | receive =>
      simp only [Conversation.step] at hs
      split at hs <;> cases hs
      · exact Or.inl rfl
      · exact Or.inl rfl
  | answer i =>
      simp only [Conversation.step] at hs
      split at hs
      · exact hanswered _ hs
      · exact hanswered _ hs
      · cases hs
  | serverClosed =>
      simp only [Conversation.step] at hs
      split at hs <;> cases hs
      · exact Or.inl rfl
      · exact Or.inl rfl
  | close =>
      simp only [Conversation.step] at hs
      split at hs
      · obtain ⟨s', hstep, rfl⟩ := Option.map_eq_some_iff.mp hs
        exact Or.inr ⟨_, hstep⟩
      · cases hs

theorem ConversationInv.live_of_step {socket : Nat} {c c' : Conversation} {e : Event}
    (h : ConversationInv socket c) (hs : c.step socket e = some c')
    (hlive : c'.live socket = true) : c.live socket = true := by
  obtain ⟨k, hk⟩ := h.found
  simp only [Conversation.live, Conversation.sessionOpen, Bool.and_eq_true] at hlive ⊢
  rcases step_server hs with hsame | ⟨a, hstep⟩
  · rwa [hsame] at hlive
  · obtain ⟨k', hk', hle⟩ := closedKept_step hstep socket k hk
    simp only [hk', decide_eq_true_eq] at hlive
    refine ⟨running_of_step hstep hlive.1, ?_⟩
    simp only [hk, decide_eq_true_eq]
    omega

theorem stepComm_of_blocked {s : System} (h : s.blockedInRecv = true) (ok : Bool) :
    s.stepComm ok = none := by
  unfold System.blockedInRecv at h
  cases hpc : s.comm with
  | recvCommand | recvReply cmd =>
      simp only [hpc, Bool.and_eq_true, List.isEmpty_iff, Bool.not_eq_true'] at h
      have hrecv : s.recv = none := by simp [System.recv, h.1, h.2]
      simp only [System.stepComm, hpc, hrecv]
  | _ => simp [hpc] at h

/-- A thread blocked in `recv` stays blocked when other threads step. -/
theorem blocked_frame {s s' : System} {a : Action} (hinv : SessionInv s)
    (hblocked : s.blockedInRecv = true) (hs : s.step a = some s') (ha : ∀ ok, a ≠ .comm ok)
    (hby : byServer s.commSocket s a = true) :
    s'.blockedInRecv = true ∧ s'.commSocket = s.commSocket ∧
      s'.sockets[s.commSocket]? = s.sockets[s.commSocket]? := by
  have hpc : (s.comm = .recvCommand ∨ ∃ cmd, s.comm = .recvReply cmd) := by
    unfold System.blockedInRecv at hblocked
    cases hpc : s.comm <;> simp_all
  have hin : s.comm.inSession = true := by
    rcases hpc with hpc | ⟨cmd, hpc⟩ <;> rw [hpc] <;> rfl
  obtain ⟨hcomm, -, hsocket, hfound⟩ := byServer_frame hinv hin hby hs ha
  have hcomm' : s'.comm = s.comm := by
    rcases hpc with hpc | ⟨cmd, hpc⟩ <;> simp_all [CommPc.signalled]
  refine ⟨?_, hsocket, hfound⟩
  rw [← hblocked]
  simp only [System.blockedInRecv, System.inbox, System.hungUp, hcomm', hsocket, hfound]

/-- Two parties that wait for each other go on waiting. -/
theorem ConversationInv.deadlocked_step {socket : Nat} {c c' : Conversation} {e : Event}
    (h : ConversationInv socket c) (hdead : c.deadlocked socket = true)
    (hs : c.step socket e = some c') (hlive : c'.live socket = true) :
    c'.deadlocked socket = true := by
  simp only [Conversation.deadlocked, Bool.and_eq_true, List.isEmpty_iff, beq_iff_eq] at hdead ⊢
  obtain ⟨⟨⟨⟨hlive₀, hwaits⟩, hsocket⟩, hblocked⟩, hunread⟩ := hdead
  cases e with
  | server a =>
      simp only [Conversation.step] at hs
      split at hs
      · next hby =>
          obtain ⟨s', hstep, rfl⟩ := Option.map_eq_some_iff.mp hs
          by_cases ha : ∃ ok, a = .comm ok
          · obtain ⟨ok, rfl⟩ := ha
            have hnone := stepComm_of_blocked hblocked ok
            simp only [System.step, hnone] at hstep
            cases hstep
          · have hframe := blocked_frame h.sessions hblocked hstep
              (fun ok heq => ha ⟨ok, heq⟩) (hsocket ▸ hby)
            rw [hsocket] at hframe
            refine ⟨⟨⟨⟨hlive, hwaits⟩, hframe.2.1⟩, hframe.1⟩, ?_⟩
            rw [← hunread]
            simp only [Conversation.unread, hframe.2.2]
      · cases hs
  | receive =>
      simp only [Conversation.step, hunread] at hs
      split at hs <;> simp_all
  | answer i =>
      simp only [Conversation.step] at hs
      split at hs <;> simp_all [ClientPc.waits]
  | serverClosed =>
      have hopen : c.sessionOpen socket = true := by
        simp only [Conversation.live, Bool.and_eq_true] at hlive₀
        exact hlive₀.2
      simp only [Conversation.step, hopen] at hs
      split at hs <;> simp_all
  | close =>
      simp only [Conversation.step] at hs
      split at hs
      · next hclient =>
          rw [hclient] at hwaits
          cases hwaits
      · cases hs

theorem left_step {socket : Nat} {c c' : Conversation} {e : Event} (hleft : c.client.left = true)
    (hs : c.step socket e = some c') :
    c.answersPrompt socket e = true ∧ c'.client.left = true := by
  have hne : c.client ≠ .choice ∧ c.client ≠ .param ∧ c.client ≠ .connect ∧
      c.client ≠ .receive := by
    cases hclient : c.client <;> simp_all [ClientPc.left]
  cases e with
  | server a =>
      simp only [Conversation.step] at hs
      split at hs
      · obtain ⟨s', -, rfl⟩ := Option.map_eq_some_iff.mp hs
        exact ⟨rfl, hleft⟩
      · cases hs
  | receive =>
      simp only [Conversation.step] at hs
      split at hs <;> simp_all
  | answer i =>
      simp only [Conversation.step] at hs
      split at hs <;> simp_all
  | serverClosed =>
      simp only [Conversation.step] at hs
      split at hs <;> simp_all
  | close =>
      simp only [Conversation.step] at hs
      split at hs
      · obtain ⟨s', -, rfl⟩ := Option.map_eq_some_iff.mp hs
        exact ⟨rfl, rfl⟩
      · cases hs

/-- One event: what holds after it, and whether the parties are then stuck. -/
theorem ConversationInv.step_exact {socket : Nat} {c c' : Conversation} {e : Event}
    (h : ConversationInv socket c) (hgood : c.deadlocked socket = false)
    (hs : c.step socket e = some c') (hlive : c'.live socket = true) :
    (c.answersPrompt socket e = true ∧ (c'.client.left = true ∨ ∃ k, Held socket c' k)) ∨
    (c.answersPrompt socket e = false ∧ c'.deadlocked socket = true) := by
  have hlive₀ := h.live_of_step hs hlive
  simp only [Conversation.live, Bool.and_eq_true] at hlive hlive₀
  have hother : (∀ i, e ≠ .answer i) → c.answersPrompt socket e = true := by
    intro he
    cases e with
    | answer i => exact absurd rfl (he i)
    | _ => rfl
  rcases h.state (by simp [Conversation.live, hlive₀]) with hleft | ⟨k, hheld⟩ | hdead
  · have hstay := left_step hleft hs
    exact Or.inl ⟨hstay.1, Or.inl hstay.2⟩
  · by_cases he : ∃ i, e = .answer i
    · obtain ⟨i, rfl⟩ := he
      exact hheld.answer hlive₀.1 hs
    · have hne : ∀ i, e ≠ .answer i := fun i heq => he ⟨i, heq⟩
      exact Or.inl ⟨hother hne, Or.inr (hheld.event h.sessions h.spoken hne hs hlive.2)⟩
  · rw [hdead] at hgood
    cases hgood

theorem ConversationInv.step {socket : Nat} {c c' : Conversation} {e : Event}
    (h : ConversationInv socket c) (hs : c.step socket e = some c') :
    ConversationInv socket c' := by
  have hserver : SessionInv c'.server ∧ Spoken c'.server ∧
      ∃ k, c'.server.sockets[socket]? = some k := by
    rcases step_server hs with hsame | ⟨a, hstep⟩
    · rw [hsame]
      exact ⟨h.sessions, h.spoken, h.found⟩
    · obtain ⟨k, hk⟩ := h.found
      obtain ⟨k', hk', -⟩ := closedKept_step hstep socket k hk
      exact ⟨h.sessions.step hstep, h.spoken.step hstep, k', hk'⟩
  refine ⟨hserver.1, hserver.2.1, hserver.2.2, fun hlive => ?_⟩
  cases hdead : c.deadlocked socket with
  | true => exact Or.inr (Or.inr (h.deadlocked_step hdead hs hlive))
  | false =>
      rcases h.step_exact hdead hs hlive with ⟨-, hleft | hheld⟩ | ⟨-, hdead'⟩
      · exact Or.inl hleft
      · exact Or.inr (Or.inl hheld)
      · exact Or.inr (Or.inr hdead')

theorem answer_live {socket : Nat} {c c' : Conversation} {i : Input}
    (hs : c.step socket (.answer i) = some c') : c'.live socket = c.live socket := by
  have hanswered : ∀ outcome, c.answered socket outcome = some c' →
      c'.live socket = c.live socket := by
    rintro ⟨pc, message⟩ hs
    cases message with
    | none =>
        cases hs
        rfl
    | some message =>
        obtain ⟨s', hstep, rfl⟩ := Option.map_eq_some_iff.mp hs
        cases hk : c.server.sockets[socket]? with
        | none => simp [System.step, hk] at hstep
        | some k =>
            simp only [System.step, hk] at hstep
            split at hstep <;> cases hstep
            simp [Conversation.live, Conversation.sessionOpen, hk]
  simp only [Conversation.step] at hs
  split at hs
  · exact hanswered _ hs
  · exact hanswered _ hs
  · cases hs

/-! ## Deadlocks -/

/-- At the start of the communication thread on a connection that is new. -/
theorem held_start {accepted : System} {socket : Nat} (hstart : accepted.comm = .start)
    (hsocket : accepted.client_socket = some socket)
    (hnew : accepted.sockets[socket]? = some ⟨[], false, [], 0⟩) :
    Held socket ⟨accepted, .connect, 0⟩ ⟨[], false, [], 0⟩ := by
  refine ⟨hnew, rfl, rfl, ?_, hsocket, fun hne => absurd hstart hne, Nat.le_refl _, ?_, ?_, ?_⟩
  · rw [hstart]
    rfl
  · simp
  · simp [hstart]
  · rw [hstart]
    exact .serverWorks rfl rfl (by simp)

theorem conversationInv_start {server_ip : Bytes} {accepted : System} {socket : Nat}
    (hreach : (serverMachine server_ip).Reachable accepted) (hstart : accepted.comm = .start)
    (hsocket : accepted.client_socket = some socket)
    (hnew : accepted.sockets[socket]? = some ⟨[], false, [], 0⟩) :
    ConversationInv socket ⟨accepted, .connect, 0⟩ ∧
      Conversation.deadlocked socket ⟨accepted, .connect, 0⟩ = false := by
  have hheld := held_start hstart hsocket hnew
  exact ⟨⟨sessionInv_of_reachable hreach, spoken_of_reachable hreach, ⟨_, hnew⟩,
    fun _ => Or.inr (Or.inl ⟨_, hheld⟩)⟩, hheld.not_deadlocked⟩

/-- In every run of a conversation the parties are never stuck exactly if every
answer, while the session is open and the server running, is one for which the
client sends something. -/
theorem deadlock_free_iff_answers {server_ip : Bytes} {accepted : System} {socket : Nat}
    (hreach : (serverMachine server_ip).Reachable accepted) (hstart : accepted.comm = .start)
    (hsocket : accepted.client_socket = some socket)
    (hnew : accepted.sockets[socket]? = some ⟨[], false, [], 0⟩) (events : List Event) :
    (∀ c ∈ (conversationMachine accepted socket).states ⟨accepted, .connect, 0⟩ events,
      c.deadlocked socket = false) ↔
    (conversationMachine accepted socket).Allowed
      (fun c e => c.answersPrompt socket e = true) ⟨accepted, .connect, 0⟩ events := by
  obtain ⟨hinv, hgood⟩ := conversationInv_start hreach hstart hsocket hnew
  refine Machine.forall_states_iff_allowed (fun _ _ _ h hs => h.step hs) ?_ hinv hgood events
  intro c e c' h hgood hs
  cases hlive : c'.live socket with
  | true =>
      rcases h.step_exact hgood hs hlive with ⟨hok, hleft | ⟨k, hheld⟩⟩ | ⟨hok, hdead⟩
      · have hwaits : c'.client.waits = false := by
          cases hclient : c'.client <;> simp_all [ClientPc.left, ClientPc.waits]
        simp [hok, Conversation.deadlocked, hwaits]
      · simp [hok, hheld.not_deadlocked]
      · simp [hok, hdead]
  | false =>
      have hok : c.answersPrompt socket e = true := by
        cases e with
        | answer i =>
            rw [answer_live hs] at hlive
            simp only [Conversation.answersPrompt, hlive, Bool.not_false, Bool.true_or]
            split <;> rfl
        | _ => rfl
      simp [hok, Conversation.deadlocked, hlive]

def firstAnswer (i : Input) : List Event :=
  [.server (.comm true), .server (.comm true), .server (.comm true), .receive, .receive, .answer i]

def ledRound : List Event :=
  (commSteps 3 ++ deviceSteps 6 ++ commSteps 5).map .server ++ [.receive, .receive]

/-- The choice 1 comes round to the next menu without a deadlock. -/
theorem no_deadlock_after_choice :
    ∃ accepted c, (serverMachine []).Reachable accepted ∧
      (conversationMachine accepted 0).exec ⟨accepted, .connect, 0⟩
        (firstAnswer (.number 1) ++ ledRound) = some c ∧ c.client = .choice ∧
      ∀ c ∈ (conversationMachine accepted 0).states ⟨accepted, .connect, 0⟩
        (firstAnswer (.number 1) ++ ledRound), c.deadlocked 0 = false := by
  have hrun : (((serverMachine []).exec (System.init []) (mainSteps 4)).any fun accepted =>
      accepted.comm = .start ∧ accepted.client_socket = some 0 ∧
      accepted.sockets[0]? = some ⟨[], false, [], 0⟩ ∧
      (conversationMachine accepted 0).Allowed (fun c e => c.answersPrompt 0 e = true)
        ⟨accepted, .connect, 0⟩ (firstAnswer (.number 1) ++ ledRound) ∧
      ((conversationMachine accepted 0).exec ⟨accepted, .connect, 0⟩
        (firstAnswer (.number 1) ++ ledRound)).any (fun c => c.client = .choice) = true) = true := by
    decide +kernel
  obtain ⟨accepted, hreach, hfacts⟩ := Machine.Reachable.exists_of_exec hrun
  obtain ⟨hstart, hsocket, hnew, hallowed, hany⟩ := of_decide_eq_true hfacts
  obtain ⟨c, hexec, hclient⟩ := (Option.any_eq_true _ _).mp hany
  exact ⟨accepted, c, hreach, hexec, of_decide_eq_true hclient,
    (deadlock_free_iff_answers hreach hstart hsocket hnew _).mpr hallowed⟩

/-- The user chooses 42 at the first menu: nothing is sent, and both parties wait. -/
theorem deadlock_after_invalid_choice :
    ∃ accepted c, (serverMachine []).Reachable accepted ∧ accepted.comm = .start ∧
      (conversationMachine accepted 0).exec ⟨accepted, .connect, 0⟩
        (firstAnswer (.number 42)) = some c ∧
      c.server.server_running = true ∧ c.sessionOpen 0 = true ∧ c.client = .receive ∧
      c.server.comm = .recvCommand ∧ c.server.inbox = [] ∧ c.unread 0 = [] ∧
      c.deadlocked 0 = true := by
  have hrun : (((serverMachine []).exec (System.init []) (mainSteps 4)).any fun accepted =>
      accepted.comm = .start ∧ ((conversationMachine accepted 0).exec ⟨accepted, .connect, 0⟩
        (firstAnswer (.number 42))).any (fun c =>
          c.server.server_running = true ∧ c.sessionOpen 0 = true ∧ c.client = .receive ∧
          c.server.comm = .recvCommand ∧ c.server.inbox = [] ∧ c.unread 0 = [] ∧
          c.deadlocked 0 = true) = true) = true := by
    decide +kernel
  obtain ⟨accepted, hreach, hfacts⟩ := Machine.Reachable.exists_of_exec hrun
  obtain ⟨hstart, hany⟩ := of_decide_eq_true hfacts
  obtain ⟨c, hexec, hstuck⟩ := (Option.any_eq_true _ _).mp hany
  exact ⟨accepted, c, hreach, hstart, hexec, of_decide_eq_true hstuck⟩

end RsvpControl.Client
