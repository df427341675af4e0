import RsvpControl.Client.Process
import RsvpControl.Core.Progress

/-! # Signals to the client

A signal that finds the session open ends it, whatever else arrives in the meantime: the
client sends nothing more and is at its end after a few calls. One that comes before
`connected` is set is lost, since nothing reads `g_running`.
-/

namespace RsvpControl.Client

open RsvpControl.Core Server

def ProcessAction.byMain : ProcessAction → Bool
  | .main _ _ _ => true
  | _ => false

/-! ## In the session -/

/-- Calls `main` has left once its socket is closed. -/
def ProcessPc.callsLeft : ProcessPc → Nat
  | .choice | .param => 4
  | .welcome | .select | .commandTest _ _ | .commandSend _ _ | .paramSend _ => 3
  | .loopTest | .receive | .closeSocket => 2
  | .leave | .clearConnected => 1
  | _ => 0

theorem callsLeft_resume (next : ClientPc) : next.resume.callsLeft ≤ 2 := by
  cases next <;> decide

/-- Signalled in the session: a handler is in progress, or has closed the socket. -/
structure Signalled (t : Descriptors ClientFile) (sent : List Bytes) (p : Process) : Prop where
  owned : Owned t p
  phase : p.pc.phase = .session ∨ p.pc.phase = .killed
  handled : p.pc.phase = .session → p.handlers = [] → p.connected = false
  sent : p.sent = sent

section Steps

variable {t : Descriptors ClientFile} {sent : List Bytes} {p p' : Process}

theorem Signalled.isClosed (h : Signalled t sent p) (hphase : p.pc.phase = .session)
    (hhandlers : p.handlers = []) : p.connected = false ∧
      p.descriptors.get t.lowest = none ∧ p.isOpen = false := by
  have hoff := h.handled hphase hhandlers
  have hshut := h.owned.shut hoff
  have hnone : p.descriptors.get t.lowest = none := by simpa [hphase] using hshut
  exact ⟨hoff, hnone, by simp [Process.isOpen, h.owned.fd (.inr hphase), hnone]⟩

theorem Signalled.stepMain (h : Signalled t sent p) (hhandlers : p.handlers = []) {ok : Bool}
    {chunk : Option Bytes} {input : Input} (hs : p.stepMain ok chunk input = some p') :
    (p'.pc.phase = .session ∧ p'.connected = false ∧ p'.sent = p.sent) ∧
      p'.pc.callsLeft + 1 ≤ p.pc.callsLeft := by
  have hsession : p.pc.phase = .session := by
    refine h.phase.resolve_right fun hdead => ?_
    simp [Process.stepMain, phase_killed hdead] at hs
  obtain ⟨hoff, -, hopen⟩ := h.isClosed hsession hhandlers
  unfold Process.stepMain at hs
  cases hpc : p.pc with
  | welcome =>
      simp only [hpc, Option.some.injEq] at hs
      subst hs
      exact ⟨⟨rfl, hoff, rfl⟩, Nat.le_refl _⟩
  | loopTest | leave | select =>
      simp only [hpc, hoff, hopen, Bool.and_false, Bool.false_eq_true, if_false,
        Option.some.injEq] at hs
      subst hs
      exact ⟨⟨rfl, rfl, rfl⟩, Nat.le_refl _⟩
  | receive =>
      simp only [hpc, hopen, Bool.and_false, Bool.false_eq_true, if_false, Option.some.injEq] at hs
      subst hs
      exact ⟨⟨rfl, hoff, rfl⟩, Nat.le_refl _⟩
  | choice | param =>
      simp only [hpc] at hs
      split at hs <;> cases hs
      · exact ⟨⟨phase_resume _, hoff, rfl⟩, Nat.le_trans (Nat.succ_le_succ (callsLeft_resume _))
          (Nat.le_succ 3)⟩
      · exact ⟨⟨rfl, hoff, rfl⟩, Nat.le_refl _⟩
  | commandTest next message =>
      simp only [hpc, hoff, Bool.false_eq_true, if_false, Option.some.injEq] at hs
      subst hs
      exact ⟨⟨phase_resume next, rfl, rfl⟩, Nat.succ_le_succ (callsLeft_resume next)⟩
  | commandSend next message =>
      simp only [hpc, Process.send, hopen, Bool.and_false, Bool.false_eq_true, if_false,
        Option.some.injEq] at hs
      subst hs
      exact ⟨⟨phase_resume next, hoff, rfl⟩, Nat.succ_le_succ (callsLeft_resume next)⟩
  | paramSend message =>
      simp only [hpc, Process.send, hopen, Bool.and_false, Bool.false_eq_true, if_false,
        Option.some.injEq] at hs
      subst hs
      exact ⟨⟨rfl, hoff, rfl⟩, Nat.le_refl _⟩
  | closeSocket =>
      simp only [hpc, Option.some.injEq] at hs
      subst hs
      obtain ⟨-, -, -, hon, hsent⟩ := close_frame p
      exact ⟨⟨rfl, hon.trans hoff, hsent⟩, Nat.le_refl _⟩
  | clearConnected =>
      simp only [hpc, Option.some.injEq] at hs
      subst hs
      exact ⟨⟨rfl, rfl, rfl⟩, Nat.le_refl _⟩
  | exited success | killed => simp [hpc] at hs
  | _ => simp [hpc, ProcessPc.phase] at hsession

theorem Signalled.kill (h : Signalled t sent p) :
    Signalled t sent { p with pc := .killed, handlers := [] } where
  owned := h.owned.kill
  phase := .inr rfl
  handled hphase := by cases hphase
  sent := h.sent

/-- A step of a handler is no step of `main`, and the last one finds the session closed
or closes it. -/
theorem Signalled.stepHandler (h : Signalled t sent p) (hs : p.stepHandler = some p') :
    Signalled t sent p' ∧ p'.pc = p.pc := by
  have howned := h.owned.stepHandler hs
  unfold Process.stepHandler at hs
  cases hhandlers : p.handlers with
  | nil => simp [hhandlers] at hs
  | cons top rest =>
      cases hpc : top.pc with
      | enter =>
          simp only [hhandlers, hpc, Option.some.injEq] at hs
          subst hs
          exact ⟨⟨howned, h.phase, (fun _ hnil => by cases hnil), h.sent⟩, rfl⟩
      | test =>
          simp only [hhandlers, hpc] at hs
          split at hs <;> cases hs
          · exact ⟨⟨howned, h.phase, (fun _ hnil => by cases hnil), h.sent⟩, rfl⟩
          · next hoff => exact ⟨⟨howned, h.phase, fun _ _ => by simpa using hoff, h.sent⟩, rfl⟩
      | close =>
          simp only [hhandlers, hpc, Option.some.injEq] at hs
          subst hs
          obtain ⟨hsame, -, -, -, hsent⟩ := close_frame p
          refine ⟨⟨howned, ?_, (fun _ hnil => by cases hnil), hsent.trans h.sent⟩, hsame⟩
          show p.close.pc.phase = .session ∨ p.close.pc.phase = .killed
          rw [hsame]
          exact h.phase
      | clear =>
          simp only [hhandlers, hpc, Option.some.injEq] at hs
          subst hs
          exact ⟨⟨howned, h.phase, fun _ _ => rfl, h.sent⟩, rfl⟩

theorem Signalled.deliver (h : Signalled t sent p) {signum : Signal}
    (hs : p.deliver signum = some p') :
    Signalled t sent p' ∧ (p'.pc = p.pc ∨ p'.pc = .killed) := by
  have howned := h.owned.deliver hs
  unfold Process.deliver at hs
  repeat' split at hs
  all_goals cases hs
  · exact ⟨h.kill, .inr rfl⟩
  · exact ⟨⟨howned, h.phase, (fun _ hnil => by cases hnil), h.sent⟩, .inl rfl⟩

theorem Signalled.step (h : Signalled t sent p) {a : ProcessAction} (hs : p.step a = some p') :
    Signalled t sent p' ∧
      p'.pc.callsLeft + (if a.byMain then 1 else 0) ≤ p.pc.callsLeft := by
  cases a with
  | main ok chunk input =>
      simp only [Process.step] at hs
      split at hs
      · next hhandlers =>
          obtain ⟨⟨hphase, hoff, hsent⟩, hless⟩ := h.stepMain hhandlers hs
          exact ⟨⟨h.owned.stepMain hhandlers hs, .inl hphase, fun _ _ => hoff,
            hsent.trans h.sent⟩, hless⟩
      · cases hs
  | signal signum =>
      obtain ⟨hsignalled, hpc⟩ := h.deliver hs
      refine ⟨hsignalled, ?_⟩
      rcases hpc with heq | heq <;> rw [heq]
      · exact Nat.le_refl _
      · exact Nat.zero_le _
  | handler =>
      obtain ⟨hsignalled, hpc⟩ := h.stepHandler hs
      exact ⟨hsignalled, Nat.le_of_eq (by rw [hpc]; rfl)⟩
  | kill =>
      simp only [Process.step] at hs
      split at hs <;> cases hs
      exact ⟨h.kill, Nat.zero_le _⟩

theorem signalled_of_deliver (h : Owned t p) (hphase : p.pc.phase = .session) {signum : Signal}
    (hs : p.deliver signum = some p') :
    Signalled t p.sent p' ∧ p'.pc.callsLeft ≤ p.pc.callsLeft := by
  have howned := h.deliver hs
  unfold Process.deliver at hs
  repeat' split at hs
  all_goals cases hs
  · exact ⟨⟨howned, .inr rfl, (fun hsession => by cases hsession), rfl⟩, Nat.zero_le _⟩
  · exact ⟨⟨howned, .inl hphase, (fun _ hnil => by cases hnil), rfl⟩, Nat.le_refl _⟩

end Steps

theorem callsLeft_le (pc : ProcessPc) : pc.callsLeft ≤ 4 := by
  cases pc <;> simp [ProcessPc.callsLeft]

/-- From a signal in the session on, whatever else arrives: nothing more is sent, `main`
makes at most four more calls, and once no handler is in progress the socket is closed. -/
theorem signal_ends_session {t : Descriptors ClientFile} {p q : Process}
    (h : (clientMachine t).Reachable p) (hphase : p.pc.phase = .session) {signum : Signal}
    {as : List ProcessAction} (hrun : (clientMachine t).exec p (.signal signum :: as) = some q) :
    q.sent = p.sent ∧ as.countP ProcessAction.byMain ≤ 4 ∧
      (q.handlers = [] → q.pc ≠ .killed →
        q.connected = false ∧ q.descriptors.get t.lowest = none) := by
  rw [Machine.exec_cons] at hrun
  obtain ⟨p', hsignal, hrest⟩ := Option.bind_eq_some_iff.mp hrun
  obtain ⟨hsignalled, hless⟩ := signalled_of_deliver (owned_of_reachable h) hphase hsignal
  have hcount : as.countP ProcessAction.byMain + q.pc.callsLeft ≤ p'.pc.callsLeft :=
    Machine.exec_count_le (J := Signalled t p.sent) (p := fun _ => True)
      (fun _ _ _ hJ hs => (hJ.step hs).1) (fun _ _ _ hJ _ hs => (hJ.step hs).2) hsignalled
      (fun _ _ => trivial) hrest
  have hq : Signalled t p.sent q :=
    Machine.ReachesUnder.invariant hsignalled (fun _ _ _ _ hJ _ hs => (hJ.step hs).1)
      (Machine.Reaches.of_exec hrest)
  have hbound := callsLeft_le p.pc
  refine ⟨hq.sent, by omega, fun hhandlers halive => ?_⟩
  have hsession := hq.phase.resolve_right fun hdead => halive (phase_killed hdead)
  exact ⟨hq.handled hsession hhandlers, (hq.isClosed hsession hhandlers).2.1⟩

/-- The user is at the menu when the signal arrives; the choice typed afterwards goes
nowhere. -/
theorem choice_after_signal :
    ∃ p q, (clientMachine ⟨[]⟩).Reachable p ∧ p.pc = .choice ∧ p.connected = true ∧
      (clientMachine ⟨[]⟩).exec p (.signal .sigint :: List.replicate 4 .handler ++
        List.replicate 4 (.main true none (.number 1))) = some q ∧
      q.pc = .exited true ∧ q.sent = p.sent ∧ q.descriptors.get 0 = none := by
  have hrun : ((clientMachine ⟨[]⟩).exec (clientMachine ⟨[]⟩).start
      (List.replicate 11 (.main true (some menu) .text))).any (fun p =>
        decide (p.pc = .choice ∧ p.connected = true ∧
          ((clientMachine ⟨[]⟩).exec p (.signal .sigint :: List.replicate 4 .handler ++
            List.replicate 4 (.main true none (.number 1)))).any (fun q =>
              decide (q.pc = .exited true ∧ q.handlers = [])) = true)) = true := by
    decide +kernel
  obtain ⟨p, hreach, hfacts⟩ := Machine.Reachable.exists_of_exec hrun
  obtain ⟨hpc, hon, hgoes⟩ := of_decide_eq_true hfacts
  obtain ⟨q, hq, hend⟩ := (Option.any_eq_true _ _).mp hgoes
  obtain ⟨hexited, hhandlers⟩ := of_decide_eq_true hend
  obtain ⟨hsent, -, hclosed⟩ := signal_ends_session hreach (by rw [hpc]; rfl) hq
  exact ⟨p, q, hreach, hpc, hon, hq, hexited, hsent, (hclosed hhandlers (by simp [hexited])).2⟩

/-! ## Before the session -/

/-- The process but for `g_running`. -/
def Process.unmarked (p : Process) : Process := { p with g_running := true }

theorem unmarked_isOpen (p : Process) : p.unmarked.isOpen = p.isOpen := rfl

theorem unmarked_close (p : Process) : p.unmarked.close = p.close.unmarked := by
  unfold Process.close
  by_cases hopen : p.isOpen = true
  · rw [if_pos hopen, if_pos (show p.unmarked.isOpen = true from hopen)]
    rfl
  · rw [if_neg hopen, if_neg (show ¬ p.unmarked.isOpen = true from hopen)]
    rfl

theorem unmarked_send (p : Process) (message : Bytes) (ok : Bool) :
    p.unmarked.send message ok = (p.send message ok).unmarked := by
  unfold Process.send
  by_cases hsent : (ok && p.isOpen) = true
  · rw [if_pos hsent, if_pos (show (ok && p.unmarked.isOpen) = true from hsent)]
    rfl
  · rw [if_neg hsent, if_neg (show ¬ (ok && p.unmarked.isOpen) = true from hsent)]

theorem unmarked_stepMain (p : Process) (ok : Bool) (chunk : Option Bytes) (input : Input) :
    (p.unmarked.stepMain ok chunk input).map Process.unmarked =
      (p.stepMain ok chunk input).map Process.unmarked := by
  have hpc : p.unmarked.pc = p.pc := rfl
  unfold Process.stepMain
  rw [hpc]
  cases p.pc with
  | closeFailed | closeSocket =>
      simp only [unmarked_close]
      rfl
  | commandSend next message | paramSend message =>
      simp only [unmarked_send]
      rfl
  | openSocket =>
      simp only
      split <;> rfl
  | receive =>
      have hsame := unmarked_isOpen p
      cases hopen : p.isOpen with
      | true =>
          rw [hopen] at hsame
          simp only [hsame, if_true]
          cases chunk with
          | none => rfl
          | some buffer =>
              simp only
              cases onReceived buffer <;> rfl
      | false =>
          rw [hopen] at hsame
          simp only [hsame, Bool.false_eq_true, if_false]
          rfl
  | choice | param =>
      simp only
      split <;> rfl
  | _ => rfl

theorem unmarked_step (p : Process) (a : ProcessAction) :
    (p.unmarked.step a).map Process.unmarked = (p.step a).map Process.unmarked := by
  cases a with
  | main ok chunk input =>
      simp only [Process.step]
      split
      · next hhandlers =>
          rw [if_pos (show p.handlers = [] from hhandlers)]
          exact unmarked_stepMain p ok chunk input
      · next hhandlers =>
          rw [if_neg (show ¬ p.handlers = [] from hhandlers)]
  | signal signum =>
      simp only [Process.step]
      unfold Process.deliver
      by_cases hended : p.pc.ended = true
      · rw [if_pos hended, if_pos (show p.unmarked.pc.ended = true from hended)]
      rw [if_neg hended, if_neg (show ¬ p.unmarked.pc.ended = true from hended)]
      by_cases hdies : p.pc.handles signum = false
      · rw [if_pos hdies, if_pos (show p.unmarked.pc.handles signum = false from hdies)]
        rfl
      rw [if_neg hdies, if_neg (show ¬ p.unmarked.pc.handles signum = false from hdies)]
      have hhandlers : p.unmarked.handlers = p.handlers := rfl
      rw [hhandlers]
      by_cases hblocked : (p.handlers.any fun h => h.signum == signum) = true
      · rw [if_pos hblocked, if_pos hblocked]
      · rw [if_neg hblocked, if_neg hblocked]
        rfl
  | handler =>
      have hhandlers : p.unmarked.handlers = p.handlers := rfl
      simp only [Process.step]
      unfold Process.stepHandler
      rw [hhandlers]
      cases p.handlers with
      | nil => rfl
      | cons top rest =>
          obtain ⟨signum, pc⟩ := top
          cases pc with
          | enter | clear => rfl
          | test =>
              simp only
              by_cases hon : p.connected = true
              · rw [if_pos hon, if_pos (show p.unmarked.connected = true from hon)]
                rfl
              · rw [if_neg hon, if_neg (show ¬ p.unmarked.connected = true from hon)]
                rfl
          | close =>
              simp only [unmarked_close]
              rfl
  | kill =>
      simp only [Process.step]
      by_cases hended : p.pc.ended = true
      · rw [if_pos hended, if_pos (show p.unmarked.pc.ended = true from hended)]
      · rw [if_neg hended, if_neg (show ¬ p.unmarked.pc.ended = true from hended)]
        rfl

/-- A signal that comes before `connected` is set, its own handler not being in progress,
takes two steps of its handler, and whatever happens afterwards could as well have
happened without it. -/
theorem early_signal_lost {t : Descriptors ClientFile} {p : Process}
    (h : (clientMachine t).Reachable p) (hphase : p.pc.phase = .before ∨ p.pc.phase = .opened)
    {signum : Signal} (hsignal : p.pc.handles signum = true)
    (hblocked : p.handlers.any (fun h => h.signum == signum) = false) :
    ∃ q, (clientMachine t).exec p [.signal signum, .handler, .handler] = some q ∧
      ∀ as, ((clientMachine t).exec q as).map Process.unmarked =
        ((clientMachine t).exec p as).map Process.unmarked := by
  have hoff : p.connected = false := by
    rw [Bool.eq_false_iff]
    intro hon
    have hlate := (owned_of_reachable h).connected hon
    rcases hphase with heq | heq <;> simp [heq] at hlate
  have halive : p.pc.ended = false := by
    cases hpc : p.pc with
    | exited success => rcases hphase with heq | heq <;> cases success <;> simp [hpc, ProcessPc.phase] at heq
    | killed => rcases hphase with heq | heq <;> simp [hpc, ProcessPc.phase] at heq
    | _ => rfl
  have hforget : Process.unmarked { p with g_running := false } = p.unmarked := rfl
  refine ⟨{ p with g_running := false }, ?_, Machine.exec_of_forget unmarked_step hforget⟩
  have hdeliver : (clientMachine t).step p (.signal signum) =
      some { p with handlers := ⟨signum, .enter⟩ :: p.handlers } := by
    show p.deliver signum = _
    simp [Process.deliver, halive, hsignal, hblocked]
  have henter : (clientMachine t).step
      { p with handlers := ⟨signum, .enter⟩ :: p.handlers } .handler =
        some { p with g_running := false, handlers := ⟨signum, .test⟩ :: p.handlers } := rfl
  have htest : (clientMachine t).step
      { p with g_running := false, handlers := ⟨signum, .test⟩ :: p.handlers } .handler =
        some { p with g_running := false } := by
    simp only [clientMachine, Process.step, Process.stepHandler, hoff, Bool.false_eq_true, if_false]
  rw [Machine.exec_cons, hdeliver, Option.bind_some, Machine.exec_cons, henter, Option.bind_some,
    Machine.exec_singleton, htest]

/-- Ctrl-C while the client connects, and a SIGTERM in its handler. -/
theorem signals_while_connecting :
    ∃ p q, (clientMachine ⟨[]⟩).Reachable p ∧ p.pc = .connectServer ∧
      p.handlers = [⟨.sigint, .enter⟩] ∧
      (clientMachine ⟨[]⟩).exec p [.signal .sigterm, .handler, .handler] = some q ∧
      ((clientMachine ⟨[]⟩).exec q [.handler, .handler, .main true none .text]).map
          Process.unmarked =
        ((clientMachine ⟨[]⟩).exec p [.handler, .handler, .main true none .text]).map
          Process.unmarked := by
  have hrun : ((clientMachine ⟨[]⟩).exec (clientMachine ⟨[]⟩).start
      (List.replicate 5 (.main true none .text) ++ [.signal .sigint])).any (fun p =>
        decide (p.pc = .connectServer ∧ p.handlers = [⟨.sigint, .enter⟩])) = true := by
    decide +kernel
  obtain ⟨p, hreach, hfacts⟩ := Machine.Reachable.exists_of_exec hrun
  obtain ⟨hpc, hhandlers⟩ := of_decide_eq_true hfacts
  obtain ⟨q, hq, hsame⟩ :=
    early_signal_lost hreach (by rw [hpc]; exact .inr rfl)
      (show p.pc.handles .sigterm = true by rw [hpc]; rfl)
      (by rw [hhandlers]; rfl)
  exact ⟨p, q, hreach, hpc, hhandlers, hq, hsame _⟩

end RsvpControl.Client
