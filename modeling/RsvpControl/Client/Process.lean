import RsvpControl.Client.Run
import RsvpControl.Core.Descriptors
import RsvpControl.Core.Machine

/-! # The client as a process

`main` of the client with its calls one at a time, from the registration of the signal
handler to the end, and the handler, which may interrupt it between any two of them and
may itself be interrupted by the other signal. The process starts with any descriptors
open; the only one it adds is its socket.
-/

namespace RsvpControl.Client

open RsvpControl.Core Server

/-! ## State -/

inductive Signal where
  | sigint
  | sigterm
deriving DecidableEq, Repr

inductive HandlerPc where
  | enter
  /-- The test of `connected` in `client_disconnect`. -/
  | test
  | close
  | clear
deriving DecidableEq, Repr

/-- A signal handler in progress. -/
structure Handler where
  signum : Signal
  pc : HandlerPc
deriving DecidableEq, Repr

inductive ProcessPc where
  | signalInt
  | signalTerm
  /-- The `memset` of `client_connect`. -/
  | clearState
  | openSocket
  | convertAddress
  | connectServer
  /-- In the error branches of `client_connect`. -/
  | closeFailed
  | setConnected
  /-- The `recv` of the welcome. -/
  | welcome
  | loopTest
  | select
  | receive
  | choice
  | param
  /-- The test of `connected` in `client_send_command`; `next` follows the call. -/
  | commandTest (next : ClientPc) (message : Bytes)
  | commandSend (next : ClientPc) (message : Bytes)
  | paramSend (message : Bytes)
  /-- The test of `connected` in `client_disconnect`. -/
  | leave
  | closeSocket
  | clearConnected
  | exited (success : Bool)
  | killed
deriving DecidableEq, Repr

inductive ClientFile where
  /-- From the table the process was started with. -/
  | given (file : Nat)
  | socket
deriving DecidableEq, Repr

structure Process where
  pc : ProcessPc
  /-- Innermost first. -/
  handlers : List Handler
  descriptors : Descriptors ClientFile
  socket_fd : Int
  connected : Bool
  g_running : Bool
  /-- Calls of `close`, each with its success, oldest first. -/
  closes : List (Int × Bool)
  /-- Messages that a `send` has accepted. -/
  sent : List Bytes
deriving DecidableEq, Repr

inductive ProcessAction where
  /-- The next call of `main`: its outcome, the result of a `recv` (`none` where it is
  not positive) and the user's answer to a `scanf`. -/
  | main (ok : Bool) (chunk : Option Bytes) (input : Input)
  | signal (signum : Signal)
  /-- The next step of the innermost handler. -/
  | handler
  /-- By a signal without a handler, that of a `send` to a closed peer included. -/
  | kill
deriving DecidableEq, Repr

/-! ## Calls -/

def Process.isOpen (p : Process) : Bool :=
  0 ≤ p.socket_fd && (p.descriptors.get p.socket_fd.toNat).isSome

def Process.close (p : Process) : Process :=
  if p.isOpen then
    { p with
      descriptors := p.descriptors.close p.socket_fd.toNat
      closes := p.closes ++ [(p.socket_fd, true)] }
  else { p with closes := p.closes ++ [(p.socket_fd, false)] }

def Process.send (p : Process) (message : Bytes) (ok : Bool) : Process :=
  if ok && p.isOpen then { p with sent := p.sent ++ [message] } else p

def ClientPc.resume : ClientPc → ProcessPc
  | .disconnect => .leave
  | _ => .loopTest

/-! ## Steps -/

def Process.stepMain (p : Process) (ok : Bool) (chunk : Option Bytes) (input : Input) :
    Option Process :=
  match p.pc with
  | .signalInt => some { p with pc := .signalTerm }
  | .signalTerm => some { p with pc := .clearState }
  | .clearState => some { p with socket_fd := 0, connected := false, pc := .openSocket }
  | .openSocket =>
      if ok then
        some { p with
          descriptors := p.descriptors.allocate .socket
          socket_fd := p.descriptors.lowest
          pc := .convertAddress }
      else some { p with socket_fd := -1, pc := .exited false }
  | .convertAddress => some { p with pc := if ok then .connectServer else .closeFailed }
  | .connectServer => some { p with pc := if ok then .setConnected else .closeFailed }
  | .closeFailed => some { p.close with pc := .exited false }
  | .setConnected => some { p with connected := true, pc := .welcome }
  | .welcome => some { p with pc := .loopTest }
  | .loopTest => some { p with pc := if p.connected then .select else .leave }
  | .select => some { p with pc := if ok && p.isOpen then .receive else .loopTest }
  | .receive =>
      match if p.isOpen then chunk else none with
      -- 0 and errors leave the loop, `EAGAIN` does not
      | none => some { p with pc := if ok && p.isOpen then .loopTest else .leave }
      | some buffer =>
          match onReceived buffer with
          | .choice => some { p with pc := .choice }
          | .param => some { p with pc := .param }
          | _ => some { p with pc := .loopTest }
  | .choice =>
      match onChoice input with
      | (next, none) => some { p with pc := next.resume }
      | (next, some message) => some { p with pc := .commandTest next message }
  | .param =>
      match onParam input with
      | (next, none) => some { p with pc := next.resume }
      | (_, some message) => some { p with pc := .paramSend message }
  | .commandTest next message =>
      some { p with pc := if p.connected then .commandSend next message else next.resume }
  | .commandSend next message => some { p.send message ok with pc := next.resume }
  | .paramSend message => some { p.send message ok with pc := .loopTest }
  | .leave => some { p with pc := if p.connected then .closeSocket else .exited true }
  | .closeSocket => some { p.close with pc := .clearConnected }
  | .clearConnected => some { p with connected := false, pc := .exited true }
  | .exited _ | .killed => none

def ProcessPc.handles : ProcessPc → Signal → Bool
  | .signalInt, _ => false
  | .signalTerm, signum => signum == .sigint
  | _, _ => true

def ProcessPc.ended : ProcessPc → Bool
  | .exited _ | .killed => true
  | _ => false

/-- A signal stays blocked while its handler runs. -/
def Process.deliver (p : Process) (signum : Signal) : Option Process :=
  if p.pc.ended then none
  else if p.pc.handles signum = false then some { p with pc := .killed, handlers := [] }
  else if p.handlers.any (fun h => h.signum == signum) then none
  else some { p with handlers := ⟨signum, .enter⟩ :: p.handlers }

/-- `signal_handler` with `client_disconnect`. -/
def Process.stepHandler (p : Process) : Option Process :=
  match p.handlers with
  | [] => none
  | h :: rest =>
      match h.pc with
      | .enter => some { p with g_running := false, handlers := ⟨h.signum, .test⟩ :: rest }
      | .test =>
          if p.connected then some { p with handlers := ⟨h.signum, .close⟩ :: rest }
          else some { p with handlers := rest }
      | .close => some { p.close with handlers := ⟨h.signum, .clear⟩ :: rest }
      | .clear => some { p with connected := false, handlers := rest }

def Process.step (p : Process) : ProcessAction → Option Process
  | .main ok chunk input => if p.handlers = [] then p.stepMain ok chunk input else none
  | .signal signum => p.deliver signum
  | .handler => p.stepHandler
  | .kill => if p.pc.ended then none else some { p with pc := .killed, handlers := [] }

def clientMachine (t : Descriptors ClientFile) : Machine Process ProcessAction :=
  ⟨⟨.signalInt, [], t, 0, false, true, [], []⟩, Process.step⟩

/-! ## Phases -/

inductive ProcessPhase where
  /-- No socket yet. -/
  | before
  /-- Between `socket` and `connected`. -/
  | opened
  | session
  | failed
  | killed
deriving DecidableEq, Repr

def ProcessPc.phase : ProcessPc → ProcessPhase
  | .signalInt | .signalTerm | .clearState | .openSocket => .before
  | .convertAddress | .connectServer | .closeFailed | .setConnected => .opened
  | .exited false => .failed
  | .killed => .killed
  | _ => .session

def ProcessPc.closed : ProcessPc → Bool
  | .clearConnected | .exited _ => true
  | _ => false

theorem phase_resume (next : ClientPc) : next.resume.phase = .session := by
  cases next <;> rfl

theorem phase_killed {pc : ProcessPc} (h : pc.phase = .killed) : pc = .killed := by
  cases pc with
  | killed => rfl
  | exited success => cases success <;> cases h
  | _ => cases h

theorem closed_resume (next : ClientPc) : next.resume.closed = false := by
  cases next <;> rfl

/-! ## Closing -/

theorem close_get {p : Process} {k : Nat} (hfd : p.socket_fd = k) (d : Nat) :
    p.close.descriptors.get d = if d = k then none else p.descriptors.get d := by
  unfold Process.close
  split
  · rw [hfd]
    exact Descriptors.get_close p.descriptors k d
  · next hclosed =>
      split
      · next hd =>
          subst hd
          simpa [Process.isOpen, hfd] using hclosed
      · rfl

theorem close_closes {p : Process} {k : Nat} (hfd : p.socket_fd = k) :
    p.close.closes = p.closes ++ [((k : Int), (p.descriptors.get k).isSome)] := by
  unfold Process.close
  split
  · next hopen =>
      have hsome : (p.descriptors.get k).isSome = true := by
        simpa [Process.isOpen, hfd] using hopen
      rw [hsome, hfd]
  · next hclosed =>
      have hnone : (p.descriptors.get k).isSome = false := by
        simpa [Process.isOpen, hfd] using hclosed
      rw [hnone, hfd]

theorem close_frame (p : Process) :
    p.close.pc = p.pc ∧ p.close.handlers = p.handlers ∧ p.close.socket_fd = p.socket_fd ∧
      p.close.connected = p.connected ∧ p.close.sent = p.sent := by
  unfold Process.close
  split <;> exact ⟨rfl, rfl, rfl, rfl, rfl⟩

theorem send_frame (p : Process) (message : Bytes) (ok : Bool) :
    p.send message ok = { p with sent := (p.send message ok).sent } := by
  unfold Process.send
  split <;> rfl

/-! ## The socket among the descriptors -/

/-- `t` is the table the process was started with, so its socket gets the lowest number
free there. -/
structure Tabled (t : Descriptors ClientFile) (p : Process) : Prop where
  others : ∀ d, d ≠ t.lowest → p.descriptors.get d = t.get d
  own : ∀ c ∈ p.closes, c.1 = (t.lowest : Int)
  once : p.closes.countP Prod.snd + (if (p.descriptors.get t.lowest).isSome then 1 else 0) ≤ 1

structure Owned (t : Descriptors ClientFile) (p : Process) : Prop extends Tabled t p where
  fresh : p.pc.phase = .before ∨ p.pc.phase = .opened → p.closes = []
  fd : p.pc.phase = .opened ∨ p.pc.phase = .session → p.socket_fd = t.lowest
  connected : p.connected = true → p.pc.phase = .session ∨ p.pc.phase = .killed
  shut : p.connected = false → p.pc.phase = .opened ∨ p.pc.phase = .killed ∨
    p.descriptors.get t.lowest = none
  clearing : p.pc.closed = true → p.descriptors.get t.lowest = none
  cleared : ∀ h ∈ p.handlers, h.pc = .clear → p.descriptors.get t.lowest = none
  closing : ∀ h ∈ p.handlers, h.pc = .close ∨ h.pc = .clear → p.pc.phase = .session
  dead : p.pc.phase = .killed → p.handlers = []

theorem owned_init (t : Descriptors ClientFile) : Owned t (clientMachine t).start where
  others d _ := rfl
  own c hc := by cases hc
  once := by
    have hfree := Descriptors.get_lowest t
    simp [clientMachine, hfree]
  fresh _ := rfl
  fd h := by rcases h with h | h <;> cases h
  connected h := by cases h
  shut _ := .inr (.inr (Descriptors.get_lowest t))
  clearing h := by cases h
  cleared h hh := by cases hh
  closing h hh := by cases hh
  dead h := by cases h

section Steps

variable {t : Descriptors ClientFile} {p p' : Process}

theorem Tabled.close (h : Tabled t p) (hfd : p.socket_fd = t.lowest) : Tabled t p.close where
  others d hd := by
    rw [close_get hfd, if_neg hd]
    exact h.others d hd
  own c hc := by
    rw [close_closes hfd] at hc
    rcases List.mem_append.mp hc with hold | hnew
    · exact h.own c hold
    · rw [List.mem_singleton.mp hnew]
  once := by
    have honce := h.once
    rw [close_closes hfd, close_get hfd, if_pos rfl, List.countP_append]
    simpa [List.countP_cons] using honce

/-- A step to a program point of the same phase, which may accept a message. -/
theorem Owned.goto (h : Owned t p) {pc : ProcessPc} (hphase : pc.phase = p.pc.phase)
    (hclosed : pc.closed = false) (sent : List Bytes) :
    Owned t { p with pc := pc, sent := sent } where
  others := h.others
  own := h.own
  once := h.once
  fresh := by rw [hphase]; exact h.fresh
  fd := by rw [hphase]; exact h.fd
  connected := by rw [hphase]; exact h.connected
  shut := by rw [hphase]; exact h.shut
  clearing heq := by
    rw [hclosed] at heq
    cases heq
  cleared := h.cleared
  closing := by rw [hphase]; exact h.closing
  dead := by rw [hphase]; exact h.dead

theorem Owned.kill (h : Owned t p) : Owned t { p with pc := .killed, handlers := [] } where
  others := h.others
  own := h.own
  once := h.once
  fresh hp := by rcases hp with hp | hp <;> cases hp
  fd hp := by rcases hp with hp | hp <;> cases hp
  connected _ := .inr rfl
  shut _ := .inr (.inl rfl)
  clearing heq := by cases heq
  cleared h hh := by cases hh
  closing h hh := by cases hh
  dead _ := rfl

theorem Owned.rehandle (h : Owned t p) {handlers : List Handler} {g_running : Bool}
    (hnew : ∀ f ∈ handlers, f ∈ p.handlers ∨ f.pc = .enter ∨ f.pc = .test ∨
      f.pc = .close ∧ p.pc.phase = .session) (halive : p.pc.phase ≠ .killed) :
    Owned t { p with handlers := handlers, g_running := g_running } where
  others := h.others
  own := h.own
  once := h.once
  fresh := h.fresh
  fd := h.fd
  connected := h.connected
  shut := h.shut
  clearing := h.clearing
  cleared f hf hpc := by
    rcases hnew f hf with hold | henter | htest | ⟨hclose, -⟩
    · exact h.cleared f hold hpc
    all_goals simp_all
  closing f hf hpc := by
    rcases hnew f hf with hold | henter | htest | ⟨-, hphase⟩
    · exact h.closing f hold hpc
    · simp [henter] at hpc
    · simp [htest] at hpc
    · exact hphase
  dead hdead := absurd hdead halive

theorem Owned.stepHandler (h : Owned t p) (hs : p.stepHandler = some p') : Owned t p' := by
  unfold Process.stepHandler at hs
  cases hhandlers : p.handlers with
  | nil => simp [hhandlers] at hs
  | cons top rest =>
      have htop : top ∈ p.handlers := hhandlers ▸ List.mem_cons_self
      have hrest : ∀ f ∈ rest, f ∈ p.handlers := fun f hf =>
        hhandlers ▸ List.mem_cons_of_mem top hf
      have halive : p.pc.phase ≠ .killed := by
        intro hdead
        rw [h.dead hdead] at htop
        cases htop
      cases hpc : top.pc with
      | enter =>
          simp only [hhandlers, hpc, Option.some.injEq] at hs
          subst hs
          refine h.rehandle ?_ halive
          intro f hf
          rcases List.mem_cons.mp hf with rfl | hf
          · exact .inr (.inr (.inl rfl))
          · exact .inl (hrest f hf)
      | test =>
          simp only [hhandlers, hpc] at hs
          split at hs <;> cases hs
          · next hconnected =>
              have hsession := (h.connected hconnected).resolve_right halive
              refine h.rehandle ?_ halive
              intro f hf
              rcases List.mem_cons.mp hf with rfl | hf
              · exact .inr (.inr (.inr ⟨rfl, hsession⟩))
              · exact .inl (hrest f hf)
          · exact h.rehandle (fun f hf => .inl (hrest f hf)) halive
      | close =>
          simp only [hhandlers, hpc, Option.some.injEq] at hs
          subst hs
          have hsession := h.closing top htop (.inl hpc)
          have hfd := h.fd (.inr hsession)
          have hnone : p.close.descriptors.get t.lowest = none := by
            rw [close_get hfd, if_pos rfl]
          obtain ⟨hsame, -, hfd', hconnected, -⟩ := close_frame p
          exact {
            others := (h.toTabled.close hfd).others
            own := (h.toTabled.close hfd).own
            once := (h.toTabled.close hfd).once
            fresh := by
              show p.close.pc.phase = .before ∨ p.close.pc.phase = .opened → _
              rw [hsame, hsession]
              intro hp
              rcases hp with hp | hp <;> cases hp
            fd := fun _ => hfd'.trans hfd
            connected := fun _ => .inl (by rw [hsame]; exact hsession)
            shut := fun _ => .inr (.inr hnone)
            clearing := fun _ => hnone
            cleared := fun _ _ _ => hnone
            closing := fun _ _ _ => by rw [hsame]; exact hsession
            dead := fun hdead => absurd (hsame ▸ hdead) halive }
      | clear =>
          simp only [hhandlers, hpc, Option.some.injEq] at hs
          subst hs
          have hnone := h.cleared top htop hpc
          exact {
            others := h.others
            own := h.own
            once := h.once
            fresh := h.fresh
            fd := h.fd
            connected := fun hfalse => by cases hfalse
            shut := fun _ => .inr (.inr hnone)
            clearing := h.clearing
            cleared := fun f hf => h.cleared f (hrest f hf)
            closing := fun f hf => h.closing f (hrest f hf)
            dead := fun hdead => absurd hdead halive }

theorem Owned.deliver (h : Owned t p) {signum : Signal} (hs : p.deliver signum = some p') :
    Owned t p' := by
  unfold Process.deliver at hs
  split at hs
  · cases hs
  · next hended =>
      split at hs
      · cases hs
        exact h.kill
      · split at hs <;> cases hs
        refine h.rehandle ?_ ?_
        · intro f hf
          rcases List.mem_cons.mp hf with rfl | hf
          · exact .inr (.inl rfl)
          · exact .inl hf
        · intro hdead
          rw [phase_killed hdead] at hended
          exact hended rfl

/-- Before the socket is opened its number is the lowest that is free. -/
theorem Owned.unopened (h : Owned t p) (hphase : p.pc.phase = .before) :
    p.descriptors.get t.lowest = none ∧ p.descriptors.lowest = t.lowest := by
  have hoff : p.connected = false := by
    rw [Bool.eq_false_iff]
    intro hon
    have hlate := h.connected hon
    simp [hphase] at hlate
  have hfree : p.descriptors.get t.lowest = none := by
    have hshut := h.shut hoff
    simpa [hphase] using hshut
  refine ⟨hfree, Descriptors.lowest_eq hfree fun d hd => ?_⟩
  rw [h.others d (by omega)]
  intro hnone
  have hle := Descriptors.lowest_le hnone
  omega

/-- While `main` runs no handler does. -/
theorem Tabled.owned (h : Tabled t p) (hhandlers : p.handlers = [])
    (hfresh : p.pc.phase = .before ∨ p.pc.phase = .opened → p.closes = [])
    (hfd : p.pc.phase = .opened ∨ p.pc.phase = .session → p.socket_fd = t.lowest)
    (hconnected : p.connected = true → p.pc.phase = .session)
    (hshut : p.connected = false → p.pc.phase = .opened ∨ p.descriptors.get t.lowest = none)
    (hclearing : p.pc.closed = true → p.descriptors.get t.lowest = none) : Owned t p where
  toTabled := h
  fresh := hfresh
  fd := hfd
  connected hon := .inl (hconnected hon)
  shut hoff := (hshut hoff).imp_right .inr
  clearing := hclearing
  cleared f hf := by simp [hhandlers] at hf
  closing f hf := by simp [hhandlers] at hf
  dead _ := hhandlers

theorem Owned.openSocket (h : Owned t p) (hhandlers : p.handlers = []) (hpc : p.pc = .openSocket) :
    Owned t { p with
      descriptors := p.descriptors.allocate .socket
      socket_fd := p.descriptors.lowest
      pc := .convertAddress } := by
  have hphase : p.pc.phase = .before := by rw [hpc]; rfl
  obtain ⟨hfree, hlowest⟩ := h.unopened hphase
  have hcloses := h.fresh (.inl hphase)
  refine Tabled.owned ⟨?_, h.own, ?_⟩ hhandlers (fun _ => hcloses) ?_ ?_ (fun _ => .inl rfl) ?_
  · intro d hd
    rw [Descriptors.get_allocate, hlowest, if_neg hd]
    exact h.others d hd
  · simp [hcloses, Descriptors.get_allocate, hlowest]
  · intro _
    rw [hlowest]
  · intro hon
    have hlate := h.connected hon
    simp [hphase] at hlate
  · intro heq
    cases heq

theorem Owned.closeSocket (h : Owned t p) (hhandlers : p.handlers = [])
    (hphase : p.pc.phase = .opened ∨ p.pc.phase = .session) {pc : ProcessPc}
    (hpc : pc.phase = .failed ∨ pc.phase = .session)
    (hconnected : p.connected = true → pc.phase = .session) : Owned t { p.close with pc := pc } := by
  have hfd := h.fd hphase
  have hnone : p.close.descriptors.get t.lowest = none := by
    rw [close_get hfd, if_pos rfl]
  obtain ⟨-, hsame, hfd', hon, -⟩ := close_frame p
  have htable := h.toTabled.close hfd
  refine Tabled.owned ⟨htable.others, htable.own, htable.once⟩ (hsame.trans hhandlers) ?_
    (fun _ => hfd'.trans hfd) ?_ (fun _ => .inr hnone) (fun _ => hnone)
  · rintro (hbefore | hopened)
    · rcases hpc with heq | heq <;> rw [heq] at hbefore <;> cases hbefore
    · rcases hpc with heq | heq <;> rw [heq] at hopened <;> cases hopened
  · rw [hon]
    exact hconnected

theorem Owned.stepMain (h : Owned t p) (hhandlers : p.handlers = []) {ok : Bool}
    {chunk : Option Bytes} {input : Input} (hs : p.stepMain ok chunk input = some p') :
    Owned t p' := by
  unfold Process.stepMain at hs
  cases hpc : p.pc with
  | signalInt | signalTerm =>
      simp only [hpc, Option.some.injEq] at hs
      subst hs
      exact h.goto (by rw [hpc]; rfl) rfl p.sent
  | clearState =>
      simp only [hpc, Option.some.injEq] at hs
      subst hs
      have hphase : p.pc.phase = .before := by rw [hpc]; rfl
      exact Tabled.owned ⟨h.others, h.own, h.once⟩ hhandlers (fun _ => h.fresh (.inl hphase))
        (fun hp => by rcases hp with hp | hp <;> cases hp) (fun hon => by cases hon)
        (fun _ => .inr (h.unopened hphase).1) (fun heq => by cases heq)
  | openSocket =>
      simp only [hpc] at hs
      split at hs <;> cases hs
      · exact h.openSocket hhandlers hpc
      · have hphase : p.pc.phase = .before := by rw [hpc]; rfl
        refine Tabled.owned ⟨h.others, h.own, h.once⟩ hhandlers (fun hp => ?_) (fun hp => ?_)
          (fun hon => ?_) (fun _ => .inr (h.unopened hphase).1) (fun _ => (h.unopened hphase).1)
        · rcases hp with hp | hp <;> cases hp
        · rcases hp with hp | hp <;> cases hp
        · have hlate := h.connected hon
          simp [hphase] at hlate
  | convertAddress | connectServer =>
      simp only [hpc, Option.some.injEq] at hs
      subst hs
      split
      · exact h.goto (by rw [hpc]; rfl) rfl p.sent
      · exact h.goto (by rw [hpc]; rfl) rfl p.sent
  | closeFailed =>
      simp only [hpc, Option.some.injEq] at hs
      subst hs
      have hphase : p.pc.phase = .opened := by rw [hpc]; rfl
      refine h.closeSocket hhandlers (.inl hphase) (.inl rfl) fun hon => ?_
      have hlate := h.connected hon
      simp [hphase] at hlate
  | setConnected =>
      simp only [hpc, Option.some.injEq] at hs
      subst hs
      have hphase : p.pc.phase = .opened := by rw [hpc]; rfl
      exact Tabled.owned ⟨h.others, h.own, h.once⟩ hhandlers
        (fun hp => by rcases hp with hp | hp <;> cases hp) (fun _ => h.fd (.inl hphase))
        (fun _ => rfl) (fun hoff => by cases hoff) (fun heq => by cases heq)
  | welcome =>
      simp only [hpc, Option.some.injEq] at hs
      subst hs
      exact h.goto (by rw [hpc]; rfl) rfl p.sent
  | loopTest | select =>
      simp only [hpc, Option.some.injEq] at hs
      subst hs
      split
      · exact h.goto (by rw [hpc]; rfl) rfl p.sent
      · exact h.goto (by rw [hpc]; rfl) rfl p.sent
  | receive =>
      simp only [hpc] at hs
      repeat' split at hs
      all_goals cases hs
      all_goals exact h.goto (by rw [hpc]; rfl) rfl p.sent
  | choice | param =>
      simp only [hpc] at hs
      split at hs <;> cases hs
      · exact h.goto (by rw [hpc, phase_resume]; rfl) (closed_resume _) p.sent
      · exact h.goto (by rw [hpc]; rfl) rfl p.sent
  | commandTest next message =>
      simp only [hpc, Option.some.injEq] at hs
      subst hs
      split
      · exact h.goto (by rw [hpc]; rfl) rfl p.sent
      · exact h.goto (by rw [hpc, phase_resume]; rfl) (closed_resume next) p.sent
  | commandSend next message =>
      simp only [hpc, Option.some.injEq] at hs
      subst hs
      rw [send_frame]
      exact h.goto (by rw [hpc, phase_resume]; rfl) (closed_resume next) _
  | paramSend message =>
      simp only [hpc, Option.some.injEq] at hs
      subst hs
      rw [send_frame]
      exact h.goto (by rw [hpc]; rfl) rfl _
  | leave =>
      simp only [hpc, Option.some.injEq] at hs
      subst hs
      split
      · exact h.goto (by rw [hpc]; rfl) rfl p.sent
      · next hoff =>
          have hphase : p.pc.phase = .session := by rw [hpc]; rfl
          have hnone : p.descriptors.get t.lowest = none := by
            have hshut := h.shut (by simpa using hoff)
            simpa [hphase] using hshut
          exact Tabled.owned ⟨h.others, h.own, h.once⟩ hhandlers
            (fun hp => by rcases hp with hp | hp <;> cases hp) (fun _ => h.fd (.inr hphase))
            (fun hon => absurd hon hoff) (fun _ => .inr hnone) (fun _ => hnone)
  | closeSocket =>
      simp only [hpc, Option.some.injEq] at hs
      subst hs
      exact h.closeSocket hhandlers (.inr (by rw [hpc]; rfl)) (.inr rfl) fun _ => rfl
  | clearConnected =>
      simp only [hpc, Option.some.injEq] at hs
      subst hs
      have hnone := h.clearing (by rw [hpc]; rfl)
      exact Tabled.owned ⟨h.others, h.own, h.once⟩ hhandlers
        (fun hp => by rcases hp with hp | hp <;> cases hp)
        (fun _ => h.fd (.inr (by rw [hpc]; rfl))) (fun hon => by cases hon)
        (fun _ => .inr hnone) (fun _ => hnone)
  | exited success | killed => simp [hpc] at hs

theorem Owned.step (h : Owned t p) {a : ProcessAction} (hs : p.step a = some p') :
    Owned t p' := by
  cases a with
  | main ok chunk input =>
      simp only [Process.step] at hs
      split at hs
      · next hhandlers => exact h.stepMain hhandlers hs
      · cases hs
  | signal signum => exact h.deliver hs
  | handler => exact h.stepHandler hs
  | kill =>
      simp only [Process.step] at hs
      split at hs <;> cases hs
      exact h.kill

end Steps

theorem owned_of_reachable {t : Descriptors ClientFile} {p : Process}
    (h : (clientMachine t).Reachable p) : Owned t p :=
  Machine.Reachable.invariant (I := Owned t) (owned_init t) (fun _ _ _ hi hs => hi.step hs) h

/-- Whatever is open when the client starts and whichever signals arrive where, also in
the handler of the other: it leaves the descriptors it was started with alone, each
`close` is of its own socket, at most one of them closes it, and when the client ends on
its own its descriptors are as they were. -/
theorem client_closes_its_socket {t : Descriptors ClientFile} {p : Process}
    (h : (clientMachine t).Reachable p) :
    (∀ d, d ≠ t.lowest → p.descriptors.get d = t.get d) ∧
      (∀ c ∈ p.closes, c.1 = (t.lowest : Int)) ∧ p.closes.countP Prod.snd ≤ 1 ∧
      ∀ success, p.pc = .exited success → ∀ d, p.descriptors.get d = t.get d := by
  have howned := owned_of_reachable h
  refine ⟨howned.others, howned.own, by have honce := howned.once; omega, ?_⟩
  intro success hpc d
  by_cases hd : d = t.lowest
  · rw [hd, howned.clearing (by rw [hpc]; rfl), Descriptors.get_lowest]
  · exact howned.others d hd

/-- Both signals at once while `main` closes its socket: three calls of `close`, the first
of them in the inner handler. -/
theorem nested_handlers_close :
    ∃ p, (clientMachine ⟨[some (.given 0), none, some (.given 2)]⟩).Reachable p ∧
      p.closes = [(1, true), (1, false), (1, false)] ∧ p.pc = .exited true ∧
      ∀ d, p.descriptors.get d =
        (⟨[some (.given 0), none, some (.given 2)]⟩ : Descriptors ClientFile).get d := by
  have hrun : ((clientMachine ⟨[some (.given 0), none, some (.given 2)]⟩).exec
      (clientMachine ⟨[some (.given 0), none, some (.given 2)]⟩).start
      (List.replicate 10 (.main true none .text) ++
        [.main false none .text, .main true none .text, .signal .sigint, .handler, .handler,
          .signal .sigterm] ++
        List.replicate 6 .handler ++ List.replicate 2 (.main true none .text))).any
      (fun p => decide (p.closes = [(1, true), (1, false), (1, false)] ∧
        p.pc = .exited true)) = true := by
    decide +kernel
  obtain ⟨p, hreach, hfacts⟩ := Machine.Reachable.exists_of_exec hrun
  obtain ⟨hcloses, hpc⟩ := of_decide_eq_true hfacts
  exact ⟨p, hreach, hcloses, hpc, (client_closes_its_socket hreach).2.2.2 true hpc⟩

end RsvpControl.Client
