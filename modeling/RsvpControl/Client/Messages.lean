import RsvpControl.Client.Run
import RsvpControl.Server.Sessions

/-! # What the server says

Every text of the communication thread other than the menu and the prompts is
plain: the fixed texts, and the responses of the handlers with the numbers they
print. The client cannot take a response for a prompt.
-/

namespace RsvpControl.Client

open RsvpControl.Core Server Device

/-! ## Texts -/

@[simp] theorem plain_invalidFormat : Plain invalidFormat := by decide +kernel
@[simp] theorem plain_disconnecting : Plain disconnecting := by decide +kernel
@[simp] theorem plain_queueFull : Plain queueFull := by decide +kernel
@[simp] theorem plain_commandTimeout : Plain commandTimeout := by decide +kernel

theorem Plain.in_line {label message : Bytes} (hlabel : Plain label)
    (hlast : label.getLast? = some 32) (h : Plain message) :
    Plain (label ++ message ++ text "\n") := by
  have hnewline : Plain (text "\n") ∧ (text "\n").head? = some 10 := by decide +kernel
  have hseam : ∀ p : UInt8, p ≠ 32 → label.getLast? ≠ some p := by
    intro p hp heq
    rw [hlast] at heq
    exact hp (Option.some.inj heq).symm
  have hend : ∀ q : UInt8, q ≠ 10 → (text "\n").head? ≠ some q := by
    intro q hq heq
    rw [hnewline.2] at heq
    exact hq (Option.some.inj heq).symm
  constructor
  · exact (hlabel.1.append h.1 (Or.inl (hseam _ (by decide)))).append hnewline.1.1
      (Or.inr (hend _ (by decide)))
  · exact (hlabel.2.append h.2 (Or.inl (hseam _ (by decide)))).append hnewline.1.2
      (Or.inr (hend _ (by decide)))

theorem plain_responseLine {response : CommandResponse} (h : Plain response.message) :
    Plain (responseLine response) := by
  refine Plain.of_part ?_ (List.take_prefix _ _).isInfix
  split
  · exact Plain.in_line (by decide +kernel) (by decide +kernel) h
  · exact Plain.in_line (by decide +kernel) (by decide +kernel) h

/-- Plain, and a C string to its end. -/
def Printed (message : Bytes) : Prop := Plain message ∧ 0 ∉ message

instance (message : Bytes) : Decidable (Printed message) := inferInstanceAs (Decidable (_ ∧ _))

theorem Printed.append_printInt {before after : Bytes} (hbefore : Printed before)
    (hafter : Printed after) (z : Int) : Printed (before ++ Decimal.printInt z ++ after) := by
  refine ⟨hbefore.1.append_printInt hafter.1 z, ?_⟩
  intro hmem
  rcases List.mem_append.mp hmem with hmem | hmem
  · rcases List.mem_append.mp hmem with hmem | hmem
    · exact hbefore.2 hmem
    · rcases Decimal.isDigit_of_mem_printInt hmem with hdigit | hminus
      · cases hdigit
      · cases hminus
  · exact hafter.2 hmem

theorem Printed.append_number {before : Bytes} (h : Printed before) (z : Int) :
    Printed (before ++ Decimal.printInt z) := by
  have hafter := h.append_printInt (show Printed [] by decide) z
  rwa [List.append_nil] at hafter

theorem printed_success {m : Bytes} (h : Printed m) : Printed (success m).message := h

theorem printed_failure {m : Bytes} (h : Printed m) : Printed (failure m).message := h

/-- No handler answers with a prompt. -/
theorem printed_dispatch (cmd : Command) (mallocOk createOk : Bool) (state : DeviceState) :
    Printed (dispatch cmd mallocOk createOk state).2.message := by
  have hparts : Printed (text "Invalid brightness level: ") ∧ Printed (text " (use 1-3)") ∧
      Printed (text "Brightness set to ") ∧ Printed (text "Playing music ") ∧
      Printed (text "Invalid countdown seconds: ") ∧ Printed (text " (use 1-9)") ∧
      Printed (text "Countdown started from ") ∧ Printed (text " (will play music at 0)") := by
    decide +kernel
  obtain ⟨hlevel, huse3, hset, hplaying, hseconds, huse9, hstarted, hwill⟩ := hparts
  unfold dispatch
  cases cmd.type with
  | ledOn =>
      simp only [processLedOn]
      split
      · exact printed_success (by decide +kernel)
      · exact printed_failure (by decide +kernel)
  | ledOff =>
      simp only [processLedOff]
      split
      · exact printed_success (by decide +kernel)
      · exact printed_failure (by decide +kernel)
  | setBrightness =>
      simp only [processSetBrightness]
      split
      · exact hlevel.append_printInt huse3 _
      · split
        · exact hset.append_number _
        · exact printed_failure (by decide +kernel)
  | buzzerOn =>
      simp only [processBuzzerOn]
      split
      · exact printed_failure (by decide +kernel)
      · repeat' split
        all_goals first
          | exact hplaying.append_number _
          | exact printed_failure (by decide +kernel)
  | buzzerOff =>
      simp only [processBuzzerOff]
      split
      · exact printed_failure (by decide +kernel)
      · split
        · exact printed_success (by decide +kernel)
        · exact printed_failure (by decide +kernel)
  | sensorOn => exact printed_success (by decide +kernel)
  | sensorOff => exact printed_success (by decide +kernel)
  | segmentDisplay =>
      simp only [processSegmentDisplay]
      split
      · exact hseconds.append_printInt huse9 _
      · split
        · exact printed_failure (by decide +kernel)
        · split
          · exact hstarted.append_printInt hwill _
          · exact printed_failure (by decide +kernel)
  | segmentStop =>
      simp only [processSegmentStop]
      split
      · exact printed_failure (by decide +kernel)
      · split
        · exact printed_success (by decide +kernel)
        · exact printed_failure (by decide +kernel)
  | exit => exact printed_failure (by decide +kernel)
  | other pattern => exact printed_failure (by decide +kernel)

theorem plain_dispatch (cmd : Command) (mallocOk createOk : Bool) (state : DeviceState) :
    Plain (dispatch cmd mallocOk createOk state).2.message :=
  (printed_dispatch cmd mallocOk createOk state).1

/-! ## Over the runs of the server -/

/-- Every response in the server is plain, and what is sent as a prompt is one. -/
structure Spoken (s : System) : Prop where
  slot : Plain s.response.message
  sending : ∀ response, s.comm = .sendResponse response → Plain response.message
  publishing : ∀ block response, s.device = .publishLock block response ∨
    s.device = .publish block response → Plain response.message
  prompting : ∀ cmd prompt, s.comm = .sendPrompt cmd prompt →
    parameterPrompt cmd.type = some prompt

theorem commandReceived_prompt {buffer : Bytes} {cmd : Command} {prompt : Bytes}
    (h : commandReceived buffer = .askParameter cmd prompt) :
    parameterPrompt cmd.type = some prompt := by
  unfold commandReceived at h
  split at h
  · cases h
  · split at h
    · cases h
    · split at h
      · cases h
      · next hprompt =>
          split at h <;> cases h
          exact hprompt

theorem publishing_signalled {pc : DevicePc} {block : Nat} {response : CommandResponse}
    (h : pc.signalled = .publishLock block response ∨ pc.signalled = .publish block response) :
    pc = .publishLock block response ∨ pc = .publish block response := by
  cases pc <;> simp_all [DevicePc.signalled]

theorem sending_signalled {pc : CommPc} :
    (∀ response, pc.signalled = .sendResponse response ↔ pc = .sendResponse response) ∧
      (∀ cmd prompt, pc.signalled = .sendPrompt cmd prompt ↔ pc = .sendPrompt cmd prompt) := by
  cases pc <;> simp [CommPc.signalled]

/-- The messages of the responses in the server. -/
structure Answers (P : Bytes → Prop) (s : System) : Prop where
  slot : P s.response.message
  sending : ∀ response, s.comm = .sendResponse response → P response.message
  publishing : ∀ block response, s.device = .publishLock block response ∨
    s.device = .publish block response → P response.message

section Answers

variable {P : Bytes → Prop}

theorem answers_init (server_ip : Bytes) (hempty : P []) : Answers P (System.init server_ip) where
  slot := hempty
  sending _ h := by cases h
  publishing _ _ h := by rcases h with h | h <;> cases h

theorem Answers.of_frame {s s' : System} (h : Answers P s) (hresponse : s'.response = s.response)
    (hdevice : s'.device = s.device ∨ s'.device = s.device.signalled)
    (hsending : ∀ response, s'.comm = .sendResponse response → P response.message) :
    Answers P s' := by
  refine ⟨hresponse ▸ h.slot, hsending, ?_⟩
  intro block response hpc
  rcases hdevice with heq | heq
  · exact h.publishing block response (heq ▸ hpc)
  · rw [heq] at hpc
    exact h.publishing block response (publishing_signalled hpc)

theorem Answers.stepMain {s s' : System} {accepted : Accepted} {ok : Bool} (h : Answers P s)
    (hs : s.stepMain accepted ok = some s') : Answers P s' := by
  have hcontrol := (stepMain_control hs).2.2.2.2.2.2.2
  have hresponse : s'.response = s.response := by
    revert hs
    fun_cases System.stepMain s accepted ok
    all_goals intro hs
    all_goals cases hs
    all_goals rfl
  refine h.of_frame hresponse hcontrol.1 ?_
  intro response hpc
  rcases hcontrol.2 with heq | heq | ⟨heq, -⟩ | ⟨heq, -⟩
  · exact h.sending response (heq ▸ hpc)
  · exact h.sending response ((sending_signalled.1 response).mp (heq ▸ hpc))
  · simp [heq] at hpc
  · simp [heq] at hpc

theorem Answers.stepComm {s s' : System} {ok : Bool} (h : Answers P s)
    (hs : s.stepComm ok = some s') : Answers P s' := by
  have hcomm : s'.response = s.response ∧
      ∀ response, s'.comm = .sendResponse response → response = s.response := by
    revert hs
    fun_cases System.stepComm s ok
    all_goals intro hs
    all_goals cases hs
    all_goals simp_all [System.send, System.close, System.signalNotEmpty]
  refine h.of_frame hcomm.1 (stepComm_control hs).2.2.1 ?_
  intro response hpc
  rw [hcomm.2 response hpc]
  exact h.slot

theorem Answers.stepDevice {s s' : System} {mallocOk createOk : Bool} {level : Int}
    (hdispatch : ∀ (block : Nat) (cmd : Command) (frees : Nat), s.heap[block]? = some ⟨cmd, frees⟩ →
      ∀ mallocOk createOk state, P (dispatch cmd mallocOk createOk state).2.message)
    (h : Answers P s) (hs : s.stepDevice mallocOk createOk level = some s') :
    Answers P s' := by
  obtain ⟨hslot, hsending, hpublishing⟩ := h
  cases hpc : s.device with
  | dispatch block =>
      simp only [System.stepDevice, hpc] at hs
      split at hs
      · cases hs
      · next cmd frees hread =>
          cases hs
          refine ⟨hslot, hsending, ?_⟩
          intro b response hdispatched
          simp only [afterDispatch] at hdispatched
          split at hdispatched
          · split at hdispatched <;> simp at hdispatched
          · simp only [DevicePc.publishLock.injEq, reduceCtorEq, or_false] at hdispatched
            rw [← hdispatched.2]
            exact hdispatch block cmd frees hread mallocOk createOk s.devices
  | publish block response =>
      have hmessage := hpublishing block response (Or.inr hpc)
      simp only [System.stepDevice, hpc] at hs
      cases hs
      refine ⟨hmessage, ?_, by simp⟩
      intro r hr
      exact hsending r ((sending_signalled.1 r).mp hr)
  | _ =>
      simp only [System.stepDevice, hpc] at hs
      repeat' split at hs
      all_goals cases hs
      all_goals
        refine ⟨hslot, hsending, ?_⟩
      all_goals simp_all

theorem Answers.step_of_read {s s' : System} {a : Action}
    (hdispatch : ∀ (block : Nat) (cmd : Command) (frees : Nat), s.heap[block]? = some ⟨cmd, frees⟩ →
      ∀ mallocOk createOk state, P (dispatch cmd mallocOk createOk state).2.message)
    (h : Answers P s) (hs : s.step a = some s') : Answers P s' := by
  cases a with
  | main accepted ok => exact h.stepMain hs
  | comm ok => exact h.stepComm hs
  | commWake wake =>
      obtain ⟨block, hcomm, rfl⟩ := wakeComm_eq hs
      exact ⟨h.slot, (fun _ hpc => nomatch hpc), h.publishing⟩
  | device mallocOk createOk level => exact h.stepDevice hdispatch hs
  | deviceWake wake =>
      obtain ⟨hdevice, rfl⟩ := wakeDevice_eq hs
      refine ⟨h.slot, h.sending, ?_⟩
      rintro block response (hpc | hpc) <;> cases hpc
  | interrupt | hangUp socket | libraries devices =>
      cases hs
      exact ⟨h.slot, h.sending, h.publishing⟩
  | arrive socket chunk =>
      simp only [System.step] at hs
      repeat' split at hs
      all_goals cases hs
      exact ⟨h.slot, h.sending, h.publishing⟩

theorem Answers.step {s s' : System} {a : Action}
    (hdispatch : ∀ cmd mallocOk createOk state,
      P (dispatch cmd mallocOk createOk state).2.message)
    (h : Answers P s) (hs : s.step a = some s') : Answers P s' :=
  h.step_of_read (fun _ cmd _ _ => hdispatch cmd) hs

end Answers

theorem Spoken.answers {s : System} (h : Spoken s) : Answers Plain s :=
  ⟨h.slot, h.sending, h.publishing⟩

theorem spoken_init (server_ip : Bytes) : Spoken (System.init server_ip) where
  slot := show Plain [] by decide
  sending _ h := by cases h
  publishing _ _ h := by rcases h with h | h <;> cases h
  prompting _ _ h := by cases h

/-- What is about to be sent as a prompt is what the command asks with. -/
theorem step_prompting {s s' : System} {a : Action} (hs : s.step a = some s')
    (h : ∀ cmd prompt, s.comm = .sendPrompt cmd prompt → parameterPrompt cmd.type = some prompt)
    (cmd : Command) (prompt : Bytes) (hpc : s'.comm = .sendPrompt cmd prompt) :
    parameterPrompt cmd.type = some prompt := by
  have hkept : s'.comm = s.comm ∨ s'.comm = s.comm.signalled →
      parameterPrompt cmd.type = some prompt := by
    rintro (heq | heq)
    · exact h cmd prompt (heq ▸ hpc)
    · exact h cmd prompt ((sending_signalled.2 cmd prompt).mp (heq ▸ hpc))
  cases a with
  | main accepted ok =>
      rcases (stepMain_control hs).2.2.2.2.2.2.2.2 with heq | heq | ⟨heq, -⟩ | ⟨heq, -⟩
      · exact hkept (Or.inl heq)
      · exact hkept (Or.inr heq)
      · simp [heq] at hpc
      · simp [heq] at hpc
  | comm ok =>
      revert hs
      simp only [System.step]
      fun_cases System.stepComm s ok
      all_goals intro hs
      all_goals cases hs
      all_goals simp_all
      exact commandReceived_prompt (by assumption)
  | commWake wake =>
      obtain ⟨_, _, rfl⟩ := wakeComm_eq hs
      cases hpc
  | device mallocOk createOk level => exact hkept (stepDevice_control hs).2.2.2.2
  | deviceWake wake =>
      obtain ⟨_, rfl⟩ := wakeDevice_eq hs
      exact hkept (Or.inl rfl)
  | interrupt | hangUp socket | libraries devices =>
      cases hs
      exact hkept (Or.inl rfl)
  | arrive socket chunk =>
      simp only [System.step] at hs
      repeat' split at hs
      all_goals cases hs
      exact hkept (Or.inl rfl)

theorem Spoken.step {s s' : System} {a : Action} (h : Spoken s) (hs : s.step a = some s') :
    Spoken s' := by
  obtain ⟨hslot, hsending, hpublishing⟩ := h.answers.step plain_dispatch hs
  exact ⟨hslot, hsending, hpublishing, step_prompting hs h.prompting⟩

theorem spoken_of_reachable {server_ip : Bytes} {s : System}
    (h : (serverMachine server_ip).Reachable s) : Spoken s :=
  h.invariant (spoken_init server_ip) fun _ _ _ hi hs => hi.step hs

/-! ## One step on the session's socket -/

def sends : CommPc → Bool
  | .start | .sendMenu | .sendInvalid | .sendBye | .sendPrompt _ _ | .sendFull
  | .sendResponse _ | .sendTimeout => true
  | _ => false

def inRecv : CommPc → Bool
  | .recvCommand | .recvReply _ => true
  | _ => false

/-- The text after which the thread is in this `recv`. -/
def Asked : CommPc → Bytes → Prop
  | .recvCommand, m => m = menu
  | .recvReply cmd, m => parameterPrompt cmd.type = some m
  | _, _ => False

/-- What a step of the communication thread does to its socket. -/
inductive Speaks (k : Socket) : CommPc → CommPc → Socket → Prop
  | silent {pc pc' : CommPc} (before : inRecv pc = false) (after : inRecv pc' = false) :
      Speaks k pc pc' k
  | tells {pc pc' : CommPc} {m : Bytes} (before : inRecv pc = false) (after : inRecv pc' = false)
      (plain : Plain m) : Speaks k pc pc' { k with sent := k.sent ++ [m] }
  | asks {pc pc' : CommPc} {m : Bytes} (before : inRecv pc = false) (asked : Asked pc' m) :
      Speaks k pc pc' { k with sent := k.sent ++ [m] }
  | reads {pc pc' : CommPc} {m : Bytes} {rest : List Bytes} (before : inRecv pc = true)
      (inbox : k.inbox = m :: rest) (after : inRecv pc' = false) :
      Speaks k pc pc' { k with inbox := rest }
  | hangs {pc pc' : CommPc} (hungUp : k.hungUp = true) : Speaks k pc pc' k
  | closes {pc pc' : CommPc} : Speaks k pc pc' { k with closes := k.closes + 1 }

theorem getElem?_send {s : System} {k : Socket} (m : Bytes)
    (hk : s.sockets[s.commSocket]? = some k) :
    (s.send s.commSocket m true).sockets[s.commSocket]? =
      some { k with sent := k.sent ++ [m] } := by
  simp [System.send, hk]

theorem recv_socket {s : System} {k : Socket} {sockets : List Socket} {result : Option Bytes}
    (hk : s.sockets[s.commSocket]? = some k) (hs : s.recv = some (sockets, result)) :
    (result = none ∧ sockets = s.sockets ∧ k.hungUp = true) ∨
    ∃ m rest, result = some m ∧ k.inbox = m :: rest ∧
      sockets[s.commSocket]? = some { k with inbox := rest } := by
  have hinbox : s.inbox = k.inbox := by simp [System.inbox, hk]
  have hhung : s.hungUp = k.hungUp := by simp [System.hungUp, hk]
  unfold System.recv at hs
  rw [hinbox, hhung] at hs
  split at hs
  · next m rest hcons =>
      cases hs
      exact Or.inr ⟨m, rest, rfl, hcons, by simp [hk]⟩
  · split at hs
    · next hup =>
        cases hs
        exact Or.inl ⟨rfl, rfl, hup⟩
    · cases hs

theorem stepComm_speaks {s s' : System} {k : Socket} {ok : Bool} (hspoken : Spoken s)
    (hk : s.sockets[s.commSocket]? = some k) (hstart : s.comm ≠ .start)
    (hok : (ok || !sends s.comm) = true) (hs : s.stepComm ok = some s') :
    s'.comm ≠ .start ∧ s'.commSocket = s.commSocket ∧
      s'.server_running = s.server_running ∧
      ∃ k', s'.sockets[s.commSocket]? = some k' ∧ Speaks k s.comm s'.comm k' ∧
        (s'.comm = .returned → k'.closes = k.closes + 1) := by
  cases hpc : s.comm with
  | start => exact absurd hpc hstart
  | recvCommand =>
      simp only [System.stepComm, hpc] at hs
      split at hs
      · cases hs
      · next hrecv =>
          cases hs
          rcases recv_socket hk hrecv with ⟨-, hsame, hup⟩ | ⟨m, rest, hnone, -⟩
          · exact ⟨by simp, rfl, rfl, k, by rw [hsame]; exact hk, .hangs hup, by simp⟩
          · cases hnone
      · next sockets buffer hrecv =>
          rcases recv_socket hk hrecv with ⟨hnone, -⟩ | ⟨m, rest, hsome, hinbox, hsocket⟩
          · cases hnone
          · split at hs <;> cases hs
            all_goals exact ⟨by simp, rfl, rfl, _, hsocket, .reads rfl hinbox rfl, by simp⟩
  | recvReply cmd =>
      simp only [System.stepComm, hpc] at hs
      split at hs
      · cases hs
      · next hrecv =>
          cases hs
          rcases recv_socket hk hrecv with ⟨-, hsame, hup⟩ | ⟨m, rest, hnone, -⟩
          · exact ⟨by simp, rfl, rfl, k, by rw [hsame]; exact hk, .hangs hup, by simp⟩
          · cases hnone
      · next sockets buffer hrecv =>
          rcases recv_socket hk hrecv with ⟨hnone, -⟩ | ⟨m, rest, hsome, hinbox, hsocket⟩
          · cases hnone
          · cases hs
            exact ⟨by simp, rfl, rfl, _, hsocket, .reads rfl hinbox rfl, by simp⟩
  | sendMenu =>
      simp only [System.stepComm, hpc] at hs
      obtain rfl : ok = true := by simpa [hpc, sends] using hok
      cases hs
      exact ⟨by simp, rfl, rfl, _, getElem?_send menu hk, .asks rfl rfl, by simp⟩
  | sendPrompt cmd prompt =>
      simp only [System.stepComm, hpc] at hs
      obtain rfl : ok = true := by simpa [hpc, sends] using hok
      cases hs
      exact ⟨by simp, rfl, rfl, _, getElem?_send prompt hk,
        .asks rfl (hspoken.prompting cmd prompt hpc), by simp⟩
  | sendInvalid | sendBye | sendFull | sendTimeout =>
      simp only [System.stepComm, hpc] at hs
      obtain rfl : ok = true := by simpa [hpc, sends] using hok
      cases hs
      exact ⟨by simp, rfl, rfl, _, getElem?_send _ hk, .tells rfl rfl (by simp), by simp⟩
  | sendResponse response =>
      simp only [System.stepComm, hpc] at hs
      obtain rfl : ok = true := by simpa [hpc, sends] using hok
      cases hs
      exact ⟨by simp, rfl, rfl, _, getElem?_send _ hk,
        .tells rfl rfl (plain_responseLine (hspoken.sending response hpc)), by simp⟩
  | teardown =>
      simp only [System.stepComm, hpc] at hs
      cases hs
      exact ⟨by simp, rfl, rfl, _, by simp [System.close, hk], .closes, fun _ => rfl⟩
  | _ =>
      simp only [System.stepComm, hpc] at hs
      repeat' split at hs
      all_goals cases hs
      all_goals exact ⟨by simp, rfl, rfl, k, hk, .silent rfl rfl, by simp⟩

end RsvpControl.Client
