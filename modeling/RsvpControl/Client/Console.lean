import RsvpControl.Core.Fields
import RsvpControl.Core.Machine
import RsvpControl.Client.Run

/-! # The user's input

Both prompts of `client_run` read standard input with `scanf("%d")`, and where that
is not a number discard bytes up to a newline. Standard input is what is left of a
finite content, followed by end-of-file for ever: the discarding loop has no other
way out than a newline.
-/

namespace RsvpControl.Client

open RsvpControl.Core Server

/-! ## Reading -/

/-- `none` is `EOF`. -/
def getchar : Bytes → Option UInt8 × Bytes
  | [] => (none, [])
  | b :: rest => (some b, rest)

/-- `scanf("%d")`: the number, if any, and what is left. A sign in front of no digit
is used up, the byte after it is put back. -/
def scanf (stdin : Bytes) : Option Int × Bytes :=
  match Decimal.scanInt stdin with
  | some (z, rest) => (some z, rest)
  | none => (none, (Decimal.scanSign (Decimal.skipSpace stdin)).2)

structure Console where
  pc : ClientPc
  /-- At a prompt, in the loop behind a `scanf` that found no number. -/
  discarding : Bool
  stdin : Bytes
deriving DecidableEq, Repr

def Console.Prompted (s : Console) : Prop := s.pc = .choice ∨ s.pc = .param

instance (s : Console) : Decidable s.Prompted := inferInstanceAs (Decidable (_ ∨ _))

def answered (pc : ClientPc) (input : Input) : ClientPc :=
  if pc = .choice then (onChoice input).1 else (onParam input).1

/-- The next library call at a prompt. -/
def Console.read (s : Console) : Console :=
  if s.discarding then
    match getchar s.stdin with
    | (some 10, rest) => ⟨answered s.pc .text, false, rest⟩
    | (_, rest) => { s with stdin := rest }
  else
    match scanf s.stdin with
    | (some z, rest) => ⟨answered s.pc (.number z), false, rest⟩
    | (none, rest) => { s with discarding := true, stdin := rest }

inductive ConsoleAction where
  | receive (buffer : Bytes)
  /-- The connection ends, or `recv` fails. -/
  | leave
  | read
deriving DecidableEq, Repr

def Console.step (s : Console) : ConsoleAction → Option Console
  | .receive buffer =>
      if s.pc = .receive ∧ 0 < buffer.length ∧ buffer.length < BUFFER_SIZE then
        some { s with pc := onReceived buffer }
      else none
  | .leave => if s.pc = .receive then some { s with pc := .disconnect } else none
  | .read => if s.Prompted then some s.read else none

def consoleMachine (stdin : Bytes) : Machine Console ConsoleAction :=
  ⟨⟨.receive, false, stdin⟩, Console.step⟩

def reads (n : Nat) : List ConsoleAction := List.replicate n ConsoleAction.read

/-- The client's own steps get it past its prompt. -/
def Console.Terminates (stdin : Bytes) (s : Console) : Prop :=
  ∃ n t, (consoleMachine stdin).exec s (reads n) = some t ∧ ¬ t.Prompted

/-- What the prompt needs to find: a number in front, or a newline behind the white
space. -/
def Answerable (stdin : Bytes) : Prop :=
  Decimal.startsWithNumber stdin = true ∨ 10 ∈ Decimal.skipSpace stdin

instance (stdin : Bytes) : Decidable (Answerable stdin) := inferInstanceAs (Decidable (_ ∨ _))

/-! ## `scanf` -/

theorem newline_mem_scanSign (input : Bytes) :
    10 ∈ (Decimal.scanSign input).2 ↔ 10 ∈ input := by
  cases input with
  | nil => rfl
  | cons b bs =>
      rw [Decimal.scanSign]
      split
      · next h => simp [h]
      · split
        · next h => simp [h]
        · rfl

theorem scanf_cases (stdin : Bytes) :
    (Decimal.startsWithNumber stdin = true ∧ ∃ z rest, scanf stdin = (some z, rest) ∧
      rest <:+ stdin ∧ rest.length < stdin.length) ∨
      (Decimal.startsWithNumber stdin = false ∧ ∃ rest, scanf stdin = (none, rest) ∧
        rest <:+ stdin ∧ (10 ∈ rest ↔ 10 ∈ Decimal.skipSpace stdin)) := by
  have hsome := Decimal.scanInt_isSome_iff stdin
  unfold scanf
  cases hscan : Decimal.scanInt stdin with
  | some r =>
      rw [hscan] at hsome
      obtain ⟨hsuffix, hlength⟩ := Decimal.scanInt_suffix hscan
      exact Or.inl ⟨hsome.symm, r.1, r.2, rfl, hsuffix, hlength⟩
  | none =>
      rw [hscan] at hsome
      exact Or.inr ⟨hsome.symm, _, rfl,
        (Decimal.scanSign_suffix _).trans (List.dropWhile_suffix Decimal.isSpace),
        newline_mem_scanSign _⟩

/-! ## The discarding loop -/

theorem answered_not_prompted (pc : ClientPc) (input : Input) :
    answered pc input = .receive ∨ answered pc input = .disconnect := by
  unfold answered
  split
  · cases input with
    | text => exact Or.inl rfl
    | number typed =>
        simp only [onChoice]
        repeat' split
        all_goals simp
  · cases input <;> exact Or.inl rfl

theorem not_prompted_answered {s : Console} {pc : ClientPc} {input : Input}
    (h : s.pc = answered pc input) : ¬ s.Prompted := by
  unfold Console.Prompted
  rw [h]
  rcases answered_not_prompted pc input with hpc | hpc
  all_goals
    rw [hpc]
    decide

variable {stdin : Bytes}

theorem exec_reads_succ {pc : ClientPc} (hpc : pc = .choice ∨ pc = .param) (discarding : Bool)
    (content : Bytes) (n : Nat) :
    (consoleMachine stdin).exec ⟨pc, discarding, content⟩ (reads (n + 1)) =
      (consoleMachine stdin).exec (Console.read ⟨pc, discarding, content⟩) (reads n) := by
  have hprompt : Console.Prompted ⟨pc, discarding, content⟩ := hpc
  rw [reads, List.replicate_succ, Machine.exec_cons]
  simp only [consoleMachine, Console.step, if_pos hprompt]
  rfl

theorem read_discarding (pc : ClientPc) (b : UInt8) (rest : Bytes) :
    Console.read ⟨pc, true, b :: rest⟩ =
      if b = 10 then ⟨answered pc .text, false, rest⟩ else ⟨pc, true, rest⟩ := by
  by_cases hb : b = 10
  · rw [if_pos hb, hb]
    rfl
  · simp [Console.read, getchar, hb]

theorem discard_ends (stdin : Bytes) {pc : ClientPc} {content : Bytes}
    (hpc : pc = .choice ∨ pc = .param) (hnewline : 10 ∈ content) :
    ∃ n rest, (consoleMachine stdin).exec ⟨pc, true, content⟩ (reads n) =
        some ⟨answered pc .text, false, rest⟩ ∧ rest.length < content.length := by
  induction content with
  | nil => cases hnewline
  | cons b bs ih =>
      by_cases hb : b = 10
      · refine ⟨1, bs, ?_, Nat.lt_succ_self _⟩
        rw [exec_reads_succ hpc, read_discarding, if_pos hb]
        rfl
      · have hrest : 10 ∈ bs := by
          rcases List.mem_cons.mp hnewline with h | h
          · exact absurd h.symm hb
          · exact h
        obtain ⟨n, rest, hexec, hlength⟩ := ih hrest
        refine ⟨n + 1, rest, ?_, Nat.lt_succ_of_lt hlength⟩
        rw [exec_reads_succ hpc, read_discarding, if_neg hb, hexec]

theorem discard_stuck {pc : ClientPc} {content : Bytes}
    (hpc : pc = .choice ∨ pc = .param) (hnewline : 10 ∉ content) (n : Nat)
    {t : Console} (hexec : (consoleMachine stdin).exec ⟨pc, true, content⟩ (reads n) = some t) :
    t.Prompted := by
  induction n generalizing content with
  | zero =>
      cases hexec
      exact hpc
  | succ n ih =>
      rw [exec_reads_succ hpc] at hexec
      cases content with
      | nil => exact ih hnewline hexec
      | cons b rest =>
          rw [List.mem_cons, not_or] at hnewline
          rw [read_discarding, if_neg (Ne.symm hnewline.1)] at hexec
          exact ih hnewline.2 hexec

/-! ## Prompts -/

/-- A prompt with an answer ahead is answered, with less input left. -/
theorem answer_ends (stdin : Bytes) {pc : ClientPc} {content : Bytes}
    (hpc : pc = .choice ∨ pc = .param) (h : Answerable content) :
    ∃ n input rest, (consoleMachine stdin).exec ⟨pc, false, content⟩ (reads n) =
        some ⟨answered pc input, false, rest⟩ ∧ rest.length < content.length := by
  rcases scanf_cases content with
    ⟨-, z, rest, hfound, -, hlength⟩ | ⟨hnone, rest, hfound, hleft, hnewline⟩
  · refine ⟨1, .number z, rest, ?_, hlength⟩
    rw [exec_reads_succ hpc]
    simp [Console.read, hfound, reads]
  · have hahead : 10 ∈ rest := by
      rcases h with h | h
      · rw [hnone] at h
        cases h
      · exact hnewline.mpr h
    obtain ⟨n, rest', hexec, hlength⟩ := discard_ends stdin hpc hahead
    refine ⟨n + 1, .text, rest', ?_, Nat.lt_of_lt_of_le hlength hleft.length_le⟩
    rw [exec_reads_succ hpc, ← hexec]
    simp [Console.read, hfound]

theorem answer_stuck {pc : ClientPc} {content : Bytes} (hpc : pc = .choice ∨ pc = .param)
    (h : ¬ Answerable content) (n : Nat) {t : Console}
    (hexec : (consoleMachine stdin).exec ⟨pc, false, content⟩ (reads n) = some t) :
    t.Prompted := by
  rcases scanf_cases content with
    ⟨hnumber, -⟩ | ⟨-, rest, hfound, -, hnewline⟩
  · exact absurd (Or.inl hnumber) h
  · cases n with
    | zero =>
        cases hexec
        exact hpc
    | succ n =>
        rw [exec_reads_succ hpc] at hexec
        have hread : Console.read ⟨pc, false, content⟩ = ⟨pc, true, rest⟩ := by
          simp [Console.read, hfound]
        rw [hread] at hexec
        exact discard_stuck hpc (fun hrest => h (Or.inr (hnewline.mp hrest))) n hexec

/-- Reading an answer terminates exactly when the input has one for the prompt. -/
theorem terminates_iff {s : Console} (hprompt : s.Prompted) (hscan : s.discarding = false) :
    s.Terminates stdin ↔ Answerable s.stdin := by
  obtain ⟨pc, discarding, content⟩ := s
  simp only at hscan
  subst hscan
  constructor
  · rintro ⟨n, t, hexec, ht⟩
    by_contra h
    exact ht (answer_stuck hprompt h n hexec)
  · intro h
    obtain ⟨n, input, rest, hexec, -⟩ := answer_ends stdin hprompt h
    exact ⟨n, _, hexec, not_prompted_answered rfl⟩

/-! ## Runs -/

theorem read_suffix (s : Console) : s.read.stdin <:+ s.stdin := by
  obtain ⟨pc, discarding, content⟩ := s
  cases discarding with
  | true =>
      cases content with
      | nil => exact List.suffix_rfl
      | cons b rest =>
          rw [read_discarding]
          split
          all_goals exact List.suffix_cons b rest
  | false =>
      rcases scanf_cases content with ⟨-, z, rest, hfound, hleft, -⟩ | ⟨-, rest, hfound, hleft, -⟩
      all_goals simpa [Console.read, hfound] using hleft

theorem stdin_suffix {s : Console} (h : (consoleMachine stdin).Reachable s) :
    s.stdin <:+ stdin := by
  refine Machine.Reachable.invariant (I := fun s : Console => s.stdin <:+ stdin)
    List.suffix_rfl ?_ h
  intro s a s' hs hstep
  simp only [consoleMachine, Console.step] at hstep
  repeat' split at hstep
  all_goals cases hstep
  · exact hs
  · exact hs
  · exact (read_suffix s).trans hs

/-- In every run on every content, the reading of an answer terminates at exactly the
prompts that find in what is left a number in front, or a newline behind the white
space. -/
theorem input_terminates_iff (stdin : Bytes) {s : Console}
    (h : (consoleMachine stdin).Reachable s) (hprompt : s.Prompted)
    (hscan : s.discarding = false) :
    s.stdin <:+ stdin ∧ (s.Terminates stdin ↔ Answerable s.stdin) :=
  ⟨stdin_suffix h, terminates_iff hprompt hscan⟩

/-- The first menu on a content of one line. -/
theorem input_terminates_number :
    ∃ s, (consoleMachine (text "1\n")).Reachable s ∧ s.Prompted ∧ s.Terminates (text "1\n") := by
  have hrun : ((consoleMachine (text "1\n")).exec (consoleMachine (text "1\n")).start
      [ConsoleAction.receive menu]).any (fun s =>
        decide (s.Prompted ∧ s.discarding = false ∧ Answerable s.stdin)) = true := by
    decide +kernel
  obtain ⟨s, hreach, hfacts⟩ := Machine.Reachable.exists_of_exec hrun
  obtain ⟨hprompt, hscan, hanswer⟩ := of_decide_eq_true hfacts
  exact ⟨s, hreach, hprompt,
    (input_terminates_iff (text "1\n") hreach hprompt hscan).2.mpr hanswer⟩

/-- At the first menu of a client whose standard input is at its end. -/
theorem input_hangs_at_end :
    ¬ (∀ (stdin : Bytes) (s : Console), (consoleMachine stdin).Reachable s → s.Prompted →
      s.discarding = false → s.Terminates stdin) := by
  intro h
  have hrun : ((consoleMachine []).exec (consoleMachine []).start
      [ConsoleAction.receive menu]).any (fun s =>
        decide (s.Prompted ∧ s.discarding = false ∧ ¬ Answerable s.stdin)) = true := by
    decide +kernel
  obtain ⟨s, hreach, hfacts⟩ := Machine.Reachable.exists_of_exec hrun
  obtain ⟨hprompt, hscan, hanswer⟩ := of_decide_eq_true hfacts
  exact hanswer ((terminates_iff hprompt hscan).mp (h [] s hreach hprompt hscan))

theorem step_prompt (content : Bytes) :
    (consoleMachine stdin).step ⟨.receive, false, content⟩ (.receive (text "Enter")) =
      some ⟨.param, false, content⟩ := by
  have hasked : onReceived (text "Enter") = .param := by decide +kernel
  have hfits : 0 < (text "Enter").length ∧ (text "Enter").length < BUFFER_SIZE := by
    decide +kernel
  simp only [consoleMachine, Console.step, hasked]
  exact if_pos ⟨trivial, hfits⟩

/-- Each prompt that is answered leaves less input to the next, so on every content
some prompt hangs. -/
theorem input_runs_out (stdin : Bytes) :
    ∃ s, (consoleMachine stdin).Reachable s ∧ s.Prompted ∧ s.discarding = false ∧
      ¬ s.Terminates stdin := by
  have hshrink : ∀ content, (consoleMachine stdin).Reachable ⟨.receive, false, content⟩ →
      ∃ s, (consoleMachine stdin).Reachable s ∧ s.Prompted ∧ s.discarding = false ∧
        ¬ s.Terminates stdin := by
    intro content
    induction hlength : content.length using Nat.strongRecOn generalizing content with
    | ind length ih =>
        intro hreach
        have hprompt : (consoleMachine stdin).Reachable ⟨.param, false, content⟩ :=
          hreach.step trivial (step_prompt content)
        have hpc : ClientPc.param = .choice ∨ ClientPc.param = .param := Or.inr rfl
        by_cases hanswer : Answerable content
        · obtain ⟨n, input, rest, hexec, hless⟩ := answer_ends stdin hpc hanswer
          have hreceive : answered .param input = .receive := by
            cases input <;> rfl
          rw [hreceive] at hexec
          exact ih rest.length (hlength ▸ hless) rest rfl
            (Relation.ReflTransGen.trans hprompt (Machine.Reaches.of_exec hexec))
        · have hhere : Console.Prompted ⟨.param, false, content⟩ := hpc
          refine ⟨⟨.param, false, content⟩, hprompt, hhere, rfl, ?_⟩
          rw [terminates_iff hhere rfl]
          exact hanswer
  exact hshrink stdin Machine.ReachableUnder.start

end RsvpControl.Client
