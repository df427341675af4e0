import RsvpControl.Wire.Lines
import RsvpControl.Wire.Recognition

/-! # Segmentation of the stream

What the communication thread recognises in a sequence of `recv` results, against
what the lines of the stream denote. The thread takes each result for one message,
so the two agree whatever the cut only for a stream that is empty or starts with EXIT.
-/

namespace RsvpControl.Wire

open RsvpControl.Core Server

/-! ## What a client writes -/

/-- A command line with the reply to its prompt. -/
structure Entry where
  cmd_type : Int
  param1 : Int
  param2 : Int
  reply : Option Int
deriving DecidableEq, Repr

namespace Entry

def command (e : Entry) : Command := ⟨.ofInt e.cmd_type, e.param1, e.param2⟩

/-- The server prompts for the parameter. -/
def asks (e : Entry) : Bool := (parameterPrompt e.command.type).isSome && e.param1 = 0

def line (e : Entry) : Bytes := commandText e.cmd_type e.param1 e.param2

def lines (e : Entry) : List Bytes :=
  match e.reply with
  | none => [e.line]
  | some r => [e.line, replyText r]

/-- The fields are those of `int` variables, and only a prompt is replied to. -/
structure Valid (e : Entry) : Prop where
  cmd_type : IsInt e.cmd_type
  param1 : IsInt e.param1
  param2 : IsInt e.param2
  reply : ∀ r, e.reply = some r → e.asks = true ∧ IsInt r

end Entry

/-- Entries a client writes one after the other: only the last prompt may be left
without a reply. -/
def Dialogue : List Entry → Prop
  | [] => True
  | e :: es => e.Valid ∧ (e.asks = true → e.reply = none → es = []) ∧ Dialogue es

/-- The commands the lines denote, up to the first EXIT. -/
def denoted : List Entry → List Recognised
  | [] => []
  | e :: es =>
      if e.cmd_type = 0 then [.exit]
      else if e.asks then
        match e.reply with
        | none => []
        | some r => .push { e.command with param1 := r } :: denoted es
      else .push e.command :: denoted es

def stream (lines : List Bytes) : Bytes := lines.flatMap fun line => line ++ [10]

def dialogueLines (es : List Entry) : List Bytes := es.flatMap Entry.lines

/-- Successive results of `recv` into a buffer of `BUFFER_SIZE` for these bytes. -/
structure Cut (bytes : Bytes) (chunks : List Bytes) : Prop where
  joined : chunks.flatten = bytes
  sizes : ∀ chunk ∈ chunks, 1 ≤ chunk.length ∧ chunk.length ≤ BUFFER_SIZE - 1

/-! ## One receive -/

theorem asks_ne_exit {e : Entry} (hasks : e.asks = true) : e.cmd_type ≠ 0 := by
  intro hzero
  simp [Entry.asks, Entry.command, hzero, CommandType.ofInt, parameterPrompt] at hasks

theorem ofInt_eq_exit {t : Int} : CommandType.ofInt t = .exit ↔ t = 0 := by
  constructor
  · intro h
    unfold CommandType.ofInt at h
    repeat' split at h
    all_goals first | assumption | cases h
  · rintro rfl
    rfl

theorem commandReceived_of_parse {buffer : Bytes} {e : Entry}
    (hparse : parseCommand (stripNewline buffer) = some e.command) (hexit : e.cmd_type ≠ 0) :
    (e.asks = true ∧ ∃ prompt, commandReceived buffer = .askParameter e.command prompt) ∨
    (e.asks = false ∧ commandReceived buffer = .push e.command) := by
  have htype : e.command.type ≠ .exit := fun h => hexit (ofInt_eq_exit.mp h)
  simp only [commandReceived, hparse, if_neg htype, Entry.asks]
  cases hprompt : parameterPrompt e.command.type with
  | none => exact Or.inr ⟨rfl, rfl⟩
  | some prompt =>
      by_cases hzero : e.param1 = 0
      · exact Or.inl ⟨by simp [hzero], prompt, if_pos hzero⟩
      · exact Or.inr ⟨by simp [hzero], if_neg hzero⟩

theorem recognise_command {buffer : Bytes} {e : Entry} (buffers : List Bytes)
    (hparse : parseCommand (stripNewline buffer) = some e.command) :
    recognise none (buffer :: buffers) =
      if e.cmd_type = 0 then [.exit]
      else if e.asks then recognise (some e.command) buffers
      else .push e.command :: recognise none buffers := by
  by_cases hexit : e.cmd_type = 0
  · have htype : e.command.type = .exit := ofInt_eq_exit.mpr hexit
    have hreceived : commandReceived buffer = .exit := by
      simp only [commandReceived, hparse, if_pos htype]
    simp only [recognise, hreceived, if_pos hexit]
  · rcases commandReceived_of_parse hparse hexit with ⟨hasks, prompt, hreceived⟩ | ⟨hasks, hreceived⟩
    · simp only [recognise, hreceived, if_neg hexit, hasks, if_true]
    · simp only [recognise, hreceived, if_neg hexit, hasks, Bool.false_eq_true, if_false]

theorem parse_line {e : Entry} (he : e.Valid) (rest : Bytes) :
    parseCommand (stripNewline (e.line ++ 10 :: rest)) = some e.command ∧
      parseCommand (stripNewline e.line) = some e.command := by
  have hstrip := stripNewline_line (fun b (hb : b ∈ e.line) => inLine_commandText hb) rest
  rw [hstrip.1, hstrip.2]
  have hparse := parseCommand_commandText he.cmd_type he.param1 he.param2
  exact ⟨hparse, hparse⟩

theorem recognise_newlines {buffers : List Bytes}
    (hbuffers : ∀ buffer ∈ buffers, ∃ rest, buffer = 10 :: rest) : recognise none buffers = [] := by
  induction buffers with
  | nil => rfl
  | cons buffer buffers ih =>
      obtain ⟨rest, rfl⟩ := hbuffers buffer List.mem_cons_self
      have hreceived : commandReceived (10 :: rest) = .invalid := by
        rw [commandReceived, stripNewline_newline]
        rfl
      simp only [recognise, hreceived]
      exact ih fun b hb => hbuffers b (List.mem_cons_of_mem _ hb)

/-! ## Ways to cut -/

/-- Every line in a result of its own. -/
def wholeLines (lines : List Bytes) : List Bytes := lines.map fun line => line ++ [10]

/-- Every newline at the front of the next result. -/
def shifted : Bytes → List Bytes → List Bytes
  | line, [] => [line, [10]]
  | line, next :: lines => line :: shifted (10 :: next) lines

/-- Lengths at which a line with a newline added still fits one result. -/
def FitsResult (line : Bytes) : Prop := 1 ≤ line.length ∧ line.length ≤ 35

theorem Cut.cons {bytes chunk : Bytes} {chunks : List Bytes} (h : Cut bytes chunks)
    (hchunk : 1 ≤ chunk.length ∧ chunk.length ≤ 36) : Cut (chunk ++ bytes) (chunk :: chunks) := by
  have hsize : chunk.length ≤ BUFFER_SIZE - 1 := Nat.le_trans hchunk.2 (by decide)
  refine ⟨by rw [List.flatten_cons, h.joined], ?_⟩
  intro c hc
  rcases List.mem_cons.mp hc with rfl | hc
  · exact ⟨hchunk.1, hsize⟩
  · exact h.sizes c hc

theorem Cut.nil : Cut [] [] := ⟨rfl, by simp⟩

theorem cut_wholeLines {lines : List Bytes} (hlines : ∀ line ∈ lines, FitsResult line) :
    Cut (stream lines) (wholeLines lines) := by
  induction lines with
  | nil => exact Cut.nil
  | cons line lines ih =>
      have hline := hlines line List.mem_cons_self
      refine (ih fun l hl => hlines l (List.mem_cons_of_mem _ hl)).cons ?_
      rw [List.length_append, List.length_singleton]
      unfold FitsResult at hline
      omega

theorem cut_shifted {line : Bytes} {lines : List Bytes}
    (hline : 1 ≤ line.length ∧ line.length ≤ 36) (hlines : ∀ l ∈ lines, FitsResult l) :
    Cut (line ++ 10 :: stream lines) (shifted line lines) := by
  induction lines generalizing line with
  | nil =>
      have hnewline : Cut ([10] ++ []) [[10]] := Cut.nil.cons (by decide)
      exact hnewline.cons hline
  | cons next lines ih =>
      have hnext := hlines next List.mem_cons_self
      unfold FitsResult at hnext
      have hsize : 1 ≤ (10 :: next).length ∧ (10 :: next).length ≤ 36 := by
        rw [List.length_cons]
        omega
      have htail := ih hsize fun l hl => hlines l (List.mem_cons_of_mem _ hl)
      have hjoin : line ++ 10 :: stream (next :: lines) =
          line ++ (10 :: next ++ 10 :: stream lines) := by
        simp [stream]
      rw [hjoin]
      exact htail.cons hline

theorem shifted_cons (line : Bytes) (lines : List Bytes) :
    ∃ tail, shifted line lines = line :: tail ∧ ∀ buffer ∈ tail, ∃ rest, buffer = 10 :: rest := by
  induction lines generalizing line with
  | nil => exact ⟨[[10]], rfl, fun b hb => ⟨[], List.mem_singleton.mp hb⟩⟩
  | cons next lines ih =>
      obtain ⟨tail, htail, hnewlines⟩ := ih (10 :: next)
      refine ⟨(10 :: next) :: tail, by rw [shifted, htail], ?_⟩
      intro b hb
      rcases List.mem_cons.mp hb with rfl | hb
      · exact ⟨next, rfl⟩
      · exact hnewlines b hb

theorem fits_line {e : Entry} (he : e.Valid) : FitsResult e.line := by
  have hne : 1 ≤ (Decimal.printInt e.cmd_type).length :=
    List.length_pos_iff.mpr (Decimal.printInt_ne_nil _)
  refine ⟨?_, commandText_length he.cmd_type he.param1 he.param2⟩
  rw [Entry.line, commandText, List.length_append]
  omega

theorem fits_reply {r : Int} (hr : IsInt r) : FitsResult (replyText r) :=
  ⟨List.length_pos_iff.mpr (Decimal.printInt_ne_nil _),
    Nat.le_trans (printInt_length_of_isInt hr) (by decide)⟩

theorem fits_dialogue {es : List Entry} (hes : Dialogue es) {line : Bytes}
    (hline : line ∈ dialogueLines es) : FitsResult line := by
  induction es with
  | nil => cases hline
  | cons e es ih =>
      obtain ⟨he, -, hes⟩ := hes
      rw [dialogueLines, List.flatMap_cons, List.mem_append] at hline
      rcases hline with hline | hline
      · unfold Entry.lines at hline
        cases hreply : e.reply with
        | none =>
            rw [hreply, List.mem_singleton] at hline
            exact hline ▸ fits_line he
        | some r =>
            simp only [hreply, List.mem_cons, List.not_mem_nil, or_false] at hline
            rcases hline with rfl | rfl
            · exact fits_line he
            · exact fits_reply (he.reply r hreply).2
      · exact ih hes hline

/-! ## Cuts that are misread -/

/-- Newlines that arrive late swallow every line after the first. -/
theorem recognise_shifted_command {e : Entry} (he : e.Valid) (hexit : e.cmd_type ≠ 0)
    (hasks : e.asks = false) (lines : List Bytes) :
    recognise none (shifted e.line lines) = [.push e.command] := by
  obtain ⟨tail, htail, hnewlines⟩ := shifted_cons e.line lines
  rw [htail, recognise_command tail (parse_line he []).2, if_neg hexit, hasks,
    recognise_newlines hnewlines]
  rfl

theorem recognise_shifted_reply {e : Entry} (he : e.Valid) (hasks : e.asks = true) {r : Int}
    (hr : IsInt r) (lines : List Bytes) :
    recognise none (shifted e.line (replyText r :: lines)) =
      [.push { e.command with param1 := r }] := by
  obtain ⟨tail, htail, hnewlines⟩ := shifted_cons (10 :: replyText r) lines
  rw [shifted, htail, recognise_command _ (parse_line he []).2, if_neg (asks_ne_exit hasks),
    if_pos hasks, recognise, recognise_newlines hnewlines, replyReceived, atoi_newline,
    (atoi_reply hr []).2]

/-- A newline by itself answers the prompt with a zero. -/
theorem recognise_newline_reply {e : Entry} (he : e.Valid) (hasks : e.asks = true)
    (buffers : List Bytes) :
    recognise none (e.line :: [10] :: buffers) =
      .push { e.command with param1 := 0 } :: recognise none buffers := by
  rw [recognise_command _ (parse_line he []).2, if_neg (asks_ne_exit hasks), if_pos hasks]
  rfl

/-- Of a line that breaks off after its second field the rest is taken for
another command. -/
theorem recognise_broken_line {e : Entry} (he : e.Valid) (hexit : e.cmd_type ≠ 0)
    (hasks : e.asks = false) (buffers : List Bytes) :
    recognise none
        ((Decimal.printInt e.cmd_type ++ 32 :: Decimal.printInt e.param1) :: buffers) =
      .push { e.command with param2 := 0 } :: recognise none buffers := by
  let broken : Entry := { e with param2 := 0 }
  have hparse : parseCommand (stripNewline
      (Decimal.printInt e.cmd_type ++ 32 :: Decimal.printInt e.param1)) = some broken.command := by
    have hline : ∀ b ∈ Decimal.printInt e.cmd_type ++ 32 :: Decimal.printInt e.param1,
        inLine b = true := by
      intro b hb
      rcases List.mem_append.mp hb with hb | hb
      · exact inLine_printInt hb
      · rcases List.mem_cons.mp hb with rfl | hb
        · rfl
        · exact inLine_printInt hb
    rw [(stripNewline_line hline []).2]
    exact parseCommand_two_fields he.cmd_type he.param1
  have hbroken : broken.asks = false := hasks
  rw [recognise_command buffers hparse, if_neg hexit, hbroken]
  rfl

theorem recognise_zero_parts (buffers : List Bytes) :
    recognise none ((32 :: (Decimal.printInt 0 ++ [10])) :: buffers) = [.exit] ∧
      recognise none ((replyText 0 ++ [10]) :: buffers) = [.exit] := by
  have hparts : commandReceived (32 :: (Decimal.printInt 0 ++ [10])) = .exit ∧
      commandReceived (replyText 0 ++ [10]) = .exit := by decide
  constructor
  · rw [recognise, hparts.1]
  · rw [recognise, hparts.2]

theorem stream_cons (line : Bytes) (lines : List Bytes) :
    stream (line :: lines) = line ++ 10 :: stream lines := by
  simp [stream]

theorem dialogueLines_command {e : Entry} (hreply : e.reply = none) (es : List Entry) :
    dialogueLines (e :: es) = e.line :: dialogueLines es := by
  simp [dialogueLines, Entry.lines, hreply]

theorem dialogueLines_reply {e : Entry} {r : Int} (hreply : e.reply = some r) (es : List Entry) :
    dialogueLines (e :: es) = e.line :: replyText r :: dialogueLines es := by
  simp [dialogueLines, Entry.lines, hreply]

theorem cut_broken_line {e : Entry} (he : e.Valid) {bytes : Bytes} {rest : List Bytes}
    (hrest : Cut bytes rest) : Cut (e.line ++ 10 :: bytes)
      ((Decimal.printInt e.cmd_type ++ 32 :: Decimal.printInt e.param1) ::
        (32 :: (Decimal.printInt e.param2 ++ [10])) :: rest) := by
  have hlt := printInt_length_of_isInt he.cmd_type
  have hla := printInt_length_of_isInt he.param1
  have hlb := printInt_length_of_isInt he.param2
  have hjoin : e.line ++ 10 :: bytes =
      (Decimal.printInt e.cmd_type ++ 32 :: Decimal.printInt e.param1) ++
        (32 :: (Decimal.printInt e.param2 ++ [10]) ++ bytes) := by
    simp [Entry.line, commandText]
  rw [hjoin]
  refine (hrest.cons ?_).cons ?_
  · simp only [List.length_cons, List.length_append, List.length_nil]
    omega
  · simp only [List.length_cons, List.length_append]
    omega

theorem misread_command {e : Entry} {es : List Entry} (hes : Dialogue (e :: es))
    (hexit : e.cmd_type ≠ 0) (hasks : e.asks = false) :
    ∃ chunks, Cut (stream (dialogueLines (e :: es))) chunks ∧
      recognise none chunks ≠ denoted (e :: es) := by
  obtain ⟨he, -, hes⟩ := hes
  have hreply : e.reply = none := by
    cases hreply : e.reply with
    | none => rfl
    | some r => exact absurd (he.reply r hreply).1 (by simp [hasks])
  have hdenoted : denoted (e :: es) = .push e.command :: denoted es := by
    rw [denoted, if_neg hexit, hasks]
    rfl
  have hline := fits_line he
  have hfits : ∀ l ∈ dialogueLines es, FitsResult l := fun l hl => fits_dialogue hes hl
  rw [dialogueLines_command hreply, stream_cons, hdenoted]
  by_cases hmore : denoted es = []
  · have hcut := cut_broken_line he (cut_wholeLines hfits)
    refine ⟨_, hcut, ?_⟩
    rw [recognise_broken_line he hexit hasks, hmore]
    by_cases hzero : e.param2 = 0
    · rw [hzero, (recognise_zero_parts _).1]
      simp
    · intro heq
      have hhead := (List.cons.inj heq).1
      simp only [Recognised.push.injEq, Entry.command, Command.mk.injEq] at hhead
      exact hzero hhead.2.2.symm
  · refine ⟨_, cut_shifted ⟨hline.1, by have := hline.2; omega⟩ hfits, ?_⟩
    rw [recognise_shifted_command he hexit hasks]
    simpa using hmore

theorem misread_reply {e : Entry} {es : List Entry} (hes : Dialogue (e :: es))
    (hasks : e.asks = true) :
    ∃ chunks, Cut (stream (dialogueLines (e :: es))) chunks ∧
      recognise none chunks ≠ denoted (e :: es) := by
  obtain ⟨he, hlast, hes⟩ := hes
  have hline := fits_line he
  have hfits : ∀ l ∈ dialogueLines es, FitsResult l := fun l hl => fits_dialogue hes hl
  have hsize : 1 ≤ e.line.length ∧ e.line.length ≤ 36 := ⟨hline.1, Nat.le_succ_of_le hline.2⟩
  cases hreply : e.reply with
  | none =>
      rw [dialogueLines_command hreply, stream_cons]
      have hempty : es = [] := hlast hasks hreply
      subst hempty
      refine ⟨_, cut_shifted hsize hfits, ?_⟩
      rw [denoted, if_neg (asks_ne_exit hasks), if_pos hasks, hreply]
      rw [show shifted e.line (dialogueLines []) = e.line :: [10] :: [] from rfl,
        recognise_newline_reply he hasks]
      simp
  | some r =>
      have hr := (he.reply r hreply).2
      have hdenoted : denoted (e :: es) = .push { e.command with param1 := r } :: denoted es := by
        rw [denoted, if_neg (asks_ne_exit hasks), if_pos hasks, hreply]
      rw [dialogueLines_reply hreply, hdenoted]
      have hfits' : ∀ l ∈ replyText r :: dialogueLines es, FitsResult l := by
        intro l hl
        rcases List.mem_cons.mp hl with rfl | hl
        · exact fits_reply hr
        · exact hfits l hl
      by_cases hmore : denoted es = []
      · have hcut : Cut (e.line ++ ([10] ++ stream (replyText r :: dialogueLines es)))
            (e.line :: [10] :: wholeLines (replyText r :: dialogueLines es)) :=
          ((cut_wholeLines hfits').cons (by decide)).cons hsize
        refine ⟨_, by rw [stream_cons]; exact hcut, ?_⟩
        rw [recognise_newline_reply he hasks, hmore]
        by_cases hzero : r = 0
        · rw [hzero, wholeLines, List.map_cons, (recognise_zero_parts _).2]
          simp
        · intro heq
          have hhead := (List.cons.inj heq).1
          simp only [Recognised.push.injEq, Command.mk.injEq] at hhead
          exact hzero hhead.2.1.symm
      · refine ⟨_, by rw [stream_cons]; exact cut_shifted hsize hfits', ?_⟩
        rw [recognise_shifted_reply he hasks hr]
        simpa using hmore

/-! ## EXIT first -/

theorem stripNewline_cons {b : UInt8} (hb : inLine b = true) (bs : Bytes) :
    stripNewline (b :: bs) = b :: stripNewline bs := by
  have hparts := inLine_parts hb
  simp [stripNewline, cString, hparts.1, hparts.2.1, hparts.2.2]

/-- However an EXIT line is cut, its first part is EXIT. -/
theorem commandReceived_exit_part {part more : Bytes} {bytes : Bytes} (hpart : part ≠ [])
    (hjoin : part ++ more = 48 :: 32 :: bytes) : commandReceived part = .exit := by
  cases part with
  | nil => exact absurd rfl hpart
  | cons b bs =>
      have hb := (List.cons.inj hjoin).1
      have hbs := (List.cons.inj hjoin).2
      have hstops : Decimal.Stops (stripNewline bs) := by
        cases bs with
        | nil => exact stops_nil
        | cons c cs =>
            rw [(List.cons.inj hbs).1, stripNewline_cons (by decide)]
            exact stops_cons (by decide) _
      obtain ⟨param1, param2, hparse⟩ := parseCommand_zero hstops
      rw [hb, commandReceived, stripNewline_cons (by decide), hparse]
      rfl

theorem exit_part {e : Entry} {es : List Entry} (hexit : e.cmd_type = 0) {chunks : List Bytes}
    (hcut : Cut (stream (dialogueLines (e :: es))) chunks) :
    ∃ part parts more bytes, chunks = part :: parts ∧ part ≠ [] ∧
      part ++ more = 48 :: 32 :: bytes := by
  have hstream : ∃ bytes, stream (dialogueLines (e :: es)) = 48 :: 32 :: bytes := by
    have hzero : Decimal.printInt 0 = [48] := rfl
    cases hreply : e.reply with
    | none =>
        rw [dialogueLines_command hreply, stream_cons, Entry.line, commandText, hexit, hzero]
        exact ⟨_, rfl⟩
    | some r =>
        rw [dialogueLines_reply hreply, stream_cons, Entry.line, commandText, hexit, hzero]
        exact ⟨_, rfl⟩
  obtain ⟨bytes, hbytes⟩ := hstream
  have hjoined := hcut.joined
  rw [hbytes] at hjoined
  cases chunks with
  | nil => cases hjoined
  | cons part parts =>
      refine ⟨part, parts, _, bytes, rfl, ?_, hjoined⟩
      rintro rfl
      exact absurd (hcut.sizes [] List.mem_cons_self).1 (by decide)

theorem recognise_exit_first {e : Entry} {es : List Entry} (hexit : e.cmd_type = 0)
    {chunks : List Bytes} (hcut : Cut (stream (dialogueLines (e :: es))) chunks) :
    recognise none chunks = denoted (e :: es) := by
  obtain ⟨part, parts, more, bytes, rfl, hpart, hjoin⟩ := exit_part hexit hcut
  rw [recognise, commandReceived_exit_part hpart hjoin, denoted, if_pos hexit]

/-! ## When the cut does not matter -/

/-- Whether nothing is written, or EXIT before anything else. -/
def startsWithExit : List Entry → Bool
  | [] => true
  | e :: _ => e.cmd_type = 0

theorem recognise_eq_of_startsWithExit {es : List Entry} (h : startsWithExit es = true)
    {chunks : List Bytes} (hcut : Cut (stream (dialogueLines es)) chunks) :
    recognise none chunks = denoted es := by
  cases es with
  | nil =>
      cases chunks with
      | nil => rfl
      | cons part parts =>
          have hempty : part ++ parts.flatten = [] := hcut.joined
          have hpart := (hcut.sizes part List.mem_cons_self).1
          rw [(List.append_eq_nil_iff.mp hempty).1] at hpart
          exact absurd hpart (by decide)
  | cons e es => exact recognise_exit_first (of_decide_eq_true h) hcut

theorem startsWithExit_of_independent {es : List Entry} (hes : Dialogue es)
    (h : ∀ chunks, Cut (stream (dialogueLines es)) chunks →
      recognise none chunks = denoted es) : startsWithExit es = true := by
  cases es with
  | nil => rfl
  | cons e es =>
      by_contra hstart
      have hexit : e.cmd_type ≠ 0 := fun hzero => hstart (decide_eq_true hzero)
      have hmisread : ∃ chunks, Cut (stream (dialogueLines (e :: es))) chunks ∧
          recognise none chunks ≠ denoted (e :: es) := by
        cases hasks : e.asks with
        | false => exact misread_command hes hexit hasks
        | true => exact misread_reply hes hasks
      obtain ⟨chunks, hcut, hne⟩ := hmisread
      exact hne (h chunks hcut)

end RsvpControl.Wire
