import RsvpControl.Wire.Format
import RsvpControl.Wire.Segmentation

/-! # The cuts that are read as written

A cut can give the right commands by accident, when a text that is lost and one that is
misread look alike. So the lines are followed by where they begin: the thread reads a
stream as it was written if every line up to EXIT is taken for the command or the reply
it is, and nothing else is. Which cuts are read so is decided by the newlines alone.
-/

namespace RsvpControl.Wire

open RsvpControl.Core Server

/-! ## Where texts and lines begin -/

/-- The white space in front, which `sscanf` and `atoi` skip. -/
def skipped (buffer : Bytes) : Nat := (buffer.takeWhile Decimal.isSpace).length

/-- Where in the stream the texts begin that the thread takes for a command or a reply;
the receives start at `n`. -/
def textStarts : Nat → Option Command → List Bytes → List Nat
  | _, _, [] => []
  | n, none, buffer :: buffers =>
      match commandReceived buffer with
      | .invalid => textStarts (n + buffer.length) none buffers
      | .exit => [n + skipped buffer]
      | .askParameter cmd _ =>
          (n + skipped buffer) :: textStarts (n + buffer.length) (some cmd) buffers
      | .push _ => (n + skipped buffer) :: textStarts (n + buffer.length) none buffers
  | n, some _, buffer :: buffers =>
      (n + skipped buffer) :: textStarts (n + buffer.length) none buffers

/-- Where the lines begin, up to the first EXIT; the first one is at `n`. -/
def lineStarts : Nat → List Entry → List Nat
  | _, [] => []
  | n, e :: es =>
      if e.cmd_type = 0 then [n]
      else
        match e.reply with
        | none => n :: lineStarts (n + e.line.length + 1) es
        | some r =>
            n :: (n + e.line.length + 1) ::
              lineStarts (n + e.line.length + 1 + (replyText r).length + 1) es

/-- The thread recognises the commands the lines denote, each in its own lines: none is
dropped, merged with another or split. -/
structure ReadAsWritten (es : List Entry) (chunks : List Bytes) : Prop where
  commands : recognise none chunks = denoted es
  lines : textStarts 0 none chunks = lineStarts 0 es

/-! ## Where the stream is cut -/

/-- A text arrives whole and by itself; at most its newline comes apart. -/
inductive Arrives (text : Bytes) : List Bytes → Prop
  | whole : Arrives text [text ++ [10]]
  | apart : Arrives text [text, [10]]

/-- A line that is prompted for and its reply. The newline of the line comes with it or
with the reply, for `atoi` skips it; by itself it would be the reply. -/
inductive Prompted (line reply : Bytes) : List Bytes → Prop
  | ended {chunks : List Bytes} (arrives : Arrives reply chunks) :
      Prompted line reply ((line ++ [10]) :: chunks)
  | late {chunks : List Bytes} (arrives : Arrives (10 :: reply) chunks) :
      Prompted line reply (line :: chunks)

/-- Up to the first EXIT every line arrives whole and by itself. -/
inductive Clean : List Entry → List Bytes → Prop
  | nil : Clean [] []
  | exit {e : Entry} {es : List Entry} {chunks : List Bytes} (exits : e.cmd_type = 0) :
      Clean (e :: es) chunks
  | command {e : Entry} {es : List Entry} {chunks rest : List Bytes} (reply : e.reply = none)
      (asks : e.asks = false) (arrives : Arrives e.line chunks) (more : Clean es rest) :
      Clean (e :: es) (chunks ++ rest)
  | unanswered {e : Entry} (reply : e.reply = none) (asks : e.asks = true) :
      Clean [e] [e.line ++ [10]]
  | answered {e : Entry} {es : List Entry} {r : Int} {chunks rest : List Bytes}
      (reply : e.reply = some r) (arrives : Prompted e.line (replyText r) chunks)
      (more : Clean es rest) : Clean (e :: es) (chunks ++ rest)

/-! ## One receive -/

theorem textStarts_cons (n : Nat) (awaiting : Option Command) (buffer : Bytes)
    (buffers : List Bytes) :
    (awaiting = none ∧ commandReceived buffer = .invalid ∧
      textStarts n awaiting (buffer :: buffers) =
        textStarts (n + buffer.length) none buffers) ∨
    (awaiting = none ∧ commandReceived buffer = .exit ∧
      textStarts n awaiting (buffer :: buffers) = [n + skipped buffer]) ∨
    ∃ awaiting', textStarts n awaiting (buffer :: buffers) =
      (n + skipped buffer) :: textStarts (n + buffer.length) awaiting' buffers := by
  cases awaiting with
  | some cmd => exact .inr (.inr ⟨none, rfl⟩)
  | none =>
      cases hreceived : commandReceived buffer with
      | invalid => exact .inl ⟨rfl, rfl, by simp only [textStarts, hreceived]⟩
      | exit => exact .inr (.inl ⟨rfl, rfl, by simp only [textStarts, hreceived]⟩)
      | askParameter cmd prompt =>
          exact .inr (.inr ⟨some cmd, by simp only [textStarts, hreceived]⟩)
      | push cmd => exact .inr (.inr ⟨none, by simp only [textStarts, hreceived]⟩)

theorem textStarts_command {buffer : Bytes} {e : Entry} (n : Nat) (buffers : List Bytes)
    (hparse : parseCommand (stripNewline buffer) = some e.command) :
    textStarts n none (buffer :: buffers) = (n + skipped buffer) ::
      if e.cmd_type = 0 then []
      else textStarts (n + buffer.length) (if e.asks then some e.command else none) buffers := by
  by_cases hexit : e.cmd_type = 0
  · have htype : e.command.type = .exit := ofInt_eq_exit.mpr hexit
    have hreceived : commandReceived buffer = .exit := by
      simp only [commandReceived, hparse, if_pos htype]
    simp only [textStarts, hreceived, if_pos hexit]
  · rcases commandReceived_of_parse hparse hexit with
      ⟨hasks, prompt, hreceived⟩ | ⟨hasks, hreceived⟩
    · simp only [textStarts, hreceived, if_neg hexit, hasks, if_true]
    · simp only [textStarts, hreceived, if_neg hexit, hasks, Bool.false_eq_true, if_false]

theorem commandReceived_newline (rest : Bytes) : commandReceived (10 :: rest) = .invalid := by
  rw [commandReceived, stripNewline_newline]
  rfl

theorem textStarts_ge {n : Nat} {awaiting : Option Command} {chunks : List Bytes} {o : Nat}
    (ho : o ∈ textStarts n awaiting chunks) : n ≤ o := by
  induction chunks generalizing n awaiting with
  | nil => cases awaiting <;> cases ho
  | cons chunk chunks ih =>
      rcases textStarts_cons n awaiting chunk chunks with
        ⟨-, -, heq⟩ | ⟨-, -, heq⟩ | ⟨awaiting', heq⟩
      · rw [heq] at ho
        have hlater := ih ho
        omega
      · rw [heq, List.mem_singleton] at ho
        omega
      · rw [heq] at ho
        rcases List.mem_cons.mp ho with rfl | ho
        · omega
        · have hlater := ih ho
          omega

theorem lineStarts_ge {n : Nat} {es : List Entry} {o : Nat} (ho : o ∈ lineStarts n es) :
    n ≤ o := by
  induction es generalizing n with
  | nil => cases ho
  | cons e es ih =>
      rw [lineStarts] at ho
      split at ho
      · rw [List.mem_singleton] at ho
        omega
      · split at ho
        · rcases List.mem_cons.mp ho with rfl | ho
          · omega
          · have hlater := ih ho
            omega
        · rcases List.mem_cons.mp ho with rfl | ho
          · omega
          · rcases List.mem_cons.mp ho with rfl | ho
            · omega
            · have hlater := ih ho
              omega

theorem lineStarts_self (n : Nat) (e : Entry) (es : List Entry) : n ∈ lineStarts n (e :: es) := by
  rw [lineStarts]
  repeat' split
  all_goals exact List.mem_cons_self

/-! ## What a cut inside a line leaves -/

/-- Numbers with single spaces in front of them, or the end of such a text. -/
def spelled : Bytes → Bool
  | [] => false
  | [b] => Decimal.isDigit b
  | b :: c :: bs =>
      (Decimal.isDigit b || b = 32 || (b = 45 && Decimal.isDigit c)) && spelled (c :: bs)

theorem spelled_tail {part rest : Bytes} (h : spelled (part ++ rest) = true) (hrest : rest ≠ []) :
    spelled rest = true := by
  induction part with
  | nil => exact h
  | cons b bs ih =>
      apply ih
      cases hbs : bs ++ rest with
      | nil => exact absurd (List.append_eq_nil_iff.mp hbs).2 hrest
      | cons c cs =>
          rw [List.cons_append, hbs, spelled, Bool.and_eq_true] at h
          exact h.2

theorem spelled_digits {digits : Bytes} (hne : digits ≠ [])
    (hdigits : ∀ b ∈ digits, Decimal.isDigit b = true) : spelled digits = true := by
  induction digits with
  | nil => exact absurd rfl hne
  | cons b bs ih =>
      have hb := hdigits b List.mem_cons_self
      cases bs with
      | nil => exact hb
      | cons c cs =>
          have htail := ih (List.cons_ne_nil c cs) fun d hd => hdigits d (List.mem_cons_of_mem _ hd)
          rw [spelled, hb, htail]
          rfl

theorem spelled_printInt (z : Int) : spelled (Decimal.printInt z) = true := by
  have hnat : ∀ n, ∀ b ∈ Decimal.printNat n, Decimal.isDigit b = true :=
    fun n b hb => Decimal.isDigit_of_mem_printAux hb
  unfold Decimal.printInt
  split
  · have hdigits := spelled_digits (Decimal.printNat_ne_nil z.natAbs) (hnat _)
    cases hprint : Decimal.printNat z.natAbs with
    | nil => exact absurd hprint (Decimal.printNat_ne_nil _)
    | cons c cs =>
        have hc := hnat z.natAbs c (hprint ▸ List.mem_cons_self)
        rw [hprint] at hdigits
        rw [spelled, hdigits, hc]
        rfl
  · exact spelled_digits (Decimal.printNat_ne_nil _) (hnat _)

theorem spelled_append {number rest : Bytes} (hnumber : spelled number = true)
    (hrest : spelled rest = true) : spelled (number ++ 32 :: rest) = true := by
  have hspace : spelled (32 :: rest) = true := by
    cases rest with
    | nil => cases hrest
    | cons c cs =>
        rw [spelled, hrest]
        simp
  induction number with
  | nil => cases hnumber
  | cons b bs ih =>
      cases bs with
      | nil =>
          have hb : Decimal.isDigit b = true := hnumber
          rw [List.singleton_append, spelled, hspace, hb]
          rfl
      | cons c cs =>
          rw [spelled, Bool.and_eq_true] at hnumber
          have htail := ih hnumber.2
          rw [List.cons_append] at htail
          rw [List.cons_append, List.cons_append, spelled, hnumber.1, htail]
          rfl

theorem spelled_reply (r : Int) : spelled (replyText r) = true := spelled_printInt r

theorem spelled_line (e : Entry) : spelled e.line = true :=
  spelled_append (spelled_printInt _) (spelled_append (spelled_printInt _) (spelled_printInt _))

theorem scanInt_digit {b : UInt8} (hb : Decimal.isDigit b = true) (bs : Bytes) :
    (Decimal.scanInt (b :: bs)).isSome = true := by
  have hsign := Decimal.ne_sign_of_isDigit hb
  simp [Decimal.scanInt, Decimal.skipSpace, Decimal.isSpace_of_isDigit hb, Decimal.scanSign,
    hsign.1, hsign.2, Decimal.scanNat, hb]

theorem scanInt_minus {b : UInt8} (hb : Decimal.isDigit b = true) (bs : Bytes) :
    (Decimal.scanInt (45 :: b :: bs)).isSome = true := by
  have hspace : Decimal.isSpace 45 = false := rfl
  simp [Decimal.scanInt, Decimal.skipSpace, hspace, Decimal.scanSign, Decimal.scanNat, hb]

/-- However much of a line is lost, the end of it begins with a number. -/
theorem scanInt_spelled {text : Bytes} (h : spelled text = true) :
    (Decimal.scanInt text).isSome = true ∧
      (text.takeWhile Decimal.isSpace).length < text.length := by
  induction text with
  | nil => cases h
  | cons b bs ih =>
      have hdigit : Decimal.isDigit b = true → (Decimal.scanInt (b :: bs)).isSome = true ∧
          ((b :: bs).takeWhile Decimal.isSpace).length < (b :: bs).length := by
        intro hb
        refine ⟨scanInt_digit hb bs, ?_⟩
        simp [Decimal.isSpace_of_isDigit hb]
      cases bs with
      | nil => exact hdigit h
      | cons c cs =>
          rw [spelled, Bool.and_eq_true, Bool.or_eq_true, Bool.or_eq_true, Bool.and_eq_true,
            decide_eq_true_eq, decide_eq_true_eq] at h
          obtain ⟨(hb | rfl) | ⟨rfl, hc⟩, htail⟩ := h
          · exact hdigit hb
          · have hspace : Decimal.isSpace 32 = true := rfl
            obtain ⟨hscan, hlength⟩ := ih htail
            refine ⟨by rw [Decimal.scanInt_space hspace]; exact hscan, ?_⟩
            rw [List.takeWhile_cons_of_pos hspace, List.length_cons, List.length_cons]
            omega
          · exact ⟨scanInt_minus hc cs, by simp [show Decimal.isSpace 45 = false from rfl]⟩

theorem spelled_inLine {text : Bytes} (h : spelled text = true) :
    ∀ b ∈ text, inLine b = true := by
  induction text with
  | nil => cases h
  | cons b bs ih =>
      cases bs with
      | nil =>
          intro c hc
          rw [List.mem_singleton.mp hc]
          exact inLine_digit h
      | cons c cs =>
          rw [spelled, Bool.and_eq_true, Bool.or_eq_true, Bool.or_eq_true, Bool.and_eq_true,
            decide_eq_true_eq, decide_eq_true_eq] at h
          intro d hd
          rcases List.mem_cons.mp hd with rfl | hd
          · obtain ⟨(hb | rfl) | ⟨rfl, -⟩, -⟩ := h
            · exact inLine_digit hb
            · rfl
            · rfl
          · exact ih h.2 d hd

/-- A receive that ends inside a text, with it, or behind its newline. -/
theorem cut_text {text bytes chunk later : Bytes} (h : chunk ++ later = text ++ 10 :: bytes) :
    (∃ rest, rest ≠ [] ∧ text = chunk ++ rest ∧ later = rest ++ 10 :: bytes) ∨
    (chunk = text ∧ later = 10 :: bytes) ∨
    ∃ more, chunk = text ++ 10 :: more ∧ more ++ later = bytes := by
  rcases List.append_eq_append_iff.mp h with ⟨rest, htext, hlater⟩ | ⟨more, hchunk, hbytes⟩
  · by_cases hrest : rest = []
    · subst hrest
      exact .inr (.inl ⟨by rw [htext, List.append_nil], hlater⟩)
    · exact .inl ⟨rest, hrest, htext, hlater⟩
  · cases more with
    | nil => exact .inr (.inl ⟨by rw [hchunk, List.append_nil], hbytes.symm⟩)
    | cons b more =>
        obtain ⟨rfl, hmore⟩ := List.cons.inj hbytes
        exact .inr (.inr ⟨more, hchunk, hmore.symm⟩)

theorem skipped_lt {text bytes chunk later : Bytes} (htext : spelled text = true)
    (h : chunk ++ later = text ++ 10 :: bytes) : skipped chunk < text.length := by
  have hwhite := (scanInt_spelled htext).2
  have hchunk : skipped chunk ≤ ((chunk ++ later).takeWhile Decimal.isSpace).length := by
    rw [List.takeWhile_append, skipped]
    split
    · rw [List.length_append]
      omega
    · exact Nat.le_refl _
  have htake : (text ++ 10 :: bytes).takeWhile Decimal.isSpace =
      text.takeWhile Decimal.isSpace := by
    rw [List.takeWhile_append, if_neg (by omega)]
  rw [h, htake] at hchunk
  omega

/-- What is left of a line is taken for another text, begun inside that line. -/
theorem textStarts_inside {text bytes : Bytes} {chunks : List Bytes} (n : Nat)
    (awaiting : Option Command) (htext : spelled text = true)
    (hjoin : chunks.flatten = text ++ 10 :: bytes) :
    ∃ o ∈ textStarts n awaiting chunks, o < n + text.length := by
  induction chunks generalizing n awaiting text with
  | nil =>
      rw [List.flatten_nil] at hjoin
      exact absurd hjoin.symm (by simp)
  | cons chunk chunks ih =>
      rw [List.flatten_cons] at hjoin
      have hskipped := skipped_lt htext hjoin
      rcases textStarts_cons n awaiting chunk chunks with
        ⟨-, hinvalid, heq⟩ | ⟨-, -, heq⟩ | ⟨awaiting', heq⟩
      · rw [heq]
        rcases cut_text hjoin with ⟨rest, hrest, rfl, hlater⟩ | hwhole
        · obtain ⟨o, ho, hlt⟩ := ih _ _ (spelled_tail htext hrest) hlater
          exact ⟨o, ho, by rw [List.length_append]; omega⟩
        · -- a receive that holds all of it is not invalid
          exfalso
          have hstrip := stripNewline_line (spelled_inLine htext)
          have hline : stripNewline chunk = text := by
            rcases hwhole with ⟨rfl, -⟩ | ⟨more, rfl, -⟩
            · exact (hstrip []).2
            · exact (hstrip more).1
          rw [commandReceived_eq_invalid_iff, hline] at hinvalid
          have hsome := parseCommand_isSome text
          rw [hinvalid, ← Decimal.scanInt_isSome_iff, (scanInt_spelled htext).1] at hsome
          cases hsome
      · rw [heq]
        exact ⟨_, List.mem_singleton_self _, by omega⟩
      · rw [heq]
        exact ⟨_, List.mem_cons_self, by omega⟩

/-! ## Lines of a dialogue -/

theorem lineStarts_command {e : Entry} (n : Nat) (es : List Entry) (hexit : e.cmd_type ≠ 0)
    (hreply : e.reply = none) :
    lineStarts n (e :: es) = n :: lineStarts (n + e.line.length + 1) es := by
  rw [lineStarts, if_neg hexit, hreply]

theorem lineStarts_reply {e : Entry} (n : Nat) (es : List Entry) (hexit : e.cmd_type ≠ 0) {r : Int}
    (hreply : e.reply = some r) :
    lineStarts n (e :: es) = n :: (n + e.line.length + 1) ::
      lineStarts (n + e.line.length + 1 + (replyText r).length + 1) es := by
  rw [lineStarts, if_neg hexit, hreply]

/-- Nothing of the next line comes with a text, or the beginning of that line is lost. -/
theorem nothing_more {es : List Entry} {n : Nat} {chunks : List Bytes} {more : Bytes}
    (hjoin : more ++ chunks.flatten = stream (dialogueLines es))
    (hlines : textStarts (n + more.length) none chunks = lineStarts n es) : more = [] := by
  cases es with
  | nil => exact (List.append_eq_nil_iff.mp hjoin).1
  | cons e es =>
      have hstart := lineStarts_self n e es
      rw [← hlines] at hstart
      have hlater := textStarts_ge hstart
      exact List.eq_nil_of_length_eq_zero (by omega)

/-- After a text has been received whole the next line starts with a receive. -/
theorem arrives_of_text {es : List Entry} {n : Nat} {text chunk : Bytes} {chunks : List Bytes}
    (hne : ∀ c ∈ chunks, c ≠ [])
    (hwhole : (chunk = text ∧ chunks.flatten = 10 :: stream (dialogueLines es)) ∨
      ∃ more, chunk = text ++ 10 :: more ∧ more ++ chunks.flatten = stream (dialogueLines es))
    (hlines : textStarts (n + chunk.length) none chunks = lineStarts (n + text.length + 1) es) :
    ∃ front rest, chunk :: chunks = front ++ rest ∧ Arrives text front ∧
      rest.flatten = stream (dialogueLines es) ∧
      textStarts (n + text.length + 1) none rest = lineStarts (n + text.length + 1) es ∧
      recognise none chunks = recognise none rest := by
  rcases hwhole with ⟨rfl, hflat⟩ | ⟨more, rfl, hflat⟩
  · cases chunks with
    | nil => cases hflat
    | cons newline rest =>
        rw [List.flatten_cons] at hflat
        cases newline with
        | nil => exact absurd rfl (hne [] List.mem_cons_self)
        | cons b more =>
            obtain ⟨rfl, hmore⟩ := List.cons.inj hflat
            simp only [textStarts, commandReceived_newline, List.length_cons] at hlines
            have hnone : more = [] := nothing_more hmore (by
              rw [← hlines]
              congr 1
              omega)
            subst hnone
            exact ⟨[chunk, [10]], rest, rfl, .apart, hmore, hlines, rfl⟩
  · rw [List.length_append, List.length_cons] at hlines
    have hnone : more = [] := nothing_more hflat (by
      rw [← hlines]
      congr 1
      omega)
    subst hnone
    exact ⟨[text ++ [10]], chunks, rfl, .whole, hflat, by rw [← hlines]; rfl, rfl⟩

theorem not_broken {n : Nat} {awaiting : Option Command} {text part rest bytes : Bytes}
    {chunks : List Bytes} {starts : List Nat} (htext : spelled text = true) (hrest : rest ≠ [])
    (hsplit : text = part ++ rest) (hjoin : chunks.flatten = rest ++ 10 :: bytes)
    (hlines : textStarts (n + part.length) awaiting chunks = starts)
    (hstarts : ∀ o ∈ starts, n + text.length + 1 ≤ o) : False := by
  have hspelled : spelled rest = true := spelled_tail (hsplit ▸ htext) hrest
  obtain ⟨o, ho, hlt⟩ := textStarts_inside (n + part.length) awaiting hspelled hjoin
  rw [hlines] at ho
  have hlater := hstarts o ho
  rw [hsplit, List.length_append] at hlater
  omega

theorem command_not_broken {e : Entry} {es : List Entry} {n : Nat} {chunk rest bytes : Bytes}
    {chunks : List Bytes} {starts : List Nat} (hexit : e.cmd_type ≠ 0) (hchunk : chunk ≠ [])
    (hrest : rest ≠ []) (hline : e.line = chunk ++ rest)
    (hjoin : chunks.flatten = rest ++ 10 :: bytes)
    (hcommands : recognise none (chunk :: chunks) = denoted (e :: es))
    (hlines : textStarts n none (chunk :: chunks) = n :: starts)
    (hstarts : ∀ o ∈ starts, n + e.line.length + 1 ≤ o) : False := by
  have hlength : 0 < chunk.length := List.length_pos_iff.mpr hchunk
  rcases textStarts_cons n none chunk chunks with
    ⟨-, -, heq⟩ | ⟨-, hreceived, -⟩ | ⟨awaiting, heq⟩
  · have hself : n ∈ textStarts (n + chunk.length) none chunks := by
      rw [← heq, hlines]
      exact List.mem_cons_self
    have hlater := textStarts_ge hself
    omega
  · simp only [recognise, hreceived, denoted, if_neg hexit] at hcommands
    repeat' split at hcommands
    all_goals cases hcommands
  · rw [heq] at hlines
    exact not_broken (spelled_line e) hrest hline hjoin (List.cons.inj hlines).2 hstarts

/-! ## From the reading to the cut -/

theorem parse_whole {e : Entry} (he : e.Valid) {chunk : Bytes} {p : Prop} {q : Bytes → Prop}
    (hwhole : (chunk = e.line ∧ p) ∨ ∃ more, chunk = e.line ++ 10 :: more ∧ q more) :
    parseCommand (stripNewline chunk) = some e.command := by
  rcases hwhole with ⟨rfl, -⟩ | ⟨more, rfl, -⟩
  · exact (parse_line he []).2
  · exact (parse_line he more).1

theorem clean_unanswered {e : Entry} {chunk : Bytes} {chunks : List Bytes}
    (hreply : e.reply = none) (hasks : e.asks = true)
    (hcommands : recognise (some e.command) chunks = [])
    (hwhole : (chunk = e.line ∧ chunks.flatten = [10]) ∨
      ∃ more, chunk = e.line ++ 10 :: more ∧ more ++ chunks.flatten = []) :
    Clean [e] (chunk :: chunks) := by
  cases chunks with
  | cons reply chunks => cases hcommands
  | nil =>
      rcases hwhole with ⟨-, hflat⟩ | ⟨more, rfl, hflat⟩
      · cases hflat
      · rw [List.flatten_nil, List.append_nil] at hflat
        subst hflat
        exact .unanswered hreply hasks

theorem starts_newline {text chunk later : Bytes} (hjoin : chunk ++ later = 10 :: text)
    (hne : chunk ≠ []) : ∃ part, chunk = [10] ++ part := by
  cases chunk with
  | nil => exact absurd rfl hne
  | cons b part => exact ⟨part, by rw [(List.cons.inj hjoin).1]; rfl⟩

/-- After its prompt a reply is received whole, and its line ends there. -/
theorem prompted_of_read {es : List Entry} {n m start : Nat} {cmd : Command} {r : Int}
    {chunks : List Bytes} (front text : Bytes) (hne : ∀ c ∈ chunks, c ≠ [])
    (htext : text = front ++ replyText r)
    (hjoin : chunks.flatten = text ++ 10 :: stream (dialogueLines es))
    (hpart : ∀ chunk later, chunk ++ later = text ++ 10 :: stream (dialogueLines es) →
      chunk ≠ [] → ∃ part, chunk = front ++ part)
    (hcommands : recognise (some cmd) chunks = .push { cmd with param1 := r } :: denoted es)
    (hlines : textStarts n (some cmd) chunks = start :: lineStarts m es)
    (hm : m = n + text.length + 1) :
    ∃ arrived rest, chunks = arrived ++ rest ∧ Arrives text arrived ∧
      rest.flatten = stream (dialogueLines es) ∧ textStarts m none rest = lineStarts m es ∧
      recognise none rest = denoted es := by
  subst hm
  cases chunks with
  | nil => cases hcommands
  | cons chunk chunks =>
      rw [List.flatten_cons] at hjoin
      have htail := (List.cons.inj hlines).2
      rcases cut_text hjoin with ⟨rest, hrest, hsplit, hlater⟩ | hwhole
      · obtain ⟨part, rfl⟩ := hpart chunk _ hjoin (hne chunk List.mem_cons_self)
        rw [htext, List.append_assoc, List.append_cancel_left_eq] at hsplit
        rw [List.length_append, ← Nat.add_assoc] at htail
        refine (not_broken (spelled_reply r) hrest hsplit hlater htail fun o ho => ?_).elim
        have hlater := lineStarts_ge ho
        rw [htext, List.length_append] at hlater
        omega
      · obtain ⟨arrived, rest, hcut, harrives, hflat, hstarts, hsame⟩ :=
          arrives_of_text (fun c hc => hne c (List.mem_cons_of_mem _ hc)) hwhole htail
        have hrecognised : recognise none chunks = denoted es := (List.cons.inj hcommands).2
        exact ⟨arrived, rest, hcut, harrives, hflat, hstarts, hsame ▸ hrecognised⟩

theorem clean_of_read {es : List Entry} (hes : Dialogue es) {n : Nat} {chunks : List Bytes}
    (hne : ∀ c ∈ chunks, c ≠ []) (hjoin : chunks.flatten = stream (dialogueLines es))
    (hcommands : recognise none chunks = denoted es)
    (hlines : textStarts n none chunks = lineStarts n es) : Clean es chunks := by
  induction es generalizing n chunks with
  | nil =>
      cases chunks with
      | nil => exact .nil
      | cons chunk chunks =>
          exact absurd (List.append_eq_nil_iff.mp hjoin).1 (hne chunk List.mem_cons_self)
  | cons e es ih =>
      obtain ⟨he, hlast, hes⟩ := hes
      by_cases hexit : e.cmd_type = 0
      · exact .exit hexit
      cases chunks with
      | nil =>
          have hstart := lineStarts_self n e es
          rw [← hlines] at hstart
          cases hstart
      | cons chunk chunks =>
          have hchunk := hne chunk List.mem_cons_self
          have hne' : ∀ c ∈ chunks, c ≠ [] := fun c hc => hne c (List.mem_cons_of_mem _ hc)
          rw [List.flatten_cons] at hjoin
          cases hreply : e.reply with
          | none =>
              rw [dialogueLines_command hreply, stream_cons] at hjoin
              rw [lineStarts_command n es hexit hreply] at hlines
              rcases cut_text hjoin with ⟨rest, hrest, hline, hlater⟩ | hwhole
              · exact (command_not_broken hexit hchunk hrest hline hlater hcommands hlines
                  fun o ho => lineStarts_ge ho).elim
              have hparse := parse_whole he hwhole
              rw [recognise_command chunks hparse, denoted, if_neg hexit, if_neg hexit,
                hreply] at hcommands
              rw [textStarts_command n chunks hparse, if_neg hexit] at hlines
              cases hasks : e.asks with
              | true =>
                  simp only [hasks, if_true] at hcommands
                  cases hlast hasks hreply
                  exact clean_unanswered hreply hasks hcommands hwhole
              | false =>
                  simp only [hasks, Bool.false_eq_true, if_false] at hcommands hlines
                  obtain ⟨front, rest, hcut, harrives, hflat, hstarts, hsame⟩ :=
                    arrives_of_text hne' hwhole (List.cons.inj hlines).2
                  rw [hcut] at hne ⊢
                  refine .command hreply hasks harrives
                    (ih hes (fun c hc => hne c ?_) hflat ?_ hstarts)
                  · exact List.mem_append_right front hc
                  · rw [← hsame]
                    exact (List.cons.inj hcommands).2
          | some r =>
              have hasks := (he.reply r hreply).1
              rw [dialogueLines_reply hreply, stream_cons, stream_cons] at hjoin
              rw [lineStarts_reply n es hexit hreply] at hlines
              rcases cut_text hjoin with ⟨rest, hrest, hline, hlater⟩ | hwhole
              · refine (command_not_broken hexit hchunk hrest hline hlater hcommands hlines
                  fun o ho => ?_).elim
                rcases List.mem_cons.mp ho with rfl | ho
                · exact Nat.le_refl _
                · have hlater := lineStarts_ge ho
                  omega
              have hparse := parse_whole he hwhole
              rw [recognise_command chunks hparse, denoted, if_neg hexit, if_neg hexit,
                if_pos hasks, if_pos hasks, hreply] at hcommands
              rw [textStarts_command n chunks hparse, if_neg hexit, if_pos hasks] at hlines
              have hread := (List.cons.inj hlines).2
              rcases hwhole with ⟨rfl, hflat⟩ | ⟨more, rfl, hflat⟩
              · obtain ⟨arrived, rest, rfl, harrives, hrest, hstarts, hdenoted⟩ :=
                  prompted_of_read [10] (10 :: replyText r) hne' rfl hflat
                    (fun _ _ => starts_newline) hcommands hread (by rw [List.length_cons]; omega)
                exact .answered hreply (.late harrives)
                  (ih hes (fun c hc => hne' c (List.mem_append_right _ hc)) hrest hdenoted hstarts)
              · -- the reply begins with a receive, or its beginning is lost
                have hstart : n + e.line.length + 1 ∈
                    textStarts (n + (e.line ++ 10 :: more).length) (some e.command) chunks :=
                  hread ▸ List.mem_cons_self
                have hlater := textStarts_ge hstart
                rw [List.length_append, List.length_cons] at hlater
                cases List.eq_nil_of_length_eq_zero (l := more) (by omega)
                obtain ⟨arrived, rest, rfl, harrives, hrest, hstarts, hdenoted⟩ :=
                  prompted_of_read [] (replyText r) hne' rfl hflat
                    (fun chunk _ _ _ => ⟨chunk, rfl⟩) hcommands hread
                    (by rw [List.length_append, List.length_singleton]; omega)
                exact .answered hreply (.ended harrives)
                  (ih hes (fun c hc => hne' c (List.mem_append_right _ hc)) hrest hdenoted hstarts)

/-! ## From the cut to the reading -/

theorem skipped_solid {z : Int} (rest : Bytes) : skipped (Decimal.printInt z ++ rest) = 0 := by
  cases hprint : Decimal.printInt z with
  | nil => exact absurd hprint (Decimal.printInt_ne_nil z)
  | cons b bs =>
      have hspace : Decimal.isSpace b = false := by
        rcases Decimal.isDigit_of_mem_printInt (hprint ▸ List.mem_cons_self) with hb | rfl
        · exact Decimal.isSpace_of_isDigit hb
        · rfl
      simp [skipped, hspace]

theorem skipped_line (e : Entry) (rest : Bytes) : skipped (e.line ++ rest) = 0 := by
  rw [Entry.line, commandText, List.append_assoc]
  exact skipped_solid _

theorem skipped_newline (text : Bytes) : skipped (10 :: text) = skipped text + 1 := by
  rw [skipped, List.takeWhile_cons_of_pos newline_isSpace, List.length_cons, skipped]

theorem Arrives.flatten {text : Bytes} {front : List Bytes} (h : Arrives text front) :
    front.flatten = text ++ [10] := by
  cases h with
  | whole => exact List.append_nil _
  | apart => rfl

theorem Prompted.flatten {line reply : Bytes} {front : List Bytes} (h : Prompted line reply front) :
    front.flatten = line ++ 10 :: (reply ++ [10]) := by
  cases h with
  | ended arrives => rw [List.flatten_cons, arrives.flatten, List.append_assoc]; rfl
  | late arrives => rw [List.flatten_cons, arrives.flatten]; rfl

theorem Cut.tail {more : Bytes} {front rest : List Bytes} (bytes : Bytes)
    (h : Cut (bytes ++ more) (front ++ rest)) (hfront : front.flatten = bytes) : Cut more rest where
  joined := by
    have hjoined := h.joined
    rwa [List.flatten_append, hfront, List.append_cancel_left_eq] at hjoined
  sizes chunk hchunk := h.sizes chunk (List.mem_append_right front hchunk)

theorem read_command {e : Entry} {front : List Bytes} (he : e.Valid) (hasks : e.asks = false)
    (harrives : Arrives e.line front) (n : Nat) (rest : List Bytes) :
    recognise none (front ++ rest) =
        (if e.cmd_type = 0 then [.exit] else .push e.command :: recognise none rest) ∧
      textStarts n none (front ++ rest) =
        n :: if e.cmd_type = 0 then [] else textStarts (n + e.line.length + 1) none rest := by
  cases harrives with
  | whole =>
      rw [List.singleton_append, recognise_command rest (parse_line he []).1,
        textStarts_command n rest (parse_line he []).1, skipped_line, hasks]
      rw [List.length_append]
      exact ⟨rfl, rfl⟩
  | apart =>
      have hskipped := skipped_line e []
      rw [List.append_nil] at hskipped
      rw [List.cons_append, recognise_command _ (parse_line he []).2,
        textStarts_command n _ (parse_line he []).2, hskipped, hasks]
      exact ⟨rfl, rfl⟩

theorem read_reply {r : Int} {front : List Bytes} {k : Nat} (text : Bytes) (cmd : Command)
    (hvalue : atoi (text ++ [10]) = r ∧ atoi text = r)
    (hskipped : skipped (text ++ [10]) = k ∧ skipped text = k) (harrives : Arrives text front)
    (n : Nat) (rest : List Bytes) :
    recognise (some cmd) (front ++ rest) =
        .push { cmd with param1 := r } :: recognise none rest ∧
      textStarts n (some cmd) (front ++ rest) =
        (n + k) :: textStarts (n + text.length + 1) none rest := by
  cases harrives with
  | whole =>
      rw [List.singleton_append, recognise, replyReceived, hvalue.1, textStarts, hskipped.1]
      rw [List.length_append]
      exact ⟨rfl, rfl⟩
  | apart =>
      rw [List.cons_append, recognise, replyReceived, hvalue.2, textStarts, hskipped.2]
      exact ⟨rfl, rfl⟩

theorem read_prompted {e : Entry} {r : Int} {front : List Bytes} (he : e.Valid)
    (hreply : e.reply = some r) (hprompted : Prompted e.line (replyText r) front) (n : Nat)
    (rest : List Bytes) :
    recognise none (front ++ rest) =
        .push { e.command with param1 := r } :: recognise none rest ∧
      textStarts n none (front ++ rest) = n :: (n + e.line.length + 1) ::
        textStarts (n + e.line.length + 1 + (replyText r).length + 1) none rest := by
  obtain ⟨hasks, hr⟩ := he.reply r hreply
  have hexit := asks_ne_exit hasks
  have hvalue := atoi_reply hr []
  have hsolid : skipped (replyText r ++ [10]) = 0 ∧ skipped (replyText r) = 0 := by
    have hempty := skipped_solid (z := r) []
    rw [List.append_nil] at hempty
    exact ⟨skipped_solid [10], hempty⟩
  cases hprompted with
  | ended harrives =>
      have hread := read_reply (replyText r) e.command hvalue hsolid harrives
        (n + e.line.length + 1) rest
      rw [List.cons_append, recognise_command _ (parse_line he []).1,
        textStarts_command n _ (parse_line he []).1, skipped_line, if_neg hexit, if_neg hexit,
        if_pos hasks, if_pos hasks, hread.1]
      refine ⟨rfl, ?_⟩
      rw [List.length_append, List.length_singleton, ← Nat.add_assoc, hread.2]
      rfl
  | late harrives =>
      have hskipped := skipped_line e []
      rw [List.append_nil] at hskipped
      have hread := read_reply (10 :: replyText r) e.command
        ⟨(atoi_newline _).trans hvalue.1, (atoi_newline _).trans hvalue.2⟩
        ⟨by rw [List.cons_append, skipped_newline, hsolid.1], by rw [skipped_newline, hsolid.2]⟩
        harrives (n + e.line.length) rest
      rw [List.cons_append, recognise_command _ (parse_line he []).2,
        textStarts_command n _ (parse_line he []).2, hskipped, if_neg hexit, if_neg hexit,
        if_pos hasks, if_pos hasks, hread.1]
      refine ⟨rfl, ?_⟩
      rw [hread.2, List.length_cons]
      congr 3
      omega

theorem textStarts_exit {e : Entry} {es : List Entry} (hexit : e.cmd_type = 0)
    {chunks : List Bytes} (hcut : Cut (stream (dialogueLines (e :: es))) chunks) (n : Nat) :
    textStarts n none chunks = [n] := by
  obtain ⟨part, parts, more, bytes, rfl, hpart, hjoin⟩ := exit_part hexit hcut
  have hskipped : skipped part = 0 := by
    cases part with
    | nil => exact absurd rfl hpart
    | cons b bs => simp [skipped, (List.cons.inj hjoin).1, show Decimal.isSpace 48 = false from rfl]
  simp only [textStarts, commandReceived_exit_part hpart hjoin, hskipped, Nat.add_zero]

theorem read_of_clean {es : List Entry} (hes : Dialogue es) {chunks : List Bytes}
    (hcut : Cut (stream (dialogueLines es)) chunks) (h : Clean es chunks) (n : Nat) :
    recognise none chunks = denoted es ∧ textStarts n none chunks = lineStarts n es := by
  induction h generalizing n with
  | nil => exact ⟨rfl, rfl⟩
  | @exit e es chunks exits =>
      refine ⟨recognise_exit_first exits hcut, ?_⟩
      rw [lineStarts, if_pos exits]
      exact textStarts_exit exits hcut n
  | @command e es front rest reply asks arrives more ih =>
      obtain ⟨he, -, hes⟩ := hes
      obtain ⟨hcommands, hlines⟩ := read_command he asks arrives n rest
      rw [dialogueLines_command reply, stream_cons] at hcut
      have hrest : Cut (stream (dialogueLines es)) rest := by
        refine Cut.tail (e.line ++ [10]) ?_ arrives.flatten
        rwa [List.append_assoc]
      obtain ⟨ihcommands, ihlines⟩ := ih hes hrest (n + e.line.length + 1)
      rw [hcommands, hlines, ihcommands, ihlines, denoted, asks, lineStarts, reply]
      constructor
      · rfl
      · split <;> rfl
  | @unanswered e reply asks =>
      have hparse := (parse_line hes.1 []).1
      rw [recognise_command [] hparse, textStarts_command n [] hparse, skipped_line,
        if_neg (asks_ne_exit asks), if_neg (asks_ne_exit asks), denoted, lineStarts,
        if_neg (asks_ne_exit asks), if_neg (asks_ne_exit asks), reply, asks]
      exact ⟨rfl, rfl⟩
  | @answered e es r front rest reply arrives more ih =>
      obtain ⟨he, -, hes⟩ := hes
      have hasks := (he.reply r reply).1
      obtain ⟨hcommands, hlines⟩ := read_prompted he reply arrives n rest
      rw [dialogueLines_reply reply, stream_cons, stream_cons] at hcut
      have hrest : Cut (stream (dialogueLines es)) rest := by
        refine Cut.tail (e.line ++ 10 :: (replyText r ++ [10])) ?_ arrives.flatten
        rw [List.append_assoc, List.cons_append, List.append_assoc]
        exact hcut
      obtain ⟨ihcommands, ihlines⟩ := ih hes hrest
        (n + e.line.length + 1 + (replyText r).length + 1)
      rw [hcommands, hlines, ihcommands, ihlines, denoted, lineStarts, if_neg (asks_ne_exit hasks),
        if_neg (asks_ne_exit hasks), if_pos hasks, reply]
      exact ⟨rfl, rfl⟩

/-! ## The result -/

/-- What a session acts on is a function of the results of its receives. It is
what the stream denotes for every cut exactly if the stream starts with EXIT or is
empty, and a stream is read as it was written exactly for the clean cuts. -/
theorem recognised_whatever_the_cut_iff (es : List Entry) (hes : Dialogue es) :
    (∀ server_ip s t as, (serverMachine server_ip).Reachable s → s.comm = .start →
      (serverMachine server_ip).exec s as = some t →
      (∀ u ∈ (serverMachine server_ip).states s as, u.comm ≠ .absent) →
      (serverMachine server_ip).observed actedOn s as ++ inHand t.comm =
        recognise none ((serverMachine server_ip).observed received s as)) ∧
    ((∀ chunks, Cut (stream (dialogueLines es)) chunks → recognise none chunks = denoted es) ↔
      startsWithExit es = true) ∧
    (∀ chunks, Cut (stream (dialogueLines es)) chunks →
      (ReadAsWritten es chunks ↔ Clean es chunks)) := by
  refine ⟨fun _ _ _ _ => session_recognises,
    ⟨startsWithExit_of_independent hes, fun h _ hcut => recognise_eq_of_startsWithExit h hcut⟩,
    fun chunks hcut => ⟨fun hread => ?_, fun hclean => ?_⟩⟩
  · have hne : ∀ c ∈ chunks, c ≠ [] :=
      fun c hc => List.length_pos_iff.mp (hcut.sizes c hc).1
    exact clean_of_read hes hne hcut.joined hread.commands hread.lines
  · obtain ⟨hcommands, hlines⟩ := read_of_clean hes hcut hclean 0
    exact ⟨hcommands, hlines⟩

def dimmed : Entry := ⟨3, 0, 0, some 2⟩

def lightsOut : List Entry := [⟨1, 0, 0, none⟩, ⟨0, 0, 0, none⟩, ⟨2, 0, 0, none⟩, ⟨1, 0, 0, none⟩]

theorem dialogue_dimmed : Dialogue [dimmed] := by
  refine ⟨⟨by decide, by decide, by decide, ?_⟩, by decide, trivial⟩
  intro r hr
  cases hr
  decide

theorem dialogue_lightsOut : Dialogue lightsOut := by
  refine ⟨⟨by decide, by decide, by decide, ?_⟩, by decide,
    ⟨by decide, by decide, by decide, ?_⟩, by decide,
    ⟨by decide, by decide, by decide, ?_⟩, by decide,
    ⟨by decide, by decide, by decide, ?_⟩, by decide, trivial⟩
  all_goals
    intro r hr
    cases hr

/-- The newline of the prompted line comes with the reply, and lines behind EXIT are never
received; a line that comes with the one before it is lost. -/
theorem dimmed_and_lightsOut_read :
    ReadAsWritten [dimmed] [text "3 0 0", text "\n2\n"] ∧
      ReadAsWritten lightsOut [text "1 0 0\n", text "0 0 0\n", text "2 0 0\n1 0 0\n"] ∧
      ¬ ReadAsWritten [dimmed] [text "3 0 0\n2\n"] := by
  have hdimmed := (recognised_whatever_the_cut_iff [dimmed] dialogue_dimmed).2.2
  have hlights := (recognised_whatever_the_cut_iff lightsOut dialogue_lightsOut).2.2
  refine ⟨(hdimmed _ ⟨by decide +kernel, by decide +kernel⟩).mpr ?_,
    (hlights _ ⟨by decide +kernel, by decide +kernel⟩).mpr ?_,
    fun hread => ?_⟩
  · have hclean : Clean [dimmed] ([dimmed.line, 10 :: replyText 2 ++ [10]] ++ []) :=
      .answered rfl (.late .whole) .nil
    exact hclean
  · have hexit : Clean lightsOut.tail [text "0 0 0\n", text "2 0 0\n1 0 0\n"] := .exit rfl
    exact .command (e := ⟨1, 0, 0, none⟩) rfl rfl .whole hexit
  · have hcommands := hread.commands
    revert hcommands
    decide

/-- Two lines in one receive: the second is never acted on. -/
theorem merged_lines_lose_command :
    ∃ es chunks s t as, Dialogue es ∧ Cut (stream (dialogueLines es)) chunks ∧
      (serverMachine []).Reachable s ∧ s.comm = .start ∧
      (serverMachine []).exec s as = some t ∧ t.comm = .recvCommand ∧ t.inbox = [] ∧
      (serverMachine []).observed received s as = chunks ∧
      denoted es = [.push ⟨.ledOn, 0, 0⟩, .push ⟨.ledOff, 0, 0⟩] ∧
      (serverMachine []).observed actedOn s as ++ inHand t.comm = [.push ⟨.ledOn, 0, 0⟩] := by
  let as : List Action :=
    commSteps 3 ++ pushLine (text "1 0 0\n2 0 0\n") ++ deviceSteps 7 ++ commSteps 5
  have hrun : (((serverMachine []).exec (System.init []) (mainSteps 4)).any fun s =>
      s.comm = .start ∧ ((serverMachine []).exec s as).any (fun t =>
        t.comm = .recvCommand ∧ t.inbox = [] ∧
        (serverMachine []).observed received s as = [text "1 0 0\n2 0 0\n"] ∧
        (serverMachine []).observed actedOn s as ++ inHand t.comm =
          [.push ⟨.ledOn, 0, 0⟩]) = true) = true := by decide +kernel
  obtain ⟨s, hreach, hs⟩ := Machine.Reachable.exists_of_exec hrun
  obtain ⟨hstart, hany⟩ := of_decide_eq_true hs
  obtain ⟨t, hexec, ht⟩ := (Option.any_eq_true _ _).mp hany
  obtain ⟨hcomm, hinbox, hreceived, hacted⟩ := of_decide_eq_true ht
  refine ⟨[⟨1, 0, 0, none⟩, ⟨2, 0, 0, none⟩], _, s, t, as, ?_, ?_, hreach, hstart, hexec, hcomm,
    hinbox, hreceived, rfl, hacted⟩
  · exact ⟨⟨by decide, by decide, by decide, by simp⟩, by decide,
      ⟨by decide, by decide, by decide, by simp⟩, by decide, trivial⟩
  · exact ⟨by decide +kernel, by decide +kernel⟩

end RsvpControl.Wire
