import RsvpControl.Client.Stream

/-! # Texts in the stream

What the server sends between two prompts is calm: neither word the client looks
for occurs, also not across two messages, since no message starts with a byte
that continues a word. A prompt is calm up to its word and after the first byte
of it.
-/

namespace RsvpControl.Client

open RsvpControl.Core Server

/-! ## Calm texts -/

/-- A C string in which neither word occurs. -/
structure Calm (m : Bytes) : Prop where
  words : ∀ kind : PromptKind, ¬ kind.word <:+: m
  nul : 0 ∉ m

/-- It does not start inside a word. -/
def StartsAfresh (m : Bytes) : Prop := ∀ kind : PromptKind, ∀ b ∈ kind.word.tail, m.head? ≠ some b

theorem forall_kind {p : PromptKind → Prop} : (∀ kind, p kind) ↔ p .choice ∧ p .param :=
  ⟨fun h => ⟨h _, h _⟩, fun h kind => by cases kind <;> simp [h]⟩

instance (m : Bytes) : Decidable (Calm m) :=
  decidable_of_iff ((¬ PromptKind.choice.word <:+: m ∧ ¬ PromptKind.param.word <:+: m) ∧ 0 ∉ m)
    ⟨fun h => ⟨forall_kind.mpr h.1, h.2⟩, fun h => ⟨forall_kind.mp h.words, h.nul⟩⟩

instance (m : Bytes) : Decidable (StartsAfresh m) :=
  have (kind : PromptKind) : Decidable (∀ b ∈ kind.word.tail, m.head? ≠ some b) :=
    List.decidableBAll _ _
  decidable_of_iff _ forall_kind.symm

theorem word_ne_nil (kind : PromptKind) : kind.word ≠ [] := by cases kind <;> decide +kernel

/-- No word continues with the first byte of a word. -/
theorem word_starts (kind : PromptKind) : StartsAfresh kind.word := by
  cases kind <;> decide +kernel

theorem startsAfresh_of_head {m : Bytes} {b : UInt8} (hhead : m.head? = some b)
    (hb : b ∉ PromptKind.choice.word.tail ∧ b ∉ PromptKind.param.word.tail) : StartsAfresh m := by
  have hkinds : ∀ kind : PromptKind, b ∉ kind.word.tail := forall_kind.mpr hb
  intro kind c hc hfirst
  rw [hhead] at hfirst
  cases hfirst
  exact hkinds kind hc

theorem Calm.of_part {m part : Bytes} (h : Calm m) (hpart : part <:+: m) : Calm part :=
  ⟨fun kind hword => h.words kind (hword.trans hpart), fun hmem => h.nul (hpart.mem hmem)⟩

theorem not_part_append {word s t : Bytes} (hs : ¬ word <:+: s) (ht : ¬ word <:+: t)
    (hstart : ∀ b ∈ word.tail, t.head? ≠ some b) : ¬ word <:+: s ++ t := by
  intro hword
  rcases part_append hword with hleft | hright | ⟨b, hb, hfirst⟩
  · exact hs hleft
  · exact ht hright
  · exact hstart b hb hfirst

theorem Calm.append {s t : Bytes} (hs : Calm s) (ht : Calm t) (hstart : StartsAfresh t) :
    Calm (s ++ t) := by
  refine ⟨fun kind => not_part_append (hs.words kind) (ht.words kind) (hstart kind), ?_⟩
  intro hmem
  rcases List.mem_append.mp hmem with hmem | hmem
  · exact hs.nul hmem
  · exact ht.nul hmem

theorem calm_nil : Calm [] := by decide +kernel

theorem Plain.words {m : Bytes} (h : Plain m) (kind : PromptKind) : ¬ kind.word <:+: m := by
  intro hword
  cases kind with
  | choice =>
      have hnone := strstr_eq_false h.1 (show ¬ NoPair 116 58 (text "Select:") by decide +kernel)
      have hfound : strstr m (text "Select:") = true := strstr_of_part hword
      rw [hfound] at hnone
      cases hnone
  | param =>
      have hnone := strstr_eq_false h.2 (show ¬ NoPair 69 110 (text "Enter") by decide +kernel)
      have hfound : strstr m (text "Enter") = true := strstr_of_part hword
      rw [hfound] at hnone
      cases hnone

theorem Printed.calm {m : Bytes} (h : Printed m) : Calm m := ⟨h.1.words, h.2⟩

/-! ## What the client does with a buffer -/

theorem cString_eq_self {m : Bytes} (h : 0 ∉ m) : cString m = m := by
  refine List.takeWhile_eq_self_iff.mpr fun b hb => ?_
  simp only [bne_iff_ne]
  exact fun hzero => h (hzero ▸ hb)

theorem strstr_eq_of_not {haystack needle : Bytes} (h : ¬ needle <:+: haystack) :
    strstr haystack needle = false := by
  cases hfound : strstr haystack needle with
  | false => rfl
  | true => exact absurd (part_of_strstr hfound) h

theorem onReceived_calm {m : Bytes} (h : Calm m) : onReceived m = .receive := by
  have hselect := strstr_eq_of_not (h.words .choice)
  have henter := strstr_eq_of_not (h.words .param)
  simp only [PromptKind.word] at hselect henter
  rw [onReceived, cString_eq_self h.nul, hselect, henter]
  rfl

theorem onReceived_word {kind : PromptKind} {m : Bytes} (hnul : 0 ∉ m) (hword : kind.word <:+: m)
    (hother : ∀ other, other ≠ kind → ¬ other.word <:+: m) :
    (onReceived m).reading = some kind := by
  have hfound := strstr_of_part hword
  cases kind with
  | choice =>
      simp only [PromptKind.word] at hfound
      rw [onReceived, cString_eq_self hnul, hfound]
      rfl
  | param =>
      have hnone := strstr_eq_of_not (hother .choice (by decide))
      simp only [PromptKind.word] at hfound hnone
      rw [onReceived, cString_eq_self hnul, hnone, hfound]
      rfl

/-! ## What the server tells -/

/-- The text sent here, the welcome apart. -/
def utterance : CommPc → Option Bytes
  | .sendMenu => some menu
  | .sendPrompt _ prompt => some prompt
  | .sendInvalid => some invalidFormat
  | .sendBye => some disconnecting
  | .sendFull => some queueFull
  | .sendResponse response => some (responseLine response)
  | .sendTimeout => some commandTimeout
  | _ => none

def prompting : CommPc → Bool
  | .sendMenu | .sendPrompt _ _ => true
  | _ => false

theorem responseLine_head (response : CommandResponse) :
    (responseLine response).head? = some 91 := by
  have hlabels : text "[SUCCESS] " = 91 :: (text "[SUCCESS] ").tail ∧
      text "[ERROR] " = 91 :: (text "[ERROR] ").tail := by decide +kernel
  unfold responseLine truncated
  split
  · rw [hlabels.1]
    rfl
  · rw [hlabels.2]
    rfl

theorem printed_responseLine {response : CommandResponse} (h : Printed response.message) :
    Printed (responseLine response) := by
  refine ⟨plain_responseLine h.1, ?_⟩
  intro hmem
  have hparts : 0 ∉ text "[SUCCESS] " ∧ 0 ∉ text "[ERROR] " ∧ 0 ∉ text "\n" := by decide +kernel
  have hline := List.mem_of_mem_take hmem
  simp only [List.mem_append] at hline
  rcases hline with (hlabel | hmessage) | hnewline
  · split at hlabel
    · exact hparts.1 hlabel
    · exact hparts.2.1 hlabel
  · exact h.2 hmessage
  · exact hparts.2.2 hnewline

theorem calm_utterance {s : System} {m : Bytes} (h : Answers Printed s)
    (hprompting : prompting s.comm = false) (hm : utterance s.comm = some m) :
    Calm m ∧ StartsAfresh m := by
  cases hpc : s.comm with
  | sendMenu | sendPrompt cmd prompt =>
      rw [hpc] at hprompting
      cases hprompting
  | sendResponse response =>
      rw [hpc] at hm
      cases hm
      exact ⟨(printed_responseLine (h.sending response hpc)).calm,
        startsAfresh_of_head (responseLine_head response) (by decide +kernel)⟩
  | _ =>
      rw [hpc] at hm
      cases hm
      all_goals exact ⟨by decide +kernel, by decide +kernel⟩

/-! ## The welcome -/

theorem welcome_parts : ∃ top bottom : Bytes,
    (∀ server_ip, welcome server_ip =
      truncated 2048 (top ++ padRight 48 (welcomeUrl server_ip) ++ bottom)) ∧
    Printed top ∧ top.getLast? = some 32 ∧ Printed bottom ∧ bottom.head? = some 32 ∧
    top.length + 48 + bottom.length = 966 ∧ text "╝\n\n" <:+ bottom := by
  refine ⟨text "\n" ++
      text "╔════════════════════════════════════════════════════════╗\n" ++
      text "║                                                        ║\n" ++
      text "║     Connected to IoT Device Control Server            ║\n" ++
      text "║                                                        ║\n" ++
      text "╠════════════════════════════════════════════════════════╣\n" ++
      text "║                                                        ║\n" ++
      text "║  📺 Camera Monitor:                                   ║\n" ++
      text "║     ",
    text " ║\n" ++
      text "║                                                        ║\n" ++
      text "╚════════════════════════════════════════════════════════╝\n" ++
      text "\n", ?_, ?_⟩
  · intro server_ip
    simp only [welcome, List.append_assoc]
  · decide +kernel

theorem welcome_length (server_ip : Bytes) : 966 ≤ (welcome server_ip).length := by
  obtain ⟨top, bottom, hwelcome, -, -, -, -, hlength, -⟩ := welcome_parts
  rw [hwelcome]
  simp only [truncated, padRight, List.length_take, List.length_append, List.length_replicate]
  omega

theorem Printed.of_part {m part : Bytes} (h : Printed m) (hpart : part <:+: m) : Printed part :=
  ⟨h.1.of_part hpart, fun hmem => h.2 (hpart.mem hmem)⟩

theorem Printed.append_space {s t : Bytes} (hs : Printed s) (ht : Printed t)
    (hseam : s.getLast? = some 32 ∨ t.head? = some 32) : Printed (s ++ t) := by
  have hpair : ∀ p q : UInt8, p ≠ 32 → q ≠ 32 → s.getLast? ≠ some p ∨ t.head? ≠ some q := by
    intro p q hp hq
    rcases hseam with hlast | hfirst
    · refine Or.inl fun heq => hp ?_
      rw [hlast] at heq
      exact (Option.some.inj heq).symm
    · refine Or.inr fun heq => hq ?_
      rw [hfirst] at heq
      exact (Option.some.inj heq).symm
  refine ⟨⟨hs.1.1.append ht.1.1 (hpair _ _ (by decide) (by decide)),
    hs.1.2.append ht.1.2 (hpair _ _ (by decide) (by decide))⟩, ?_⟩
  intro hmem
  rcases List.mem_append.mp hmem with hmem | hmem
  · exact hs.2 hmem
  · exact ht.2 hmem

theorem printed_spaces (n : Nat) : Printed (List.replicate n 32) := by
  have hother : ∀ b : UInt8, b ≠ 32 → b ∉ List.replicate n (32 : UInt8) :=
    fun b hb hmem => hb (List.eq_of_mem_replicate hmem)
  exact ⟨⟨.of_not_mem (hother _ (by decide)), .of_not_mem (hother _ (by decide))⟩,
    hother _ (by decide)⟩

theorem Printed.padRight {m : Bytes} (h : Printed m) (width : Nat) :
    Printed (padRight width m) := by
  unfold Server.padRight
  cases hn : width - m.length with
  | zero => simpa using h
  | succ n => exact h.append_space (printed_spaces (n + 1)) (Or.inr rfl)

theorem printed_welcomeUrl {server_ip : Bytes} (hne : server_ip ≠ [])
    (hdotted : ∀ b ∈ server_ip, Decimal.isDigit b = true ∨ b = 46) :
    Printed (welcomeUrl server_ip) := by
  have hforeign : ∀ b : UInt8, Decimal.isDigit b = false → b ≠ 46 → b ∉ server_ip := by
    intro b hdigit hdot hmem
    rcases hdotted b hmem with h | h
    · rw [hdigit] at h
      cases h
    · exact hdot h
  obtain ⟨hscheme, hport⟩ : Printed (text "http://") ∧
      Printed (text ":" ++ Decimal.printNat WEB_SERVER_PORT) := by
    decide +kernel
  refine Printed.of_part ?_ (List.take_prefix _ _).isInfix
  rw [List.append_assoc]
  refine ⟨⟨hscheme.1.1.append_foreign hport.1.1 (hforeign _ (by decide) (by decide))
      (hforeign _ (by decide) (by decide)) hne,
    hscheme.1.2.append_foreign hport.1.2 (hforeign _ (by decide) (by decide))
      (hforeign _ (by decide) (by decide)) hne⟩, ?_⟩
  intro hmem
  rcases List.mem_append.mp hmem with hfront | hback
  · rcases List.mem_append.mp hfront with hmem | haddress
    · exact hscheme.2 hmem
    · exact hforeign 0 (by decide) (by decide) haddress
  · exact hport.2 hback

theorem printed_welcome {server_ip : Bytes} (hne : server_ip ≠ [])
    (hdotted : ∀ b ∈ server_ip, Decimal.isDigit b = true ∨ b = 46) :
    Printed (welcome server_ip) := by
  obtain ⟨top, bottom, hwelcome, htop, htopEnd, hbottom, hbottomStart, -⟩ := welcome_parts
  have hline := (printed_welcomeUrl hne hdotted).padRight 48
  rw [hwelcome]
  refine Printed.of_part ?_ (List.take_prefix _ _).isInfix
  exact (htop.append_space hline (Or.inl htopEnd)).append_space hbottom (Or.inr hbottomStart)

theorem calm_welcome (ifaddr : Option (List Interface)) : Calm (welcome (serverIp ifaddr)) := by
  rcases serverIp_cases ifaddr with ⟨hne, hdotted⟩ | hlocalhost
  · exact (printed_welcome hne hdotted).calm
  · rw [hlocalhost]
    decide +kernel

/-! ## The prompts -/

/-- A prompt cut at its word. -/
structure Parts (kind : PromptKind) (before after : Bytes) : Prop where
  calm : Calm before
  starts : StartsAfresh before
  tail : Calm (kind.word ++ after).tail
  nul : 0 ∉ kind.word ++ after
  others : ∀ other, other ≠ kind → ¬ other.word <:+: kind.word ++ after
  fits : (kind.word ++ after).length < BUFFER_SIZE

theorem menu_parts : menu = menu.take 275 ++ (PromptKind.choice.word ++ text " ") ∧
    Parts .choice (menu.take 275) (text " ") := by
  have hparts : menu = menu.take 275 ++ (PromptKind.choice.word ++ text " ") ∧
      Calm (menu.take 275) ∧ StartsAfresh (menu.take 275) ∧
      Calm (PromptKind.choice.word ++ text " ").tail ∧
      0 ∉ PromptKind.choice.word ++ text " " ∧
      ¬ PromptKind.param.word <:+: PromptKind.choice.word ++ text " " ∧
      (PromptKind.choice.word ++ text " ").length < BUFFER_SIZE := by
    decide +kernel
  obtain ⟨hmenu, hbefore, hstarts, htail, hnul, hother, hfits⟩ := hparts
  refine ⟨hmenu, hbefore, hstarts, htail, hnul, ?_, hfits⟩
  intro other hne
  cases other with
  | choice => exact absurd rfl hne
  | param => exact hother

theorem parameterPrompt_parts {prompt : Bytes} (h : prompt ∈ parameterPrompts) :
    prompt = PromptKind.param.word ++ prompt.drop 5 ∧ Parts .param [] (prompt.drop 5) ∧
      kindOf prompt = some .param := by
  have hparts : ∀ prompt ∈ parameterPrompts, prompt = PromptKind.param.word ++ prompt.drop 5 ∧
      Calm (PromptKind.param.word ++ prompt.drop 5).tail ∧
      0 ∉ PromptKind.param.word ++ prompt.drop 5 ∧
      ¬ PromptKind.choice.word <:+: PromptKind.param.word ++ prompt.drop 5 ∧
      (PromptKind.param.word ++ prompt.drop 5).length < BUFFER_SIZE ∧
      kindOf prompt = some .param := by
    decide +kernel
  obtain ⟨hprompt, htail, hnul, hother, hfits, hkind⟩ := hparts prompt h
  refine ⟨hprompt, ⟨calm_nil, by decide +kernel, htail, hnul, ?_, hfits⟩, hkind⟩
  intro other hne
  cases other with
  | choice => exact hother
  | param => exact absurd rfl hne

theorem mem_parameterPrompts {type : CommandType} {prompt : Bytes}
    (h : parameterPrompt type = some prompt) : prompt ∈ parameterPrompts := by
  unfold parameterPrompt at h
  split at h <;> cases h
  all_goals decide +kernel

theorem parts_of_asked {comm : CommPc} {m : Bytes} (h : Asked comm m) :
    ∃ kind before after, m = before ++ (kind.word ++ after) ∧ Parts kind before after ∧
      kindOf m = some kind ∧ receives comm = some kind := by
  cases comm with
  | recvCommand =>
      rw [show m = menu from h]
      exact ⟨.choice, _, _, menu_parts.1, menu_parts.2, by decide +kernel, rfl⟩
  | recvReply cmd =>
      obtain ⟨hprompt, hparts, hkind⟩ := parameterPrompt_parts (mem_parameterPrompts h)
      exact ⟨.param, [], _, hprompt, hparts, hkind, rfl⟩
  | _ => cases h

/-- The messages that ask are the ones with a word. -/
theorem Calm.kindOf_eq {m : Bytes} (h : Calm m) : kindOf m = none := by
  unfold kindOf
  split
  · next hmenu =>
      refine absurd ?_ (h.words .choice)
      rw [hmenu]
      decide +kernel
  · split
    · next hparam =>
        refine absurd ?_ (h.words .param)
        rw [(parameterPrompt_parts hparam).1]
        exact (List.prefix_append _ _).isInfix
    · rfl

namespace Parts

variable {kind : PromptKind} {before after lead : Bytes}

/-- The rest of a prompt that was cut inside its word. -/
theorem drop_calm (h : Parts kind before after) {i : Nat} (hi : 0 < i) :
    Calm ((kind.word ++ after).drop i) := by
  refine h.tail.of_part ?_
  rw [← List.drop_one]
  exact List.IsSuffix.isInfix (List.drop_suffix_drop_left _ hi)

/-- In the bytes up to the end of a prompt, the other word does not occur. -/
theorem others_unread (h : Parts kind before after) (hlead : Calm lead) {other : PromptKind}
    (hne : other ≠ kind) : ¬ other.word <:+: lead ++ (kind.word ++ after) := by
  refine not_part_append (hlead.words other) (h.others other hne) ?_
  intro b hb hfirst
  rw [List.head?_append_of_ne_nil _ (word_ne_nil kind)] at hfirst
  exact word_starts kind other b hb hfirst

theorem nul_unread (h : Parts kind before after) (hlead : Calm lead) :
    0 ∉ lead ++ (kind.word ++ after) := by
  intro hmem
  rcases List.mem_append.mp hmem with hmem | hmem
  · exact hlead.nul hmem
  · exact h.nul hmem

theorem onReceived_take (h : Parts kind before after) (hlead : Calm lead) {size : Nat}
    (hsize : lead.length + kind.word.length ≤ size) :
    (onReceived ((lead ++ (kind.word ++ after)).take size)).reading = some kind := by
  have hpart : (lead ++ (kind.word ++ after)).take size <:+: lead ++ (kind.word ++ after) :=
    (List.take_prefix _ _).isInfix
  have hword : kind.word <+: (kind.word ++ after).take (size - lead.length) := by
    rw [List.prefix_take_iff]
    exact ⟨List.prefix_append _ _, by omega⟩
  refine onReceived_word (fun hmem => h.nul_unread hlead (hpart.mem hmem)) ?_
    fun other hne hin => h.others_unread hlead hne (hin.trans hpart)
  rw [List.take_append, List.take_of_length_le (by omega)]
  exact hword.isInfix.trans (List.suffix_append _ _).isInfix

theorem take_calm (hlead : Calm lead) {size : Nat}
    (hsize : size < lead.length + kind.word.length) :
    Calm ((lead ++ (kind.word ++ after)).take size) := by
  have hbegun : ∀ i < kind.word.length,
      Calm (kind.word.take i) ∧ StartsAfresh (kind.word.take i) := by
    cases kind <;> decide +kernel
  rw [List.take_append]
  by_cases hin : size ≤ lead.length
  · rw [Nat.sub_eq_zero_of_le hin, List.take_zero, List.append_nil]
    exact hlead.of_part (List.take_prefix _ _).isInfix
  · obtain ⟨hcalm, hstart⟩ := hbegun (size - lead.length) (by omega)
    rw [List.take_of_length_le (by omega), List.take_append_of_le_length (by omega)]
    exact hlead.append hcalm hstart

/-- Where the buffer may end: inside no word, or inside the one of this prompt. -/
theorem cutInside_iff (h : Parts kind before after) (hlead : Calm lead) {size : Nat} :
    (∃ other : PromptKind, CutInside other.word (lead ++ (kind.word ++ after)) size) ↔
      lead.length < size ∧ size < lead.length + kind.word.length := by
  constructor
  · rintro ⟨other, hcut⟩
    have hkind : other = kind := by
      by_contra hne
      exact h.others_unread hlead hne hcut.part
    rw [hkind] at hcut
    refine hcut.between (hlead.words kind) (h.tail.words kind) ?_
    intro b hb
    exact word_starts kind kind b hb
  · rintro ⟨hlow, hhigh⟩
    exact ⟨kind, cutInside_of_between hlow hhigh⟩

end Parts

end RsvpControl.Client
