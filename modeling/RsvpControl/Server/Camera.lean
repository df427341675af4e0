import RsvpControl.Core.Bytes
import RsvpControl.Core.Delimited
import RsvpControl.Core.Substring

/-! # The camera's video stream

`gen_frames` of the web server sends each picture as one part of a multipart stream with
a boundary of its own after the last one of `video`'s mimetype. A reader of such a stream
cuts it at the delimiter, which is the line break before a boundary line with that line,
and takes what is behind the empty line of a part for its picture.
-/

namespace RsvpControl.Server.Camera

open RsvpControl.Core Delimited

/-! ## The generator -/

/-- What one turn of the loop gets from the camera and the encoder. -/
inductive Capture where
  | encoded (jpeg : Bytes)
  /-- `imencode` did not succeed: the turn is skipped. -/
  | notEncoded
  /-- An exception: the loop ends. -/
  | failed
deriving DecidableEq, Repr

def crlf : Bytes := text "\r\n"

/-- What `gen_frames` yields for one picture. -/
def framePart (jpeg : Bytes) : Bytes :=
  text "--frame\r\n" ++ text "Content-Type: image/jpeg\r\n\r\n" ++ jpeg ++ text "\r\n"

/-- `gen_frames`: what it yields, in order. -/
def genFrames : List Capture → List Bytes
  | [] => []
  | .encoded jpeg :: captures => framePart jpeg :: genFrames captures
  | .notEncoded :: captures => genFrames captures
  | .failed :: _ => []

def videoMimetype : Bytes := text "multipart/x-mixed-replace; boundary=frame"

def pictures : List Capture → List Bytes
  | [] => []
  | .encoded jpeg :: captures => jpeg :: pictures captures
  | .notEncoded :: captures => pictures captures
  | .failed :: _ => []

theorem genFrames_eq (captures : List Capture) :
    genFrames captures = (pictures captures).map framePart := by
  induction captures with
  | nil => rfl
  | cons capture captures ih =>
      cases capture with
      | encoded jpeg => rw [genFrames, ih]; rfl
      | notEncoded => exact ih
      | failed => rfl

/-! ## The reader -/

/-- A line break, two hyphens and the boundary that the mimetype names. -/
def delimiter (mimetype : Bytes) : Bytes :=
  crlf ++ text "--" ++ ((cut (text "boundary=") mimetype).map Prod.snd).getD []

/-- The body of a part: what is behind its first empty line. -/
def body (part : Bytes) : Bytes := ((cut (crlf ++ crlf) part).map Prod.snd).getD []

/-- The parts a reader has seen the end of, and what it has read of the next one. The
first boundary line needs no line break before it. -/
def received (mimetype : Bytes) (chunks : List Bytes) : List Bytes × Bytes :=
  chunks.foldl (feed (delimiter mimetype)) ([], crlf)

/-- The pictures a reader shows: what stands before the first boundary is no part. -/
def shown (mimetype : Bytes) (chunks : List Bytes) : List Bytes :=
  ((received mimetype chunks).1.drop 1).map body

/-! ## The stream as parts between delimiters -/

abbrev videoDelimiter : Bytes := delimiter videoMimetype

def partHead : Bytes := crlf ++ text "Content-Type: image/jpeg\r\n\r\n"

theorem videoDelimiter_fresh : Fresh videoDelimiter :=
  ⟨13, text "\n--frame", by decide +kernel, by decide +kernel⟩

theorem videoDelimiter_ne_nil : videoDelimiter ≠ [] := videoDelimiter_fresh.ne_nil

theorem received_eq (chunks : List Bytes) :
    received videoMimetype chunks = split videoDelimiter (crlf ++ chunks.flatten) := by
  have hstart : split videoDelimiter crlf = ([], crlf) := by decide +kernel
  rw [received, ← foldl_feed videoDelimiter_ne_nil, hstart]

theorem crlf_framePart (picture : Bytes) :
    crlf ++ framePart picture = videoDelimiter ++ (partHead ++ picture ++ crlf) := by
  have hlines : crlf ++ (text "--frame\r\n" ++ text "Content-Type: image/jpeg\r\n\r\n") =
      videoDelimiter ++ partHead := by
    decide +kernel
  calc crlf ++ framePart picture
      = crlf ++ (text "--frame\r\n" ++ text "Content-Type: image/jpeg\r\n\r\n") ++
          picture ++ crlf := by
        simp [framePart, crlf]
    _ = videoDelimiter ++ partHead ++ picture ++ crlf := by rw [hlines]
    _ = videoDelimiter ++ (partHead ++ picture ++ crlf) := by simp

theorem stream_eq (first : List Bytes) (last : Bytes) :
    crlf ++ ((first ++ [last]).map framePart).flatten =
      join videoDelimiter ([] :: first.map (partHead ++ ·)) (partHead ++ last ++ crlf) := by
  induction first with
  | nil =>
      have hlast := crlf_framePart last
      simpa [join] using hlast
  | cons picture first ih =>
      calc crlf ++ ((picture :: first ++ [last]).map framePart).flatten
          = crlf ++ framePart picture ++ ((first ++ [last]).map framePart).flatten := by simp
        _ = videoDelimiter ++ (partHead ++ picture) ++
              (crlf ++ ((first ++ [last]).map framePart).flatten) := by
            rw [crlf_framePart]
            simp
        _ = _ := by
            rw [ih]
            simp [join]

/-! ## Where the delimiter can be -/

theorem delimiter_in_part {picture : Bytes} :
    videoDelimiter <:+: partHead ++ picture ↔ videoDelimiter <:+: crlf ++ picture := by
  have hhead : partHead = text "\r\nContent-Type: image/jpeg\r\n" ++ crlf := by decide +kernel
  have hlines : ¬ videoDelimiter <:+: text "\r\nContent-Type: image/jpeg\r\n" := by decide +kernel
  have hreturn : (13 : UInt8) ∉ videoDelimiter.tail := by decide +kernel
  rw [hhead, List.append_assoc]
  constructor
  · intro hpart
    rcases part_append hpart with hleft | hright | ⟨b, hb, hfirst⟩
    · exact absurd hleft hlines
    · exact hright
    · have hcrlf : (crlf ++ picture).head? = some 13 := rfl
      rw [hcrlf] at hfirst
      cases hfirst
      exact absurd hb hreturn
  · intro hpart
    exact hpart.trans (List.suffix_append _ _).isInfix

theorem delimiter_in_last {picture : Bytes} :
    videoDelimiter <:+: partHead ++ picture ++ crlf ↔ videoDelimiter <:+: crlf ++ picture := by
  have hcrlf : ¬ videoDelimiter <:+: crlf := by decide +kernel
  have hreturn : (13 : UInt8) ∉ videoDelimiter.tail := by decide +kernel
  rw [← delimiter_in_part]
  constructor
  · intro hpart
    rcases part_append hpart with hleft | hright | ⟨b, hb, hfirst⟩
    · exact hleft
    · exact absurd hright hcrlf
    · have hfirst : some 13 = some b := hfirst
      cases hfirst
      exact absurd hb hreturn
  · intro hpart
    exact hpart.trans (List.prefix_append _ _).isInfix

theorem body_part (picture : Bytes) : body (partHead ++ picture) = picture := by
  have hhead : cut (crlf ++ crlf) partHead =
      some (text "\r\nContent-Type: image/jpeg", []) := by
    decide +kernel
  rw [body, cut_append hhead]
  rfl

/-! ## What a reader shows -/

/-- Neither picture nor line break of the stream brings a delimiter of its own. -/
def Undivided (pictures : List Bytes) : Prop :=
  ∀ picture ∈ pictures, ¬ videoDelimiter <:+: crlf ++ picture

instance (pictures : List Bytes) : Decidable (Undivided pictures) :=
  inferInstanceAs (Decidable (∀ picture ∈ pictures, ¬ videoDelimiter <:+: crlf ++ picture))

theorem shown_eq (chunks : List Bytes) :
    shown videoMimetype chunks =
      ((split videoDelimiter (crlf ++ chunks.flatten)).1.drop 1).map body := by
  rw [shown, received_eq]

/-- What has been shown stays when more arrives. -/
theorem shown_prefix {chunks : List Bytes} {stream : Bytes} (h : chunks.flatten <+: stream) :
    shown videoMimetype chunks <+: shown videoMimetype [stream] := by
  obtain ⟨more, hmore⟩ := h
  have hparts : (split videoDelimiter (crlf ++ chunks.flatten)).1 <+:
      (split videoDelimiter (crlf ++ stream)).1 := by
    rw [← hmore, ← List.append_assoc, split_append videoDelimiter_ne_nil (crlf ++ chunks.flatten)]
    exact List.prefix_append _ _
  rw [shown_eq, shown_eq, List.flatten_singleton]
  exact (hparts.drop 1).map body

theorem shown_stream (first : List Bytes) (last : Bytes) :
    shown videoMimetype [((first ++ [last]).map framePart).flatten] =
      ((split videoDelimiter (join videoDelimiter ([] :: first.map (partHead ++ ·))
        (partHead ++ last ++ crlf))).1.drop 1).map body := by
  rw [shown_eq, List.flatten_singleton, stream_eq]

theorem shown_undivided {first : List Bytes} {last : Bytes} (h : Undivided (first ++ [last])) :
    shown videoMimetype [((first ++ [last]).map framePart).flatten] = first := by
  have hparts : ∀ part ∈ ([] : Bytes) :: first.map (partHead ++ ·),
      ¬ videoDelimiter <:+: part := by
    intro part hpart
    rcases List.mem_cons.mp hpart with hempty | hpart
    · subst hempty
      decide +kernel
    · obtain ⟨picture, hmem, heq⟩ := List.mem_map.mp hpart
      subst heq
      exact fun hin => h picture (List.mem_append_left _ hmem) (delimiter_in_part.mp hin)
  have hrest : ¬ videoDelimiter <:+: partHead ++ last ++ crlf := fun hin =>
    h last (List.mem_append_right _ List.mem_cons_self) (delimiter_in_last.mp hin)
  have hbodies : (first.map (partHead ++ ·)).map body = first := by
    rw [List.map_map]
    calc first.map (body ∘ (partHead ++ ·))
        = first.map id := List.map_congr_left fun picture _ => body_part picture
      _ = first := List.map_id first
  rw [shown_stream, split_join videoDelimiter_fresh hparts hrest]
  exact hbodies

/-- A picture with the delimiter in it gives a reader one part more. -/
theorem undivided_of_shown {first : List Bytes} {last : Bytes}
    (h : shown videoMimetype [((first ++ [last]).map framePart).flatten] = first) :
    Undivided (first ++ [last]) := by
  have hlength := congrArg List.length h
  rw [shown_stream, List.length_map, List.length_drop] at hlength
  have hparts : (split videoDelimiter (join videoDelimiter ([] :: first.map (partHead ++ ·))
      (partHead ++ last ++ crlf))).1.length = ([] :: first.map (partHead ++ ·)).length := by
    have hmore := split_join_length videoDelimiter_fresh ([] :: first.map (partHead ++ ·))
      (partHead ++ last ++ crlf)
    simp only [List.length_cons, List.length_map] at hmore ⊢
    omega
  obtain ⟨hfirst, hlast⟩ := (split_join_length_eq_iff videoDelimiter_fresh).mp hparts
  intro picture hmem
  rcases List.mem_append.mp hmem with hmem | hmem
  · have hpart := hfirst _ (List.mem_cons_of_mem _ (List.mem_map_of_mem hmem))
    exact fun hin => hpart (delimiter_in_part.mpr hin)
  · rw [List.mem_singleton.mp hmem]
    exact fun hin => hlast (delimiter_in_last.mpr hin)

/-- However the stream arrives, a reader shows the pictures of the camera in order and
nothing else, each once the boundary of the next has come, exactly when no picture has the
delimiter in it. -/
theorem pictures_shown_iff (captures : List Capture) :
    Undivided (pictures captures) ↔
      ∀ chunks : List Bytes,
        (chunks.flatten <+: (genFrames captures).flatten →
          shown videoMimetype chunks <+: (pictures captures).dropLast) ∧
        (chunks.flatten = (genFrames captures).flatten →
          shown videoMimetype chunks = (pictures captures).dropLast) := by
  have hwhole : shown videoMimetype [(genFrames captures).flatten] =
      (pictures captures).dropLast ↔ Undivided (pictures captures) := by
    rw [genFrames_eq]
    rcases List.eq_nil_or_concat (pictures captures) with hnil | ⟨first, last, hlast⟩
    · rw [hnil]
      decide +kernel
    · rw [hlast, List.concat_eq_append, List.dropLast_concat]
      exact ⟨undivided_of_shown, shown_undivided⟩
  rw [← hwhole]
  constructor
  · intro hshown chunks
    refine ⟨fun hfront => hshown ▸ shown_prefix hfront, fun hall => ?_⟩
    rw [← hshown, shown_eq, shown_eq, hall, List.flatten_singleton]
  · intro hchunks
    exact (hchunks [(genFrames captures).flatten]).2 List.flatten_singleton

end RsvpControl.Server.Camera
