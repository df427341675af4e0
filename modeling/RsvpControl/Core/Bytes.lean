import Mathlib.Data.List.Infix

/-! # Byte strings -/

namespace RsvpControl.Core

abbrev Bytes := List UInt8

/-- The UTF-8 bytes of a string literal. -/
def text (s : String) : Bytes := s.toUTF8.data.toList

/-- Whether `needle` occurs in `haystack`. -/
def strstr (haystack needle : Bytes) : Bool :=
  match haystack with
  | [] => needle.isEmpty
  | b :: rest => needle.isPrefixOf (b :: rest) || strstr rest needle

end RsvpControl.Core
