/-
Bytes and text.

A text is encoded as UTF-8.  Reading bytes back never fails: `decode` returns one
piece for every character it finds and one empty piece for every maximal run of
bytes that starts a character and does not complete it, or that starts none.
`lossy` writes the replacement character for an empty piece, and `strict?`
refuses bytes that hold one.

The reader goes through the bytes once, one byte at a time.  Between characters
it is at rest; inside one it knows how many bytes are owed, the bits collected so
far and the range of the next byte.  The first byte after a lead byte has the
narrower range that rules out overlong forms, surrogates and values above the
last code point, so the value of a completed character is always valid.
-/

namespace KernelDepot

/-- The content of a file or of an image. -/
abbrev Bytes := List UInt8

namespace Text

def bytes (s : String) : Bytes := s.toByteArray.data.toList

/-- Texts with the same encoding are equal. -/
theorem bytes_injective {s t : String} (h : bytes s = bytes t) : s = t := by
  apply String.toByteArray_inj.mp
  have hd : s.toByteArray.data = t.toByteArray.data := Array.toList_inj.mp h
  cases hs : s.toByteArray
  cases ht : t.toByteArray
  simp_all

namespace Utf8

/-- Where the reader stands inside a character: the bytes still owed, the bits
collected so far and the range of the next byte. -/
structure Partial where
  owed : Nat
  bits : Nat
  low : Nat
  high : Nat
  deriving DecidableEq, Repr

/-- What a byte is at the start of a character: a whole character, the lead byte
of a longer one, or neither. -/
inductive Lead where
  | single (c : Char)
  | lead (state : Partial)
  | invalid

def lead (b : UInt8) : Lead :=
  let n := b.toNat
  if n < 0x80 then .single (Char.ofNat n)
  else if n < 0xC2 then .invalid
  else if n < 0xE0 then .lead ⟨1, n - 0xC0, 0x80, 0xBF⟩
  else if n = 0xE0 then .lead ⟨2, 0, 0xA0, 0xBF⟩
  else if n = 0xED then .lead ⟨2, 0xD, 0x80, 0x9F⟩
  else if n < 0xF0 then .lead ⟨2, n - 0xE0, 0x80, 0xBF⟩
  else if n = 0xF0 then .lead ⟨3, 0, 0x90, 0xBF⟩
  else if n < 0xF4 then .lead ⟨3, n - 0xF0, 0x80, 0xBF⟩
  else if n = 0xF4 then .lead ⟨3, 4, 0x80, 0x8F⟩
  else .invalid

/-- The pieces of a byte sequence.  `none` as a state means that the reader is
between characters. -/
def decodeFrom : Option Partial → Bytes → List (Option Char)
  | none, [] => []
  | some _, [] => [none]
  | none, b :: rest =>
    match lead b with
    | .single c => some c :: decodeFrom none rest
    | .lead state => decodeFrom (some state) rest
    | .invalid => none :: decodeFrom none rest
  | some state, b :: rest =>
    if state.low ≤ b.toNat ∧ b.toNat ≤ state.high then
      let bits := state.bits * 64 + (b.toNat - 0x80)
      if state.owed ≤ 1 then some (Char.ofNat bits) :: decodeFrom none rest
      else decodeFrom (some ⟨state.owed - 1, bits, 0x80, 0xBF⟩) rest
    else
      -- The byte does not continue the character, so it starts the next one.
      none ::
        match lead b with
        | .single c => some c :: decodeFrom none rest
        | .lead next => decodeFrom (some next) rest
        | .invalid => none :: decodeFrom none rest

def decode (bs : Bytes) : List (Option Char) := decodeFrom none bs

end Utf8

/-- The character that stands for bytes that are no text. -/
def replacement : Char := Char.ofNat 0xFFFD

/-- The characters of a byte sequence, with the replacement character for every
piece that is no text. -/
def lossy (bs : Bytes) : List Char := (Utf8.decode bs).map fun piece => piece.getD replacement

/-- The characters of a byte sequence that is text throughout. -/
def strict? (bs : Bytes) : Option (List Char) := (Utf8.decode bs).mapM id

/-- The text that a byte sequence encodes, if it encodes one. -/
def ofBytes? (bs : Bytes) : Option String := (strict? bs).map String.ofList

end Text
end KernelDepot
