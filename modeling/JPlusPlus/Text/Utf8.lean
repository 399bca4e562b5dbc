/-!
# Bytes as text

UTF-8 as it is read from bytes that may be ill-formed. Well-formed characters are read as they
are; every maximal ill-formed part, that is the longest run of bytes that begins some character
without completing it, or else a single byte, is read as one replacement character. Strict reading
refuses bytes with an ill-formed part.
-/

namespace JPlusPlus.Utf8

/-- The character that stands for an ill-formed part. -/
def replacement : Char := '\uFFFD'

/-- The bytes of a text, as a list. -/
def bytes (text : String) : List UInt8 := text.toByteArray.data.toList

/-- The text that `bytes` spell, when they are well-formed throughout. -/
def strict? (bytes : List UInt8) : Option String := String.fromUTF8? bytes.toByteArray

/-- The first character of `bytes`, when a well-formed character stands there. -/
def first? (bytes : List UInt8) : Option Char :=
  (bytes.take 4).toByteArray.utf8DecodeChar? 0

/-- What the first byte of a character of several bytes calls for. -/
structure Lead where
  /-- The number of bytes of the character. -/
  total : Nat
  /-- The least second byte. -/
  least : UInt8
  /-- The greatest second byte. -/
  greatest : UInt8

/-- Reads a byte as the first of several; some second bytes are ruled out because they would spell
an overlong form, a surrogate or a value past the last character. -/
def Lead.ofByte? (b : UInt8) : Option Lead :=
  if b < 0xC2 then none
  else if b < 0xE0 then some ⟨2, 0x80, 0xBF⟩
  else if b = 0xE0 then some ⟨3, 0xA0, 0xBF⟩
  else if b = 0xED then some ⟨3, 0x80, 0x9F⟩
  else if b < 0xF0 then some ⟨3, 0x80, 0xBF⟩
  else if b = 0xF0 then some ⟨4, 0x90, 0xBF⟩
  else if b < 0xF4 then some ⟨4, 0x80, 0xBF⟩
  else if b = 0xF4 then some ⟨4, 0x80, 0x8F⟩
  else none

/-- A byte that may stand third or fourth in a character. -/
def isTail (b : UInt8) : Bool := 0x80 ≤ b && b ≤ 0xBF

/-- The number of bytes after `b` that belong to the same ill-formed part, where no well-formed
character starts at `b`. -/
def brokenTail (b : UInt8) (bs : List UInt8) : Nat :=
  match Lead.ofByte? b, bs with
  | some lead, s :: rest =>
    if lead.least ≤ s && s ≤ lead.greatest then
      1 + ((rest.take (lead.total - 3)).takeWhile isTail).length
    else 0
  | _, _ => 0

/-- The characters of `bytes`, with one replacement character for each maximal ill-formed part. -/
def decode (bytes : List UInt8) : List Char :=
  match bytes with
  | [] => []
  | b :: bs =>
    match first? (b :: bs) with
    | some c => c :: decode (bs.drop (c.utf8Size - 1))
    | none => replacement :: decode (bs.drop (brokenTail b bs))
termination_by bytes.length
decreasing_by all_goals simp only [List.length_drop, List.length_cons]; omega

/-- The text of `bytes`, with ill-formed parts replaced. -/
def text (bytes : List UInt8) : String := String.ofList (decode bytes)

end JPlusPlus.Utf8
