import JPlusPlus.Text.Utf8

/-!
# Units of source text

The scanning rules look at a source one unit at a time and tell units apart by the ASCII characters
they stand for. They are written once for every kind of unit: for the bytes of a source, which is
how a source is scanned, and for its characters, which is how the rules are meant.
-/

namespace JPlusPlus

/-- A type of units in which a source can be scanned. -/
class SourceUnit (α : Type) where
  /-- The character that a unit is compared as. The rules know ASCII characters only, so any
  character outside of ASCII serves for a unit that stands for no ASCII character. -/
  char : α → Char
  /-- The unit of an ASCII character. -/
  ofAscii : Char → α
  /-- The text that units spell. -/
  text : List α → String

/-- A byte stands for the character of the same number. -/
instance : SourceUnit UInt8 where
  char b := Char.ofNat b.toNat
  ofAscii c := UInt8.ofNat c.toNat
  text := Utf8.text

/-- A character stands for itself. -/
instance : SourceUnit Char where
  char c := c
  ofAscii c := c
  text := String.ofList

end JPlusPlus
