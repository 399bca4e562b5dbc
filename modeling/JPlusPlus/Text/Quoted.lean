import JPlusPlus.Text.Printable

/-!
# Quoted text

A quoted text stands between double quotes, with each character written as itself or as an escape.
What differs between the formats is which characters have escapes; here is the general form, and
the format of listings and messages, in which the apostrophe stands for itself.
-/

namespace JPlusPlus.Text

/-- The text between double quotes, each character as `escape` writes it. -/
def quoted (escape : Char → List Char) (text : String) : String :=
  String.ofList ('\x22' :: (text.toList.flatMap escape ++ ['\x22']))

/-- The escape that names a character by its number, in hexadecimal without leading zeros. -/
def numberEscape (c : Char) : List Char :=
  '\\' :: 'u' :: '\x7b' :: (Nat.toDigits 16 c.toNat ++ ['\x7d'])

/-- How a listing writes a character: the marks of quoting and the usual controls by their short
escapes, and what does not show on its own by its number. -/
def listedChar (c : Char) : List Char :=
  if c = '\x00' then ['\\', '0']
  else if c = '\t' then ['\\', 't']
  else if c = '\r' then ['\\', 'r']
  else if c = '\n' then ['\\', 'n']
  else if c = '\x22' then ['\\', '\x22']
  else if c = '\\' then ['\\', '\\']
  else if isPrintable c then [c]
  else numberEscape c

/-- A text as it stands in listings. -/
def listed (text : String) : String := quoted listedChar text

end JPlusPlus.Text
