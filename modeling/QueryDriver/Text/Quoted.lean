import QueryDriver.Text.Printable

/-! # Quoted texts

A quoted text stands between apostrophes, or between double quotes when it holds an
apostrophe and no double quote. The quote in use and the backslash are escaped with
a backslash, line and tab characters by their letters, and every character that is
not printable by its number in hexadecimal, two, four or eight digits wide.

Byte strings are written alike, behind a `b`, with every byte outside printable
ASCII by its number.
-/

namespace QueryDriver.Text

/-- The lower case digit of a number below sixteen. -/
def hexDigit (n : Nat) : Char := (Nat.toDigits 16 (n % 16)).headD '0'

/-- The last `width` hexadecimal digits of a number. -/
def hexDigits : Nat → Nat → List Char
  | 0, _ => []
  | width + 1, n => hexDigits width (n / 16) ++ [hexDigit n]

/-- The quote that a text is written between. -/
def quoteFor (apostrophe doubleQuote : Bool) : Char :=
  if apostrophe && !doubleQuote then '\x22' else '\x27'

/-- How one character of a quoted text is written. -/
def escapeChar (quote : Char) (c : Char) : List Char :=
  if c = quote ∨ c = '\\' then ['\\', c]
  else if c = '\n' then ['\\', 'n']
  else if c = '\r' then ['\\', 'r']
  else if c = '\t' then ['\\', 't']
  else if isPrintable c then [c]
  else if c.toNat < 0x100 then '\\' :: 'x' :: hexDigits 2 c.toNat
  else if c.toNat < 0x10000 then '\\' :: 'u' :: hexDigits 4 c.toNat
  else '\\' :: 'U' :: hexDigits 8 c.toNat

/-- A text between quotes. -/
def quoted (s : String) : String :=
  let cs := s.toList
  let q := quoteFor (cs.contains '\x27') (cs.contains '\x22')
  String.ofList (q :: (cs.flatMap (escapeChar q) ++ [q]))

/-- How one byte of a quoted byte string is written. -/
def escapeByte (quote : Char) (b : UInt8) : List Char :=
  let c := Char.ofNat b.toNat
  if c = quote ∨ c = '\\' then ['\\', c]
  else if c = '\n' then ['\\', 'n']
  else if c = '\r' then ['\\', 'r']
  else if c = '\t' then ['\\', 't']
  else if 0x20 ≤ b.toNat ∧ b.toNat < 0x7f then [c]
  else '\\' :: 'x' :: hexDigits 2 b.toNat

/-- A byte string between quotes. -/
def quotedBytes (bs : List UInt8) : String :=
  let q := quoteFor (bs.contains 0x27) (bs.contains 0x22)
  String.ofList ('b' :: q :: (bs.flatMap (escapeByte q) ++ [q]))

/-- Bytes as lower case hexadecimal, two digits each. -/
def hexBytes (bs : List UInt8) : String :=
  String.ofList (bs.flatMap fun b => hexDigits 2 b.toNat)

/-- Texts joined by a comma and a blank. -/
def commaList (parts : List String) : String := String.intercalate ", " parts

end QueryDriver.Text
