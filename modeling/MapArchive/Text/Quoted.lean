import MapArchive.Text.Printable

/-!
# Quoted text

Text and byte strings inside of messages stand between quotes. Single quotes are used, unless the
text holds one and no double quote. A backslash and the quote in use are preceded by a backslash,
line feed, carriage return and tabulator are written by a letter, and whatever cannot be printed
is written by its number in hexadecimal.
-/

namespace MapArchive.Quoted

/-- The digit for a number below sixteen. -/
def hexDigit (n : Nat) : Char := "0123456789abcdef".toList.getD n '0'

/-- The lowest `width` hexadecimal digits of a number, the highest first. -/
def hex : Nat → Nat → List Char
  | 0, _ => []
  | width + 1, n => hex width (n / 16) ++ [hexDigit (n % 16)]

/-- The single quote. -/
def single : Char := '\x27'

/-- The double quote. -/
def double : Char := '\x22'

/-- The quote to be used around a text. -/
def quoteFor (text : List Char) : Char :=
  if text.contains single && !text.contains double then double else single

/-- The part of escaping that text and byte strings share. -/
def escapeCommon? (quote c : Char) : Option (List Char) :=
  if c = quote ∨ c = '\\' then some ['\\', c]
  else if c = '\n' then some ['\\', 'n']
  else if c = '\r' then some ['\\', 'r']
  else if c = '\t' then some ['\\', 't']
  else none

/-- One character of a text, as it stands between the quotes. -/
def escapeChar (quote c : Char) : List Char :=
  match escapeCommon? quote c with
  | some written => written
  | none =>
    if isPrintable c then [c]
    else if c.toNat < 0x100 then '\\' :: 'x' :: hex 2 c.toNat
    else if c.toNat < 0x10000 then '\\' :: 'u' :: hex 4 c.toNat
    else '\\' :: 'U' :: hex 8 c.toNat

/-- One byte of a byte string, as it stands between the quotes. -/
def escapeByte (quote : Char) (b : UInt8) : List Char :=
  match escapeCommon? quote (Char.ofNat b.toNat) with
  | some written => written
  | none =>
    if 0x20 ≤ b ∧ b ≤ 0x7E then [Char.ofNat b.toNat] else '\\' :: 'x' :: hex 2 b.toNat

/-- A text between quotes. -/
def text (s : String) : String :=
  let quote := quoteFor s.toList
  String.ofList (quote :: s.toList.flatMap (escapeChar quote) ++ [quote])

/-- A byte string between quotes, with the letter b before them. -/
def bytes (list : List UInt8) : String :=
  let quote := quoteFor (list.map fun b => Char.ofNat b.toNat)
  String.ofList ('b' :: quote :: list.flatMap (escapeByte quote) ++ [quote])

end MapArchive.Quoted
