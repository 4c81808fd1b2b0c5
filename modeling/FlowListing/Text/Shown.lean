import FlowListing.Text.Classes

/-!
# How text and bytes are shown

Bytes are written as two hexadecimal digits each: a dump is in upper case; escapes and the bytes named in a message are in lower
case.

A message quotes a text so that it reads on one line: single quotes, or double quotes when the text holds a single quote and no double
one; a backslash before the quote in use and before a backslash; names for tab, line feed and carriage return; and hexadecimal escapes
for whatever cannot be shown.

A control sequence for a terminal is an escape character, an opening bracket, any number of digits, semicolons and question marks, and
one letter. `stripControls` leaves them out of a text.
-/

namespace FlowListing.Text

/-! ## Hexadecimal digits -/

/-- The lower-case hexadecimal digits of `n`, with zeros in front up to `width` digits. -/
def hexLower (width n : Nat) : List Char :=
  (Nat.toDigits 16 n).leftpad width '0'

/-- The upper-case hexadecimal digits of `n`, with zeros in front up to `width` digits. -/
def hexUpper (width n : Nat) : List Char :=
  (hexLower width n).map Char.toUpper

/-- The bytes in lower case, two digits each. -/
def hexBytesLower (bytes : List UInt8) : String :=
  String.ofList (bytes.flatMap fun b => hexLower 2 b.toNat)

/-- The bytes in upper case, two digits each. -/
def hexDump (bytes : List UInt8) : String :=
  String.ofList (bytes.flatMap fun b => hexUpper 2 b.toNat)

/-- An address as messages show it. -/
def hexAddress (n : Nat) : String :=
  String.ofList ('0' :: 'x' :: hexUpper 1 n)

/-! ## Quoted text -/

/-- The quotation mark for a text. -/
def quoteMark (cs : List Char) : Char :=
  if cs.contains '\'' && !cs.contains '"' then '"' else '\''

/-- The shortest hexadecimal escape of a character: two, four or eight digits. -/
def hexEscape (c : Char) : List Char :=
  let n := c.toNat
  if n ≤ 0xFF then '\\' :: 'x' :: hexLower 2 n
  else if n ≤ 0xFFFF then '\\' :: 'u' :: hexLower 4 n
  else '\\' :: 'U' :: hexLower 8 n

/-- One character inside quotation marks; `shown` says which characters are written as they are. -/
def quoteChar (mark : Char) (shown : Char → Bool) (c : Char) : List Char :=
  if c == mark || c == '\\' then ['\\', c]
  else if c == '\t' then ['\\', 't']
  else if c == '\n' then ['\\', 'n']
  else if c == '\r' then ['\\', 'r']
  else if shown c then [c]
  else hexEscape c

/-- Characters in quotation marks; `shown` says which of them are written as they are. -/
def quoteChars (shown : Char → Bool) (cs : List Char) : String :=
  let mark := quoteMark cs
  String.ofList (mark :: cs.flatMap (quoteChar mark shown) ++ [mark])

/-- A text in quotation marks. -/
def quote (s : String) : String :=
  quoteChars isPrintable s.toList

/-- The byte is a visible ASCII character or a space. -/
def isVisibleAscii (c : Char) : Bool :=
  0x20 ≤ c.toNat && c.toNat ≤ 0x7E

/-- Bytes in quotation marks after the letter b; only visible ASCII is written as it is. -/
def quoteBytes (bytes : List UInt8) : String :=
  "b" ++ quoteChars isVisibleAscii (bytes.map fun b => Char.ofNat b.toNat)

/-! ## Control sequences -/

/-- The escape character. -/
def escapeChar : Char := '\x1b'

/-- A character between the bracket and the final letter of a control sequence. -/
def isParameter (c : Char) : Bool :=
  c.isDigit || c == ';' || c == '?'

/-- How many characters the control sequence at the head of the text has; nothing when there is none. -/
def controlLength? : List Char → Option Nat
  | esc :: bracket :: rest =>
    if esc == escapeChar && bracket == '[' then
      match rest.dropWhile isParameter with
      | final :: _ => if final.isAlpha then some (3 + (rest.takeWhile isParameter).length) else none
      | [] => none
    else none
  | _ => none

/-- The characters without control sequences, of which the first `skip` belong to one that has begun. -/
def dropControls : (skip : Nat) → List Char → List Char
  | _, [] => []
  | skip + 1, _ :: rest => dropControls skip rest
  | 0, c :: rest =>
    match controlLength? (c :: rest) with
    | some n => dropControls (n - 1) rest
    | none => c :: dropControls 0 rest

/-- The text without its control sequences. -/
def stripControls (s : String) : String :=
  String.ofList (dropControls 0 s.toList)

end FlowListing.Text
