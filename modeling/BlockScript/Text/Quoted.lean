import BlockScript.Text.GraphemeExtend
import BlockScript.Text.Printable

/-!
# Quoted text

Text between double quotes, as string values are shown to a programmer. A quote
and a backslash are escaped by a backslash; NUL, tab, line feed and carriage
return have letters of their own; any other character that cannot stand for
itself on a page is written by its code point in hexadecimal. Characters that
would attach to the quote or to their neighbour count among those. The halfwidth
sound marks extend a grapheme too, but take a space of their own, so they stand
for themselves.
-/

namespace BlockScript.Text

/-- A code point in lower-case hexadecimal without leading zeros, in braces. -/
def escapeCode (c : Char) : List Char :=
  ['\\', 'u', '\x7b'] ++ Nat.toDigits 16 c.toNat ++ ['\x7d']

/-- The halfwidth voiced and semi-voiced sound marks of Katakana. -/
def isHalfwidthSoundMark (c : Char) : Bool := c.toNat == 0xff9e || c.toNat == 0xff9f

/-- The character is drawn onto the one before it. -/
def attaches (c : Char) : Bool := isGraphemeExtend c && !isHalfwidthSoundMark c

/-- How one character is written inside quotes. -/
def quoteChar (c : Char) : List Char :=
  if c = '"' then ['\\', '"']
  else if c = '\\' then ['\\', '\\']
  else if c = '\x00' then ['\\', '0']
  else if c = '\t' then ['\\', 't']
  else if c = '\n' then ['\\', 'n']
  else if c = '\r' then ['\\', 'r']
  else if attaches c || !isPrintable c then escapeCode c
  else [c]

/-- The text in double quotes with its special characters escaped. -/
def quote (text : String) : String :=
  String.ofList ('"' :: text.toList.flatMap quoteChar ++ ['"'])

end BlockScript.Text
