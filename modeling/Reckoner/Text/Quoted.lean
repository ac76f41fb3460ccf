import Reckoner.Text.Printable

/-!
# Quoted text

Text in quotes, with escapes for the quote in use, the backslash and every
character that is not printable.  The quote is an apostrophe unless the text has
an apostrophe and no double quote.
-/

namespace Reckoner

namespace Text

def singleQuote : Char :=
  Char.ofNat 0x27

def doubleQuote : Char :=
  Char.ofNat 0x22

def backslash : Char :=
  Char.ofNat 0x5c

/-- The quote that needs no escape where one of the two does not. -/
def quoteFor (chars : List Char) : Char :=
  if chars.contains singleQuote && !chars.contains doubleQuote then doubleQuote else singleQuote

def hex (width n : Nat) : List Char :=
  let digits := Nat.toDigits 16 n
  List.replicate (width - digits.length) '0' ++ digits

def escape (quote c : Char) : List Char :=
  let code := c.toNat
  if c == quote || c == backslash then [backslash, c]
  else if code == 0x0a then [backslash, 'n']
  else if code == 0x0d then [backslash, 'r']
  else if code == 0x09 then [backslash, 't']
  else if isPrintable c then [c]
  else if code < 0x100 then backslash :: 'x' :: hex 2 code
  else if code < 0x10000 then backslash :: 'u' :: hex 4 code
  else backslash :: 'U' :: hex 8 code

def quoted (text : String) : String :=
  let chars := text.toList
  let quote := quoteFor chars
  String.ofList (quote :: chars.flatMap (escape quote) ++ [quote])

end Text

end Reckoner
