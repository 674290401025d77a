import CircularArc.Text.Printable

/-!
# Quoted text

Text inside a list is written between quotes: single ones, unless it holds single quotes and no
double ones. The quote and the backslash are escaped, and so is every character that is not
printable.
-/

set_option autoImplicit false

namespace CircularArc

def quoteFor (content : List Char) : Char :=
  if content.contains '\x27' && !content.contains '\x22' then '\x22' else '\x27'

def hexField (width value : Nat) : List Char :=
  let digits := Nat.toDigits 16 value
  List.replicate (width - digits.length) '0' ++ digits

def escapedCode (code : Nat) : List Char :=
  if code < 256 then '\\' :: 'x' :: hexField 2 code
  else if code < 65536 then '\\' :: 'u' :: hexField 4 code
  else '\\' :: 'U' :: hexField 8 code

def escaped (quote character : Char) : List Char :=
  if character = quote || character = '\\' then ['\\', character]
  else if character = '\t' then ['\\', 't']
  else if character = '\n' then ['\\', 'n']
  else if character = '\r' then ['\\', 'r']
  else if isPrintable character then [character]
  else escapedCode character.toNat

def quoted (content : String) : String :=
  let characters := content.toList
  let quote := quoteFor characters
  String.ofList (quote :: (characters.flatMap (escaped quote) ++ [quote]))

end CircularArc
