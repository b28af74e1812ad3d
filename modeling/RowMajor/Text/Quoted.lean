import RowMajor.Text.Printable

/-!
# Quoted text

A text is quoted with single quotes, or with double quotes if it holds a single quote
and no double one. A backslash, the chosen quote and every unprintable character are
escaped; the commonest control characters have a short escape and the others are
written by their code in hexadecimal.
-/

namespace RowMajor.Text

/-- The last `width` hexadecimal digits of a number, most significant first. -/
def hexDigits : Nat → Nat → List Char
  | 0, _ => []
  | width + 1, n => hexDigits width (n / 16) ++ [Nat.digitChar (n % 16)]

/-- The escape of an unprintable character, as short as its code allows. -/
def codeEscape (code : Nat) : List Char :=
  if code < 0x100 then '\\' :: 'x' :: hexDigits 2 code
  else if code < 0x10000 then '\\' :: 'u' :: hexDigits 4 code
  else '\\' :: 'U' :: hexDigits 8 code

/-- A character as it stands between the given quotes. -/
def escape (quote c : Char) : List Char :=
  if c = quote ∨ c = '\\' then ['\\', c]
  else if c = '\n' then ['\\', 'n']
  else if c = '\r' then ['\\', 'r']
  else if c = '\t' then ['\\', 't']
  else if isPrintable c then [c]
  else codeEscape c.toNat

def quoteFor (text : List Char) : Char :=
  if '\'' ∈ text ∧ '"' ∉ text then '"' else '\''

def quoted (text : List Char) : String :=
  let quote := quoteFor text
  String.ofList (quote :: text.flatMap (escape quote) ++ [quote])

end RowMajor.Text
