import Deferred.Text.Invisible

/-! Quoted text for diagnostics: the text between double quotes, with quotes, backslashes and
characters that cannot be seen written as escapes, so that the quoted form shows every character. -/

namespace Deferred.Text

/-- A control character: one of the two ranges below the space and around U+0080. -/
def isControl (c : Char) : Bool :=
  c.toNat < 0x20 || (0x7f ≤ c.toNat && c.toNat < 0xa0)

def hexDigits (n : Nat) : String :=
  String.ofList (Nat.toDigits 16 n)

/-- Escapes with a letter of their own come first, the code point in hexadecimal last. -/
def quoteChar (c : Char) : String :=
  if c = '"' then "\\\""
  else if c = '\\' then "\\\\"
  else if c = '\n' then "\\n"
  else if c = '\t' then "\\t"
  else if c = '\r' then "\\r"
  else if c = '\x00' then "\\0"
  else if isControl c || isInvisible c then "\\u\x7b" ++ hexDigits c.toNat ++ "\x7d"
  else String.singleton c

def quoted (text : String) : String :=
  "\"" ++ String.join (text.toList.map quoteChar) ++ "\""

end Deferred.Text
