/-
Quoted text.

`quote` is the form in which descriptions of objects show a text: between double quotes, with
backslash escapes for the quote, the backslash and the common control characters, and with
`\u{…}` for every other character that is not shown as itself.
-/
import ScriptHost.Text.Printable

namespace ScriptHost.Text

/-- One character of a quoted text. -/
def escapeChar (c : Char) : List Char :=
  if c = '"' then ['\\', '"']
  else if c = '\\' then ['\\', '\\']
  else if c = '\n' then ['\\', 'n']
  else if c = '\r' then ['\\', 'r']
  else if c = '\t' then ['\\', 't']
  else if c = '\x00' then ['\\', '0']
  else if isPlain c then [c]
  else ['\\', 'u', '\x7b'] ++ Nat.toDigits 16 c.toNat ++ ['\x7d']

def quote (text : String) : String :=
  String.ofList ('"' :: text.toList.flatMap escapeChar ++ ['"'])

end ScriptHost.Text
