/-
Camel case of property names.

`camelCase` turns a hyphenated name into camel case: a hyphen after a character that is not a
hyphen is dropped and the next character is capitalised.  Hyphens at the front stay, a hyphen
after a hyphen stays, the name ends at its first NUL, and a custom property (`--` and at least
one character more) is returned as it is.
-/

namespace ScriptHost.Text

/-- The ASCII capital of a character; any other character stays. -/
def asciiUpper (c : Char) : Char :=
  if 'a' ≤ c ∧ c ≤ 'z' then Char.ofNat (c.toNat - 32) else c

/-- The scan behind `camelCase`.  `joins` says that a hyphen at this place would be dropped,
`capital` that the next character kept is capitalised. -/
def camelScan (joins capital : Bool) : List Char → List Char
  | [] => []
  | c :: rest =>
    if c = '\x00' then []
    else if c = '-' ∧ joins then camelScan false true rest
    else (if capital then asciiUpper c else c) :: camelScan (c ≠ '-') false rest

/-- A custom property: two hyphens and at least one character more. -/
def isCustomProperty : List Char → Bool
  | '-' :: '-' :: _ :: _ => true
  | _ => false

def camelChars (name : List Char) : List Char :=
  if isCustomProperty name then name else camelScan false false name

/-- The camel-case form of a property name. -/
def camelCase (name : String) : String := String.ofList (camelChars name.toList)

example : camelCase "background-color" = "backgroundColor" := by decide
example : camelCase "-webkit-box-flex" = "-webkitBoxFlex" := by decide
example : camelCase "a--b" = "a-b" := by decide

end ScriptHost.Text
