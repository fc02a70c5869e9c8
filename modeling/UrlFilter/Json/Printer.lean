import UrlFilter.Json.Basic

/-!
# Printing JSON

A value is printed on one line or on many: then every element and every field has a line of its own,
indented by two spaces for each value around it. An empty list or object stays on its line.
-/

namespace UrlFilter.Json

/-- A hexadecimal digit, in lower case. -/
def hexDigit (n : Nat) : Char := Nat.digitChar n

/-- A character in a string. Quotes, backslashes and control characters are escaped. -/
def escape (c : Char) : Text :=
  if c = '"' then ['\\', '"']
  else if c = '\\' then ['\\', '\\']
  else if c = '\x08' then ['\\', 'b']
  else if c = '\t' then ['\\', 't']
  else if c = '\n' then ['\\', 'n']
  else if c = '\x0c' then ['\\', 'f']
  else if c = '\r' then ['\\', 'r']
  else if c.toNat < 32 then ['\\', 'u', '0', '0', hexDigit (c.toNat / 16), hexDigit (c.toNat % 16)]
  else [c]

/-- A text as a string. -/
def quote (t : Text) : Text := '"' :: t.flatMap escape ++ ['"']

/-- A string; what is no text is printed as one half of a surrogate pair. -/
def quote? : Option Text → Text
  | some t => quote t
  | none => "\"\\ud800\"".toList

mutual

/-- A value on one line. -/
def compact : Json → Text
  | null => "null".toList
  | bool b => (if b then "true" else "false").toList
  | number digits => digits
  | string t => quote? t
  | array es => '[' :: Text.join [','] (compactAll es) ++ [']']
  | object fields => '\x7b' :: Text.join [','] (compactFields fields) ++ ['\x7d']

/-- Values without blanks, one by one. -/
def compactAll : List Json → List Text
  | [] => []
  | j :: es => compact j :: compactAll es

/-- The fields of an object without blanks, one by one. -/
def compactFields : List (Option Text × Json) → List Text
  | [] => []
  | (k, j) :: fields => (quote? k ++ ':' :: compact j) :: compactFields fields

end

/-- The start of a line at a depth. -/
def lineStart (depth : Nat) : Text := '\n' :: List.replicate (2 * depth) ' '

/-- Parts between brackets, each on a line of its own. -/
def block (opening closing : Char) (depth : Nat) (parts : List Text) : Text :=
  if parts.isEmpty then [opening, closing]
  else
    opening :: Text.join [','] (parts.map (lineStart (depth + 1) ++ ·)) ++ lineStart depth ++ [closing]

mutual

/-- A value on many lines, at a depth. -/
def prettyAt (depth : Nat) : Json → Text
  | null => "null".toList
  | bool b => (if b then "true" else "false").toList
  | number digits => digits
  | string t => quote? t
  | array es => block '[' ']' depth (prettyAll (depth + 1) es)
  | object fields => block '\x7b' '\x7d' depth (prettyFields (depth + 1) fields)

/-- Values on lines of their own, one by one. -/
def prettyAll (depth : Nat) : List Json → List Text
  | [] => []
  | j :: es => prettyAt depth j :: prettyAll depth es

/-- The fields of an object on lines of their own, one by one. -/
def prettyFields (depth : Nat) : List (Option Text × Json) → List Text
  | [] => []
  | (k, j) :: fields => (quote? k ++ ": ".toList ++ prettyAt depth j) :: prettyFields depth fields

end

/-- A value on many lines. -/
def pretty (j : Json) : Text := prettyAt 0 j

end UrlFilter.Json
