import UrlFilter.Unicode.Property

/-!
# Quoted texts

How a text is shown in a message: between quotes, with escapes for quotes, backslashes and all
characters that would not be seen for what they are.
-/

namespace UrlFilter.Quoted

/-- The categories whose characters are not seen, but for the space. -/
def unseenCategories : List String := ["cc", "cf", "co", "cn", "zl", "zp", "zs"]

/-- The character has one of the named properties. -/
def hasProperty (names : List String) (c : Char) : Bool :=
  names.any fun n => (Unicode.named? n.toList).any fun s => s.mem c

/-- The character is seen, and by itself: it is not one that joins the character in front of it. -/
def isSeen (c : Char) : Bool :=
  if c.toNat < 128 then 32 ≤ c.toNat && c.toNat < 127
  else !hasProperty ("graphemeextend" :: unseenCategories) c

/-- The number of a character in hexadecimal, between braces. -/
def numberEscape (c : Char) : Text :=
  ['\\', 'u', '\x7b'] ++ Nat.toDigits 16 c.toNat ++ ['\x7d']

/-- A character between quotes. -/
def escape (c : Char) : Text :=
  if c = '\x00' then ['\\', '0']
  else if c = '\t' then ['\\', 't']
  else if c = '\r' then ['\\', 'r']
  else if c = '\n' then ['\\', 'n']
  else if c = '\\' then ['\\', '\\']
  else if c = '"' then ['\\', '"']
  else if isSeen c then [c]
  else numberEscape c

/-- A text between quotes. -/
def quote (t : Text) : Text := '"' :: t.flatMap escape ++ ['"']

end UrlFilter.Quoted
