import UrlFilter.Unicode.Basic

/-!
# Positions in a text

A cursor is a position in a text, as what lies on either side of it. The conditions that a pattern
may put on a position look at its two neighbours only.
-/

namespace UrlFilter.Regex

/-- A position in a text. -/
structure Cursor where
  /-- What precedes the position, its last character first. -/
  before : Text
  /-- What follows the position. -/
  after : Text
  deriving Repr, DecidableEq

namespace Cursor

/-- The start of a text. -/
def start (t : Text) : Cursor := ⟨[], t⟩

/-- The whole text. -/
def text (c : Cursor) : Text := c.before.reverse ++ c.after

/-- The position behind the next character. -/
def forward? (c : Cursor) : Option Cursor :=
  match c.after with
  | [] => none
  | x :: rest => some ⟨x :: c.before, rest⟩

/-- The position `n` characters back. -/
def back? : Nat → Cursor → Option Cursor
  | 0, c => some c
  | n + 1, ⟨x :: before, after⟩ => back? n ⟨before, x :: after⟩
  | _ + 1, ⟨[], _⟩ => none

/-- The positions from one on, given what lies on either side of it. -/
def onwardsFrom (before : Text) : Text → List Cursor
  | [] => [⟨before, []⟩]
  | x :: rest => ⟨before, x :: rest⟩ :: onwardsFrom (x :: before) rest

/-- This position and all that follow it. -/
def onwards (c : Cursor) : List Cursor := onwardsFrom c.before c.after

/-- The character in front of the position. -/
def previous? (c : Cursor) : Option Char := c.before.head?

/-- The character behind the position. -/
def next? (c : Cursor) : Option Char := c.after.head?

end Cursor

/-- A condition on a position. -/
inductive Look where
  | textStart
  | textEnd
  /-- The start of a line. With `crlf`, carriage returns end lines too, and none begins between one and
  the line feed behind it. -/
  | lineStart (crlf : Bool)
  | lineEnd (crlf : Bool)
  /-- Exactly one neighbour is a word character. -/
  | wordBoundary (unicode : Bool)
  | notWordBoundary (unicode : Bool)
  /-- A word begins here. -/
  | wordStart (unicode : Bool)
  | wordEnd (unicode : Bool)
  /-- No word character precedes. -/
  | wordStartHalf (unicode : Bool)
  | wordEndHalf (unicode : Bool)
  deriving Repr, DecidableEq

namespace Look

/-- A neighbour that is there and is a word character. -/
def isWordAt (unicode : Bool) (c : Option Char) : Bool :=
  c.any fun x => if unicode then Unicode.isWord x else x.isAlphanum || x == '_'

/-- The condition holds at the position. -/
def holds (l : Look) (c : Cursor) : Bool :=
  let p := c.previous?
  let n := c.next?
  match l with
  | textStart => p.isNone
  | textEnd => n.isNone
  | lineStart false => p.isNone || p == some '\n'
  | lineStart true => p.isNone || p == some '\n' || (p == some '\r' && n != some '\n')
  | lineEnd false => n.isNone || n == some '\n'
  | lineEnd true => n.isNone || n == some '\r' || (n == some '\n' && p != some '\r')
  | wordBoundary u => isWordAt u p != isWordAt u n
  | notWordBoundary u => isWordAt u p == isWordAt u n
  | wordStart u => !isWordAt u p && isWordAt u n
  | wordEnd u => isWordAt u p && !isWordAt u n
  | wordStartHalf u => !isWordAt u p
  | wordEndHalf u => !isWordAt u n

end Look

end UrlFilter.Regex
