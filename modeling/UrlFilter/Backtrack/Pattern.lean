import UrlFilter.Regex.Basic
import UrlFilter.Backtrack.Expr

/-!
# Patterns with memory

The form in which a pattern with memory is matched. `Pattern.ways` lists the ways in which it matches
from a state on, the preferred one first. Parts that need no memory are patterns without memory; where
nothing behind such a part can ask it for another way, only its first one counts.
-/

namespace UrlFilter.Backtrack

open Regex (Cursor)

/-- A pattern with memory, ready to be matched. -/
inductive Pattern where
  | empty
  | plain (r : Regex)
  /-- The first way of a pattern and no other. -/
  | first (p : Pattern)
  | seq (a b : Pattern)
  | alt (a b : Pattern)
  | turns (p : Pattern) (lo : Nat) (hi : Option Nat) (greedy : Bool)
  /-- Remembers the text matched as that of group `k`. -/
  | capture (k : Nat) (p : Pattern)
  | reference (k : Nat)
  | ahead (p : Pattern)
  | notAhead (p : Pattern)
  /-- Matches `p` from `n` characters back. -/
  | behind (n : Nat) (p : Pattern)
  | notBehind (n : Nat) (p : Pattern)
  | captured (k : Nat)
  | conditional (c t f : Pattern)
  | searchStart
  deriving Repr

/-- A position and the texts of the groups that have matched. -/
structure State where
  cursor : Cursor
  groups : List (Nat × Text)
  deriving Repr, DecidableEq

namespace State

/-- The text that group `k` matched last. -/
def group? (s : State) (k : Nat) : Option Text := s.groups.lookup k

/-- The state with the text of a group. -/
def remember (s : State) (k : Nat) (t : Text) : State :=
  { s with groups := (k, t) :: s.groups.filter (·.1 != k) }

/-- The text between an earlier position and this one. -/
def textFrom (s : State) (c : Cursor) : Text :=
  (s.cursor.before.take (s.cursor.before.length - c.before.length)).reverse

/-- The state behind a text, when that text follows. -/
def skipText? (s : State) (t : Text) : Option State :=
  (Text.after? t s.cursor.after).map fun rest =>
    { s with cursor := ⟨t.reverse ++ s.cursor.before, rest⟩ }

end State

namespace Pattern

/-- The ways in which the pattern matches from a state on, as the states behind the match. -/
def ways : Pattern → State → List State
  | empty, s => [s]
  | plain r, s => (r.ends s.cursor).map fun c => { s with cursor := c }
  | first p, s => (ways p s).take 1
  | seq a b, s => ((ways a s).flatMap (ways b)).eraseDups
  | alt a b, s => (ways a s ++ ways b s).eraseDups
  | turns p lo hi greedy, s =>
    Turns.reached (ways p) (2 * s.cursor.after.length + 2) lo hi greedy s
  | capture k p, s => (ways p s).map fun s' => s'.remember k (s'.textFrom s.cursor)
  | reference k, s => ((s.group? k).bind s.skipText?).toList
  | ahead p, s => ((ways p s).map fun s' => { s' with cursor := s.cursor }).eraseDups
  | notAhead p, s => if (ways p s).isEmpty then [s] else []
  | behind n p, s =>
    match s.cursor.back? n with
    | none => []
    | some c =>
      ((ways p { s with cursor := c }).map fun s' => { s' with cursor := s.cursor }).eraseDups
  | notBehind n p, s =>
    match s.cursor.back? n with
    | none => [s]
    | some c => if (ways p { s with cursor := c }).isEmpty then [s] else []
  | captured k, s => if k = 0 || (s.group? k).isSome then [s] else []
  | conditional c t f, s =>
    match ways c s with
    | s' :: _ => ways t s'
    | [] => ways f s
  | searchStart, s => if s.cursor.before.isEmpty then [s] else []

/-- The pattern matches somewhere in the text. -/
def isMatch (p : Pattern) (t : Text) : Bool :=
  (Cursor.start t).onwards.any fun c => !(p.ways ⟨c, []⟩).isEmpty

end Pattern

end UrlFilter.Backtrack
