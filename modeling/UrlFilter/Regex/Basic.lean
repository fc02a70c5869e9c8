import UrlFilter.Regex.CharClass
import UrlFilter.Regex.Cursor
import UrlFilter.Regex.Turns

/-!
# Regular expressions

The patterns without memory: classes, conditions on positions, sequence, choice and repetition.
`Regex.ends` lists the positions where a match from a given position may end, the preferred one first
and each once. A choice prefers its first branch, a greedy repetition more turns to fewer.
-/

namespace UrlFilter

/-- A pattern without memory. -/
inductive Regex where
  | empty
  /-- One character of a class. -/
  | one (s : Regex.CharClass)
  /-- A condition on the position, matching no character. -/
  | look (l : Regex.Look)
  | seq (a b : Regex)
  | alt (a b : Regex)
  /-- At least `lo` and, unless `hi` is absent, at most `hi` turns. -/
  | turns (r : Regex) (lo : Nat) (hi : Option Nat) (greedy : Bool)
  deriving Repr, DecidableEq

namespace Regex

/-! ## Matching -/

/-- The positions where a match from `c` may end, in order of preference. -/
def ends : Regex → Cursor → List Cursor
  | empty, c => [c]
  | one s, c =>
    match c.after with
    | [] => []
    | x :: rest => if s.mem x then [⟨x :: c.before, rest⟩] else []
  | look l, c => if l.holds c then [c] else []
  | seq a b, c => ((ends a c).flatMap (ends b)).eraseDups
  | alt a b, c => (ends a c ++ ends b c).eraseDups
  | turns r lo hi greedy, c => Turns.reached (ends r) (c.after.length + 1) lo hi greedy c

/-- The first match from a position on: where it starts and where it ends. -/
def find? (r : Regex) (c : Cursor) : Option (Cursor × Cursor) :=
  c.onwards.findSome? fun s => (r.ends s).head?.map fun e => (s, e)

/-- The pattern matches somewhere in the text. -/
def isMatch (r : Regex) (t : Text) : Bool :=
  (Cursor.start t).onwards.any fun s => !(r.ends s).isEmpty

/-- Counts matches from `c` on. A match without characters directly behind the last match does not
count; the search goes on one character further. -/
def countFrom (r : Regex) : Nat → Option Cursor → Cursor → Nat
  | 0, _, _ => 0
  | n + 1, last, c =>
    match r.find? c with
    | none => 0
    | some (s, e) =>
      if s = e ∧ last = some e then
        match c.forward?.bind r.find? with
        | none => 0
        | some (_, e) => 1 + countFrom r n (some e) e
      else 1 + countFrom r n (some e) e

/-- The number of matches in a text, from left to right and without overlap. -/
def count (r : Regex) (t : Text) : Nat := countFrom r (2 * t.length + 2) none (Cursor.start t)

/-! ## Building -/

/-- The sequence of the patterns of a list. -/
def seqAll : List Regex → Regex
  | [] => empty
  | r :: rs => rs.foldl seq r

/-- The choice between the patterns of a list, which is not empty. -/
def altAll : List Regex → Regex
  | [] => one .none
  | r :: rs => rs.foldl alt r

/-- The bytes that a compiled pattern takes, as counted for the limit on its size. As for classes it is an
estimate, over the automaton that runs backwards; that one does not tell groups apart. -/
def size : Regex → Nat
  | empty => 0
  | one s => s.size
  | look _ => 32
  | seq a b => size a + size b
  | alt a b => 32 + size a + size b
  | turns r lo hi _ =>
    let copies := match hi with
      | none => max lo 1
      | some h => h
    32 + copies * size r

end Regex

end UrlFilter
