import UrlFilter.Backtrack.Token

/-!
# Reading a pattern with memory

The signs of a pattern are read one at a time and fed to a state that holds the open groups. Unlike in
a pattern without memory, modes switched in a capturing group stay switched behind it; only a group
with modes of its own returns to those in front of it.
-/

namespace UrlFilter.Backtrack

open Regex (Look)

/-- The modes in force. -/
structure Modes where
  ignoreCase : Bool := false
  multiLine : Bool := false
  dotAll : Bool := false
  lazyFirst : Bool := false
  spaced : Bool := false
  deriving Repr, DecidableEq

/-- The modes after one change. -/
def Modes.change (m : Modes) : Mode × Bool → Modes
  | (.ignoreCase, on) => { m with ignoreCase := on }
  | (.multiLine, on) => { m with multiLine := on }
  | (.dotAll, on) => { m with dotAll := on }
  | (.lazyFirst, on) => { m with lazyFirst := on }
  | (.spaced, on) => { m with spaced := on }

/-- What an open group is. -/
inductive Group where
  | capture (k : Nat)
  | modes (saved : Modes)
  | around (k : Around)
  | atomic
  /-- The expression of a condition. -/
  | condition
  /-- The branches behind a condition. -/
  | branches (condition : Expr)

/-- A choice that is being read: the finished branches and the parts of the current one, the latest
first. -/
structure Choice where
  branches : List Expr := []
  parts : List Expr := []

/-- An open group with the choice around it. -/
structure Frame where
  group : Group
  outer : Choice

/-- What has been read of a pattern. -/
structure Reading where
  modes : Modes := {}
  /-- The number of capturing groups opened. -/
  groups : Nat := 0
  names : List (Text × Nat) := []
  /-- A group has been referred to by its number. -/
  numbered : Bool := false
  /-- The groups that something refers to. -/
  refs : List Nat := []
  frames : List Frame := []
  choice : Choice := {}
  /-- The last part may be repeated. -/
  afterAtom : Bool := false

/-- The parts of a branch as one expression; empty ones count for nothing. -/
def branchOf (parts : List Expr) : Expr :=
  match parts.filter (!·.isEmpty) with
  | [] => .empty
  | [e] => e
  | es => .concat es

namespace Reading

/-- The largest number of groups open at a time, plus one. -/
def maxDepth : Nat := 64

/-- The reading with one more part in the current branch. -/
def part (s : Reading) (e : Expr) : Reading :=
  { s with choice := { s.choice with parts := e :: s.choice.parts }, afterAtom := true }

/-- The expression of the choice that ends here. A pattern without `|` at its level may not have both
references by number and named groups. -/
def finish (s : Reading) : Option Expr :=
  let last := branchOf s.choice.parts.reverse
  match s.choice.branches with
  | [] => if s.numbered && !s.names.isEmpty then none else some last
  | bs => some (.alt (last :: bs).reverse)

/-- The reading with a new group open. -/
def enter (s : Reading) (g : Group) : Option Reading :=
  if s.frames.length + 1 < maxDepth then
    some { s with frames := ⟨g, s.choice⟩ :: s.frames, choice := {}, afterAtom := false }
  else none

/-- The group that a name stands for: a named group, a number, or a number of groups to go back. -/
def groupOf (s : Reading) (name : Text) : Option Nat :=
  match s.names.find? (·.1 == name) with
  | some (_, k) => some k
  | none =>
    match name with
    | '-' :: digits =>
      (Text.toNat? digits).bind fun n => if n ≤ s.groups + 1 then some (s.groups + 1 - n) else none
    | _ => Text.toNat? name

/-- The reading that refers to group `k`, which has to be open or closed already. -/
def refer (s : Reading) (k : Nat) : Option Reading :=
  if k ≤ s.groups then some { s with refs := k :: s.refs } else none

/-- The reading that refers to a group by its number. -/
def referByNumber (s : Reading) (k : Nat) : Option Reading := { s with numbered := true }.refer k

/-- The condition that an expression in its place stands for. -/
def conditionOf : Expr → Expr
  | .reference k => .captured k
  | e => e

/-- The expression of a condition and the choice behind it: its first branch is taken when the
condition holds, the others when not. -/
def conditionalOf (c : Expr) (body : Expr) : Expr :=
  let (t, f) := match body with
    | .alt [t, f] => (t, f)
    | .alt (t :: fs) => (t, .alt fs)
    | e => (e, .empty)
  if t.isEmpty && f.isEmpty then conditionOf c else .conditional (conditionOf c) t f

/-- The condition is on a group. -/
def isReference : Expr → Bool
  | .reference _ => true
  | _ => false

/-- The reading after the innermost group is closed. -/
def leave (s : Reading) : Option Reading :=
  s.finish.bind fun e =>
    match s.frames with
    | [] => none
    | f :: frames =>
      let s' := { s with frames := frames, choice := f.outer }
      match f.group with
      | .capture k => some (s'.part (.group k e))
      | .modes saved => some ({ s' with modes := saved }.part e)
      | .around k => some (s'.part (.around k e))
      | .atomic => some (s'.part (.atomic e))
      | .condition =>
        some { s with
          frames := ⟨.branches e, f.outer⟩ :: frames, choice := {}, afterAtom := false }
      | .branches c =>
        if s.choice.branches.isEmpty && s.choice.parts.isEmpty then
          if isReference c then some (s'.part (conditionOf c)) else none
        else some (s'.part (conditionalOf c e))

/-- The reading with the last part repeated. -/
def repeated (s : Reading) (lo : Nat) (hi : Option Nat) (isLazy possessive : Bool) :
    Option Reading :=
  match s.choice.parts with
  | e :: parts =>
    if s.afterAtom && e.isRepeatable then
      let r := Expr.turns e lo hi (isLazy == s.modes.lazyFirst)
      let r := if possessive then Expr.atomic r else r
      some { s with choice := { s.choice with parts := r :: parts }, afterAtom := false }
    else none
  | [] => none

/-- The reading after a sign, unless the sign cannot stand there. -/
def feed (s : Reading) : Token → Option Reading
  | .literal c folds => some (s.part (.literal c (folds && s.modes.ignoreCase)))
  | .any => some (s.part (.any s.modes.dotAll))
  | .caret => some (s.part (.look (if s.modes.multiLine then .lineStart false else .textStart)))
  | .dollar => some (s.part (.look (if s.modes.multiLine then .lineEnd false else .textEnd)))
  | .look l => some (s.part (.look l))
  | .set source folds => some (s.part (.set source (folds && s.modes.ignoreCase)))
  | .keepOut => some (s.part .keepOut)
  | .searchStart => some (s.part .searchStart)
  | .reference k => (s.referByNumber k).map (·.part (.reference k))
  | .namedReference name =>
    (s.groupOf name).bind fun k => (s.refer k).map (·.part (.reference k))
  | .openCapture name =>
    let k := s.groups + 1
    let names := match name with
      | some t => (t, k) :: s.names
      | none => s.names
    { s with groups := k, names := names }.enter (.capture k)
  | .openAround k => s.enter (.around k)
  | .openAtomic => s.enter .atomic
  | .openModes changes =>
    (s.enter (.modes s.modes)).map fun s' =>
      { s' with modes := changes.foldl Modes.change s.modes }
  | .setModes changes => some ({ s with modes := changes.foldl Modes.change s.modes }.part .empty)
  | .openCondition (.number k) =>
    (s.referByNumber k).bind (·.enter (.branches (.reference k)))
  | .openCondition (.name t) =>
    (s.groupOf t).bind fun k => (s.refer k).bind (·.enter (.branches (.reference k)))
  | .openCondition .expression => s.enter .condition
  | .close => s.leave
  | .bar =>
    some { s with
      choice := ⟨branchOf s.choice.parts.reverse :: s.choice.branches, []⟩, afterAtom := false }
  | .turns lo hi isLazy possessive => s.repeated lo hi isLazy possessive

/-- Reads a text to its end; `size` is the number of bytes of the whole pattern. -/
def run (size : Nat) : Nat → Reading → Text → Option Reading
  | 0, _, _ => none
  | n + 1, s, t =>
    (skip s.modes.spaced t).bind fun t =>
      match t with
      | [] => some s
      | t =>
        (Token.next s.modes.spaced s.afterAtom size t).bind fun (token, t) =>
          (s.feed token).bind (run size n · t)

end Reading

/-- The expression of a text and the groups that it refers to. -/
def parse? (t : Text) : Option (Expr × List Nat) :=
  (Reading.run (Text.byteLength t) (t.length + 1) {} t).bind fun s =>
    if s.frames.isEmpty then s.finish.map fun e => (e, s.refs) else none

end UrlFilter.Backtrack
