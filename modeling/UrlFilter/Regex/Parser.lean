import UrlFilter.Regex.Token

/-!
# Reading a pattern without memory

The signs of a pattern are read one at a time and fed to a state that holds the open groups. Modes
switched in a group hold to its end, in the branches behind the switch too. `Regex.compile?` is the
whole reader: the pattern of a text, unless the text is malformed, nested too deeply, or larger than a
limit when compiled.
-/

namespace UrlFilter.Regex

/-- The modes in force. -/
structure Modes where
  ignoreCase : Bool := false
  multiLine : Bool := false
  dotAll : Bool := false
  lazyFirst : Bool := false
  unicode : Bool := true
  crlf : Bool := false
  spaced : Bool := false
  deriving Repr, DecidableEq

namespace Modes

/-- The modes after one change. -/
def change (m : Modes) : Mode × Bool → Modes
  | (.ignoreCase, on) => { m with ignoreCase := on }
  | (.multiLine, on) => { m with multiLine := on }
  | (.dotAll, on) => { m with dotAll := on }
  | (.lazyFirst, on) => { m with lazyFirst := on }
  | (.unicode, on) => { m with unicode := on }
  | (.crlf, on) => { m with crlf := on }
  | (.spaced, on) => { m with spaced := on }

/-- A class of single bytes is a class of characters when it holds ASCII alone. -/
def asciiOnly? (s : CharClass) : Option CharClass :=
  if (List.range 128).any fun n => s.mem (Char.ofNat (128 + n)) then none
  else some (.inter s (.ranges [(0, 127)]))

/-- The class as these modes admit it: outside Unicode mode, ASCII alone. -/
def admit? (m : Modes) (s : CharClass) : Option CharClass :=
  if m.unicode then some s else asciiOnly? s

/-- The class of a literal character. -/
def literal (m : Modes) (c : Char) : CharClass :=
  if m.unicode then .literal m.ignoreCase c
  else if m.ignoreCase then
    .ranges [(c.toLower.toNat, c.toLower.toNat), (c.toUpper.toNat, c.toUpper.toNat)]
  else .single c

/-- The class of the dot: all characters, or all but those that end lines. -/
def dot (m : Modes) : CharClass :=
  if m.dotAll then .all
  else if m.crlf then .compl (.ranges [(10, 10), (13, 13)])
  else .compl (.ranges [(10, 10)])

/-- The condition that `^` stands for. -/
def caret (m : Modes) : Look := if m.multiLine then .lineStart m.crlf else .textStart

/-- The condition that `$` stands for. -/
def dollar (m : Modes) : Look := if m.multiLine then .lineEnd m.crlf else .textEnd

/-- The condition with the words of these modes. -/
def words (m : Modes) : Look → Look
  | .wordBoundary _ => .wordBoundary m.unicode
  | .notWordBoundary _ => .notWordBoundary m.unicode
  | .wordStart _ => .wordStart m.unicode
  | .wordEnd _ => .wordEnd m.unicode
  | .wordStartHalf _ => .wordStartHalf m.unicode
  | .wordEndHalf _ => .wordEndHalf m.unicode
  | l => l

end Modes

/-- A part of a branch: a change of modes, or a pattern with the depth of its nesting. -/
inductive Part where
  | switch
  | node (r : Regex) (depth : Nat)
  deriving Repr, DecidableEq

/-- The pattern of a part; a change of modes has none. -/
def Part.regex? : Part → Option Regex
  | switch => none
  | node r _ => some r

/-- The depth of a part. -/
def Part.depth : Part → Nat
  | switch => 0
  | node _ d => d

/-- A choice that is being read: the finished branches and the parts of the current one, the latest
first. -/
structure Choice where
  branches : List (Regex × Nat) := []
  parts : List Part := []
  deriving Repr, DecidableEq

namespace Choice

/-- The current branch. -/
def branch (c : Choice) : Regex × Nat :=
  let parts := c.parts.reverse
  let depth := (parts.map Part.depth).foldl max 0
  (seqAll (parts.filterMap Part.regex?), if parts.length < 2 then depth else depth + 1)

/-- The whole choice. -/
def finish (c : Choice) : Regex × Nat :=
  match c.branches with
  | [] => c.branch
  | bs =>
    let all := (c.branch :: bs).reverse
    (altAll (all.map Prod.fst), (all.map Prod.snd).foldl max 0 + 1)

/-- The choice with one more part. -/
def push (c : Choice) (p : Part) : Choice := { c with parts := p :: c.parts }

end Choice

/-- An open group: the modes to return to and the choice around it. -/
structure Frame where
  modes : Modes
  outer : Choice
  deriving Repr, DecidableEq

/-- What has been read of a pattern. -/
structure Reading where
  modes : Modes
  names : List Text := []
  frames : List Frame := []
  choice : Choice := {}
  deriving Repr, DecidableEq

namespace Reading

/-- The reading with one more pattern in the current branch. -/
def node (s : Reading) (r : Regex) : Reading := { s with choice := s.choice.push (.node r 0) }

/-- The reading with a class in the current branch. -/
def cls (s : Reading) (c : Option CharClass) : Option Reading :=
  (c.bind s.modes.admit?).map fun c => s.node (.one c)

/-- The reading with a new group open. -/
def enter (s : Reading) (changes : List (Mode × Bool)) : Reading :=
  { s with
    modes := changes.foldl Modes.change s.modes
    frames := ⟨s.modes, s.choice⟩ :: s.frames
    choice := {} }

/-- The reading after a sign, unless the sign cannot stand there. -/
def feed (s : Reading) : Token → Option Reading
  | .char c => some (s.node (.one (s.modes.literal c)))
  | .any => s.cls (some s.modes.dot)
  | .caret => some (s.node (.look s.modes.caret))
  | .dollar => some (s.node (.look s.modes.dollar))
  | .look l => some (s.node (.look (s.modes.words l)))
  | .shorthand c negated => s.cls (some (negateIf negated (c.toClass s.modes.unicode)))
  | .property c negated =>
    if s.modes.unicode then
      s.cls (some (negateIf negated (closeCase s.modes.ignoreCase c)))
    else none
  | .bracket e => s.cls (e.toClass s.modes.ignoreCase s.modes.unicode)
  | .openCapture none => some (s.enter [])
  | .openCapture (some name) =>
    if s.names.contains name then none else some { s.enter [] with names := name :: s.names }
  | .openModes changes => some (s.enter changes)
  | .setModes changes =>
    some { s with
      modes := changes.foldl Modes.change s.modes
      choice := s.choice.push .switch }
  | .close =>
    match s.frames with
    | [] => none
    | f :: frames =>
      let (r, depth) := s.choice.finish
      some { s with
        modes := f.modes
        frames := frames
        choice := f.outer.push (.node r (depth + 1)) }
  | .bar =>
    some { s with choice := ⟨s.choice.branch :: s.choice.branches, []⟩ }
  | .turns lo hi greedy =>
    match s.choice.parts with
    | .node r depth :: parts =>
      let r := Regex.turns r lo hi (greedy != s.modes.lazyFirst)
      some { s with choice := { s.choice with parts := .node r (depth + 1) :: parts } }
    | _ => none

/-- Reads a text to its end. -/
def run : Nat → Reading → Text → Option Reading
  | 0, _, _ => none
  | n + 1, s, t =>
    match skip s.modes.spaced t with
    | [] => some s
    | t => (Token.next s.modes.spaced t).bind fun (token, t) => (s.feed token).bind (run n · t)

end Reading

/-- The deepest nesting of a pattern. -/
def maxDepth : Nat := 250

/-- The pattern of a text, read in the given modes. -/
def parse? (modes : Modes) (t : Text) : Option Regex :=
  (Reading.run (t.length + 1) { modes := modes } t).bind fun s =>
    if s.frames.isEmpty then
      let (r, depth) := s.choice.finish
      if depth ≤ maxDepth then some r else none
    else none

/-- The usual limit on the size of a compiled pattern. -/
def usualLimit : Nat := 10 * 1024 * 1024

/-- The pattern of a text, when it compiles within the limit. -/
def compile? (ignoreCase : Bool) (limit : Nat) (t : Text) : Option Regex :=
  (parse? { ignoreCase := ignoreCase } t).filter (·.size ≤ limit)

/-- The pattern of a text that stands alone. -/
def alone? (t : Text) : Option Regex := compile? false usualLimit t

/-- The characters that are more than themselves somewhere in a pattern. -/
def signs : Text := "\\.+*?()|[]\x7b\x7d^$#&-~".toList

/-- The pattern of a text that stands for itself. -/
def escape (t : Text) : Text := t.flatMap fun c => if signs.contains c then ['\\', c] else [c]

end UrlFilter.Regex
