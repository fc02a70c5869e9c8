import UrlFilter.Unicode.Property
import UrlFilter.Regex.Basic

/-!
# Escapes and bracketed classes

What a backslash introduces, and the classes between brackets: items, ranges, nested classes, POSIX
names and the set operations `&&`, `--` and `~~`, which bind to the left. In the spaced mode of a
pattern, blanks and comments between its signs count for nothing.
-/

namespace UrlFilter.Regex

/-! ## Spaced mode -/

/-- Drops blanks and comments; a comment runs from `#` to the end of its line. -/
def skipSpacing (inComment : Bool) : Text → Text
  | [] => []
  | c :: r =>
    if inComment then skipSpacing (c != '\n') r
    else if Text.isBlank c then skipSpacing false r
    else if c = '#' then skipSpacing true r
    else c :: r

/-- What follows the spacing, in the spaced mode; otherwise the text itself. -/
def skip (spaced : Bool) (s : Text) : Text := if spaced then skipSpacing false s else s

/-! ## Escapes -/

/-- The classes with a letter of their own: `\d`, `\w` and `\s`. -/
inductive Shorthand where
  | digit
  | word
  | blank
  deriving Repr, DecidableEq

/-- The ASCII word characters. -/
def asciiWord : List (Nat × Nat) := [(48, 57), (65, 90), (95, 95), (97, 122)]

/-- The class that a letter stands for. -/
def Shorthand.toClass (unicode : Bool) : Shorthand → CharClass
  | digit => if unicode then .digit else .ranges [(48, 57)]
  | word => if unicode then .word else .ranges asciiWord
  | blank => if unicode then .blank else .ranges [(9, 13), (32, 32)]

/-- What an escape stands for. -/
inductive Escape where
  | char (c : Char)
  | shorthand (s : Shorthand) (negated : Bool)
  | property (s : CharClass) (negated : Bool)
  | look (l : Look)
  deriving Repr, DecidableEq

/-- A character that a backslash may stand before without changing its meaning: ASCII, neither letter
nor digit nor angle bracket. -/
def isEscapable (c : Char) : Bool := c.toNat < 128 && !c.isAlphanum && c != '<' && c != '>'

/-- Reads up to the closing brace, without the spacing. -/
def upToBrace (spaced : Bool) : Nat → Text → Option (Text × Text)
  | 0, _ => none
  | n + 1, s =>
    match skip spaced s with
    | [] => none
    | '}' :: r => some ([], r)
    | c :: r => (upToBrace spaced n r).map fun (t, r) => (c :: t, r)

/-- Reads `n` hexadecimal digits. -/
def hexDigits (spaced : Bool) : Nat → Text → Option (Text × Text)
  | 0, s => some ([], s)
  | n + 1, s =>
    match skip spaced s with
    | [] => none
    | c :: r =>
      if (Text.hexDigit? c).isSome then (hexDigits spaced n r).map fun (t, r) => (c :: t, r)
      else none

/-- Reads the number of a character: digits between braces, or as many as the letter asks for. -/
def hexEscape (spaced : Bool) (digits : Nat) (s : Text) : Option (Escape × Text) :=
  let number := match skip spaced s with
    | '{' :: r => upToBrace spaced r.length r
    | r => hexDigits spaced digits r
  number.bind fun (t, r) =>
    ((Text.hexToNat? t).bind Text.charOfNat?).map fun c => (.char c, r)

/-- Reads what follows `\p`: one letter, or a name between braces. -/
def propertyEscape (spaced negated : Bool) (s : Text) : Option (Escape × Text) :=
  match skip spaced s with
  | [] => none
  | '{' :: r =>
    (upToBrace spaced r.length r).bind fun (name, r) =>
      (Unicode.property? name).map fun cls => (.property cls negated, r)
  | '\\' :: _ => none
  | c :: r => (Unicode.named? [c]).map fun cls => (.property cls negated, r)

/-- A character of the name of a word condition. -/
def isConditionChar (c : Char) : Bool := c.isAlpha || c = '-'

/-- Reads what follows `\b`: a name between braces picks another condition on words. Braces that
begin otherwise are left alone. -/
def boundaryEscape (spaced : Bool) (s : Text) : Option (Escape × Text) :=
  match s with
  | '{' :: r =>
    match skip spaced r with
    | [] => none
    | c :: _ =>
      if !isConditionChar c then some (.look (.wordBoundary true), s)
      else
        (upToBrace spaced r.length r).bind fun (name, rest) =>
          if name = "start".toList then some (.look (.wordStart true), rest)
          else if name = "end".toList then some (.look (.wordEnd true), rest)
          else if name = "start-half".toList then some (.look (.wordStartHalf true), rest)
          else if name = "end-half".toList then some (.look (.wordEndHalf true), rest)
          else none
  | _ => some (.look (.wordBoundary true), s)

/-- Reads what follows a backslash. -/
def escape? (spaced : Bool) : Text → Option (Escape × Text)
  | [] => none
  | c :: r =>
    if c = 'x' then hexEscape spaced 2 r
    else if c = 'u' then hexEscape spaced 4 r
    else if c = 'U' then hexEscape spaced 8 r
    else if c = 'p' then propertyEscape spaced false r
    else if c = 'P' then propertyEscape spaced true r
    else if c = 'd' then some (.shorthand .digit false, r)
    else if c = 'D' then some (.shorthand .digit true, r)
    else if c = 'w' then some (.shorthand .word false, r)
    else if c = 'W' then some (.shorthand .word true, r)
    else if c = 's' then some (.shorthand .blank false, r)
    else if c = 'S' then some (.shorthand .blank true, r)
    else if isEscapable c then some (.char c, r)
    else if c = 'a' then some (.char '\x07', r)
    else if c = 'f' then some (.char '\x0c', r)
    else if c = 't' then some (.char '\t', r)
    else if c = 'n' then some (.char '\n', r)
    else if c = 'r' then some (.char '\r', r)
    else if c = 'v' then some (.char '\x0b', r)
    else if c = 'A' then some (.look .textStart, r)
    else if c = 'z' then some (.look .textEnd, r)
    else if c = 'b' then boundaryEscape spaced r
    else if c = 'B' then some (.look (.notWordBoundary true), r)
    else if c = '<' then some (.look (.wordStart true), r)
    else if c = '>' then some (.look (.wordEnd true), r)
    else none

/-! ## Bracketed classes -/

/-- An operation on two classes. -/
inductive SetOp where
  | inter
  | diff
  | symmDiff
  deriving Repr, DecidableEq

/-- The contents of a bracketed class. -/
inductive ClassExpr where
  | nothing
  | range (lo hi : Char)
  | shorthand (s : Shorthand) (negated : Bool)
  | posix (rs : List (Nat × Nat)) (negated : Bool)
  | property (s : CharClass) (negated : Bool)
  | bracket (negated : Bool) (e : ClassExpr)
  | union (a b : ClassExpr)
  | op (k : SetOp) (a b : ClassExpr)
  deriving Repr, DecidableEq

/-- The ranges of the POSIX classes. -/
def posixRanges : List (String × List (Nat × Nat)) := [
  ("alnum", [(48, 57), (65, 90), (97, 122)]),
  ("alpha", [(65, 90), (97, 122)]),
  ("ascii", [(0, 127)]),
  ("blank", [(9, 9), (32, 32)]),
  ("cntrl", [(0, 31), (127, 127)]),
  ("digit", [(48, 57)]),
  ("graph", [(33, 126)]),
  ("lower", [(97, 122)]),
  ("print", [(32, 126)]),
  ("punct", [(33, 47), (58, 64), (91, 96), (123, 126)]),
  ("space", [(9, 13), (32, 32)]),
  ("upper", [(65, 90)]),
  ("word", asciiWord),
  ("xdigit", [(48, 57), (65, 70), (97, 102)])]

/-- Reads a POSIX class behind its opening bracket. -/
def posixClass? (s : Text) : Option (ClassExpr × Text) :=
  (Text.after? [':'] s).bind fun s =>
    let (negated, s) := match Text.after? ['^'] s with
      | some r => (true, r)
      | none => (false, s)
    (Text.splitFirst ':' s).bind fun (name, r) =>
      (Text.after? [']'] r).bind fun r =>
        (posixRanges.find? fun (n, _) => n.toList == name).map fun (_, rs) => (.posix rs negated, r)

/-- Reads the signs at the start of a class that stand for themselves: hyphens, or else one closing
bracket. -/
def leadingItems (spaced : Bool) : Nat → Bool → ClassExpr → Text → Option (ClassExpr × Text)
  | 0, _, _, _ => none
  | n + 1, isFirst, acc, s =>
    match s with
    | [] => none
    | '-' :: r => leadingItems spaced n false (.union acc (.range '-' '-')) (skip spaced r)
    | ']' :: r =>
      if isFirst then
        let r := skip spaced r
        if r.isEmpty then none else some (.union acc (.range ']' ']'), r)
      else some (acc, s)
    | _ => some (acc, s)

/-- Reads the start of a class behind its opening bracket: whether it is negated, and its leading
items. -/
def bracketStart (spaced : Bool) (s : Text) : Option (Bool × ClassExpr × Text) :=
  let s := skip spaced s
  let (negated, s) := match s with
    | '^' :: r => (true, skip spaced r)
    | _ => (false, s)
  (leadingItems spaced (s.length + 1) true .nothing s).map fun (e, r) => (negated, e, r)

/-- Reads a character or an escape in a class. -/
def classItem (spaced : Bool) : Text → Option (Escape × Text)
  | [] => none
  | '\\' :: r => escape? spaced r
  | c :: r => some (.char c, r)

/-- An escape as the item of a class; a condition is none. -/
def Escape.toItem : Escape → Option ClassExpr
  | char c => some (.range c c)
  | shorthand s negated => some (.shorthand s negated)
  | property s negated => some (.property s negated)
  | look _ => none

/-- Reads an item of a class or a range between two characters. A hyphen before another hyphen or a
closing bracket makes no range. -/
def classRange (spaced : Bool) (s : Text) : Option (ClassExpr × Text) :=
  (classItem spaced s).bind fun (first, r) =>
    match skip spaced r with
    | [] => none
    | '-' :: r' =>
      match (skip spaced r').head? with
      | none => none
      | some ']' => first.toItem.map fun e => (e, '-' :: r')
      | some '-' => first.toItem.map fun e => (e, '-' :: r')
      | some _ =>
        (classItem spaced (skip spaced r')).bind fun (second, r'') =>
          match first, second with
          | .char lo, .char hi => if lo ≤ hi then some (.range lo hi, r'') else none
          | _, _ => none
    | r' => first.toItem.map fun e => (e, r')

/-- The class read so far, with the operation that waits for its second operand. -/
def applyPending (pending : Option (SetOp × ClassExpr)) (e : ClassExpr) : ClassExpr :=
  match pending with
  | none => e
  | some (k, a) => .op k a e

/-- Reads the items of a class up to its closing bracket. -/
def classItems (spaced : Bool) :
    Nat → ClassExpr → Option (SetOp × ClassExpr) → Text → Option (ClassExpr × Text)
  | 0, _, _, _ => none
  | n + 1, acc, pending, s =>
    match skip spaced s with
    | [] => none
    | ']' :: r => some (applyPending pending acc, r)
    | '[' :: r =>
      match posixClass? r with
      | some (e, r) => classItems spaced n (.union acc e) pending r
      | none =>
        -- No name of a class stands there, so that a class inside of this one begins.
        (bracketStart spaced r).bind fun (negated, first, r) =>
          (classItems spaced n first none r).bind fun (e, r) =>
            classItems spaced n (.union acc (.bracket negated e)) pending r
    | '&' :: '&' :: r => classItems spaced n .nothing (some (.inter, applyPending pending acc)) r
    | '-' :: '-' :: r => classItems spaced n .nothing (some (.diff, applyPending pending acc)) r
    | '~' :: '~' :: r => classItems spaced n .nothing (some (.symmDiff, applyPending pending acc)) r
    | s => (classRange spaced s).bind fun (e, r) => classItems spaced n (.union acc e) pending r

/-- Reads a class behind its opening bracket. -/
def bracketClass (spaced : Bool) (s : Text) : Option (ClassExpr × Text) :=
  (bracketStart spaced s).bind fun (negated, first, r) =>
    (classItems spaced (r.length + 1) first none r).map fun (e, r) => (.bracket negated e, r)

/-! ## The classes of expressions -/

/-- The class closed under case folding, where case is ignored. -/
def closeCase (ignoreCase : Bool) (s : CharClass) : CharClass := if ignoreCase then .folded s else s

/-- The complement of the class, where it is negated. -/
def negateIf (negated : Bool) (s : CharClass) : CharClass := if negated then .compl s else s

namespace ClassExpr

/-- The class of an expression; properties have one in Unicode mode only. Case is closed before a
negation, and in both operands before a set operation. -/
def toClass (ignoreCase unicode : Bool) : ClassExpr → Option CharClass
  | nothing => some .none
  | range lo hi => some (.ranges [(lo.toNat, hi.toNat)])
  | shorthand s negated => some (negateIf negated (s.toClass unicode))
  | posix rs negated => some (negateIf negated (closeCase ignoreCase (.ranges rs)))
  | property s negated =>
    if unicode then some (negateIf negated (closeCase ignoreCase s)) else none
  | bracket negated e =>
    (e.toClass ignoreCase unicode).map fun s => negateIf negated (closeCase ignoreCase s)
  | union a b =>
    (a.toClass ignoreCase unicode).bind fun s =>
      (b.toClass ignoreCase unicode).map fun t => .union s t
  | op k a b =>
    (a.toClass ignoreCase unicode).bind fun s =>
      (b.toClass ignoreCase unicode).map fun t =>
        let s := closeCase ignoreCase s
        let t := closeCase ignoreCase t
        match k with
        | .inter => .inter s t
        | .diff => .diff s t
        | .symmDiff => .symmDiff s t

end ClassExpr

end UrlFilter.Regex
