import UrlFilter.Regex.Bracket

/-!
# Signs of a pattern

The signs that a pattern without memory is made of, and how the next one is read off its text.
-/

namespace UrlFilter.Regex

/-- The modes that a pattern can switch. -/
inductive Mode where
  | ignoreCase
  | multiLine
  | dotAll
  | lazyFirst
  | unicode
  | crlf
  | spaced
  deriving Repr, DecidableEq

/-- A sign of a pattern. -/
inductive Token where
  | char (c : Char)
  | any
  | caret
  | dollar
  | look (l : Look)
  | shorthand (s : Shorthand) (negated : Bool)
  | property (s : CharClass) (negated : Bool)
  | bracket (e : ClassExpr)
  /-- The start of a capturing group. -/
  | openCapture (name : Option Text)
  /-- The start of a group with its own modes. -/
  | openModes (changes : List (Mode × Bool))
  /-- A change of modes for the rest of the group. -/
  | setModes (changes : List (Mode × Bool))
  | close
  | bar
  | turns (lo : Nat) (hi : Option Nat) (greedy : Bool)
  deriving Repr, DecidableEq

namespace Token

/-- An escape as a sign. -/
def ofEscape : Escape → Token
  | .char c => char c
  | .shorthand s negated => shorthand s negated
  | .property s negated => property s negated
  | .look l => look l

/-! ## Counted repetition -/

/-- The largest bound of a repetition. -/
def maxTurns : Nat := 4294967295

/-- The digits at the start of a text, without the spacing between them. -/
def digits (spaced : Bool) : Nat → Text → Text × Text
  | 0, s => ([], s)
  | n + 1, s =>
    match s with
    | [] => ([], [])
    | c :: r =>
      if c.isDigit then
        let (ds, r) := digits spaced n (skip spaced r)
        (c :: ds, r)
      else ([], s)

/-- Reads a number with blanks around it. -/
def bound? (spaced : Bool) (s : Text) : Option (Nat × Text) :=
  let s := Text.trimStart s
  let (ds, r) := digits spaced s.length s
  (Text.toNat? ds).bind fun n =>
    if n ≤ maxTurns then some (n, skip spaced (Text.trimStart r)) else none

/-- A question mark makes a repetition prefer fewer turns. -/
def preference (s : Text) : Bool × Text :=
  match s with
  | '?' :: r => (false, r)
  | _ => (true, s)

/-- Reads the rest of a counted repetition behind its opening brace. -/
def counted (spaced : Bool) (s : Text) : Option (Token × Text) :=
  let finish (lo : Nat) (hi : Option Nat) (s : Text) : Option (Token × Text) :=
    match s with
    | '}' :: r =>
      let (greedy, r) := preference (skip spaced r)
      if hi.all (lo ≤ ·) then some (turns lo hi greedy, r) else none
    | _ => none
  (bound? spaced (skip spaced s)).bind fun (lo, r) =>
    match r with
    | ',' :: r =>
      match skip spaced r with
      | '}' :: r => finish lo none ('}' :: r)
      | r => (bound? spaced r).bind fun (hi, r) => finish lo (some hi) r
    | r => finish lo (some lo) r

/-! ## Groups -/

/-- A character of the name of a group. -/
def isNameChar (isFirst : Bool) (c : Char) : Bool :=
  c == '_' ||
    if isFirst then Unicode.isAlphabetic c
    else c == '.' || c == '[' || c == ']' || Unicode.isAlphanumeric c

/-- Reads the name of a group up to the closing angle bracket. -/
def groupName (s : Text) : Option (Text × Text) :=
  (Text.splitFirst '>' s).bind fun (name, r) =>
    match name with
    | [] => none
    | c :: rest =>
      if isNameChar true c && rest.all (isNameChar false) then some (name, r) else none

/-- The mode that a letter names. -/
def mode? : Char → Option Mode
  | 'i' => some .ignoreCase
  | 'm' => some .multiLine
  | 's' => some .dotAll
  | 'U' => some .lazyFirst
  | 'u' => some .unicode
  | 'R' => some .crlf
  | 'x' => some .spaced
  | _ => none

/-- Reads the letters of a change of modes up to `:` or `)`. A hyphen, at most one and never last,
switches the modes behind it off; no letter occurs twice. The last part of the result tells the two
ends apart. -/
def modeChanges (on lastHyphen : Bool) (acc : List (Mode × Bool)) :
    Text → Option (List (Mode × Bool) × Bool × Text)
  | [] => none
  | ':' :: r => if lastHyphen then none else some (acc.reverse, true, r)
  | ')' :: r => if lastHyphen then none else some (acc.reverse, false, r)
  | '-' :: r => if on then modeChanges false true acc r else none
  | c :: r =>
    match mode? c with
    | none => none
    | some m =>
      if acc.any (·.1 == m) then none else modeChanges on false ((m, on) :: acc) r

/-- Reads the start of a group behind its parenthesis. Conditions on what lies around a position have
no place in a pattern without memory. -/
def group (spaced : Bool) (s : Text) : Option (Token × Text) :=
  match skip spaced s with
  | '?' :: '=' :: _ => none
  | '?' :: '!' :: _ => none
  | '?' :: '<' :: '=' :: _ => none
  | '?' :: '<' :: '!' :: _ => none
  | '?' :: 'P' :: '<' :: r => (groupName r).map fun (name, r) => (openCapture (some name), r)
  | '?' :: '<' :: r => (groupName r).map fun (name, r) => (openCapture (some name), r)
  | '?' :: r =>
    (modeChanges true false [] r).bind fun (changes, opens, r) =>
      if opens then some (openModes changes, r)
      else if changes.isEmpty then none
      else some (setModes changes, r)
  | s => some (openCapture none, s)

/-- Reads the next sign of a text that does not start with spacing. -/
def next (spaced : Bool) : Text → Option (Token × Text)
  | [] => none
  | '(' :: r => group spaced r
  | ')' :: r => some (close, r)
  | '|' :: r => some (bar, r)
  | '[' :: r => (bracketClass spaced r).map fun (e, r) => (bracket e, r)
  | '?' :: r => let (greedy, r) := preference r; some (turns 0 (some 1) greedy, r)
  | '*' :: r => let (greedy, r) := preference r; some (turns 0 none greedy, r)
  | '+' :: r => let (greedy, r) := preference r; some (turns 1 none greedy, r)
  | '{' :: r => counted spaced r
  | '\\' :: r => (escape? spaced r).map fun (e, r) => (ofEscape e, r)
  | '.' :: r => some (any, r)
  | '^' :: r => some (caret, r)
  | '$' :: r => some (dollar, r)
  | c :: r => some (char c, r)

end Token

end UrlFilter.Regex
