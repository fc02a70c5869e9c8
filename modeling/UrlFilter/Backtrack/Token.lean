import UrlFilter.Backtrack.Expr

/-!
# Signs of a pattern with memory

The signs that a pattern with memory is made of, and how the next one is read off its text. A class is
kept as text; it is read when the pattern is put together.
-/

namespace UrlFilter.Backtrack

/-- The modes that a pattern with memory can switch. -/
inductive Mode where
  | ignoreCase
  | multiLine
  | dotAll
  | lazyFirst
  | spaced
  deriving Repr, DecidableEq

/-- The group that a condition asks for. -/
inductive Asked where
  | number (n : Nat)
  | name (t : Text)
  /-- No group; an expression follows that has to match. -/
  | expression
  deriving Repr, DecidableEq

/-- A sign of a pattern with memory. -/
inductive Token where
  | literal (c : Char) (folds : Bool)
  | any
  | caret
  | dollar
  | look (l : Regex.Look)
  | set (source : Text) (folds : Bool)
  | keepOut
  | searchStart
  | reference (n : Nat)
  | namedReference (name : Text)
  | openCapture (name : Option Text)
  | openAround (k : Around)
  | openAtomic
  | openModes (changes : List (Mode × Bool))
  | setModes (changes : List (Mode × Bool))
  | openCondition (asked : Asked)
  | close
  | bar
  | turns (lo : Nat) (hi : Option Nat) (isLazy possessive : Bool)
  deriving Repr, DecidableEq

/-! ## Spacing -/

/-- What the reader of spacing is in: nothing, a comment up to the end of the line, a comment between
parentheses, or an escape in one. -/
inductive Spacing where
  | none
  | lineComment
  | groupComment
  | escaped
  deriving Repr, DecidableEq

/-- Drops comments between parentheses and, in the spaced mode, blanks and comments up to the end of a
line. A comment between parentheses has to be closed. -/
def spacing (spaced : Bool) : Spacing → Text → Option Text
  | .none, [] => some []
  | .lineComment, [] => some []
  | .groupComment, [] => none
  | .escaped, [] => none
  | .lineComment, c :: r => spacing spaced (if c = '\n' then .none else .lineComment) r
  | .escaped, _ :: r => spacing spaced .groupComment r
  | .groupComment, c :: r =>
    spacing spaced (if c = ')' then .none else if c = '\\' then .escaped else .groupComment) r
  | .none, c :: r =>
    if spaced && c = '#' then spacing spaced .lineComment r
    else if spaced && (c = ' ' || c = '\r' || c = '\n' || c = '\t') then spacing spaced .none r
    else
      match c, r with
      | '(', '?' :: '#' :: r => spacing spaced .groupComment r
      | _, _ => some (c :: r)

/-- What follows the spacing. -/
def skip (spaced : Bool) (t : Text) : Option Text := spacing spaced .none t

namespace Token

/-! ## Numbers and names -/

/-- The numbers that a bound or a reference can be. -/
def numberLimit : Nat := UInt64.size

/-- Reads a number. -/
def number? (t : Text) : Option (Nat × Text) :=
  (Text.toNat? (t.takeWhile Char.isDigit)).bind fun n =>
    if n < numberLimit then some (n, t.dropWhile Char.isDigit) else none

/-- A character of the name of a group. -/
def isNameChar (c : Char) : Bool := Unicode.isAlphanumeric c || c == '_'

/-- Reads a name up to a closing character; a relative one may start with a hyphen. -/
def nameUpTo (close : Char) (relative : Bool) (t : Text) : Option (Text × Text) :=
  (Text.splitFirst close t).bind fun (name, r) =>
    let digits := match name with
      | '-' :: rest => if relative then rest else name
      | _ => name
    if !digits.isEmpty && digits.all isNameChar then some (name, r) else none

/-- Reads a reference to a group by its number. A number of at least half the bytes of the pattern is
refused. -/
def referenceNumber (size : Nat) (t : Text) : Option (Nat × Text) :=
  (number? t).bind fun (n, r) => if n < size / 2 then some (n, r) else none

/-! ## Escapes -/

/-- Reads the number of a character: that many hexadecimal digits, or one to eight between braces. -/
def hexChar (digits : Nat) (t : Text) : Option (Char × Text) :=
  let fixed := t.take digits
  if fixed.length = digits ∧ fixed.all (fun c => (Text.hexDigit? c).isSome) then
    ((Text.hexToNat? fixed).bind Text.charOfNat?).map fun c => (c, t.drop digits)
  else
    match t with
    | '{' :: r =>
      let ds := r.takeWhile fun c => (Text.hexDigit? c).isSome
      match r.dropWhile fun c => (Text.hexDigit? c).isSome with
      | '}' :: r =>
        if ds.length ≤ 8 then
          ((Text.hexToNat? ds).bind Text.charOfNat?).map fun c => (c, r)
        else none
      | _ => none
    | _ => none

/-- Reads what follows `\p`, without a look at the name. -/
def propertyText : Text → Option (Text × Text)
  | [] => none
  | '{' :: r => (Text.splitFirst '}' r).map fun (name, r) => ('{' :: name ++ ['}'], r)
  | c :: r => some ([c], r)

/-- The hexadecimal digits as a class. -/
def hexDigits (negated : Bool) : Text :=
  if negated then "[^0-9A-Fa-f]".toList else "[0-9A-Fa-f]".toList

/-- The characters that letters behind a backslash stand for. -/
def controls : List (Char × Char) := [
  ('a', '\x07'), ('f', '\x0c'), ('n', '\n'), ('r', '\r'), ('t', '\t'), ('v', '\x0b'), ('e', '\x1b')]

/-- Reads an escape that stands for one character or a class of characters, in a class or outside. -/
def simpleEscape : Text → Option (Token × Text)
  | [] => none
  | c :: r =>
    if c = 'd' || c = 'D' || c = 's' || c = 'S' || c = 'w' || c = 'W' then
      some (set ['\\', c] true, r)
    else if c = 'h' then some (set (hexDigits false) false, r)
    else if c = 'H' then some (set (hexDigits true) false, r)
    else if c = 'x' then (hexChar 2 r).map fun (c, r) => (literal c true, r)
    else if c = 'u' then (hexChar 4 r).map fun (c, r) => (literal c true, r)
    else if c = 'U' then (hexChar 8 r).map fun (c, r) => (literal c true, r)
    else if c = 'p' || c = 'P' then
      (propertyText r).map fun (name, r) => (set ('\\' :: c :: name) true, r)
    else
      match controls.lookup c with
      | some d => some (literal d false, r)
      | none => if c.isAlpha then none else some (literal c false, r)

/-- Reads an escape outside of classes. -/
def escape (size : Nat) : Text → Option (Token × Text)
  | [] => none
  | c :: r =>
    if c.isDigit then (referenceNumber size (c :: r)).map fun (n, r) => (reference n, r)
    else if c = 'k' then
      let name := match r with
        | '\'' :: r => nameUpTo '\'' true r
        | '<' :: r => nameUpTo '>' true r
        | _ => none
      name.map fun (t, r) => (namedReference t, r)
    else if c = 'A' then some (look .textStart, r)
    else if c = 'z' then some (look .textEnd, r)
    else if c = 'b' then
      if r.head? = some '{' then none else some (look (.wordBoundary true), r)
    else if c = 'B' then
      if r.head? = some '{' then none else some (look (.notWordBoundary true), r)
    else if c = '<' then some (look (.wordStart true), r)
    else if c = '>' then some (look (.wordEnd true), r)
    else if c = 'K' then some (keepOut, r)
    else if c = 'G' then some (searchStart, r)
    else simpleEscape (c :: r)

/-! ## Classes -/

/-- The letters that stand for themselves behind a backslash in a class. -/
def plainInClass : Text := "kAzBKG".toList

/-- Reads an escape in a class and gives it the form it has in patterns without memory. -/
def classEscape : Text → Option (Text × Text)
  | [] => none
  | c :: r =>
    if c.isDigit then none
    else if c = 'b' then some (['\x08'], r)
    else if plainInClass.contains c then some ([c], r)
    else
      (simpleEscape (c :: r)).map fun (token, r) =>
        match token with
        | set source _ => (source, r)
        | literal d _ => (if Regex.isEscapable d && !Text.isBlank d then ['\\', d] else [d], r)
        | _ => ([], r)

/-- Reads a class up to the bracket that closes it; `nested` counts the brackets open inside. -/
def classText : Nat → Nat → Text → Option (Text × Text)
  | 0, _, _ => none
  | n + 1, nested, t =>
    match t with
    | [] => none
    | '\\' :: r =>
      (classEscape r).bind fun (e, r) => (classText n nested r).map fun (s, r) => (e ++ s, r)
    | '[' :: r => (classText n (nested + 1) r).map fun (s, r) => ('[' :: s, r)
    | ']' :: r =>
      if nested = 0 then some ([']'], r)
      else (classText n (nested - 1) r).map fun (s, r) => (']' :: s, r)
    | c :: r => (classText n nested r).map fun (s, r) => (c :: s, r)

/-- Reads a class behind its opening bracket. A closing bracket in first place stands for itself. -/
def classSource (t : Text) : Option (Text × Text) :=
  let (start, t) := match t with
    | '^' :: r => (['[', '^'], r)
    | _ => (['['], t)
  let (start, t) := match t with
    | ']' :: r => (start ++ ['\\', ']'], r)
    | _ => (start, t)
  (classText (t.length + 1) 0 t).map fun (s, r) => (start ++ s, r)

/-! ## Repetition -/

/-- Reads the rest of a counted repetition behind its opening brace. -/
def counted (spaced : Bool) (t : Text) : Option (Nat × Option Nat × Text) :=
  (skip spaced t).bind fun t =>
    let lo := match t with
      | ',' :: _ => some (0, t)
      | _ => number? t
    lo.bind fun (lo, t) =>
      (skip spaced t).bind fun t =>
        let bounds := match t with
          | '}' :: _ => some (some lo, t)
          | ',' :: r =>
            (skip spaced r).map fun r =>
              match number? r with
              | some (hi, r) => (some hi, r)
              | none => (none, r)
          | _ => none
        bounds.bind fun (hi, t) =>
          (skip spaced t).bind fun t =>
            match t with
            | '}' :: r => some (lo, hi, r)
            | _ => none

/-- Reads what may follow the sign of a repetition: `?` makes it lazy, then `+` possessive. -/
def repetition (spaced : Bool) (lo : Nat) (hi : Option Nat) (t : Text) : Option (Token × Text) :=
  (skip spaced t).map fun t =>
    let (isLazy, t) := match t with
      | '?' :: r => (true, r)
      | _ => (false, t)
    let (possessive, t) := match t with
      | '+' :: r => (true, r)
      | _ => (false, t)
    (turns lo hi isLazy possessive, t)

/-! ## Groups -/

/-- The mode that a letter names. -/
def mode? : Char → Option Mode
  | 'i' => some .ignoreCase
  | 'm' => some .multiLine
  | 's' => some .dotAll
  | 'U' => some .lazyFirst
  | 'x' => some .spaced
  | _ => none

/-- Reads the letters of a change of modes up to `:` or `)`, spacing between them; a hyphen, at most
one, switches the modes behind it off, and `u` can only be on. A lone hyphen is no change, and none at
all only before `:`. The last part of the result tells the two ends apart. -/
def modeChanges : Nat → Bool → Bool → Nat → List (Mode × Bool) → Text →
    Option (List (Mode × Bool) × Bool × Text)
  | 0, _, _, _, _, _ => none
  | n + 1, spaced, on, length, acc, t =>
    (skip spaced t).bind fun rest =>
      let length := length + (t.length - rest.length)
      match rest with
      | [] => none
      | ':' :: r => if !on && length = 1 then none else some (acc.reverse, true, r)
      | ')' :: r =>
        if length = 0 || (!on && length = 1) then none else some (acc.reverse, false, r)
      | '-' :: r => if on then modeChanges n spaced false (length + 1) acc r else none
      | 'u' :: r => if on then modeChanges n spaced on (length + 1) acc r else none
      | c :: r =>
        match mode? c with
        | none => none
        | some m =>
          -- The spaced mode is switched at once, and counts for the spacing in front of the next letter.
          modeChanges n (if m = .spaced then on else spaced) on (length + 1) ((m, on) :: acc) r

/-- Reads the start of a condition on a group or an expression. -/
def condition (spaced : Bool) (size : Nat) (t : Text) : Option (Token × Text) :=
  let closed (asked : Asked) (t : Text) : Option (Token × Text) :=
    (skip spaced t).bind fun t =>
      match t with
      | ')' :: r => some (openCondition asked, r)
      | _ => none
  match t with
  | [] => none
  | '\'' :: r => (nameUpTo '\'' true r).bind fun (name, r) => closed (.name name) r
  | '<' :: r => (nameUpTo '>' true r).bind fun (name, r) => closed (.name name) r
  | c :: _ =>
    if c.isDigit then (referenceNumber size t).bind fun (n, r) => closed (.number n) r
    else some (openCondition .expression, t)

/-- Reads the start of a group behind its parenthesis. -/
def group (spaced : Bool) (size : Nat) (t : Text) : Option (Token × Text) :=
  (skip spaced t).bind fun t =>
    match t with
    | '?' :: '=' :: r => some (openAround .ahead, r)
    | '?' :: '!' :: r => some (openAround .notAhead, r)
    | '?' :: '<' :: '=' :: r => some (openAround .behind, r)
    | '?' :: '<' :: '!' :: r => some (openAround .notBehind, r)
    | '?' :: '<' :: r => (nameUpTo '>' false r).map fun (name, r) => (openCapture (some name), r)
    | '?' :: '\'' :: r => (nameUpTo '\'' false r).map fun (name, r) => (openCapture (some name), r)
    | '?' :: 'P' :: '<' :: r =>
      (nameUpTo '>' false r).map fun (name, r) => (openCapture (some name), r)
    | '?' :: 'P' :: '=' :: r => (nameUpTo ')' false r).map fun (name, r) => (namedReference name, r)
    | '?' :: '>' :: r => some (openAtomic, r)
    | '?' :: '(' :: r => condition spaced size r
    | '?' :: r =>
      (modeChanges (r.length + 1) spaced true 0 [] r).map fun (changes, opens, r) =>
        (if opens then openModes changes else setModes changes, r)
    | t => some (openCapture none, t)

/-- Reads the next sign of a text that does not start with spacing. A brace is the sign of a
repetition behind an atom, and only when it is well formed. -/
def next (spaced afterAtom : Bool) (size : Nat) : Text → Option (Token × Text)
  | [] => none
  | '.' :: r => some (any, r)
  | '^' :: r => some (caret, r)
  | '$' :: r => some (dollar, r)
  | '(' :: r => group spaced size r
  | ')' :: r => some (close, r)
  | '|' :: r => some (bar, r)
  | '\\' :: r => escape size r
  | '[' :: r => (classSource r).map fun (s, r) => (set s true, r)
  | '?' :: r => repetition spaced 0 (some 1) r
  | '*' :: r => repetition spaced 0 none r
  | '+' :: r => repetition spaced 1 none r
  | '{' :: r =>
    match if afterAtom then counted spaced r else none with
    | some (lo, hi, r) => repetition spaced lo hi r
    | none => some (literal '{' true, r)
  | c :: r => some (literal c true, r)

end Token

end UrlFilter.Backtrack
