import UrlFilter.Json.Basic

/-!
# Reading JSON

`Json.read?` reads a document: one value with blanks around it and nothing else. Blanks are spaces,
tabs and line ends; control characters may stand in a string only as escapes.
-/

namespace UrlFilter.Json

/-- A character that may stand between the parts of a document. -/
def isBlank (c : Char) : Bool := c == ' ' || c == '\t' || c == '\n' || c == '\r'

/-- The text without blanks at its start. -/
def skip (t : Text) : Text := t.dropWhile isBlank

/-! ## Strings -/

/-- A part of a string: a character, or a number of sixteen bits from an escape. -/
inductive Piece where
  | char (c : Char)
  | unit (n : Nat)
  deriving Repr, DecidableEq

/-- What the letters behind a backslash stand for. -/
def escapes : List (Char × Char) := [
  ('"', '"'), ('\\', '\\'), ('/', '/'), ('b', '\x08'), ('f', '\x0c'), ('n', '\n'), ('r', '\r'),
  ('t', '\t')]

/-- Reads the pieces of a string behind its opening quote. -/
def pieces : Text → Option (List Piece × Text)
  | [] => none
  | '"' :: r => some ([], r)
  | '\\' :: 'u' :: a :: b :: c :: d :: r =>
    (Text.hexToNat? [a, b, c, d]).bind fun n => (pieces r).map fun (ps, r) => (.unit n :: ps, r)
  | '\\' :: c :: r =>
    (escapes.lookup c).bind fun d => (pieces r).map fun (ps, r) => (.char d :: ps, r)
  | c :: r =>
    if c.toNat < 32 ∨ c = '\\' then none else (pieces r).map fun (ps, r) => (.char c :: ps, r)

/-- The first half of a surrogate pair. -/
def isHighSurrogate (n : Nat) : Bool := 0xD800 ≤ n && n ≤ 0xDBFF

/-- The second half of a surrogate pair. -/
def isLowSurrogate (n : Nat) : Bool := 0xDC00 ≤ n && n ≤ 0xDFFF

/-- The text of a string, unless it has one half of a surrogate pair without the other. -/
def textOf? : List Piece → Option Text
  | [] => some []
  | .char c :: ps => (textOf? ps).map (c :: ·)
  | .unit n :: .unit m :: ps =>
    if isHighSurrogate n && isLowSurrogate m then
      (Text.charOfNat? (0x10000 + (n - 0xD800) * 0x400 + (m - 0xDC00))).bind fun c =>
        (textOf? ps).map (c :: ·)
    else (Text.charOfNat? n).bind fun c => (textOf? (.unit m :: ps)).map (c :: ·)
  | .unit n :: ps => (Text.charOfNat? n).bind fun c => (textOf? ps).map (c :: ·)

/-! ## Numbers -/

/-- The digits at the start of a text, when there are any, and what follows them. -/
def digits? (t : Text) : Option (Text × Text) :=
  match t.takeWhile Char.isDigit with
  | [] => none
  | ds => some (ds, t.dropWhile Char.isDigit)

/-- Reads the integer part of a number: no zero leads other digits. -/
def integer? (t : Text) : Option (Text × Text) :=
  (digits? t).bind fun (ds, r) =>
    match ds with
    | '0' :: _ :: _ => none
    | _ => some (ds, r)

/-- Reads the fraction of a number, if there is one. -/
def fraction? : Text → Option (Text × Text)
  | '.' :: r => (digits? r).map fun (ds, r) => ('.' :: ds, r)
  | t => some ([], t)

/-- Reads the exponent of a number, if there is one. -/
def exponent? : Text → Option (Text × Text)
  | [] => some ([], [])
  | e :: r =>
    if e = 'e' ∨ e = 'E' then
      match r with
      | '+' :: r => (digits? r).map fun (ds, r) => (e :: '+' :: ds, r)
      | '-' :: r => (digits? r).map fun (ds, r) => (e :: '-' :: ds, r)
      | r => (digits? r).map fun (ds, r) => (e :: ds, r)
    else some ([], e :: r)

/-- Reads a number. -/
def number? (t : Text) : Option (Json × Text) :=
  let (sign, t) := match t with
    | '-' :: r => (['-'], r)
    | _ => ([], t)
  (integer? t).bind fun (i, t) =>
    (fraction? t).bind fun (f, t) =>
      (exponent? t).map fun (e, t) => (number (sign ++ i ++ f ++ e), t)

/-! ## Values -/

/-- Reads a string behind its opening quote. -/
def string? (t : Text) : Option (Option Text × Text) :=
  (pieces t).map fun (ps, r) => (textOf? ps, r)

mutual

/-- Reads a value; the number bounds the steps. -/
def value : Nat → Text → Option (Json × Text)
  | 0, _ => none
  | n + 1, t =>
    match skip t with
    | '"' :: r => (string? r).map fun (s, r) => (string s, r)
    | '[' :: r =>
      match skip r with
      | ']' :: r => some (array [], r)
      | r => (elements n r).map fun (es, r) => (array es, r)
    | '\x7b' :: r =>
      match skip r with
      | '\x7d' :: r => some (object [], r)
      | r => (members n r).map fun (fs, r) => (object fs, r)
    | r =>
      match Text.after? "null".toList r, Text.after? "true".toList r, Text.after? "false".toList r with
      | some r, _, _ => some (null, r)
      | _, some r, _ => some (bool true, r)
      | _, _, some r => some (bool false, r)
      | _, _, _ => number? r

/-- Reads the elements of a list up to its end. -/
def elements : Nat → Text → Option (List Json × Text)
  | 0, _ => none
  | n + 1, t =>
    (value n t).bind fun (j, r) =>
      match skip r with
      | ']' :: r => some ([j], r)
      | ',' :: r => (elements n r).map fun (es, r) => (j :: es, r)
      | _ => none

/-- Reads the fields of an object up to its end. -/
def members : Nat → Text → Option (List (Option Text × Json) × Text)
  | 0, _ => none
  | n + 1, t =>
    match skip t with
    | '"' :: r =>
      (string? r).bind fun (k, r) =>
        match skip r with
        | ':' :: r =>
          (value n r).bind fun (j, r) =>
            match skip r with
            | '\x7d' :: r => some ([(k, j)], r)
            | ',' :: r => (members n r).map fun (fs, r) => ((k, j) :: fs, r)
            | _ => none
        | _ => none
    | _ => none

end

/-- The value of a document. -/
def read? (t : Text) : Option Json :=
  (value (t.length + 1) t).bind fun (j, r) => if (skip r).isEmpty then some j else none

end UrlFilter.Json
