import UrlFilter.Unicode.Basic

/-!
# The shape of a pattern

Whether a pattern names a host, or a host and a path. The texts are looser than host names: asterisks may
stand anywhere, letters may be those of any script.
-/

namespace UrlFilter.Shape

/-- A character of a label: a letter or number, `_`, `*` or `-`. -/
def isLabelChar (c : Char) : Bool := Unicode.isAlphanumeric c || c == '_' || c == '*' || c == '-'

/-- A character of the last label of a host: an ASCII letter or digit, `*` or `-`. -/
def isTopChar (c : Char) : Bool := Text.isAsciiAlphanumeric c || c == '*' || c == '-'

/-- A character of a host with a path. -/
def isPathChar (c : Char) : Bool :=
  isLabelChar c || c == '~' || c == '%' || c == '.' || c == '/' || c == '^'

/-- The longest last label. -/
def maxTopLength : Nat := 24

/-- Labels between dots, the last one short and in ASCII; a dot may follow. -/
def isHost (t : Text) : Bool :=
  match Text.splitLast '.' (Text.dropLastIf (· == '.') t) with
  | none => false
  | some (labels, top) =>
    (Text.parts '.' labels).all (fun l => !l.isEmpty && l.all isLabelChar) &&
      (!top.isEmpty && decide (top.length ≤ maxTopLength) && top.all isTopChar)

/-- The host of a pattern that is a host and at most one of `/`, `^` and `?` behind it. -/
def hostOnly? (t : Text) : Option Text :=
  let host := Text.dropLastIf (fun c => c == '/' || c == '^' || c == '?') t
  if isHost host then some host else none

/-- One character of a last label, and something behind it. -/
def startsTop : Text → Bool
  | c :: _ :: _ => isTopChar c
  | _ => false

/-- Some dot ends a run of labels and is followed by a last label and more. `inLabel` tells that a
label has begun. -/
def reachesPath (inLabel : Bool) : Text → Bool
  | [] => false
  | c :: t =>
    if c = '.' then inLabel && (startsTop t || reachesPath false t)
    else isLabelChar c && reachesPath true t

/-- The text without a question mark at its end. -/
def dropQuestion (t : Text) : Text := Text.dropLastIf (· == '?') t

/-- A host and a path; a question mark may follow. -/
def isHostPath (t : Text) : Bool :=
  let t := dropQuestion t
  t.all isPathChar && reachesPath false t

/-- The longest scheme of an anchor. -/
def maxSchemeLength : Nat := 15

/-- A character of the scheme of an anchor. -/
def isSchemeChar (c : Char) : Bool :=
  Unicode.isAlphanumeric c || c == '_' || c == '*' || c == '+' || c == '-'

/-- What is behind a scheme and its slashes; a bar may precede the scheme. -/
def afterScheme? (t : Text) : Option Text :=
  let t := match t with
    | '|' :: t => t
    | t => t
  if (t.takeWhile isSchemeChar).length ≤ maxSchemeLength then
    Text.after? "://".toList (t.dropWhile isSchemeChar)
  else none

/-- What is behind the anchor of a pattern: two bars, or a scheme. -/
def afterAnchor? (t : Text) : Option Text := (Text.after? "||".toList t).or (afterScheme? t)

/-- The text has no sign of a pattern. -/
def isLiteral (t : Text) : Bool := !t.any fun c => c == '*' || c == '|' || c == '^' || c == '@'

/-- The letters before the first slash in lower case. -/
def lowerHost (t : Text) : Text :=
  Text.lower (t.takeWhile (· != '/')) ++ t.dropWhile (· != '/')

end UrlFilter.Shape
