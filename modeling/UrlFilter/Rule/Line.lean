import UrlFilter.RuleOption
import UrlFilter.Rule.Drop

/-!
# The shape of a line

What a line of a list is by its looks alone: a setting of the list, a rule that hides elements, a
comment, or a rule with its options behind a dollar sign.
-/

namespace UrlFilter.Line

/-- The line starts with a bracket and has a closing one. -/
def isConfig (line : Text) : Bool :=
  match Text.trimStart line with
  | '[' :: rest => rest.contains ']'
  | _ => false

/-- The signs of a rule that hides elements of a page. -/
def selectorSigns : List Text := ["##", "#@#", "#?#", "#$#"].map String.toList

/-- The line hides elements of a page. -/
def isSelector (line : Text) : Bool := selectorSigns.any fun s => Text.occursIn s line

/-- A regular expression: there is something between slashes at both ends. -/
def isRaw (pattern : Text) : Bool :=
  decide (2 < pattern.length) && pattern.head? == some '/' && pattern.getLast? == some '/'

/-- What is behind the bars at the start. -/
def dropBars : Text → Text
  | '|' :: '|' :: t => t
  | '|' :: t => t
  | t => t

/-- A scheme with nothing behind it. -/
def isEmptyUrl (pattern : Text) : Bool :=
  let t := dropBars pattern
  t == "http://".toList || t == "https://".toList

/-! ## Options -/

/-- What precedes the first `c`, or the whole text. -/
def upTo (c : Char) (t : Text) : Text := t.takeWhile (· != c)

/-- The name of an option, without a tilde in front and a value behind; empty when there is none. -/
def optionName (part : Text) : Text :=
  upTo '=' (match Text.trim part with
    | '~' :: t => t
    | t => t)

/-- The text starts with an option. -/
def startsWithOption (t : Text) : Bool := (RuleOption.ofName? (optionName (upTo ',' t))).isSome

/-- The parts before and after the first dollar sign that an option follows. -/
def splitAtOption : Text → Option (Text × Text)
  | [] => none
  | c :: t =>
    if c = '$' ∧ startsWithOption t then some ([], t)
    else (splitAtOption t).map fun (a, b) => (c :: a, b)

/-- The pattern of a rule and the text of its options. A regular expression has none, and a dollar sign
at the end is a list of none. -/
def splitOptions (body : Text) : Text × Text :=
  if isRaw body then (body, [])
  else
    match Text.before? ['$'] body with
    | some pattern => (pattern, [])
    | none => (splitAtOption body).getD (body, [])

/-- The options of a text, when all of them are known. -/
def options? (t : Text) : Option RuleOption.Set :=
  (((Text.parts ',' t).map optionName).filter (!·.isEmpty)).mapM RuleOption.ofName?

/-- What precedes and follows the sign of an exception: whether it is there, and the rest. -/
def splitException (line : Text) : Bool × Text :=
  match Text.after? "@@".toList line with
  | some rest => (true, rest)
  | none => (false, line)

/-- The text of a comment. -/
def comment? (pattern : Text) : Option Text :=
  match Text.trimStart pattern with
  | '!' :: t => some (Text.trim t)
  | _ => none

end UrlFilter.Line
