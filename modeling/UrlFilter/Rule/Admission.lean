import UrlFilter.Backtrack.Compile
import UrlFilter.Rule.Glob
import UrlFilter.Rule.Placed

/-!
# Admission

Which rules reach their bucket. A blocking rule needs a keyword or an option of high value; an exception
needs neither, for a missing exception would block again. A regular expression has to be one, and may not
refer to its groups, for their numbers change when it is joined with others.
-/

namespace UrlFilter

/-- A backslash stands before a digit but zero, or before `k`. -/
def hasReference : Text → Bool
  | '\\' :: c :: t => (c.isDigit && c != '0') || c == 'k' || hasReference t
  | _ :: t => hasReference t
  | [] => false

/-- Why a regular expression is no rule. -/
def rawFlaw? (raw : Text) : Option Drop :=
  if hasReference raw then some .rawBackreference
  else if (Backtrack.compile? ("(?i)".toList ++ Glob.rawFragment raw)).isNone then
    some .invalidRawPattern
  else none

namespace Policy

/-- The rule has options and would become a pattern over paths or URLs. -/
def isOptionedPattern (r : Placed) : Bool :=
  !r.options.isEmpty &&
    match r.bucket.category with
    | .hostPathPattern | .urlFragment => true
    | _ => false

/-- A keyword or an option of high value admits the rule. -/
def isWanted (p : Policy) (r : Placed) : Bool :=
  r.options.meets p.highValueOptions || p.contentFilter.all (·.isMatch r.pattern)

/-- Why the rule is kept from its bucket, apart from the form of its pattern. -/
def refusal? (p : Policy) (r : Placed) : Option Drop :=
  if p.dropOptionedPatterns && isOptionedPattern r then some .optionedPattern
  else if r.bucket.polarity = .good then none
  else if p.isWanted r then none
  else some .contentFilter

/-- Why the rule is kept from its bucket. -/
def obstacle? (p : Policy) (r : Placed) : Option Drop :=
  (p.refusal? r).or
    (match r.bucket.category with
      | .rawPattern => rawFlaw? r.pattern
      | _ => none)

end Policy

end UrlFilter
