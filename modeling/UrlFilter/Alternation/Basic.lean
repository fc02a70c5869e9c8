import UrlFilter.Alternation.Matcher

/-!
# Alternations

The rules of a pattern bucket, joined into one pattern. The joined text is what is stored and exported;
an alternation can be made again from it and from the list of its rules.
-/

namespace UrlFilter

/-- Rules with the pattern that joins them. -/
structure Alternation where
  /-- The rules, in order. -/
  rules : List Text
  /-- The joined pattern. -/
  text : Text
  /-- What matches; absent where nothing can. -/
  matcher : Option Alternation.Matcher
  deriving Repr

namespace Alternation

/-- The text of an alternation without rules. -/
def emptyText : Text := "^$".toList

/-- The alternation without rules; it matches nothing. -/
def empty : Alternation := ⟨[], emptyText, none⟩

/-- Why an alternation cannot be made. -/
inductive Failure where
  | invalidPattern
  /-- The text has another number of branches than there are rules. -/
  | malformedText (rules : Nat)
  deriving Repr, DecidableEq

/-- The words for a failure. -/
def Failure.message : Failure → Text
  | invalidPattern => "Invalid alternation:".toList
  | malformedText n =>
    "Alternation source does not split into ".toList ++ Text.ofNat n ++ " rules".toList

/-- The matcher of a list of fragments. -/
def matcherOf (fragments : List Text) : Except Failure Matcher :=
  match Matcher.ofFragments? fragments with
  | some m => .ok m
  | none => .error .invalidPattern

/-- The alternation of rules and the fragments compiled from them. -/
def ofFragments (rules fragments : List Text) : Except Failure Alternation :=
  if fragments.isEmpty then .ok empty
  else (matcherOf fragments).map fun m => ⟨rules, join fragments, some m⟩

/-- The branches of a joined pattern. -/
def branchesOf? (text : Text) : Option (List Text) :=
  (Text.after? opening text).bind fun body => (Text.before? [')'] body).map branches

/-- The alternation of rules and the pattern that joins their fragments. -/
def ofText (rules : List Text) (text : Text) : Except Failure Alternation :=
  if rules.isEmpty then .ok empty
  else
    match (branchesOf? text).filter (·.length == rules.length) with
    | none => .error (.malformedText rules.length)
    | some fragments => (matcherOf fragments).map fun m => ⟨rules, text, some m⟩

/-- Some rule matches somewhere in the text. -/
def isMatch (a : Alternation) (t : Text) : Bool := a.matcher.any (·.isMatch t)

/-! ## What is made -/

variable {rules fragments : List Text} {text : Text} {a : Alternation}

/-- A matcher comes out exactly where the parts of the fragments make one. -/
theorem matcherOf_eq_ok_iff {m : Matcher} :
    matcherOf fragments = .ok m ↔ Matcher.ofFragments? fragments = some m := by
  rw [matcherOf]
  cases Matcher.ofFragments? fragments with
  | none => simp
  | some m' => simp

/-- What is made with a matcher comes out exactly where there is one to make it with. -/
theorem map_matcherOf_eq_ok_iff {make : Matcher → Alternation} :
    (matcherOf fragments).map make = .ok a ↔
      ∃ m, Matcher.ofFragments? fragments = some m ∧ make m = a := by
  simp only [← matcherOf_eq_ok_iff]
  cases matcherOf fragments with
  | error f => simp [Except.map]
  | ok m => simp [Except.map]

/-- An alternation of fragments has its rules, the joined text and the matcher of the fragments. -/
theorem ofFragments_eq_ok_iff (hne : fragments ≠ []) : ofFragments rules fragments = .ok a ↔
    ∃ m, Matcher.ofFragments? fragments = some m ∧ ⟨rules, join fragments, some m⟩ = a := by
  rw [ofFragments, if_neg (by simpa using hne), map_matcherOf_eq_ok_iff]

/-- An alternation made again from its text has as many branches as rules, and their matcher. -/
theorem ofText_eq_ok_iff (hne : rules ≠ []) : ofText rules text = .ok a ↔
    ∃ fragments, branchesOf? text = some fragments ∧ fragments.length = rules.length ∧
      ∃ m, Matcher.ofFragments? fragments = some m ∧ ⟨rules, text, some m⟩ = a := by
  rw [ofText, if_neg (by simpa using hne)]
  cases hbranches : (branchesOf? text).filter (·.length == rules.length) with
  | none =>
    simp only [Option.filter_eq_none_iff, beq_iff_eq] at hbranches
    simp only [reduceCtorEq, false_iff, not_exists, not_and]
    exact fun fragments hfragments hlength => absurd hlength (hbranches fragments hfragments)
  | some fragments =>
    simp only [Option.filter_eq_some_iff, beq_iff_eq] at hbranches
    simp [hbranches, map_matcherOf_eq_ok_iff]

end Alternation

end UrlFilter
