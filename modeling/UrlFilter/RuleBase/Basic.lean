import UrlFilter.Alternation.Basic
import UrlFilter.Bucket
import UrlFilter.RuleBase.ExactSet

/-!
# Rule bases

A rule base holds the rules of every bucket in the form in which they are matched, and the hosts that
no exception reaches. Each bucket is listed once at most, and its rules have the form that its category
asks for; a bucket that is not listed has no rules.
-/

namespace UrlFilter

/-- The rules of a bucket. -/
inductive RuleSet where
  | exact (s : ExactSet)
  | pattern (a : Alternation)
  deriving Repr

namespace RuleSet

/-- The rules are texts of a set. -/
def isExact : RuleSet → Bool
  | exact _ => true
  | pattern _ => false

/-- No rules, in the form that a category asks for. -/
def emptyFor (c : Category) : RuleSet := if c.isExact then exact .empty else pattern .empty

/-- The rules, in order. -/
def rules : RuleSet → List Text
  | exact s => s.entries
  | pattern a => a.rules

/-- The number of rules. -/
def size (s : RuleSet) : Nat := s.rules.length

/-- There are rules. -/
def hasRules (s : RuleSet) : Bool := !s.rules.isEmpty

/-- A rule matches the text. -/
def isMatch : RuleSet → Text → Bool
  | exact s, t => s.contains t
  | pattern a, t => a.isMatch t

/-- The rules that a bucket has when it is not listed are of its kind. -/
theorem isExact_emptyFor (c : Category) : (emptyFor c).isExact = c.isExact := by
  unfold emptyFor
  cases h : c.isExact <;> simp [isExact]

end RuleSet

/-- Rules for lookups. -/
structure RuleBase where
  /-- The buckets that are listed, with their rules. -/
  listed : List (Bucket × RuleSet)
  /-- The hosts that are blocked in spite of all exceptions. -/
  blockedHosts : ExactSet
  /-- The rules have the form that their category asks for. -/
  fits : ∀ e ∈ listed, e.2.isExact = e.1.category.isExact
  nodup : (listed.map Prod.fst).Nodup

namespace RuleBase

/-- Why buckets make no rule base. -/
inductive Failure where
  /-- The form of the rules is not that of the category. -/
  | wrongKind (b : Bucket)
  | duplicate (b : Bucket)
  deriving Repr, DecidableEq

/-- The words for a failure. -/
def Failure.message : Failure → Text
  | wrongKind b => "Bucket ".toList ++ b.name ++ " has the wrong kind for its category".toList
  | duplicate b => "Bucket ".toList ++ b.name ++ " given more than once".toList

/-- The rule base without rules. -/
def empty : RuleBase := ⟨[], .empty, by simp, by simp⟩

/-- The rule base with the rules of one more bucket. -/
def add (base : RuleBase) (b : Bucket) (rules : RuleSet) : Except Failure RuleBase :=
  if hk : rules.isExact = b.category.isExact then
    if hd : b ∈ base.listed.map Prod.fst then .error (.duplicate b)
    else
      .ok {
        listed := base.listed ++ [(b, rules)]
        blockedHosts := base.blockedHosts
        fits := by
          intro e he
          rcases List.mem_append.mp he with he | he
          · exact base.fits e he
          · simp only [List.mem_singleton] at he
            subst he
            exact hk
        nodup := by
          simp only [List.map_append, List.map_cons, List.map_nil, List.nodup_append, base.nodup,
            List.nodup_cons, List.not_mem_nil, not_false_eq_true, List.nodup_nil, and_self,
            List.mem_singleton, ne_eq, true_and]
          rintro a ha c rfl rfl
          exact hd ha }
  else .error (.wrongKind b)

/-- Adds buckets one after the other. -/
def addAll (base : RuleBase) : List (Bucket × RuleSet) → Except Failure RuleBase
  | [] => .ok base
  | (b, rules) :: es => (base.add b rules).bind fun base => base.addAll es

/-- The rule base of a list of buckets. -/
def ofBuckets (es : List (Bucket × RuleSet)) (blockedHosts : ExactSet) : Except Failure RuleBase :=
  { empty with blockedHosts := blockedHosts }.addAll es

/-- The rules of a bucket. -/
def bucket (base : RuleBase) (b : Bucket) : RuleSet :=
  (base.listed.lookup b).getD (.emptyFor b.category)

/-- The number of rules in all buckets. -/
def ruleCount (base : RuleBase) : Nat := (Bucket.all.map fun b => (base.bucket b).size).sum

end RuleBase

end UrlFilter
