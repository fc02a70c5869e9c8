import UrlFilter.Build.Limits
import UrlFilter.Build.Ranking
import UrlFilter.Build.Report
import UrlFilter.RuleBase.Basic

/-!
# Building a rule base

Lists are read, and their rules placed and admitted one by one; then the rules of every bucket are put in
order, cut to the limits and joined.
-/

namespace UrlFilter

/-- What has been read of the lists. -/
structure Builder where
  /-- The rules admitted so far, in order. -/
  rules : List Placed := []
  tally : Tally := {}
  /-- The number of lists. -/
  sources : Nat := 0
  deriving Repr, DecidableEq

namespace Builder

/-- The builder with one more rule, unless it is kept from its bucket. -/
def push (b : Builder) (p : Policy) (rule : Rule) : Builder :=
  let placed := p.place rule
  match p.obstacle? placed with
  | none => { b with rules := b.rules ++ [placed] }
  | some d => { b with tally := b.tally.drop d }

/-- The builder with the rules of one more list. -/
def addSource (b : Builder) (p : Policy) (source : Text) : Builder :=
  let (reader, rules) := Reader.readAll {} p (Text.lines source)
  rules.foldl (·.push p ·)
    { b with tally := b.tally.add reader.tally, sources := b.sources + 1 }

end Builder

namespace Build

/-- The rules that a policy puts in front of all others, unless they are none. -/
def pinnedRules (p : Policy) : List Placed :=
  (((Reader.readAll {} p p.pinnedRules).2.map p.place).filter fun r =>
    match r.bucket.category with
    | .rawPattern => (rawFlaw? r.pattern).isNone
    | _ => true).map fun r => { r with pinned := true }

/-- The rules of a bucket in order of priority: the pinned ones, then the others as the ranking has
them, none of them repeated. -/
def prioritized (ranking : Ranking) (b : Bucket) (pinned rules : List Placed) : List Placed :=
  let rules := Limits.dedup rules
  let ranked := if rules.isEmpty then rules else ranking b rules
  Limits.dedup (pinned ++ ranked)

/-- The rules of a bucket that the budget for wildcards allows, and the number of the others. -/
def budgeted (p : Policy) (b : Bucket) (rules : List Placed) : List Placed × Nat :=
  if b.category.isExact then (rules, 0)
  else Limits.applyBudget b.category p.maxWildcards p.wildcardPreferences rules

/-- The alternation of rules. -/
def alternationOf (c : Category) (patterns : List Text) :
    Except Alternation.Failure Alternation :=
  Alternation.ofFragments patterns (Glob.ofRules c 0 patterns)

/-- The rule can be joined with others at all: it makes an alternation by itself. -/
def standsAlone (c : Category) (pattern : Text) : Bool :=
  match alternationOf c [pattern] with
  | .ok _ => true
  | .error _ => false

/-- The alternation of rules, without those that do not stand alone where they cannot all be joined;
then the number of those left out, and the wildcards of the others. -/
def joinRules (c : Category) (patterns : List Text) :
    Except Alternation.Failure (Alternation × Nat × Nat) :=
  match alternationOf c patterns with
  | .ok a => .ok (a, 0, Glob.totalWildcards c patterns)
  | .error _ =>
    -- The wildcards are numbered anew, over the rules that are left.
    let valid := patterns.filter (standsAlone c)
    (alternationOf c valid).map fun a =>
      (a, patterns.length - valid.length, Glob.totalWildcards c valid)

/-- The rules of a bucket as they are matched, and the report on them. -/
def compileBucket (p : Policy) (ranking : Ranking) (b : Bucket) (pinned rules : List Placed) :
    Except Alternation.Failure (RuleSet × BucketReport) :=
  let unique := prioritized ranking b pinned rules
  let affordable := budgeted p b unique
  let kept := Limits.truncate (p.maxRules b.category.isExact) affordable.1
  let patterns := kept.1.map (·.pattern)
  let report : BucketReport := {
    bucket := b
    admitted := rules.length + pinned.length
    unique := unique.length
    truncated := kept.2
    wildcardDropped := affordable.2 }
  if b.category.isExact then
    .ok (.exact (.ofList patterns), { report with finalCount := kept.1.length })
  else
    (joinRules b.category patterns).map fun (a, dropped, wildcards) =>
      (.pattern a,
        { report with
          compileDropped := dropped
          finalCount := a.rules.length
          wildcards := wildcards })

/-- The buckets with their rules as they are matched, and the reports on them. -/
def compileBuckets (p : Policy) (ranking : Ranking) (pinned rules : List Placed) :
    List Bucket → Except Alternation.Failure (List (Bucket × RuleSet × BucketReport))
  | [] => .ok []
  | b :: bs =>
    let ofBucket (rs : List Placed) := rs.filter fun r => decide (r.bucket = b)
    (compileBucket p ranking b (ofBucket pinned) (ofBucket rules)).bind fun (rs, report) =>
      (compileBuckets p ranking pinned rules bs).map ((b, rs, report) :: ·)

/-- Why a compilation fails. -/
inductive Failure where
  | alternation (f : Alternation.Failure)
  | ruleBase (f : RuleBase.Failure)
  deriving Repr, DecidableEq

/-- The words for a failure. -/
def Failure.message : Failure → Text
  | alternation f => f.message
  | ruleBase f => f.message

end Build

namespace Builder

/-- The rule base of what has been read, and the report on it. -/
def build (b : Builder) (p : Policy) (ranking : Ranking) :
    Except Build.Failure (RuleBase × Report) :=
  match Build.compileBuckets p ranking (Build.pinnedRules p) b.rules Bucket.all with
  | .error f => .error (.alternation f)
  | .ok built =>
    match RuleBase.ofBuckets (built.map fun (b, rs, _) => (b, rs)) (.ofList p.blockedHosts) with
    | .error f => .error (.ruleBase f)
    | .ok base => .ok (base, ⟨b.sources, b.tally, built.map fun (_, _, report) => report⟩)

end Builder

namespace Build

/-- The rule base of lists, and the report on it. -/
def compile (p : Policy) (ranking : Ranking) (sources : List Text) :
    Except Failure (RuleBase × Report) :=
  (sources.foldl (·.addSource p ·) ({} : Builder)).build p ranking

end Build

end UrlFilter
