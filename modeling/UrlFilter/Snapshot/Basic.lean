import UrlFilter.RuleBase.Basic

/-!
# Snapshots

A snapshot is a rule base as a document: every bucket with its name, the form of its rules, the rules
themselves and, for patterns, the text that joins them. A rule base is made again from a snapshot, whose
buckets may come in any order; those that are missing have no rules.
-/

namespace UrlFilter

namespace Snapshot

/-- The version of the format. -/
def currentVersion : Nat := 1

/-- A bucket of a snapshot. -/
structure Entry where
  name : Text
  /-- The rules are texts of a set; otherwise patterns. -/
  isExact : Bool
  hasRules : Bool
  rules : List Text
  /-- The text that joins the patterns. -/
  joined : Option Text
  deriving Repr, DecidableEq

end Snapshot

/-- A rule base as a document. -/
structure Snapshot where
  version : Nat
  entries : List Snapshot.Entry
  blockedHosts : List Text
  deriving Repr, DecidableEq

namespace Snapshot

/-- Why a snapshot makes no rule base. -/
inductive Failure where
  | unsupportedVersion (version : Nat)
  | unknownBucket (name : Text)
  | duplicateBucket (name : Text)
  | wrongKind (name : Text)
  | missingPattern (name : Text)
  | alternation (f : Alternation.Failure)
  | ruleBase (f : RuleBase.Failure)
  /-- The text is no document of the format. -/
  | unreadable
  deriving Repr, DecidableEq

/-- The words for a failure. -/
def Failure.message : Failure → Text
  | unsupportedVersion n => "Unsupported version: ".toList ++ Text.ofNat n
  | unknownBucket name => "Unknown bucket: ".toList ++ name
  | duplicateBucket name => "Duplicate bucket: ".toList ++ name
  | wrongKind name => "Bucket ".toList ++ name ++ " has the wrong kind for its category".toList
  | missingPattern name => "Pattern bucket ".toList ++ name ++ " has no regex".toList
  | alternation f => "Invalid rule base: ".toList ++ f.message
  | ruleBase f => "Invalid rule base: ".toList ++ f.message
  | unreadable => "JSON error:".toList

/-- The rules of a bucket as an entry. -/
def entryOf (b : Bucket) (rules : RuleSet) : Entry where
  name := b.name
  isExact := rules.isExact
  hasRules := rules.hasRules
  rules := rules.rules
  joined := match rules with
    | .exact _ => none
    | .pattern a => some a.text

/-- The snapshot of a rule base. -/
def ofRuleBase (base : RuleBase) : Snapshot where
  version := currentVersion
  entries := Bucket.all.map fun b => entryOf b (base.bucket b)
  blockedHosts := base.blockedHosts.entries

/-- The rules of an entry. -/
def Entry.ruleSet (e : Entry) : Except Failure RuleSet :=
  if e.isExact then .ok (.exact (.ofList e.rules))
  else
    match e.joined with
    | none => .error (.missingPattern e.name)
    | some text =>
      match Alternation.ofText e.rules text with
      | .ok a => .ok (.pattern a)
      | .error f => .error (.alternation f)

/-- The buckets and rules of the entries, when none of the buckets in `seen` is among them. -/
def ruleSets (seen : List Bucket) : List Entry → Except Failure (List (Bucket × RuleSet))
  | [] => .ok []
  | e :: es =>
    match Bucket.ofName? e.name with
    | none => .error (.unknownBucket e.name)
    | some b =>
      if seen.contains b then .error (.duplicateBucket e.name)
      else if e.isExact != b.category.isExact then .error (.wrongKind e.name)
      else
        e.ruleSet.bind fun rules => (ruleSets (b :: seen) es).map ((b, rules) :: ·)

/-- The rule base of a snapshot. -/
def toRuleBase (s : Snapshot) : Except Failure RuleBase :=
  if s.version ≠ currentVersion then .error (.unsupportedVersion s.version)
  else
    (ruleSets [] s.entries).bind fun es =>
      match RuleBase.ofBuckets es (.ofList s.blockedHosts) with
      | .ok base => .ok base
      | .error f => .error (.ruleBase f)

end Snapshot

end UrlFilter
