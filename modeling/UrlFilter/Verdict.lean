import UrlFilter.Lookup
import UrlFilter.RuleBase.Basic

/-!
# Verdicts

The decision on a lookup and what it rests on. Hosts that no exception reaches come first, then the
judgement of a filter in front of the rules, then the buckets: all good ones before any bad one. Where
the path of a URL is hidden, only the buckets that look at the host are asked.
-/

namespace UrlFilter

/-- What a decision rests on. -/
inductive Ground where
  /-- The host is one that no exception reaches. -/
  | blockedHost
  | preFilter
  /-- A rule of the bucket matches. -/
  | bucket (b : Bucket)
  /-- Nothing speaks against the request. -/
  | default
  deriving Repr, DecidableEq

/-- A decision and what it rests on. -/
structure Verdict where
  decision : Decision
  ground : Ground
  deriving Repr, DecidableEq

/-- A filter in front of the rules; it may decide on a lookup or leave it to the rules. -/
abbrev PreFilter := Lookup → Option Decision

namespace PreFilter

/-- Leaves every lookup to the rules. -/
def silent : PreFilter := fun _ => none

end PreFilter

namespace Verdict

/-- The verdict when nothing speaks against the request. -/
def passing : Verdict := ⟨.allow, .default⟩

/-- The verdict when a rule of a bucket matches. -/
def ofBucket (b : Bucket) : Verdict := ⟨b.polarity.decision, .bucket b⟩

/-- The verdict in words, such as `BLOCK bad_url_fragment`. -/
def describe (v : Verdict) : Text :=
  v.decision.word ++ [' '] ++
    match v.ground with
    | .blockedHost => "good_domain_exception".toList
    | .preFilter => "prefilter".toList
    | .bucket b => b.name
    | .default => "default".toList

end Verdict

/-- The views of a lookup that the rules of a category are tested against. -/
def Lookup.views (l : Lookup) : Category → List Text
  | .domainExact => l.hostNames
  | .hostPathExact => [l.sitePage, l.page]
  | .hostPathPattern => [l.sitePage, l.page]
  | .domainPattern => [l.site, l.host]
  | .domainGenericPattern => [l.siteAddress, l.address]
  | .urlFragment => [l.url]
  | .rawPattern => [l.url]

namespace RuleBase

/-- A rule of the bucket matches the lookup. -/
def hits (base : RuleBase) (l : Lookup) (b : Bucket) : Bool :=
  let rules := base.bucket b
  rules.hasRules && (l.views b.category).eraseDups.any rules.isMatch

/-- The first bucket of some categories that has a matching rule, the good ones before the bad ones. -/
def firstHit? (base : RuleBase) (l : Lookup) (order : List Category) : Option Bucket :=
  (Polarity.all.flatMap fun p => order.map fun c => Bucket.mk c p).find? (base.hits l)

/-- The categories that are asked about a lookup. -/
def consulted (l : Lookup) : List Category :=
  if l.isPathHidden then Category.hostOnly
  else if l.isHttp || l.isHttps then Category.all
  else []

/-- The verdict on a lookup. -/
def judge (base : RuleBase) (filter : PreFilter) (l : Lookup) : Verdict :=
  if base.blockedHosts.contains l.host then ⟨.block, .blockedHost⟩
  else
    match filter l with
    | some d => ⟨d, .preFilter⟩
    | none =>
      match base.firstHit? l (consulted l) with
      | some b => Verdict.ofBucket b
      | none => Verdict.passing

end RuleBase

end UrlFilter
