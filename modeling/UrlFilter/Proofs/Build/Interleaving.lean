import UrlFilter.Proofs.Build.Accounting
import UrlFilter.Proofs.Build.Feeds
import UrlFilter.Proofs.Build.Jobs

/-!
# Buckets do not interfere

A builder takes the rules of fourteen buckets as they come. Two runs of rules that give each bucket the same
rules in the same order are permutations of each other, so the builder drops as many of them for each reason;
and since admission looks at one rule, each bucket also holds the same rules in the same order. As its job looks
at these alone, the builds are the same, and so is what they show when their jobs are done in another order.
-/

namespace UrlFilter

/-- Drops count the same in either order. -/
theorem Tally.drop_comm (t : Tally) (d e : Drop) : (t.drop d).drop e = (t.drop e).drop d := by
  cases d <;> cases e <;> rfl

namespace Build

/-- Two lists of rules have the same rules in every bucket, in the same order, however the buckets take
turns. -/
def SameStreams (rules rules' : List Placed) : Prop := ∀ k, rulesOf k rules = rulesOf k rules'

/-- Whether two lists have the same rules bucket by bucket is decided bucket by bucket. -/
instance (rules rules' : List Placed) : Decidable (SameStreams rules rules') :=
  decidable_of_iff (∀ k ∈ Bucket.all, rulesOf k rules = rulesOf k rules')
    ⟨fun h k => h k (Bucket.mem_all k), fun h k _ => h k⟩

namespace SameStreams

variable {rules rules' : List Placed}

/-- Each rule stands in one bucket, and there as often in one list as in the other. -/
theorem perm (h : SameStreams rules rules') : rules.Perm rules' := by
  refine List.perm_iff_count.mpr fun r => ?_
  -- All copies of a rule stand in the stream of its bucket, so they are counted there.
  have hcount (rs : List Placed) : (rulesOf r.bucket rs).count r = rs.count r :=
    List.count_filter (by simp)
  rw [← hcount rules, ← hcount rules', h]

/-- What looks at one rule at a time lets the same rules pass. -/
theorem filter (h : SameStreams rules rules') (pass : Placed → Bool) (k : Bucket) :
    rulesOf k (rules.filter pass) = rulesOf k (rules'.filter pass) := by
  have hcomm (rs : List Placed) : rulesOf k (rs.filter pass) = (rulesOf k rs).filter pass :=
    List.filter_comm ..
  rw [hcomm, hcomm, h]

end SameStreams

end Build

namespace Builder

open Build

variable {p : Policy} {rules rules' : List Rule}

/-- The builder with rules pushed, one after the other. -/
def pushAll (b : Builder) (p : Policy) (rules : List Rule) : Builder := rules.foldl (·.push p ·) b

/-- A rule with an obstacle is counted for it. -/
theorem tally_push (b : Builder) (p : Policy) (rule : Rule) :
    (b.push p rule).tally = ([p.place rule].filterMap p.obstacle?).foldl Tally.drop b.tally := by
  cases hobstacle : p.obstacle? (p.place rule) with
  | none => simp [push, hobstacle]
  | some d => simp [push, hobstacle]

/-- A rule that is pushed is no list. -/
theorem sources_push (b : Builder) (p : Policy) (rule : Rule) : (b.push p rule).sources = b.sources := by
  cases hobstacle : p.obstacle? (p.place rule) with
  | none => simp [push, hobstacle]
  | some d => simp [push, hobstacle]

/-- Pushing rules counts one drop for each that has an obstacle. -/
theorem tally_pushAll (b : Builder) (p : Policy) (rules : List Rule) :
    (b.pushAll p rules).tally =
      ((rules.map p.place).filterMap p.obstacle?).foldl Tally.drop b.tally := by
  induction rules generalizing b with
  | nil => rfl
  | cons rule rules ih =>
    rw [pushAll, List.foldl_cons, ← pushAll, ih, tally_push, ← List.foldl_append, ← List.filterMap_append]
    rfl

/-- Rules that are pushed are no list. -/
theorem sources_pushAll (b : Builder) (p : Policy) (rules : List Rule) :
    (b.pushAll p rules).sources = b.sources := by
  induction rules generalizing b with
  | nil => rfl
  | cons rule rules ih => rw [pushAll, List.foldl_cons, ← pushAll, ih, sources_push]

/-- The drops do not show how the buckets take turns. -/
theorem tally_pushAll_congr (h : SameStreams (rules.map p.place) (rules'.map p.place)) (b : Builder) :
    (b.pushAll p rules').tally = (b.pushAll p rules).tally := by
  rw [tally_pushAll, tally_pushAll]
  exact (h.perm.symm.filterMap _).foldl_eq' (fun d _ e _ t => Tally.drop_comm t d e) _

/-- Each bucket holds the same rules, however the buckets take turns. -/
theorem rulesOf_pushAll_congr (h : SameStreams (rules.map p.place) (rules'.map p.place)) (b : Builder)
    (k : Bucket) :
    rulesOf k (b.pushAll p rules').rules = rulesOf k (b.pushAll p rules).rules := by
  rw [pushAll, pushAll, rules_foldl_push, rules_foldl_push, rulesOf, rulesOf, List.filter_append,
    List.filter_append]
  exact congrArg (_ ++ ·) (h.filter _ k).symm

/-- Rules may come in any order that leaves each bucket its own: the drops are the same, and so is the build,
with its rule base and its report. Nor does it show in which order the jobs of the buckets are done. -/
theorem build_ignores_interleaving (h : SameStreams (rules.map p.place) (rules'.map p.place)) (b : Builder)
    (ranking : Ranking) :
    (b.pushAll p rules').tally = (b.pushAll p rules).tally ∧
      (b.pushAll p rules').build p ranking = (b.pushAll p rules).build p ranking ∧
      ∀ order : List Bucket, order.Perm Bucket.all →
        ((b.pushAll p rules').buildIn order p ranking).map shown =
          ((b.pushAll p rules).build p ranking).map shown := by
  have htally := tally_pushAll_congr h b
  have hbuild : (b.pushAll p rules').build p ranking = (b.pushAll p rules).build p ranking := by
    simp only [build, compileBuckets_congr (rulesOf_pushAll_congr h b), htally, sources_pushAll]
  refine ⟨htally, hbuild, fun order horder => ?_⟩
  rw [shown_buildIn horder, hbuild]

/-- `frugal`, without patterns over paths or URLs that have options. -/
def strict : Policy := { frugal with dropOptionedPatterns := true }

/-- Two rules of hosts, two fragments, two regular expressions and an exception, one bucket after the other. -/
def inTurn : List Rule :=
  [{ pattern := "||a.b^".toList }, { pattern := "||c.d^".toList }, { pattern := "-x-".toList },
    { pattern := "-y-".toList, options := [.image] }, { pattern := "/(/".toList },
    { pattern := "/a\\1/".toList }, { pattern := "||e.f^".toList, isException := true }]

/-- The same rules, with the buckets mixed. -/
def mixedUp : List Rule :=
  [{ pattern := "/(/".toList }, { pattern := "-x-".toList },
    { pattern := "||e.f^".toList, isException := true }, { pattern := "||a.b^".toList },
    { pattern := "/a\\1/".toList }, { pattern := "-y-".toList, options := [.image] },
    { pattern := "||c.d^".toList }]

/-- Three rules are dropped, each for another reason, and the pinned host takes the place of two others. What is
built is the same when the rules are mixed up, with the jobs done from the last bucket to the first as well. -/
theorem build_ignores_interleaving_sample :
    SameStreams (inTurn.map strict.place) (mixedUp.map strict.place) ∧
      (pushAll {} strict mixedUp).tally = (pushAll {} strict inTurn).tally ∧
      (pushAll {} strict inTurn).tally =
        { optionedPatterns := 1, invalidRawPatterns := 1, rawBackreferences := 1 } ∧
      ∃ base report, (pushAll {} strict inTurn).build strict .inOrder = .ok (base, report) ∧
        report.totalRules = 3 ∧
        (pushAll {} strict mixedUp).build strict .inOrder = .ok (base, report) ∧
        ((pushAll {} strict mixedUp).buildIn Bucket.all.reverse strict .inOrder).map shown =
          .ok (shown (base, report)) := by
  have hstreams : SameStreams (inTurn.map strict.place) (mixedUp.map strict.place) := by decide +kernel
  obtain ⟨htally, hbuild, horders⟩ := build_ignores_interleaving hstreams {} .inOrder
  have hreverse := horders Bucket.all.reverse (List.reverse_perm _)
  have htotal : ((pushAll {} strict inTurn).build strict .inOrder).toOption.map (·.2.totalRules) =
      some 3 := by
    decide +kernel
  obtain ⟨⟨base, report⟩, hbuilt, htotal⟩ := exists_of_toOption_map htotal
  refine ⟨hstreams, htally, by decide +kernel, base, report, hbuilt, htotal, hbuild.trans hbuilt, ?_⟩
  rw [hreverse, hbuilt]
  rfl

end Builder

end UrlFilter
