import UrlFilter.Build.Builder
import UrlFilter.Proofs.RuleBase.Assembly

/-!
# The buckets of a build

A build compiles every bucket by itself. It succeeds when each bucket does, and the rule base then holds
for each bucket what was compiled from its rules.
-/

namespace UrlFilter

/-- A policy that admits every rule and limits nothing. -/
def Policy.permissive : Policy where
  maxExactRules := none
  maxPatternRules := none
  maxWildcards := none
  includeExceptions := true
  dropOptionedPatterns := false
  ignoredOptions := []
  highValueOptions := []
  contentFilter := none
  rankingKeywords := []
  wildcardPreferences := []
  ignoredSections := []
  pathExtensions := none
  pinnedRules := []
  blockedHosts := []

namespace Build

/-- The rules of a bucket among others. -/
def rulesOf (b : Bucket) (rules : List Placed) : List Placed :=
  rules.filter fun r => decide (r.bucket = b)

/-! ## One bucket -/

/-- The rules of a bucket in the order of a ranking, none of them repeated. A ranking is not asked about none. -/
def ranked (ranking : Ranking) (b : Bucket) (rules : List Placed) : List Placed :=
  if (Limits.dedup rules).isEmpty then Limits.dedup rules else ranking b (Limits.dedup rules)

/-- The rules in order of priority are the pinned ones and then the ranked ones, without repetition. -/
theorem prioritized_eq (ranking : Ranking) (b : Bucket) (pinned rules : List Placed) :
    prioritized ranking b pinned rules = Limits.dedup (pinned ++ ranked ranking b rules) := rfl

/-- What a bucket keeps of its rules. -/
def keptOf (p : Policy) (ranking : Ranking) (b : Bucket) (pinned rules : List Placed) : List Text :=
  (Limits.truncate (p.maxRules b.category.isExact)
    (budgeted p b (prioritized ranking b pinned rules)).1).1.map (·.pattern)

/-- The report on a bucket before what it keeps is joined. -/
def cutReport (p : Policy) (ranking : Ranking) (b : Bucket) (pinned rules : List Placed) : BucketReport where
  bucket := b
  admitted := rules.length + pinned.length
  unique := (prioritized ranking b pinned rules).length
  truncated := (Limits.truncate (p.maxRules b.category.isExact)
    (budgeted p b (prioritized ranking b pinned rules)).1).2
  wildcardDropped := (budgeted p b (prioritized ranking b pinned rules)).2

section

variable {p : Policy} {ranking : Ranking} {b : Bucket} {pinned rules : List Placed}

/-- A bucket of texts takes what it keeps as a set. -/
theorem compileBucket_of_exact (hexact : b.category.isExact = true) :
    compileBucket p ranking b pinned rules =
      .ok (.exact (.ofList (keptOf p ranking b pinned rules)),
        { cutReport p ranking b pinned rules with finalCount := (keptOf p ranking b pinned rules).length }) := by
  simp [compileBucket, cutReport, keptOf, hexact]

/-- A bucket of patterns joins what it keeps. -/
theorem compileBucket_of_pattern (hpattern : b.category.isExact = false) :
    compileBucket p ranking b pinned rules =
      (joinRules b.category (keptOf p ranking b pinned rules)).map fun j =>
        (.pattern j.1, { cutReport p ranking b pinned rules with
          compileDropped := j.2.1, finalCount := j.1.rules.length, wildcards := j.2.2 }) := by
  simp [compileBucket, cutReport, keptOf, hpattern]

/-- What a bucket compiles to, and what is reported on it. -/
theorem compileBucket_cases {rs : RuleSet} {report : BucketReport}
    (h : compileBucket p ranking b pinned rules = .ok (rs, report)) :
    (b.category.isExact = true ∧ rs = .exact (.ofList (keptOf p ranking b pinned rules)) ∧
      report = { cutReport p ranking b pinned rules with finalCount := (keptOf p ranking b pinned rules).length }) ∨
    (b.category.isExact = false ∧ ∃ a dropped wildcards,
      joinRules b.category (keptOf p ranking b pinned rules) = .ok (a, dropped, wildcards) ∧ rs = .pattern a ∧
      report = { cutReport p ranking b pinned rules with
        compileDropped := dropped, finalCount := a.rules.length, wildcards := wildcards }) := by
  cases hcategory : b.category.isExact with
  | true =>
    rw [compileBucket_of_exact hcategory, Except.ok.injEq, Prod.mk.injEq] at h
    exact .inl ⟨rfl, h.1.symm, h.2.symm⟩
  | false =>
    rw [compileBucket_of_pattern hcategory, map_eq_ok_iff] at h
    obtain ⟨⟨a, dropped, wildcards⟩, hjoined, h⟩ := h
    rw [Prod.mk.injEq] at h
    exact .inr ⟨rfl, a, dropped, wildcards, hjoined, h.1.symm, h.2.symm⟩

/-- What is compiled for a bucket has the form that its category asks for. -/
theorem isExact_of_compileBucket {rs : RuleSet} {report : BucketReport}
    (h : compileBucket p ranking b pinned rules = .ok (rs, report)) : rs.isExact = b.category.isExact := by
  rcases compileBucket_cases h with ⟨hexact, rfl, -⟩ | ⟨hpattern, a, -, -, -, rfl, -⟩
  · exact hexact.symm
  · exact hpattern.symm

end

/-! ## All buckets -/

/-- A bucket is compiled of its own rules, and then the buckets behind it. -/
theorem compileBuckets_cons (p : Policy) (ranking : Ranking) (pinned rules : List Placed) (b : Bucket)
    (bs : List Bucket) :
    compileBuckets p ranking pinned rules (b :: bs) =
      (compileBucket p ranking b (rulesOf b pinned) (rulesOf b rules)).bind fun first =>
        (compileBuckets p ranking pinned rules bs).map ((b, first) :: ·) := rfl

/-- A list of buckets compiles when the first one does and the others do. -/
theorem exists_of_compileBuckets_cons {p : Policy} {ranking : Ranking} {pinned rules : List Placed} {b : Bucket}
    {bs : List Bucket} {built : List (Bucket × RuleSet × BucketReport)}
    (h : compileBuckets p ranking pinned rules (b :: bs) = .ok built) :
    ∃ first rest, compileBucket p ranking b (rulesOf b pinned) (rulesOf b rules) = .ok first ∧
      compileBuckets p ranking pinned rules bs = .ok rest ∧ built = (b, first) :: rest := by
  simp only [compileBuckets_cons, bind_eq_ok_iff, map_eq_ok_iff] at h
  obtain ⟨first, hfirst, rest, hrest, rfl⟩ := h
  exact ⟨first, rest, hfirst, hrest, rfl⟩

/-- The buckets that were compiled are those of the list, in its order. -/
theorem map_fst_of_compileBuckets {p : Policy} {ranking : Ranking} {pinned rules : List Placed}
    {bs : List Bucket} {built : List (Bucket × RuleSet × BucketReport)}
    (h : compileBuckets p ranking pinned rules bs = .ok built) : built.map Prod.fst = bs := by
  induction bs generalizing built with
  | nil =>
    simp only [compileBuckets, Except.ok.injEq] at h
    simp [← h]
  | cons b bs ih =>
    obtain ⟨first, rest, -, hrest, rfl⟩ := exists_of_compileBuckets_cons h
    rw [List.map_cons, ih hrest]

/-- Each bucket was compiled from its own rules. -/
theorem compileBucket_of_mem {p : Policy} {ranking : Ranking} {pinned rules : List Placed}
    {bs : List Bucket} {built : List (Bucket × RuleSet × BucketReport)} {b : Bucket} {rs : RuleSet}
    {report : BucketReport} (h : compileBuckets p ranking pinned rules bs = .ok built)
    (hmem : (b, rs, report) ∈ built) :
    compileBucket p ranking b (rulesOf b pinned) (rulesOf b rules) = .ok (rs, report) := by
  induction bs generalizing built with
  | nil =>
    simp only [compileBuckets, Except.ok.injEq] at h
    simp [← h] at hmem
  | cons b' bs ih =>
    obtain ⟨first, rest, hfirst, hrest, rfl⟩ := exists_of_compileBuckets_cons h
    rcases List.mem_cons.mp hmem with heq | hmem
    · obtain ⟨rfl, rfl⟩ := Prod.mk.inj heq
      exact hfirst
    · exact ih hrest hmem

/-- When every bucket of a list compiles, the list gives what they do. -/
theorem compileBuckets_eq_ok {p : Policy} {ranking : Ranking} {pinned rules : List Placed} {bs : List Bucket}
    {given : Bucket → RuleSet × BucketReport}
    (h : ∀ k ∈ bs, compileBucket p ranking k (rulesOf k pinned) (rulesOf k rules) = .ok (given k)) :
    compileBuckets p ranking pinned rules bs = .ok (bs.map fun k => (k, given k)) := by
  induction bs with
  | nil => rfl
  | cons b bs ih =>
    rw [compileBuckets_cons, h b (List.mem_cons_self ..), ih fun k hk => h k (List.mem_cons_of_mem _ hk)]
    rfl

/-- What was compiled of different buckets can be put together. -/
theorem admissible_of_compileBuckets {p : Policy} {ranking : Ranking} {pinned rules : List Placed}
    {bs : List Bucket} {built : List (Bucket × RuleSet × BucketReport)} (hnodup : bs.Nodup)
    (h : compileBuckets p ranking pinned rules bs = .ok built) :
    RuleBase.Admissible (built.map fun e => (e.1, e.2.1)) where
  fits e he := by
    obtain ⟨⟨k, rs, r⟩, hmem, rfl⟩ := List.mem_map.mp he
    exact isExact_of_compileBucket (compileBucket_of_mem h hmem)
  nodup := by
    have hfst := map_fst_of_compileBuckets h
    rw [List.map_map]
    exact (show built.map (Prod.fst ∘ fun e => (e.1, e.2.1)) = bs from hfst) ▸ hnodup

end Build

namespace Builder

open Build

/-- A build that succeeds: its parts. -/
theorem of_build {b : Builder} {p : Policy} {ranking : Ranking} {base : RuleBase} {report : Report}
    (h : b.build p ranking = .ok (base, report)) :
    ∃ built, compileBuckets p ranking (pinnedRules p) b.rules Bucket.all = .ok built ∧
      base.listed = built.map (fun e => (e.1, e.2.1)) ∧
      base.blockedHosts = .ofList p.blockedHosts ∧
      report = ⟨b.sources, b.tally, built.map fun e => e.2.2⟩ := by
  unfold build at h
  cases hc : compileBuckets p ranking (pinnedRules p) b.rules Bucket.all with
  | error f => simp [hc] at h
  | ok built =>
    simp only [hc] at h
    cases hb : RuleBase.ofBuckets (built.map fun e => (e.1, e.2.1)) (.ofList p.blockedHosts) with
    | error f => simp [hb] at h
    | ok base' =>
      simp only [hb, Except.ok.injEq, Prod.mk.injEq] at h
      obtain ⟨rfl, rfl⟩ := h
      obtain ⟨hl, hh⟩ := RuleBase.listed_of_ofBuckets hb
      exact ⟨built, rfl, hl, hh, rfl⟩

/-- A bucket of a rule base that was built holds what was compiled from its rules. -/
theorem bucket_of_build {b : Builder} {p : Policy} {ranking : Ranking} {base : RuleBase}
    {report : Report} (h : b.build p ranking = .ok (base, report)) (k : Bucket) :
    ∃ r ∈ report.buckets, compileBucket p ranking k (rulesOf k (pinnedRules p)) (rulesOf k b.rules) =
      .ok (base.bucket k, r) := by
  obtain ⟨built, hc, hl, -, rfl⟩ := of_build h
  have hfst := map_fst_of_compileBuckets hc
  have hk : k ∈ built.map Prod.fst := hfst ▸ Bucket.mem_all k
  obtain ⟨⟨k', rs, r⟩, he, rfl⟩ := List.mem_map.mp hk
  have hnodup : (base.listed.map Prod.fst).Nodup := base.nodup
  have hlookup : base.listed.lookup k' = some rs := by
    refine lookup_of_mem hnodup ?_
    rw [hl]
    exact List.mem_map.mpr ⟨_, he, rfl⟩
  refine ⟨r, List.mem_map.mpr ⟨_, he, rfl⟩, ?_⟩
  rw [RuleBase.bucket, hlookup]
  exact compileBucket_of_mem hc he

/-- A build whose buckets all compile succeeds. -/
theorem build_ok {b : Builder} {p : Policy} {ranking : Ranking}
    (h : ∀ k, ∃ r, compileBucket p ranking k (rulesOf k (pinnedRules p)) (rulesOf k b.rules) = .ok r) :
    ∃ base report, b.build p ranking = .ok (base, report) := by
  obtain ⟨given, hgiven⟩ := Classical.skolem.mp h
  have hc := compileBuckets_eq_ok fun k (_ : k ∈ Bucket.all) => hgiven k
  have hbuilt := admissible_of_compileBuckets Bucket.nodup_all hc
  obtain ⟨base, hb⟩ := RuleBase.ofBuckets_ok (.ofList p.blockedHosts) hbuilt.fits hbuilt.nodup
  refine ⟨base, ⟨b.sources, b.tally, (Bucket.all.map fun k => (k, given k)).map fun e => e.2.2⟩, ?_⟩
  simp only [build, hc, hb]

end Builder

end UrlFilter
