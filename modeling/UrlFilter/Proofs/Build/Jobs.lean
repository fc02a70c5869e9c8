import UrlFilter.Proofs.Build.Cuts
import UrlFilter.Proofs.Snapshot.RoundTrip

/-!
# The jobs of a build

A build has one job for each bucket, which compiles the rules of that bucket and looks at no others. The build
succeeds when every job does, and then the rule base has what the jobs gave; otherwise it fails, in the one way
in which a job can. So neither the order of the jobs nor what they say in their reports has a part in what is
exported (`shown_buildIn`, `exported_congr`).
-/

namespace UrlFilter

namespace Build

variable {p : Policy} {ranking : Ranking} {pinned rules : List Placed} {bs : List Bucket}

/-! ## Failures -/

/-- Fragments make no alternation for one reason alone. -/
theorem alternationOf_eq_error {c : Category} {patterns : List Text} {f : Alternation.Failure}
    (h : alternationOf c patterns = .error f) : f = .invalidPattern := by
  unfold alternationOf Alternation.ofFragments at h
  split at h
  · simp at h
  · rw [map_eq_error_iff, Alternation.matcherOf] at h
    split at h
    · cases h
    · exact (Except.error.inj h).symm

/-- Rules are not joined for one reason alone. -/
theorem joinRules_eq_error {c : Category} {patterns : List Text} {f : Alternation.Failure}
    (h : joinRules c patterns = .error f) : f = .invalidPattern := by
  unfold joinRules at h
  split at h
  · cases h
  · exact alternationOf_eq_error (map_eq_error_iff.mp h)

/-- A bucket fails in one way only: its patterns make no alternation. -/
theorem compileBucket_eq_error {b : Bucket} {f : Alternation.Failure}
    (h : compileBucket p ranking b pinned rules = .error f) : f = .invalidPattern := by
  cases hcategory : b.category.isExact with
  | true =>
    rw [compileBucket_of_exact hcategory] at h
    cases h
  | false =>
    rw [compileBucket_of_pattern hcategory, map_eq_error_iff] at h
    exact joinRules_eq_error h

/-! ## Lists of buckets -/

/-- When some bucket of a list does not compile, the list does not, whichever bucket it is. -/
theorem compileBuckets_eq_error
    (h : ∃ k ∈ bs, ∃ f, compileBucket p ranking k (rulesOf k pinned) (rulesOf k rules) = .error f) :
    compileBuckets p ranking pinned rules bs = .error .invalidPattern := by
  induction bs with
  | nil => simp at h
  | cons b bs ih =>
    obtain ⟨k, hk, f, hf⟩ := h
    rw [compileBuckets_cons, bind_eq_error_iff]
    -- The list fails at its first bucket, or at one behind it.
    cases hb : compileBucket p ranking b (rulesOf b pinned) (rulesOf b rules) with
    | error f' => exact .inl (compileBucket_eq_error hb ▸ rfl)
    | ok given =>
      have hne : k ≠ b := by
        rintro rfl
        cases hb.symm.trans hf
      have hrest := ih ⟨k, (List.mem_cons.mp hk).resolve_left hne, f, hf⟩
      exact .inr ⟨given, rfl, map_eq_error_iff.mpr hrest⟩

/-- The list of buckets compiles to the same when each has the same rules. -/
theorem compileBuckets_congr {rules' : List Placed} (h : ∀ k, rulesOf k rules = rulesOf k rules')
    (bs : List Bucket) :
    compileBuckets p ranking pinned rules bs = compileBuckets p ranking pinned rules' bs := by
  induction bs with
  | nil => rfl
  | cons b bs ih =>
    rw [compileBuckets_cons, compileBuckets_cons, h b, ih]

end Build

namespace Builder

open Build

variable {p : Policy} {ranking : Ranking} {b b' : Builder} {order : List Bucket}

/-- The job of a bucket: what is compiled of its rules, and the report on it. -/
def job (b : Builder) (p : Policy) (ranking : Ranking) (k : Bucket) :
    Except Alternation.Failure (RuleSet × BucketReport) :=
  compileBucket p ranking k (rulesOf k (pinnedRules p)) (rulesOf k b.rules)

/-- A build whose jobs are done in some order. -/
def buildIn (order : List Bucket) (b : Builder) (p : Policy) (ranking : Ranking) :
    Except Build.Failure (RuleBase × Report) :=
  match compileBuckets p ranking (pinnedRules p) b.rules order with
  | .error f => .error (.alternation f)
  | .ok built =>
    match RuleBase.ofBuckets (built.map fun (b, rs, _) => (b, rs)) (.ofList p.blockedHosts) with
    | .error f => .error (.ruleBase f)
    | .ok base => .ok (base, ⟨b.sources, b.tally, built.map fun (_, _, report) => report⟩)

/-- A build does its jobs in the order of the buckets. -/
theorem buildIn_all (b : Builder) (p : Policy) (ranking : Ranking) :
    b.buildIn Bucket.all p ranking = b.build p ranking := rfl

/-- What a build exports. -/
def exported (b : Builder) (p : Policy) (ranking : Ranking) : Except Build.Failure Snapshot :=
  (b.build p ranking).map fun e => Snapshot.ofRuleBase e.1

/-- What a build shows: the export of its rule base, and its report on each bucket. -/
def shown (e : RuleBase × Report) : Snapshot × List (Option BucketReport) :=
  (Snapshot.ofRuleBase e.1, Bucket.all.map e.2.bucket?)

/-- Either every job gives something, or one of them fails. -/
theorem jobs_cases (b : Builder) (p : Policy) (ranking : Ranking) :
    (∃ given : Bucket → RuleSet × BucketReport, ∀ k, b.job p ranking k = .ok (given k)) ∨
      ∃ k f, b.job p ranking k = .error f := by
  by_cases h : ∃ k f, b.job p ranking k = .error f
  · exact .inr h
  · have hall : ∀ k, ∃ given, b.job p ranking k = .ok given := by
      intro k
      cases hk : b.job p ranking k with
      | error f => exact absurd ⟨k, f, hk⟩ h
      | ok given => exact ⟨given, rfl⟩
    exact .inl (Classical.skolem.mp hall)

/-- When every job gives something, the rule base has what they give, whatever their order. -/
theorem buildIn_eq_ok (horder : order.Perm Bucket.all) {given : Bucket → RuleSet × BucketReport}
    (h : ∀ k, b.job p ranking k = .ok (given k)) :
    ∃ base, b.buildIn order p ranking =
        .ok (base, ⟨b.sources, b.tally, order.map fun k => (given k).2⟩) ∧
      (∀ k, base.bucket k = (given k).1) ∧ base.blockedHosts = .ofList p.blockedHosts := by
  have hbuilt : compileBuckets p ranking (pinnedRules p) b.rules order =
      .ok (order.map fun k => (k, given k)) := compileBuckets_eq_ok fun k _ => h k
  have hnodup : order.Nodup := horder.nodup_iff.mpr Bucket.nodup_all
  have hadmissible := admissible_of_compileBuckets hnodup hbuilt
  obtain ⟨base, hbase⟩ := RuleBase.ofBuckets_ok (.ofList p.blockedHosts) hadmissible.fits hadmissible.nodup
  obtain ⟨hlisted, hhosts⟩ := RuleBase.listed_of_ofBuckets hbase
  refine ⟨base, ?_, fun k => ?_, hhosts⟩
  · simp only [buildIn, hbuilt, hbase]
    rw [List.map_map]
    rfl
  · have hmem : (k, (given k).1) ∈ base.listed := by
      rw [hlisted, List.map_map]
      exact List.mem_map.mpr ⟨k, horder.mem_iff.mpr (Bucket.mem_all k), rfl⟩
    rw [RuleBase.bucket, lookup_of_mem base.nodup hmem, Option.getD_some]

/-- When a job fails, so does the build, whatever the order. -/
theorem buildIn_eq_error (horder : order.Perm Bucket.all) {k : Bucket} {f : Alternation.Failure}
    (h : b.job p ranking k = .error f) :
    b.buildIn order p ranking = .error (.alternation .invalidPattern) := by
  have hbuilt : compileBuckets p ranking (pinnedRules p) b.rules order = .error .invalidPattern :=
    compileBuckets_eq_error ⟨k, horder.mem_iff.mpr (Bucket.mem_all k), f, h⟩
  simp only [buildIn, hbuilt]

/-- The report on a bucket is the one that its job gave. -/
theorem bucket?_of_jobs (horder : order.Perm Bucket.all) {given : Bucket → RuleSet × BucketReport}
    (h : ∀ k, b.job p ranking k = .ok (given k)) (sources : Nat) (tally : Tally) :
    Report.bucket? ⟨sources, tally, order.map fun k => (given k).2⟩ = fun k => some (given k).2 := by
  funext k
  have hbucket (j : Bucket) : (given j).2.bucket = j := (report_of_compileBucket (h j)).1
  have hfind : order.find? (fun j => (given j).2.bucket == k) = some k := by
    simp only [hbucket]
    cases hj : order.find? fun j => j == k with
    | none => simpa using List.find?_eq_none.mp hj k (horder.mem_iff.mpr (Bucket.mem_all k))
    | some j => rw [eq_of_beq (List.find?_some hj :)]
  simp only [Report.bucket?, List.find?_map, Function.comp_def, hfind, Option.map_some]

/-- The order of the jobs does not matter: neither for whether the build succeeds, nor for what it shows. -/
theorem shown_buildIn (horder : order.Perm Bucket.all) (b : Builder) (p : Policy) (ranking : Ranking) :
    (b.buildIn order p ranking).map shown = (b.build p ranking).map shown := by
  rw [← buildIn_all b]
  rcases jobs_cases b p ranking with ⟨given, hgiven⟩ | ⟨k, f, hfails⟩
  · obtain ⟨base, hbuild, hbuckets, hhosts⟩ := buildIn_eq_ok horder hgiven
    obtain ⟨base', hbuild', hbuckets', hhosts'⟩ := buildIn_eq_ok (.refl _) hgiven
    have hsame : Snapshot.ofRuleBase base = Snapshot.ofRuleBase base' :=
      Snapshot.ofRuleBase_congr (fun k => by rw [hbuckets, hbuckets']) (by rw [hhosts, hhosts'])
    simp only [hbuild, hbuild', Except.map, shown, hsame, bucket?_of_jobs horder hgiven,
      bucket?_of_jobs (.refl _) hgiven]
  · rw [buildIn_eq_error horder hfails, buildIn_eq_error (.refl _) hfails]

/-- What is exported rests on the rules that the jobs give, and not on their reports. -/
theorem exported_congr (h : ∀ k, (b'.job p ranking k).map Prod.fst = (b.job p ranking k).map Prod.fst) :
    b'.exported p ranking = b.exported p ranking := by
  unfold exported
  rw [← buildIn_all, ← buildIn_all]
  rcases jobs_cases b p ranking with ⟨given, hgiven⟩ | ⟨k, f, hfails⟩
  · rcases jobs_cases b' p ranking with ⟨given', hgiven'⟩ | ⟨k, f, hfails⟩
    · have hrules (k : Bucket) : (given' k).1 = (given k).1 := by
        simpa [hgiven, hgiven', Except.map] using h k
      obtain ⟨base, hbuild, hbuckets, hhosts⟩ := buildIn_eq_ok (.refl _) hgiven
      obtain ⟨base', hbuild', hbuckets', hhosts'⟩ := buildIn_eq_ok (.refl _) hgiven'
      have hsame : Snapshot.ofRuleBase base' = Snapshot.ofRuleBase base :=
        Snapshot.ofRuleBase_congr (fun k => by rw [hbuckets, hbuckets', hrules]) (by rw [hhosts, hhosts'])
      simp only [hbuild, hbuild', Except.map, hsame]
    · simpa [hgiven, hfails, Except.map] using h k
  · cases hfails' : b'.job p ranking k with
    | error f' => rw [buildIn_eq_error (.refl _) hfails, buildIn_eq_error (.refl _) hfails']
    | ok given => simpa [hfails, hfails', Except.map] using h k

end Builder

end UrlFilter
