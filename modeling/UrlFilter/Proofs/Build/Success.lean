import UrlFilter.Proofs.Alternation.Making
import UrlFilter.Proofs.Build.Cuts
import UrlFilter.Proofs.Build.Feeds
import UrlFilter.Proofs.Build.Scan

/-!
# Builds that succeed

A build fails only when the rules of a bucket cannot be joined although each of them stands alone. Globs can
always be joined, as long as their wildcards can be numbered. Regular expressions can when those that are not
linear close themselves: then a build takes whatever it was fed with, and loses no rule that compiles alone but
to the ranking and to the caps (`build_succeeds`). One that leaves a group to the text around it can make the
whole build fail (`unclosed_fails`).
-/

namespace UrlFilter

/-- The ranking makes no rules up; it may leave some out. -/
def Ranking.IsSelection (ranking : Ranking) : Prop := ∀ b rules, ranking b rules ⊆ rules

/-- What only orders rules selects from them. -/
theorem Ranking.IsOrder.isSelection {ranking : Ranking} (h : ranking.IsOrder) : ranking.IsSelection :=
  fun b rules => (h b rules).subset

namespace Build

/-! ## Joining what stands alone -/

/-- Patterns of a category that stand alone can be joined: the wildcards of globs can be numbered, and the
regular expressions that are not linear close themselves and fit into chunks. -/
structure Joins (c : Category) (patterns : List Text) : Prop where
  wildcards : Glob.totalWildcards c patterns < Alternation.referenceLimit
  closes : c = .rawPattern → ∀ raw ∈ patterns, Alternation.isLinear raw = false → Backtrack.Closes raw
  size : c = .rawPattern → Alternation.ChunksFit patterns

section

variable {c : Category} {patterns : List Text}

/-- The fragments of raw patterns are these patterns, each in a group of its own. -/
theorem ofRules_rawPattern (used : Nat) (patterns : List Text) :
    Glob.ofRules .rawPattern used patterns = patterns.map Glob.rawFragment := by
  induction patterns generalizing used with
  | nil => rfl
  | cons raw raws ih => exact congrArg (Glob.rawFragment raw :: ·) (ih _)

/-- Patterns that can be joined, and of which each stands alone, make an alternation. -/
theorem exists_alternationOf (hjoins : Joins c patterns) (halone : ∀ q ∈ patterns, standsAlone c q = true)
    (hflaw : c = .rawPattern → ∀ raw ∈ patterns, rawFlaw? raw = none) :
    ∃ a, alternationOf c patterns = .ok a := by
  obtain ⟨m, hm⟩ : ∃ m, Alternation.Matcher.ofFragments? (Glob.ofRules c 0 patterns) = some m := by
    by_cases hraw : c = .rawPattern
    · subst hraw
      rw [ofRules_rawPattern]
      exact Alternation.exists_ofFragments?_raws
        (fun raw hmem hlinear => ⟨hflaw rfl raw hmem, hjoins.closes rfl raw hmem hlinear⟩) (hjoins.size rfl)
    · rw [ofRules_eq_texts hraw]
      have htotal := totalWildcards_eq hraw patterns ▸ hjoins.wildcards
      refine Glob.exists_ofFragments?_of_fits htotal fun o ho => ?_
      obtain ⟨q, hq, rfl⟩ := List.mem_map.mp ho
      exact Glob.fits_iff.mp ((standsAlone_iff hraw).mp (halone q hq))
  rw [alternationOf, Alternation.ofFragments, Alternation.matcherOf, hm]
  split
  · exact ⟨_, rfl⟩
  · exact ⟨_, rfl⟩

/-- Patterns are joined when those that stand alone can be, and then none of these is left out. -/
theorem exists_joinRules (hjoins : Joins c (patterns.filter (standsAlone c)))
    (hflaw : c = .rawPattern → ∀ raw ∈ patterns, rawFlaw? raw = none) :
    ∃ joined, joinRules c patterns = .ok joined ∧
      ∀ q ∈ patterns, standsAlone c q = true → q ∈ joined.1.rules := by
  rw [joinRules]
  cases hall : alternationOf c patterns with
  | ok a => exact ⟨_, rfl, fun q hq _ => (rules_of_alternationOf hall).symm ▸ hq⟩
  | error f =>
    -- Some pattern does not stand alone, or the joined text is refused as a whole. The others are tried again.
    obtain ⟨a, ha⟩ := exists_alternationOf hjoins (fun q hq => (List.mem_filter.mp hq).2)
      fun hraw raw hmem => hflaw hraw raw (List.mem_filter.mp hmem).1
    simp only [ha]
    refine ⟨_, rfl, fun q hq halone => ?_⟩
    rw [rules_of_alternationOf ha]
    exact List.mem_filter.mpr ⟨hq, halone⟩

end

/-- A rule of the category compiles alone. In a set there is nothing to compile. -/
def compilesAlone (c : Category) (pattern : Text) : Bool := c.isExact || standsAlone c pattern

section

variable {p : Policy} {ranking : Ranking} {b : Bucket} {pinned rules : List Placed}

/-- A bucket compiles when what it keeps and what stands alone can be joined; it has all rules that it keeps
and that compile alone. -/
theorem exists_compileBucket
    (hjoins : b.category.isExact = false →
      Joins b.category ((keptOf p ranking b pinned rules).filter (standsAlone b.category)))
    (hflaw : b.category = .rawPattern → ∀ raw ∈ keptOf p ranking b pinned rules, rawFlaw? raw = none) :
    ∃ built, compileBucket p ranking b pinned rules = .ok built ∧
      ∀ q ∈ keptOf p ranking b pinned rules, compilesAlone b.category q = true → q ∈ built.1.rules := by
  cases hcategory : b.category.isExact with
  | true =>
    rw [compileBucket_of_exact hcategory]
    exact ⟨_, rfl, fun q hq _ => ExactSet.mem_entries_ofList.mpr hq⟩
  | false =>
    obtain ⟨joined, hjoined, hrules⟩ := exists_joinRules (hjoins hcategory) hflaw
    rw [compileBucket_of_pattern hcategory, hjoined]
    refine ⟨_, rfl, fun q hq halone => ?_⟩
    rw [compilesAlone, hcategory, Bool.false_or] at halone
    exact hrules q hq halone

/-- What a bucket keeps are patterns of its rules. -/
theorem exists_of_mem_keptOf (hselects : ranking.IsSelection) {q : Text}
    (hq : q ∈ keptOf p ranking b pinned rules) : ∃ r ∈ pinned ++ rules, r.pattern = q := by
  obtain ⟨r, hr, rfl⟩ := List.mem_map.mp hq
  have hranked : ranked ranking b rules ⊆ rules := by
    unfold ranked
    split
    · exact (Limits.dedup_sublist rules).subset
    · exact List.Subset.trans (hselects b _) (Limits.dedup_sublist rules).subset
  have hmem := (budgeted_subperm p b _).subset ((Limits.truncate_sublist _ _).subset hr)
  refine ⟨r, ?_, rfl⟩
  rcases List.mem_append.mp ((Limits.dedup_sublist _).subset hmem) with hr | hr
  · exact List.mem_append_left _ hr
  · exact List.mem_append_right _ (hranked hr)

end

/-! ## Whole builds -/

/-- The regular expressions that are pinned or held by a builder have no flaw. -/
theorem rawFlaw?_eq_none {p : Policy} {feeds : List Feed} {b : Bucket} (hraw : b.category = .rawPattern)
    {r : Placed} (hr : r ∈ rulesOf b (pinnedRules p) ++ rulesOf b (Builder.ofFeeds p feeds).rules) :
    rawFlaw? r.pattern = none := by
  rcases List.mem_append.mp hr with hr | hr
  · obtain ⟨hpinned, hbucket⟩ := List.mem_filter.mp hr
    obtain ⟨r', hr', rfl⟩ := List.mem_map.mp hpinned
    have hcategory : r'.bucket.category = .rawPattern := by
      rw [show r'.bucket = b by simpa using hbucket, hraw]
    simpa [hcategory] using (List.mem_filter.mp hr').2
  · obtain ⟨hadmitted, hbucket⟩ := List.mem_filter.mp hr
    have hcategory : r.bucket.category = .rawPattern := by
      rw [show r.bucket = b by simpa using hbucket, hraw]
    have hobstacle := (Builder.admits_ofFeeds hadmitted).2
    simp only [Policy.obstacle?, hcategory, Option.or_eq_none_iff] at hobstacle
    exact hobstacle.2

/-- The patterns of a bucket in order of priority, among the pinned rules and others. -/
def rankedIn (p : Policy) (ranking : Ranking) (rules : List Placed) (b : Bucket) : List Text :=
  (prioritized ranking b (rulesOf b (pinnedRules p)) (rulesOf b rules)).map (·.pattern)

/-- What the caps leave of the patterns of a bucket. -/
def keptIn (p : Policy) (ranking : Ranking) (rules : List Placed) (b : Bucket) : List Text :=
  keptOf p ranking b (rulesOf b (pinnedRules p)) (rulesOf b rules)

/-- What the caps take of the patterns of a bucket. -/
def cappedIn (p : Policy) (ranking : Ranking) (rules : List Placed) (b : Bucket) : List Text :=
  (rankedIn p ranking rules b).filter fun q => !(keptIn p ranking rules b).contains q

section

variable {p : Policy} {ranking : Ranking}

/-- A ranking that only orders rules leaves none out. -/
theorem mem_rankedIn (horder : ranking.IsOrder) {rules : List Placed} {r : Placed}
    (hr : r ∈ pinnedRules p ++ rules) : r.pattern ∈ rankedIn p ranking rules r.bucket := by
  refine ((prioritized_patterns horder _ _ _).2 _).mpr (List.mem_map_of_mem ?_)
  rw [rulesOf, rulesOf, ← List.filter_append]
  exact List.mem_filter.mpr ⟨hr, by simp⟩

/-- Without limits nothing is taken. -/
theorem cappedIn_eq_nil (hunlimited : p.IsUnlimited) (horder : ranking.IsOrder) (rules : List Placed)
    (b : Bucket) : cappedIn p ranking rules b = [] := by
  refine List.filter_eq_nil_iff.mpr fun q hq => ?_
  have hkept : q ∈ keptIn p ranking rules b := by
    have hmem := ((prioritized_patterns horder b _ _).2 q).mp hq
    rw [rulesOf, rulesOf, ← List.filter_append] at hmem
    exact (keptOf_perm hunlimited horder b _ _).mem_iff.mpr (List.mem_dedup.mpr hmem)
  simpa using hkept

end

end Build

namespace Builder

open Build

/-- A rule base is made of nothing but the rules of a builder; the rest goes into the report. -/
theorem build_congr {p : Policy} {ranking : Ranking} {b b' : Builder} (hrules : b'.rules = b.rules)
    {base : RuleBase} {report : Report} (h : b.build p ranking = .ok (base, report)) :
    ∃ report', b'.build p ranking = .ok (base, report') := by
  unfold build at h ⊢
  rw [hrules]
  cases hbuilt : compileBuckets p ranking (pinnedRules p) b.rules Bucket.all with
  | error f => simp [hbuilt] at h
  | ok built =>
    simp only [hbuilt] at h ⊢
    split at h
    · cases h
    · obtain ⟨rfl, -⟩ := Prod.mk.inj (Except.ok.inj h)
      exact ⟨_, rfl⟩

/-- A build succeeds, whatever it was fed with, as long as the regular expressions that it keeps close
themselves. No rule that compiles alone is missing from its bucket but those that the caps took, or the ranking
where it does more than to order rules. What was refused on the way changes nothing else. -/
theorem build_succeeds {p : Policy} {ranking : Ranking} {feeds : List Feed} (hselects : ranking.IsSelection)
    (hjoins : ∀ b, b.category.isExact = false →
      Joins b.category ((keptIn p ranking (ofFeeds p feeds).rules b).filter (standsAlone b.category))) :
    ∃ base report, (ofFeeds p feeds).build p ranking = .ok (base, report) ∧
      (∀ b, ∀ q ∈ rankedIn p ranking (ofFeeds p feeds).rules b, compilesAlone b.category q = true →
        q ∈ (base.bucket b).rules ∨ q ∈ cappedIn p ranking (ofFeeds p feeds).rules b) ∧
      (ranking.IsOrder → ∀ r ∈ pinnedRules p ++ (ofFeeds p feeds).rules,
        r.pattern ∈ rankedIn p ranking (ofFeeds p feeds).rules r.bucket) ∧
      ∀ feeds', feeds'.flatMap (·.admitted p) = feeds.flatMap (·.admitted p) →
        ∃ report', (ofFeeds p feeds').build p ranking = .ok (base, report') := by
  -- A bucket is joined of what compiles alone; what does not is left out beforehand.
  have hbuckets (b : Bucket) := exists_compileBucket (hjoins b) fun hraw raw hmem => by
    obtain ⟨r, hr, rfl⟩ := exists_of_mem_keptOf hselects hmem
    exact rawFlaw?_eq_none hraw hr
  obtain ⟨base, report, hbuild⟩ := build_ok fun b => (hbuckets b).imp fun _ h => h.1
  refine ⟨base, report, hbuild, fun b q hq halone => ?_, fun horder r hr => mem_rankedIn horder hr,
    fun feeds' hfeeds => ?_⟩
  · -- A rule is in its bucket, or was cut off between ranking and joining.
    by_cases hkept : q ∈ keptIn p ranking (ofFeeds p feeds).rules b
    · obtain ⟨built, hbuilt, hrules⟩ := hbuckets b
      obtain ⟨_, -, hbucket⟩ := bucket_of_build hbuild b
      rw [hbucket, Except.ok.injEq] at hbuilt
      subst hbuilt
      exact .inl (hrules q hkept halone)
    · exact .inr (List.mem_filter.mpr ⟨hq, by simpa using hkept⟩)
  · refine build_congr ?_ hbuild
    rw [rules_ofFeeds, rules_ofFeeds, hfeeds]

/-- A list whose last line is no rule, and two rules of which the first is none either. -/
def flawed : List Feed :=
  [.source "/a./\nx*y\n/(/".toList, .rule { pattern := "/)/".toList }, .rule { pattern := "/(?=b)./".toList }]

/-- The same without what is no rule. -/
def flawless : List Feed := [.source "/a./\nx*y".toList, .rule { pattern := "/(?=b)./".toList }]

/-- What is no rule costs nothing else: the others are in their buckets, as they are without it. -/
theorem build_succeeds_sample :
    Ranking.inOrder.IsSelection ∧
      (∀ b, b.category.isExact = false → Joins b.category
        ((keptIn .permissive .inOrder (ofFeeds .permissive flawed).rules b).filter (standsAlone b.category))) ∧
      ∃ base report report', (ofFeeds .permissive flawed).build .permissive .inOrder = .ok (base, report) ∧
        (∀ raw ∈ Alternation.mixed, raw ∈ (base.bucket ⟨.rawPattern, .bad⟩).rules) ∧
        "x*y".toList ∈ (base.bucket ⟨.urlFragment, .bad⟩).rules ∧
        (ofFeeds .permissive flawless).build .permissive .inOrder = .ok (base, report') := by
  let left (b : Bucket) :=
    (keptIn .permissive .inOrder (ofFeeds .permissive flawed).rules b).filter (standsAlone b.category)
  have hwildcards : ∀ b ∈ Bucket.all,
      Glob.totalWildcards b.category (left b) < Alternation.referenceLimit := by
    decide +kernel
  have hraws : ∀ b ∈ Bucket.all, b.category = .rawPattern →
      left b ⊆ Alternation.mixed ∧
        Alternation.branchSizes ((left b).filter fun raw => !Alternation.isLinear raw) ≤ Regex.usualLimit := by
    decide +kernel
  have hjoins (b : Bucket) (_ : b.category.isExact = false) : Joins b.category (left b) :=
    { wildcards := hwildcards b (Bucket.mem_all b)
      closes := fun hraw raw hmem _ =>
        (Alternation.isClosed_mixed raw ((hraws b (Bucket.mem_all b) hraw).1 hmem)).closes
      size := fun hraw => Alternation.chunksFit_of_le (hraws b (Bucket.mem_all b) hraw).2 }
  have hselects := Ranking.isOrder_inOrder.isSelection
  obtain ⟨base, report, hbuild, hrules, -, hsame⟩ := build_succeeds hselects hjoins
  obtain ⟨report', hbuild'⟩ := hsame flawless (by decide +kernel)
  have hmem (b : Bucket) (q : Text)
      (hq : q ∈ rankedIn .permissive .inOrder (ofFeeds .permissive flawed).rules b)
      (halone : compilesAlone b.category q = true) : q ∈ (base.bucket b).rules := by
    have hnone := cappedIn_eq_nil Policy.isUnlimited_permissive Ranking.isOrder_inOrder
      (ofFeeds .permissive flawed).rules b
    simpa [hnone] using hrules b q hq halone
  refine ⟨hselects, hjoins, base, report, report', hbuild, fun raw hraw => hmem _ raw ?_ ?_,
    hmem _ _ (by decide +kernel) (by decide +kernel), hbuild'⟩
  · revert raw
    decide +kernel
  · revert raw
    decide +kernel

/-- Two regular expressions with look aheads. The first closes the group around it and opens another one for
the closing parenthesis behind it, and in between it asks for comments; the second has a sign that opens a
comment. -/
def unclosed : List Text := ["a(?=b))(?x)(?:b".toList, "c(?=d)#e".toList]

/-- Both regular expressions are rules, and each of them makes an alternation by itself. But together they make
none, and the build fails. -/
theorem unclosed_fails :
    (∀ raw ∈ unclosed, rawFlaw? raw = none ∧ standsAlone .rawPattern raw = true) ∧
      ∃ feeds, (ofFeeds .permissive feeds).rules.map (·.pattern) = unclosed ∧
        (ofFeeds .permissive feeds).build .permissive .inOrder = .error (.alternation .invalidPattern) := by
  let feeds : List Feed := [.source "/a(?=b))(?x)(?:b/\n/c(?=d)#e/".toList]
  have hbuild : ((ofFeeds .permissive feeds).build .permissive .inOrder).map (fun _ => ()) =
      .error (.alternation .invalidPattern) := by
    decide +kernel
  exact ⟨by decide +kernel, feeds, by decide +kernel, map_eq_error_iff.mp hbuild⟩

end Builder

end UrlFilter
