import UrlFilter.Proofs.Build.Selection
import UrlFilter.Proofs.Glob.Single
import UrlFilter.Verdict
import Mathlib.Algebra.Order.BigOperators.Group.List
import Mathlib.Algebra.Order.Group.Nat

/-!
# Deciding by a scan

A rule base that was built without limits decides as a scan over the rules would, which tries each rule by
itself: neither the order of the rules nor the ranking nor the way in which they are joined shows. Rules
that cannot be compiled even by themselves match nothing, and the report counts them.
-/

namespace UrlFilter

namespace Build

/-! ## Rules by themselves -/

/-- A rule of a category matches the text by itself. -/
def matchesAlone (c : Category) (pattern t : Text) : Bool :=
  if c.isExact then pattern == t
  else
    match alternationOf c [pattern] with
    | .ok a => a.isMatch t
    | .error _ => false

/-- The number of patterns of a bucket that cannot be compiled by themselves. -/
def unfit (b : Bucket) (rules : List Placed) : Nat :=
  if b.category.isExact then 0 else (patternsOf b rules).countP fun q => !standsAlone b.category q

/-- The verdict on a lookup of a scan over the rules. -/
def scan (p : Policy) (rules : List Placed) (l : Lookup) : Verdict :=
  if p.blockedHosts.contains l.host then ⟨.block, .blockedHost⟩
  else
    let order := Polarity.all.flatMap fun q => (RuleBase.consulted l).map fun c => Bucket.mk c q
    let hit := order.find? fun b => rules.any fun r =>
      decide (r.bucket = b) && (l.views b.category).any (matchesAlone b.category r.pattern)
    match hit with
    | some b => Verdict.ofBucket b
    | none => Verdict.passing

/-- A scan does not depend on the order of the rules. -/
theorem scan_perm {rules rules' : List Placed} (h : rules.Perm rules') (p : Policy) (l : Lookup) :
    scan p rules l = scan p rules' l := by
  have hany (f : Placed → Bool) : rules.any f = rules'.any f := by
    rw [Bool.eq_iff_iff, List.any_eq_true, List.any_eq_true]
    exact exists_congr fun r => and_congr_left fun _ => h.mem_iff
  simp only [scan, hany]

/-! ## Joining the rules of a bucket -/

/-- A rule is always joined with none: it matches by itself, or is left out. -/
theorem joinRules_single {c : Category} (hpattern : c.isExact = false) (q : Text) :
    ∃ a d w, joinRules c [q] = .ok (a, d, w) ∧ (∀ t, a.isMatch t = matchesAlone c q t) ∧
      ∀ t, a.isMatch t = true → a.rules ≠ [] := by
  have halone (t : Text) : matchesAlone c q t =
      match alternationOf c [q] with
      | .ok a => a.isMatch t
      | .error _ => false := by rw [matchesAlone, hpattern, if_neg Bool.false_ne_true]
  cases hjoin : alternationOf c [q] with
  | ok a =>
    rw [hjoin] at halone
    refine ⟨a, 0, _, by rw [joinRules, hjoin], fun t => (halone t).symm, fun _ _ => ?_⟩
    obtain ⟨m, -, rfl⟩ := (Alternation.ofFragments_eq_ok_iff (List.cons_ne_nil _ _)).mp hjoin
    exact List.cons_ne_nil q []
  | error f =>
    have hstands : [q].filter (standsAlone c) = [] := by simp [standsAlone, hjoin]
    rw [hjoin] at halone
    refine ⟨.empty, 1, 0, ?_, fun t => (halone t).symm, fun t ht => ?_⟩
    · simp only [joinRules, hjoin, hstands]
      rfl
    · cases ht

/-- The fragments of the rules of a category that go to the engine without memory. -/
def linearFragments (c : Category) (patterns : List Text) : List Alternation.Fragment :=
  (Alternation.Fragment.listFrom 0 (Glob.ofRules c 0 patterns)).filter (!·.backtracks)

/-- The patterns of a category can be joined: the engine without memory takes those without wildcards as one
pattern, when there are any, and the wildcards of all of them can be numbered. -/
structure Joinable (c : Category) (patterns : List Text) : Prop where
  linear : linearFragments c patterns ≠ [] → (Alternation.joined? (linearFragments c patterns)).isSome = true
  wildcards : Glob.totalWildcards c patterns < Alternation.referenceLimit

/-- No patterns are joined to none. -/
theorem joinable_nil (c : Category) : Joinable c [] where
  linear h := absurd rfl h
  wildcards := show 0 < Alternation.referenceLimit by decide

section

variable {c : Category} (hraw : c ≠ .rawPattern)

include hraw

/-- The fragments of rules are the texts of their outlines, numbered one behind the other. -/
theorem ofRules_eq_texts (used : Nat) (patterns : List Text) :
    Glob.ofRules c used patterns = Glob.texts used (patterns.map (Glob.outline c.isAnchored)) := by
  induction patterns generalizing used with
  | nil => rfl
  | cons q qs ih =>
    have hrule : Glob.ofRule c used q = (Glob.outline c.isAnchored q).text used := by
      rw [← Glob.fragment_eq]
      cases c <;> first | rfl | exact absurd rfl hraw
    have hcount : Glob.wildcards c q = (Glob.outline c.isAnchored q).rest.length := by
      rw [← Glob.starCount_eq]
      cases c <;> first | rfl | exact absurd rfl hraw
    rw [Glob.ofRules, ih, hrule, hcount]
    rfl

/-- The wildcards of rules are those of their outlines. -/
theorem totalWildcards_eq (patterns : List Text) :
    Glob.totalWildcards c patterns = Glob.starTotal (patterns.map (Glob.outline c.isAnchored)) := by
  rw [Glob.totalWildcards, Glob.starTotal, List.map_map]
  congr 1
  refine List.map_congr_left fun q _ => ?_
  rw [Function.comp_apply, ← Glob.starCount_eq]
  cases c <;> first | rfl | exact absurd rfl hraw

/-- The engine without memory takes globs as one pattern when they are not too large together. -/
theorem joinable_iff {patterns : List Text} : Joinable c patterns ↔
    Glob.plainSize (patterns.map (Glob.outline c.isAnchored)) ≤ Alternation.sizeLimit ∧
      Glob.totalWildcards c patterns < Alternation.referenceLimit := by
  have hlinear : linearFragments c patterns =
      (Glob.plainNumbered (patterns.map (Glob.outline c.isAnchored))).map Glob.fragmentOf := by
    have hparts := Glob.partition_numbered (patterns.map (Glob.outline c.isAnchored))
    rw [List.partition_eq_filter_filter, Prod.mk.injEq] at hparts
    rw [linearFragments, ofRules_eq_texts hraw, ← hparts.2]
    rfl
  have hverdict : (linearFragments c patterns ≠ [] →
      (Alternation.joined? (linearFragments c patterns)).isSome = true) ↔
        Glob.plainSize (patterns.map (Glob.outline c.isAnchored)) ≤ Alternation.sizeLimit := by
    rw [hlinear, ne_eq, List.map_eq_nil_iff]
    by_cases hnone : Glob.plainNumbered (patterns.map (Glob.outline c.isAnchored)) = []
    · have hones : Glob.plainOnes (patterns.map (Glob.outline c.isAnchored)) = [] := by
        rw [← Glob.map_fst_plainNumbered, hnone, List.map_nil]
      simp [hnone, Glob.plainSize, hones]
    · rw [forall_prop_of_true hnone, Glob.isSome_joined?_plainNumbered hnone]
  exact ⟨fun h => ⟨hverdict.mp h.linear, h.wildcards⟩, fun h => ⟨hverdict.mpr h.1, h.2⟩⟩

/-- Patterns that can be joined can be so in any order. -/
theorem Joinable.perm {ps qs : List Text} (h : Joinable c ps) (hperm : ps.Perm qs) : Joinable c qs := by
  rw [joinable_iff hraw] at h ⊢
  have hsize : Glob.plainSize (ps.map (Glob.outline c.isAnchored)) =
      Glob.plainSize (qs.map (Glob.outline c.isAnchored)) := by
    rw [Glob.plainSize, Glob.plainSize, Glob.plainOnes, Glob.plainOnes,
      (((hperm.map _).filter _).map _).sum_nat]
  have hwildcards : Glob.totalWildcards c ps = Glob.totalWildcards c qs := (hperm.map _).sum_nat
  exact ⟨hsize ▸ h.1, hwildcards ▸ h.2⟩

/-- Patterns that can be joined can be so when some are left out. -/
theorem Joinable.filter {ps : List Text} (h : Joinable c ps) (f : Text → Bool) : Joinable c (ps.filter f) := by
  rw [joinable_iff hraw] at h ⊢
  have hsub : (ps.filter f).Sublist ps := List.filter_sublist
  have hsize : Glob.plainSize ((ps.filter f).map (Glob.outline c.isAnchored)) ≤
      Glob.plainSize (ps.map (Glob.outline c.isAnchored)) := by
    have := (((hsub.map (Glob.outline c.isAnchored)).filter (·.rest.isEmpty)).map
      fun o : Glob.Outline => 32 + Glob.spanSize o.head).sum_le_sum fun _ _ => Nat.zero_le _
    simp only [Glob.plainSize, Glob.plainOnes]
    omega
  have hwildcards : Glob.totalWildcards c (ps.filter f) ≤ Glob.totalWildcards c ps :=
    (hsub.map (Glob.wildcards c)).sum_le_sum fun _ _ => Nat.zero_le _
  exact ⟨Nat.le_trans hsize h.1, Nat.lt_of_le_of_lt hwildcards h.2⟩

/-- The alternation of one rule is that of its fragment. -/
theorem alternationOf_single (q : Text) :
    alternationOf c [q] = Alternation.ofFragments [q] [Glob.fragment c.isAnchored 0 q] := by
  rw [alternationOf, ofRules_eq_texts hraw, Glob.fragment_eq]
  rfl

/-- A rule stands alone when its glob fits. -/
theorem standsAlone_iff {q : Text} : standsAlone c q = true ↔ Glob.Fits c.isAnchored q := by
  rw [standsAlone, alternationOf_single hraw]
  by_cases hfit : Glob.Fits c.isAnchored q
  · obtain ⟨a, ha, -⟩ := Glob.ofFragments_of_fits hfit [q]
    simp [ha, hfit]
  · simp [Glob.ofFragments_of_not_fits hfit, hfit]

/-- A rule by itself matches as its glob does, when it fits. -/
theorem matchesAlone_iff (hpattern : c.isExact = false) {q t : Text} :
    matchesAlone c q t = true ↔ Glob.Fits c.isAnchored q ∧ Glob.Matches c.isAnchored q t := by
  rw [matchesAlone, hpattern, if_neg (by decide), alternationOf_single hraw]
  by_cases hfit : Glob.Fits c.isAnchored q
  · obtain ⟨a, ha, hmatch⟩ := Glob.ofFragments_of_fits hfit [q]
    simp [ha, hfit, hmatch]
  · simp [Glob.ofFragments_of_not_fits hfit, hfit]

/-- Rules that stand alone are joined, and one of them matches when the alternation does. -/
theorem alternationOf_of_fits {patterns : List Text} (hjoin : Joinable c patterns)
    (hfits : ∀ q ∈ patterns, Glob.Fits c.isAnchored q) :
    ∃ a, alternationOf c patterns = .ok a ∧ a.rules = patterns ∧
      ∀ t, a.isMatch t = true ↔ ∃ q ∈ patterns, Glob.Matches c.isAnchored q t := by
  have hparts : ∀ o ∈ patterns.map (Glob.outline c.isAnchored), o.PartsFit := by
    intro o ho
    obtain ⟨q, hq, rfl⟩ := List.mem_map.mp ho
    have hfit := hfits q hq
    rw [Glob.fits_iff, Glob.Outline.Fits] at hfit
    split at hfit
    · next hplain => exact fun hstar => absurd hplain hstar
    · exact hfit.1
  obtain ⟨m, hm, hmatch⟩ := Glob.ofFragments?_texts ((joinable_iff hraw).mp hjoin).1
    (totalWildcards_eq hraw patterns ▸ hjoin.wildcards) hparts
  rw [alternationOf, Alternation.ofFragments, Alternation.matcherOf, ofRules_eq_texts hraw, hm]
  cases patterns with
  | nil => exact ⟨.empty, rfl, rfl, by simp [Alternation.empty, Alternation.isMatch]⟩
  | cons q qs =>
    refine ⟨_, rfl, rfl, fun t => ?_⟩
    rw [Alternation.isMatch, Option.any_some, hmatch]
    simp only [List.mem_map, exists_exists_and_eq_and, Glob.outline_isMatch_iff]

/-- Rules one of which does not stand alone are not joined. -/
theorem alternationOf_of_not_fits {patterns : List Text} (hjoin : Joinable c patterns) {q : Text}
    (hq : q ∈ patterns) (hfit : ¬Glob.Fits c.isAnchored q) :
    alternationOf c patterns = .error .invalidPattern := by
  have ho : Glob.outline c.isAnchored q ∈ patterns.map (Glob.outline c.isAnchored) :=
    List.mem_map.mpr ⟨q, hq, rfl⟩
  have htotal := totalWildcards_eq hraw patterns ▸ hjoin.wildcards
  have hsize := ((joinable_iff hraw).mp hjoin).1
  have hparts : ¬(Glob.outline c.isAnchored q).PartsFit := by
    rw [Glob.fits_iff, Glob.Outline.Fits] at hfit
    -- A glob without wildcards cannot be the one: it is no larger than all of them together.
    split at hfit
    · next hplain =>
      have hmem : Glob.outline c.isAnchored q ∈
          Glob.plainOnes (patterns.map (Glob.outline c.isAnchored)) :=
        List.mem_filter.mpr ⟨ho, by simp [hplain]⟩
      have hle := List.single_le_sum (fun _ _ => Nat.zero_le _) _
        (List.mem_map_of_mem (f := fun o : Glob.Outline => 32 + Glob.spanSize o.head) hmem)
      rw [Glob.plainSize] at hsize
      omega
    · have hle : (Glob.outline c.isAnchored q).rest.length ≤
          Glob.starTotal (patterns.map (Glob.outline c.isAnchored)) :=
        List.single_le_sum (fun _ _ => Nat.zero_le _) _ (List.mem_map.mpr ⟨_, ho, rfl⟩)
      exact fun h => hfit ⟨h, Nat.lt_of_le_of_lt hle htotal⟩
  have hnone := Glob.ofFragments?_texts_eq_none hsize htotal ho hparts
  rw [alternationOf, Alternation.ofFragments, Alternation.matcherOf, ofRules_eq_texts hraw, hnone]
  cases patterns with
  | nil => simp at hq
  | cons q' qs => rfl

/-- The rules of a bucket are joined but for those that do not stand alone, and one of them matches by
itself when the alternation does. -/
theorem joinRules_of_joinable (hpattern : c.isExact = false) {patterns : List Text}
    (hjoin : Joinable c patterns) :
    ∃ a w, joinRules c patterns = .ok (a, patterns.countP (fun q => !standsAlone c q), w) ∧
      a.rules = patterns.filter (standsAlone c) ∧
      ∀ t, a.isMatch t = true ↔ ∃ q ∈ patterns, matchesAlone c q t = true := by
  have hvalid : ∀ q ∈ patterns.filter (standsAlone c), Glob.Fits c.isAnchored q := fun q hq =>
    (standsAlone_iff hraw).mp (List.mem_filter.mp hq).2
  obtain ⟨a, ha, hrules, hmatch⟩ := alternationOf_of_fits hraw (hjoin.filter hraw _) hvalid
  have halone (t : Text) : a.isMatch t = true ↔ ∃ q ∈ patterns, matchesAlone c q t = true := by
    rw [hmatch]
    refine exists_congr fun q => ?_
    rw [List.mem_filter, standsAlone_iff hraw, matchesAlone_iff hraw hpattern, and_assoc]
  by_cases hall : ∀ q ∈ patterns, standsAlone c q = true
  · -- Nothing is left out.
    have hself : patterns.filter (standsAlone c) = patterns := List.filter_eq_self.mpr hall
    have hcount : patterns.countP (fun q => !standsAlone c q) = 0 :=
      List.countP_eq_zero.mpr fun q hq => by simp [hall q hq]
    rw [hself] at ha hrules
    exact ⟨a, _, by rw [joinRules, ha, hcount], by rw [hself, hrules], halone⟩
  · -- The joint pattern is refused, and what does not stand alone is left out.
    obtain ⟨q, hq, hnot⟩ : ∃ q ∈ patterns, ¬standsAlone c q = true := by simpa using hall
    rw [standsAlone_iff hraw] at hnot
    have hcount : patterns.length - (patterns.filter (standsAlone c)).length =
        patterns.countP fun q => !standsAlone c q := by
      have h := List.length_eq_countP_add_countP (standsAlone c) (l := patterns)
      rw [List.countP_eq_length_filter] at h
      have hneg : patterns.countP (fun q => decide ¬standsAlone c q = true) =
          patterns.countP fun q => !standsAlone c q := by
        congr 1
        funext q
        cases standsAlone c q <;> rfl
      rw [hneg] at h
      omega
    refine ⟨a, Glob.totalWildcards c (patterns.filter (standsAlone c)), ?_, hrules, halone⟩
    rw [joinRules, alternationOf_of_not_fits hraw hjoin hq hnot]
    simp only [ha, hcount, Except.map]

end

/-- Whether patterns can be joined is decided by the engine and by their number of wildcards. -/
instance (c : Category) (patterns : List Text) : Decidable (Joinable c patterns) :=
  if hraw : c = .rawPattern then
    decidable_of_iff ((linearFragments c patterns ≠ [] →
        (Alternation.joined? (linearFragments c patterns)).isSome = true) ∧
        Glob.totalWildcards c patterns < Alternation.referenceLimit)
      ⟨fun h => ⟨h.1, h.2⟩, fun h => ⟨h.1, h.2⟩⟩
  else decidable_of_iff' _ (joinable_iff hraw)

/-- What a build without limits needs of its rules: none is a regular expression, and the globs of each
bucket can be joined. -/
structure IsPlain (rules : List Placed) : Prop where
  noRaw : ∀ r ∈ rules, r.bucket.category ≠ .rawPattern
  joinable : ∀ b, b.category.isExact = false → Joinable b.category (patternsOf b rules)

/-- Without regular expressions the buckets for them are empty. -/
theorem IsPlain.patternsOf_raw {rules : List Placed} (h : IsPlain rules) {b : Bucket}
    (hraw : b.category = .rawPattern) : patternsOf b rules = [] := by
  refine List.eq_nil_iff_forall_not_mem.mpr fun q hq => ?_
  obtain ⟨r, hr, rfl, -⟩ := mem_patternsOf.mp hq
  exact h.noRaw r hr hraw

/-- Rules without raw patterns that can be joined can be so in any order. -/
theorem IsPlain.perm {rules rules' : List Placed} (h : IsPlain rules)
    (hperm : rules.Perm rules') : IsPlain rules' where
  noRaw r hr := h.noRaw r (hperm.mem_iff.mpr hr)
  joinable b hb := by
    have hpatterns := patternsOf_perm hperm b
    by_cases hraw : b.category = .rawPattern
    · rw [h.patternsOf_raw hraw] at hpatterns
      exact hpatterns.nil_eq ▸ joinable_nil _
    · exact (h.joinable b hb).perm hraw hpatterns

/-! ## Compiling a bucket -/

section

variable {p : Policy} {ranking : Ranking} {b : Bucket} {pinned rules : List Placed}

/-- A rule of a bucket matches the text by itself. -/
def BucketMatches (b : Bucket) (rules : List Placed) (t : Text) : Prop :=
  ∃ q ∈ patternsOf b rules, matchesAlone b.category q t = true

/-- What is compiled for a bucket matches when one of its rules does by itself. -/
structure Compiled (b : Bucket) (rules : List Placed) (set : RuleSet) (report : BucketReport) : Prop where
  bucket : report.bucket = b
  dropped : report.compileDropped = unfit b rules
  isMatch_iff : ∀ t, set.isMatch t = true ↔ BucketMatches b rules t
  hasRules : ∀ t, set.isMatch t = true → set.hasRules = true

/-- A bucket of texts is compiled without limits to the set of its patterns. -/
theorem compileBucket_exact (hunlimited : p.IsUnlimited) (horder : ranking.IsOrder)
    (hexact : b.category.isExact = true) :
    ∃ set report, compileBucket p ranking b (rulesOf b pinned) (rulesOf b rules) = .ok (set, report) ∧
      Compiled b (pinned ++ rules) set report := by
  have hkept := keptOf_perm hunlimited horder b pinned rules
  rw [compileBucket_of_exact hexact]
  refine ⟨_, _, rfl, rfl, by simp [unfit, hexact, cutReport], fun t => ?_, fun t ht => ?_⟩
  · rw [RuleSet.isMatch, ExactSet.contains_iff, ExactSet.mem_entries_ofList, hkept.mem_iff, BucketMatches]
    simp [matchesAlone, hexact]
  · rw [RuleSet.isMatch, ExactSet.contains_iff] at ht
    rw [RuleSet.hasRules, RuleSet.rules]
    cases hentries : (ExactSet.ofList _).entries with
    | nil => simp [hentries] at ht
    | cons t ts => rfl

/-- A bucket of patterns is compiled without limits to those of its patterns that compile alone. -/
theorem compileBucket_pattern (hunlimited : p.IsUnlimited) (horder : ranking.IsOrder)
    (hpattern : b.category.isExact = false)
    (hraw : b.category = .rawPattern → patternsOf b (pinned ++ rules) = [])
    (hjoin : Joinable b.category (patternsOf b (pinned ++ rules))) :
    ∃ set report, compileBucket p ranking b (rulesOf b pinned) (rulesOf b rules) = .ok (set, report) ∧
      Compiled b (pinned ++ rules) set report := by
  have hkept := keptOf_perm hunlimited horder b pinned rules
  generalize hpatterns : keptOf p ranking b (rulesOf b pinned) (rulesOf b rules) = patterns at hkept
  -- Regular expressions are left out here: where a bucket is for them, there is nothing to join.
  obtain ⟨a, w, hjoined, hrules, hmatch⟩ : ∃ a w, joinRules b.category patterns =
      .ok (a, patterns.countP (fun q => !standsAlone b.category q), w) ∧
      a.rules = patterns.filter (standsAlone b.category) ∧
      ∀ t, a.isMatch t = true ↔ ∃ q ∈ patterns, matchesAlone b.category q t = true := by
    by_cases hcategory : b.category = .rawPattern
    · rw [hraw hcategory] at hkept
      rw [hkept.eq_nil]
      exact ⟨.empty, 0, rfl, rfl, by simp [Alternation.empty, Alternation.isMatch]⟩
    · exact joinRules_of_joinable hcategory hpattern (hjoin.perm hcategory hkept.symm)
  rw [compileBucket_of_pattern hpattern, hpatterns, hjoined]
  refine ⟨_, _, rfl, rfl, ?_, fun t => ?_, fun t ht => ?_⟩
  · simp only [unfit, hpattern, Bool.false_eq_true, if_false]
    exact hkept.countP_eq _
  · rw [RuleSet.isMatch, hmatch, BucketMatches]
    exact exists_congr fun q => and_congr_left fun _ => hkept.mem_iff
  · rw [RuleSet.isMatch, hmatch] at ht
    obtain ⟨q, hq, ht⟩ := ht
    -- A rule that matches compiles alone, so that it is among those of the alternation.
    have hstands : standsAlone b.category q = true := by
      rw [matchesAlone, hpattern, if_neg (by decide)] at ht
      rw [standsAlone]
      cases halone : alternationOf b.category [q] with
      | ok a => rfl
      | error f => simp [halone] at ht
    have hmem : q ∈ a.rules := hrules ▸ List.mem_filter.mpr ⟨hq, hstands⟩
    rw [RuleSet.hasRules, RuleSet.rules]
    cases hnil : a.rules with
    | nil => simp [hnil] at hmem
    | cons q qs => rfl

end

end Build

/-! ## Deciding -/

open Build

/-- A bucket is hit when one of its rules matches a view of the lookup by itself. -/
theorem RuleBase.hits_iff {base : RuleBase} {b : Bucket} {rules : List Placed} {report : BucketReport}
    (h : Compiled b rules (base.bucket b) report) (l : Lookup) :
    base.hits l b = rules.any fun r =>
      decide (r.bucket = b) && (l.views b.category).any (matchesAlone b.category r.pattern) := by
  rw [Bool.eq_iff_iff]
  simp only [RuleBase.hits, Bool.and_eq_true, List.any_eq_true, decide_eq_true_eq]
  constructor
  · rintro ⟨-, t, ht, hmatch⟩
    obtain ⟨q, hq, hmatch⟩ := (h.isMatch_iff t).mp hmatch
    obtain ⟨r, hr, hb, rfl⟩ := mem_patternsOf.mp hq
    exact ⟨r, hr, hb, t, List.mem_eraseDups.mp ht, hmatch⟩
  · rintro ⟨r, hr, hb, t, ht, hmatch⟩
    have hset := (h.isMatch_iff t).mpr ⟨_, mem_patternsOf.mpr ⟨r, hr, hb, rfl⟩, hmatch⟩
    exact ⟨h.hasRules t hset, t, List.mem_eraseDups.mpr ht, hset⟩

/-- A rule base decides as a scan over the rules of its buckets. -/
theorem RuleBase.judge_eq_scan {base : RuleBase} {p : Policy} {rules : List Placed}
    (hhosts : base.blockedHosts = .ofList p.blockedHosts)
    (h : ∀ b, ∃ report, Compiled b rules (base.bucket b) report) (l : Lookup) :
    base.judge .silent l = scan p rules l := by
  have hblocked : base.blockedHosts.contains l.host = p.blockedHosts.contains l.host := by
    rw [Bool.eq_iff_iff, hhosts, ExactSet.contains_iff, ExactSet.mem_entries_ofList, List.contains_iff_mem]
  have hhits : base.hits l = fun b => rules.any fun r =>
      decide (r.bucket = b) && (l.views b.category).any (matchesAlone b.category r.pattern) := by
    funext b
    obtain ⟨report, hb⟩ := h b
    exact RuleBase.hits_iff hb l
  rw [RuleBase.judge, scan, hblocked, RuleBase.firstHit?, hhits]
  rfl

namespace Builder

section

variable {p : Policy} {ranking : Ranking} {b : Builder}

/-- Every bucket of such a build compiles. -/
theorem compiled_of_isPlain (hunlimited : p.IsUnlimited) (horder : ranking.IsOrder)
    (hplain : IsPlain (pinnedRules p ++ b.rules)) (k : Bucket) :
    ∃ set report,
      compileBucket p ranking k (rulesOf k (pinnedRules p)) (rulesOf k b.rules) = .ok (set, report) ∧
      Compiled k (pinnedRules p ++ b.rules) set report := by
  cases hk : k.category.isExact with
  | true => exact compileBucket_exact hunlimited horder hk
  | false =>
    exact compileBucket_pattern hunlimited horder hk hplain.patternsOf_raw (hplain.joinable k hk)

/-- Such a build succeeds, reports on all buckets and decides as a scan over the rules. -/
theorem build_of_isPlain (hunlimited : p.IsUnlimited) (horder : ranking.IsOrder)
    (hplain : IsPlain (pinnedRules p ++ b.rules)) :
    ∃ base report, b.build p ranking = .ok (base, report) ∧
      report.buckets.map (·.bucket) = Bucket.all ∧
      (∀ r ∈ report.buckets, r.compileDropped = unfit r.bucket (pinnedRules p ++ b.rules)) ∧
      ∀ l, base.judge .silent l = scan p (pinnedRules p ++ b.rules) l := by
  have hcompiled (k : Bucket) {set : RuleSet} {report : BucketReport}
      (h : compileBucket p ranking k (rulesOf k (pinnedRules p)) (rulesOf k b.rules) =
        .ok (set, report)) : Compiled k (pinnedRules p ++ b.rules) set report := by
    obtain ⟨set', report', h', hc⟩ := compiled_of_isPlain hunlimited horder hplain k
    rw [h'] at h
    cases h
    exact hc
  -- A bucket is compiled by itself, and the builder asks for nothing more.
  obtain ⟨base, report, hbuild⟩ := build_ok fun k => by
    obtain ⟨set, report, h, -⟩ := compiled_of_isPlain hunlimited horder hplain k
    exact ⟨_, h⟩
  obtain ⟨built, hbuilt, hlisted, hhosts, hreport⟩ := of_build hbuild
  have hbuckets : ∀ e ∈ built, Compiled e.1 (pinnedRules p ++ b.rules) e.2.1 e.2.2 := fun e he =>
    hcompiled e.1 (compileBucket_of_mem hbuilt he)
  refine ⟨base, report, hbuild, ?_, ?_, RuleBase.judge_eq_scan hhosts fun k => ?_⟩
  · rw [hreport, List.map_map, ← map_fst_of_compileBuckets hbuilt]
    exact List.map_congr_left fun e he => (hbuckets e he).bucket
  · rw [hreport]
    intro r hr
    obtain ⟨e, he, rfl⟩ := List.mem_map.mp hr
    rw [(hbuckets e he).dropped, (hbuckets e he).bucket]
  · obtain ⟨r, -, h⟩ := bucket_of_build hbuild k
    exact ⟨r, hcompiled k h⟩

/-- A build without limits and without regular expressions decides as a scan over its rules, and leaves
out those alone that cannot be compiled by themselves. Neither the order of the rules nor the ranking
changes a decision. -/
theorem build_scans (hunlimited : p.IsUnlimited) (horder : ranking.IsOrder)
    (hplain : IsPlain (pinnedRules p ++ b.rules)) :
    ∃ base report, b.build p ranking = .ok (base, report) ∧
      report.buckets.map (·.bucket) = Bucket.all ∧
      (∀ r ∈ report.buckets, r.compileDropped = unfit r.bucket (pinnedRules p ++ b.rules)) ∧
      (∀ l, base.judge .silent l = scan p (pinnedRules p ++ b.rules) l) ∧
      ∀ (b' : Builder) (ranking' : Ranking), b'.rules.Perm b.rules → ranking'.IsOrder →
        ∃ base' report', b'.build p ranking' = .ok (base', report') ∧
          ∀ l, base'.judge .silent l = base.judge .silent l := by
  obtain ⟨base, report, hbuild, hbuckets, hdropped, hscan⟩ :=
    build_of_isPlain hunlimited horder hplain
  refine ⟨base, report, hbuild, hbuckets, hdropped, hscan, fun b' ranking' hperm horder' => ?_⟩
  have hrules : (pinnedRules p ++ b'.rules).Perm (pinnedRules p ++ b.rules) := hperm.append_left _
  obtain ⟨base', report', hbuild', -, -, hscan'⟩ :=
    build_of_isPlain hunlimited horder' (hplain.perm hrules.symm)
  exact ⟨base', report', hbuild', fun l => by rw [hscan', hscan, scan_perm hrules]⟩

end

/-- Lists with patterns of several categories, with a wildcard and without. -/
def sample : Builder := addSource {} .permissive "||a*b.c^\n/ads/*/x^\n@@||ok.b.c^\nbanner".toList

/-- The sample decides as it should, and all of its rules are kept. -/
theorem build_scans_sample :
    ∃ base report, sample.build .permissive .inOrder = .ok (base, report) ∧
      (∀ r ∈ report.buckets, r.compileDropped = 0) ∧
      base.judge .silent { url := "https://axb.c/p".toList } = .ofBucket ⟨.domainPattern, .bad⟩ ∧
      base.judge .silent { url := "http://ok.b.c/banner".toList } = .ofBucket ⟨.domainExact, .good⟩ ∧
      base.judge .silent { url := "http://d.e/ads/1/x".toList } = .ofBucket ⟨.urlFragment, .bad⟩ := by
  have hplain : IsPlain (pinnedRules .permissive ++ sample.rules) := by
    refine ⟨by decide +kernel, fun b hb => ?_⟩
    have hall : ∀ b ∈ Bucket.all, b.category.isExact = false →
        Joinable b.category (patternsOf b (pinnedRules .permissive ++ sample.rules)) := by
      decide +kernel
    exact hall b (Bucket.mem_all b) hb
  have hunfit : ∀ b ∈ Bucket.all, unfit b (pinnedRules .permissive ++ sample.rules) = 0 := by
    decide +kernel
  obtain ⟨base, report, hbuild, -, hdropped, hscan, -⟩ :=
    build_scans Policy.isUnlimited_permissive Ranking.isOrder_inOrder hplain
  refine ⟨base, report, hbuild, fun r hr => ?_, ?_, ?_, ?_⟩
  · rw [hdropped r hr, hunfit _ (Bucket.mem_all _)]
  · rw [hscan]
    decide +kernel
  · rw [hscan]
    decide +kernel
  · rw [hscan]
    decide +kernel

/-- A rule whose long run of carets stands behind an asterisk. -/
def caretRule : Rule := { pattern := 'a' :: '*' :: List.replicate 1000 '^' }

/-- A bucket of one rule that cannot be compiled. -/
theorem unfit_single {r : Placed} (hpattern : r.bucket.category.isExact = false)
    (hraw : r.bucket.category ≠ .rawPattern) (hfit : ¬Glob.Fits r.bucket.category.isAnchored r.pattern) :
    unfit r.bucket [r] = 1 := by
  have hstands : standsAlone r.bucket.category r.pattern = false := by
    rw [Bool.eq_false_iff]
    exact fun h => hfit ((standsAlone_iff hraw).mp h)
  have hpatterns : patternsOf r.bucket [r] = [r.pattern] := by simp [patternsOf, rulesOf]
  rw [unfit, hpattern, if_neg (by decide), hpatterns, List.countP_singleton, hstands]
  rfl

/-- The rule is admitted, but left out of its bucket. -/
theorem build_drops_carets :
    Policy.permissive.IsUnlimited ∧ Ranking.inOrder.IsOrder ∧
      (∀ r ∈ pinnedRules .permissive ++ (push {} .permissive caretRule).rules,
        r.bucket.category ≠ .rawPattern) ∧
      ∃ base report, (push {} .permissive caretRule).build .permissive .inOrder = .ok (base, report) ∧
        ∃ r ∈ report.buckets, r.bucket = ⟨.urlFragment, .bad⟩ ∧ r.compileDropped = 1 := by
  let placed : Placed := ⟨⟨.urlFragment, .bad⟩, caretRule.pattern, [], 0, false⟩
  have hrules : pinnedRules .permissive ++ (push {} .permissive caretRule).rules = [placed] := by
    decide +kernel
  have hplain : IsPlain (pinnedRules .permissive ++ (push {} .permissive caretRule).rules) := by
    rw [hrules]
    refine ⟨fun r hr => ?_, fun b hb => ?_⟩
    · rw [List.mem_singleton.mp hr]
      decide
    · have hall : ∀ b ∈ Bucket.all, b.category.isExact = false →
          Joinable b.category (patternsOf b [placed]) := by
        decide +kernel
      exact hall b (Bucket.mem_all b) hb
  obtain ⟨base, report, hbuild, hbuckets, hdropped, -⟩ :=
    build_of_isPlain Policy.isUnlimited_permissive Ranking.isOrder_inOrder hplain
  obtain ⟨r, hr, hbucket⟩ := List.mem_map.mp (hbuckets ▸ Bucket.mem_all placed.bucket)
  refine ⟨Policy.isUnlimited_permissive, Ranking.isOrder_inOrder, hplain.noRaw, base, report, hbuild, r,
    hr, hbucket, ?_⟩
  rw [hdropped r hr, hrules, hbucket]
  exact unfit_single rfl (by decide) (Glob.not_fits_carets (Nat.le_refl 1000))

end Builder

end UrlFilter
