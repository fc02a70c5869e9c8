import UrlFilter.Verdict
import Mathlib.Data.List.Find

/-!
# Which bucket decides

The verdict names the first bucket that has a rule for the lookup, every good bucket being asked before any
bad one. From this follows what a change of the rules can do: more rules in good buckets never block a lookup
that was allowed, more rules in bad ones never allow one that was blocked, and where the path of a URL is
hidden, rules over paths do not count at all.

What a bucket is tested against is said by its category in `RuleBase.Applies`, without the two shortcuts that are
taken on the way to a verdict: a bucket without rules is passed over, and a view that is the same as another is tested
once. `RuleBase.hits_iff_applies` shows that neither of them changes what is found, as long as an alternation has as
many rules as fragments.
-/

namespace UrlFilter

namespace Alternation

/-- An alternation as it is made: of as many rules as fragments, or again from its text. -/
inductive Made : Alternation → Prop where
  | ofFragments {rules fragments : List Text} {a : Alternation} (length : rules.length = fragments.length)
    (made : ofFragments rules fragments = .ok a) : Made a
  | ofText {rules : List Text} {text : Text} {a : Alternation} (made : ofText rules text = .ok a) : Made a

/-- What is made of no rules matches nothing. -/
theorem Made.isMatch_of_rules_eq_nil {a : Alternation} (h : a.Made) (hrules : a.rules = []) (t : Text) :
    a.isMatch t = false := by
  -- Either there is no matcher, or there is a fragment and so a rule.
  cases h with
  | @ofFragments rules fragments _ hlength hmade =>
    cases fragments with
    | nil =>
      cases hmade
      rfl
    | cons f fs =>
      obtain ⟨m, -, rfl⟩ := (ofFragments_eq_ok_iff (List.cons_ne_nil f fs)).mp hmade
      cases hrules
      simp at hlength
  | @ofText rules text _ hmade =>
    cases rules with
    | nil =>
      cases hmade
      rfl
    | cons q qs =>
      obtain ⟨fragments, -, -, m, -, rfl⟩ := (ofText_eq_ok_iff (List.cons_ne_nil q qs)).mp hmade
      cases hrules

end Alternation

namespace RuleBase

/-- Every alternation of the rule base is one that can be made. -/
def Made (base : RuleBase) : Prop := ∀ b a, base.bucket b = .pattern a → a.Made

/-- The patterns of a rule base are made as they should be when those of its list are. -/
theorem made_of_listed {base : RuleBase} (h : ∀ e ∈ base.listed, ∀ a, e.2 = .pattern a → a.Made) :
    base.Made := by
  intro b a hb
  unfold bucket at hb
  cases hlookup : base.listed.lookup b with
  | some rules =>
    obtain ⟨es, es', hes, -⟩ := List.lookup_eq_some_iff.mp hlookup
    rw [hlookup] at hb
    exact h (b, rules) (by simp [hes]) a hb
  | none =>
    rw [hlookup, Option.getD_none, RuleSet.emptyFor] at hb
    split at hb
    · cases hb
    · have hempty : Alternation.ofFragments [] [] = .ok a := by
        cases hb
        rfl
      exact .ofFragments rfl hempty

/-- A rule of the bucket matches what its category looks at: the host or one of its parents; the page or the address,
each with and without the labels of the server, and so the host; or the URL as it stands. -/
def Applies (base : RuleBase) (l : Lookup) (b : Bucket) : Prop :=
  let matching (t : Text) : Prop := (base.bucket b).isMatch t = true
  match b.category with
  | .domainExact => ∃ name ∈ l.hostNames, matching name
  | .hostPathExact | .hostPathPattern => matching l.sitePage ∨ matching l.page
  | .domainPattern => matching l.site ∨ matching l.host
  | .domainGenericPattern => matching l.siteAddress ∨ matching l.address
  | .urlFragment | .rawPattern => matching l.url

/-- A rule of the bucket matches a view of the lookup. -/
def applies (base : RuleBase) (l : Lookup) (b : Bucket) : Bool :=
  (l.views b.category).any (base.bucket b).isMatch

/-- The test of whether a bucket applies is right. -/
theorem applies_iff {base : RuleBase} {l : Lookup} {b : Bucket} :
    base.applies l b = true ↔ base.Applies l b := by
  obtain ⟨c, p⟩ := b
  cases c <;> simp [applies, Applies, Lookup.views]

section

variable {base other : RuleBase} {filter : PreFilter} {l : Lookup}

/-- A bucket without rules matches nothing. -/
theorem Made.hasRules (h : base.Made) {b : Bucket} {t : Text} (ht : (base.bucket b).isMatch t = true) :
    (base.bucket b).hasRules = true := by
  by_contra hnone
  have hrules : (base.bucket b).rules = [] := by simpa [RuleSet.hasRules] using hnone
  cases hset : base.bucket b with
  | exact s =>
    rw [hset] at ht hrules
    have hmem : t ∈ s.entries := ExactSet.contains_iff.mp ht
    have hentries : s.entries = [] := hrules
    simp [hentries] at hmem
  | pattern a =>
    rw [hset] at ht hrules
    have hmatch : a.isMatch t = false := (h b a hset).isMatch_of_rules_eq_nil hrules t
    rw [RuleSet.isMatch, hmatch] at ht
    cases ht

/-- In a rule base that is made as it should be, a bucket is hit exactly when it applies. -/
theorem hits_eq_applies (h : base.Made) (l : Lookup) : base.hits l = base.applies l := by
  funext b
  have hviews : (l.views b.category).eraseDups.any (base.bucket b).isMatch = base.applies l b := by
    rw [Bool.eq_iff_iff, applies, List.any_eq_true, List.any_eq_true]
    simp only [List.mem_eraseDups]
  rw [hits, hviews]
  cases happlies : base.applies l b with
  | false => exact Bool.and_false _
  | true =>
    obtain ⟨t, -, ht⟩ := List.any_eq_true.mp happlies
    rw [h.hasRules ht]
    rfl

/-- The shortcuts change nothing: a bucket is hit when one of its rules matches what its category looks at. -/
theorem hits_iff_applies (h : base.Made) {b : Bucket} : base.hits l b = true ↔ base.Applies l b := by
  rw [hits_eq_applies h, applies_iff]

/-- The buckets that are asked about a lookup, in order: all good ones, then all bad ones. -/
def asked (l : Lookup) : List Bucket := (consulted l).map (⟨·, .good⟩) ++ (consulted l).map (⟨·, .bad⟩)

/-- The first bucket that is hit is the first of those asked that applies. -/
theorem firstHit?_eq (h : base.Made) (l : Lookup) :
    base.firstHit? l (consulted l) = (asked l).find? (base.applies l) := by
  rw [firstHit?, hits_eq_applies h, asked]
  simp [Polarity.all]

/-- Where neither the host nor the filter settles it, the first bucket that applies gives the verdict. -/
theorem judge_eq (h : base.Made) (hhost : base.blockedHosts.contains l.host = false)
    (hfilter : filter l = none) :
    base.judge filter l = (((asked l).find? (base.applies l)).map Verdict.ofBucket).getD .passing := by
  rw [judge, hhost, hfilter, if_neg Bool.false_ne_true, firstHit?_eq h]
  cases (asked l).find? (base.applies l) <;> rfl

/-- The verdict rests on a bucket when nothing settles it before and that bucket is the first to apply. -/
theorem ground_eq_bucket_iff (h : base.Made) {b : Bucket} :
    (base.judge filter l).ground = .bucket b ↔ base.blockedHosts.contains l.host = false ∧
      filter l = none ∧ (asked l).find? (base.applies l) = some b := by
  cases hhost : base.blockedHosts.contains l.host with
  | true => simp [judge, hhost]
  | false =>
    cases hfilter : filter l with
    | some d => simp [judge, hhost, hfilter]
    | none =>
      rw [judge_eq h hhost hfilter]
      cases (asked l).find? (base.applies l) <;> simp [Verdict.ofBucket, Verdict.passing]

/-! ## Decisions -/

/-- Some bucket of the polarity that is asked applies. -/
def anyApplies (base : RuleBase) (l : Lookup) (p : Polarity) : Bool :=
  (consulted l).any fun c => base.applies l ⟨c, p⟩

/-- The decision in terms of the two polarities: a bad bucket counts only when no good one does. -/
theorem decision_judge (h : base.Made) (hhost : base.blockedHosts.contains l.host = false)
    (hfilter : filter l = none) :
    (base.judge filter l).decision =
      if base.anyApplies l .good = false ∧ base.anyApplies l .bad = true then .block else .allow := by
  have hfind (p : Polarity) : ((consulted l).map (Bucket.mk · p)).find? (base.applies l) =
      ((consulted l).find? fun c => base.applies l ⟨c, p⟩).map (Bucket.mk · p) := List.find?_map
  have hany (p : Polarity) : base.anyApplies l p =
      ((consulted l).find? fun c => base.applies l ⟨c, p⟩).isSome := List.isSome_find?.symm
  rw [judge_eq h hhost hfilter, asked, List.find?_append, hfind, hfind, hany, hany]
  cases (consulted l).find? fun c => base.applies l ⟨c, .good⟩ with
  | some c => rfl
  | none => cases (consulted l).find? fun c => base.applies l ⟨c, .bad⟩ <;> rfl

/-! ## Rule bases that differ -/

/-- The other rule base has the same rules but for the buckets of one polarity, which match more. -/
structure Extends (p : Polarity) (base other : RuleBase) : Prop where
  hosts : ∀ t, other.blockedHosts.contains t = base.blockedHosts.contains t
  same : ∀ b : Bucket, b.polarity ≠ p → ∀ t, (other.bucket b).isMatch t = (base.bucket b).isMatch t
  more : ∀ b : Bucket, b.polarity = p → ∀ t, (base.bucket b).isMatch t = true →
    (other.bucket b).isMatch t = true

namespace Extends

variable {p : Polarity}

/-- A rule base with more rules of one polarity has the same of the other that apply. -/
theorem anyApplies_eq (h : base.Extends p other) (l : Lookup) {q : Polarity} (hq : q ≠ p) :
    other.anyApplies l q = base.anyApplies l q := by
  have happlies (c : Category) : other.applies l ⟨c, q⟩ = base.applies l ⟨c, q⟩ := by
    have hsets : (other.bucket ⟨c, q⟩).isMatch = (base.bucket ⟨c, q⟩).isMatch := funext (h.same ⟨c, q⟩ hq)
    rw [applies, applies, hsets]
  simp only [anyApplies, happlies]

/-- What applies still does with more rules of its polarity. -/
theorem anyApplies_of (h : base.Extends p other) (happly : base.anyApplies l p = true) :
    other.anyApplies l p = true := by
  obtain ⟨c, hc, happlies⟩ := List.any_eq_true.mp happly
  obtain ⟨t, ht, hmatch⟩ := List.any_eq_true.mp happlies
  exact List.any_eq_true.mpr ⟨c, hc, List.any_eq_true.mpr ⟨t, ht, h.more ⟨c, p⟩ rfl t hmatch⟩⟩

/-- Rules of a polarity never turn a decision against it. -/
theorem decision_judge_eq (hbase : base.Made) (hother : other.Made) (h : base.Extends p other)
    (hdecision : (base.judge filter l).decision = p.decision) :
    (other.judge filter l).decision = p.decision := by
  cases hhost : base.blockedHosts.contains l.host with
  | true =>
    have hhost' := (h.hosts l.host).trans hhost
    rw [judge, hhost] at hdecision
    rw [judge, hhost']
    exact hdecision
  | false =>
    have hhost' := (h.hosts l.host).trans hhost
    cases hfilter : filter l with
    | some d =>
      rw [judge, hhost, hfilter] at hdecision
      rw [judge, hhost', hfilter]
      exact hdecision
    | none =>
      rw [decision_judge hbase hhost hfilter] at hdecision
      rw [decision_judge hother hhost' hfilter]
      -- More good rules keep an allowance, for no bad rule outweighs them; more bad rules keep a block,
      -- for the good rules are the same.
      cases p with
      | good =>
        have hbad : other.anyApplies l .bad = base.anyApplies l .bad := h.anyApplies_eq l (by decide)
        have hgood : base.anyApplies l .good = true → other.anyApplies l .good = true := h.anyApplies_of
        rw [hbad]
        cases hg : base.anyApplies l .good with
        | true => simp [hgood hg, Polarity.decision]
        | false =>
          cases hb : base.anyApplies l .bad with
          | true => simp [hg, hb, Polarity.decision] at hdecision
          | false => simp [Polarity.decision]
      | bad =>
        have hgood : other.anyApplies l .good = base.anyApplies l .good := h.anyApplies_eq l (by decide)
        have hbad : base.anyApplies l .bad = true → other.anyApplies l .bad = true := h.anyApplies_of
        by_cases hblock : base.anyApplies l .good = false ∧ base.anyApplies l .bad = true
        · rw [hgood, if_pos ⟨hblock.1, hbad hblock.2⟩]
          rfl
        · rw [if_neg hblock] at hdecision
          cases hdecision

end Extends

/-- The two rule bases have the same rules over hosts. -/
structure SameOnHosts (base other : RuleBase) : Prop where
  hosts : ∀ t, other.blockedHosts.contains t = base.blockedHosts.contains t
  same : ∀ b : Bucket, b.category = .domainExact ∨ b.category = .domainPattern → ∀ t,
    (other.bucket b).isMatch t = (base.bucket b).isMatch t

/-- Where the path is hidden, only rules over hosts count. -/
theorem SameOnHosts.judge_eq (hbase : base.Made) (hother : other.Made) (h : base.SameOnHosts other)
    (hhidden : l.isPathHidden = true) : other.judge filter l = base.judge filter l := by
  have hconsulted : consulted l = Category.hostOnly := by rw [consulted, hhidden, if_pos rfl]
  have happlies : ∀ b ∈ asked l, other.applies l b = base.applies l b := by
    intro b hb
    have hcategories : ∀ b ∈ Category.hostOnly.map (Bucket.mk · .good) ++
        Category.hostOnly.map (Bucket.mk · .bad), b.category = .domainExact ∨ b.category = .domainPattern := by decide
    have hcategory := hcategories b (by rwa [asked, hconsulted] at hb)
    have hsets : (other.bucket b).isMatch = (base.bucket b).isMatch := funext (h.same b hcategory)
    rw [applies, applies, hsets]
  have hfirst : base.firstHit? l (consulted l) = other.firstHit? l (consulted l) := by
    rw [firstHit?_eq hbase, firstHit?_eq hother]
    exact List.find?_congr fun b hb => (happlies b hb).symm
  rw [judge, judge, h.hosts, hfirst]

/-! ## The order of the buckets -/

/-- The bucket is the first one with a rule that matches, of the buckets of some categories: all good ones, then all
bad ones. -/
def IsFirst (base : RuleBase) (l : Lookup) (order : List Category) (b : Bucket) : Prop :=
  base.Applies l b ∧ ∃ before after, order.map (⟨·, .good⟩) ++ order.map (⟨·, .bad⟩) = before ++ b :: after ∧
    ∀ b' ∈ before, ¬base.Applies l b'

/-- The verdict rests on the bucket that is the first one of those that are asked. -/
theorem ground_eq_bucket_iff_isFirst (h : base.Made) {b : Bucket} :
    (base.judge filter l).ground = .bucket b ↔ base.blockedHosts.contains l.host = false ∧
      filter l = none ∧ base.IsFirst l (consulted l) b := by
  have hfind : (asked l).find? (base.applies l) = some b ↔ base.IsFirst l (consulted l) b := by
    rw [List.find?_eq_some_iff_append, IsFirst, ← asked, applies_iff]
    simp only [Bool.not_eq_true', ← applies_iff, Bool.not_eq_true]
  rw [ground_eq_bucket_iff h, hfind]

/-- Where nothing is asked, no bucket is the first. -/
theorem not_isFirst_nil {b : Bucket} : ¬base.IsFirst l [] b := by
  rintro ⟨-, before, after, horder, -⟩
  simp at horder

/-- The verdict rests on a bucket exactly when the host is not blocked, the filter is silent and that bucket is the
first one with a rule that matches, all good buckets being in front of the bad ones: the buckets over hosts where a
URL hides its path, those of all seven categories for other URLs of the two schemes, and none otherwise. So good rules
never block what was allowed, bad ones never allow what was blocked, and where the path is hidden the rules over paths
do not count. -/
theorem judge_by_precedence (hbase : base.Made) (filter : PreFilter) (l : Lookup) :
    (l.isHttps = true → l.path = ['/'] → ∀ b, (base.judge filter l).ground = .bucket b ↔
        base.blockedHosts.contains l.host = false ∧ filter l = none ∧
          base.IsFirst l [.domainExact, .domainPattern] b) ∧
      (l.isHttp = true ∨ l.isHttps = true → ¬(l.isHttps = true ∧ l.path = ['/']) →
        ∀ b, (base.judge filter l).ground = .bucket b ↔
          base.blockedHosts.contains l.host = false ∧ filter l = none ∧
            base.IsFirst l [.domainExact, .hostPathExact, .domainPattern, .hostPathPattern, .domainGenericPattern,
              .urlFragment, .rawPattern] b) ∧
      (l.isHttp = false → l.isHttps = false → ∀ b, (base.judge filter l).ground ≠ .bucket b) ∧
      (∀ b, (base.judge filter l).ground = .bucket b →
        (base.judge filter l).decision = b.polarity.decision) ∧
      (∀ other, other.Made → base.Extends .good other → (base.judge filter l).decision = .allow →
        (other.judge filter l).decision = .allow) ∧
      (∀ other, other.Made → base.Extends .bad other → (base.judge filter l).decision = .block →
        (other.judge filter l).decision = .block) ∧
      ∀ other, other.Made → base.SameOnHosts other → l.isHttps = true → l.path = ['/'] →
        other.judge filter l = base.judge filter l := by
  have hhidden : l.isPathHidden = true ↔ l.isHttps = true ∧ l.path = ['/'] := by
    rw [Lookup.isPathHidden, Bool.and_eq_true, beq_iff_eq]
  refine ⟨fun hhttps hpath b => ?_, fun hscheme hshown b => ?_, fun hhttp hhttps b => ?_, fun b hb => ?_,
    fun other hother h => h.decision_judge_eq hbase hother, fun other hother h => h.decision_judge_eq hbase hother,
    fun other hother h hhttps hpath => h.judge_eq hbase hother (hhidden.mpr ⟨hhttps, hpath⟩)⟩
  · rw [ground_eq_bucket_iff_isFirst hbase, consulted, if_pos (hhidden.mpr ⟨hhttps, hpath⟩), Category.hostOnly]
  · rw [ground_eq_bucket_iff_isFirst hbase, consulted, if_neg (hhidden.not.mpr hshown), if_pos (by simpa using hscheme),
      Category.all]
  · have hnone : consulted l = [] := by simp [consulted, Lookup.isPathHidden, hhttp, hhttps]
    rw [Ne, ground_eq_bucket_iff_isFirst hbase, hnone]
    exact fun h => not_isFirst_nil h.2.2
  · obtain ⟨hhost, hfilter, hfirst⟩ := (ground_eq_bucket_iff hbase).mp hb
    rw [judge_eq hbase hhost hfilter, hfirst]
    rfl

end

/-- A rule base that blocks one host. -/
def strict : RuleBase where
  listed := [(⟨.domainExact, .bad⟩, .exact (.ofList ["ads.b.c".toList]))]
  blockedHosts := .empty
  fits := by decide
  nodup := by decide

/-- The rule base that blocks the same host and lets pages pass by a pattern. -/
def lenient (pages : Alternation) : RuleBase where
  listed := [(⟨.domainExact, .bad⟩, .exact (.ofList ["ads.b.c".toList])), (⟨.urlFragment, .good⟩, .pattern pages)]
  blockedHosts := .empty
  fits := by
    simp only [List.forall_mem_cons, RuleSet.isExact, Category.isExact, List.not_mem_nil, false_imp_iff,
      implies_true, and_self]
  nodup := by simp

/-- The lenient rule base differs from the strict one in one bucket only. -/
theorem lenient_bucket {pages : Alternation} {b : Bucket} (hb : b ≠ ⟨.urlFragment, .good⟩) :
    (lenient pages).bucket b = strict.bucket b := by
  simp only [bucket, lenient, strict, List.lookup_cons, beq_false_of_ne hb]

/-- The patterns of the strict rule base are made as they should be. -/
theorem strict_made : strict.Made := made_of_listed fun e he a ha => by
  rw [List.mem_singleton.mp he] at ha
  cases ha

/-- The patterns of the lenient rule base are made as they should be. -/
theorem lenient_made {pages : Alternation} (h : pages.Made) : (lenient pages).Made :=
  made_of_listed fun e he a ha => by
    simp only [lenient, List.mem_cons, List.not_mem_nil, or_false] at he
    rcases he with rfl | rfl
    · cases ha
    · cases ha
      exact h

/-- The second rule base only adds an exception to the first. -/
theorem strict_extends_lenient (pages : Alternation) : strict.Extends .good (lenient pages) where
  hosts _ := rfl
  same b hb t := by rw [lenient_bucket fun h => hb (by rw [h])]
  more b _ t ht := by
    by_cases hb : b = ⟨.urlFragment, .good⟩
    · subst hb
      cases ht
    · rwa [lenient_bucket hb]

/-- The exception is not one over hosts. -/
theorem strict_sameOnHosts_lenient (pages : Alternation) : strict.SameOnHosts (lenient pages) where
  hosts _ := rfl
  same b hb t := by rw [lenient_bucket fun h => by simp [h] at hb]

/-- There is a pattern that lets some pages pass. -/
theorem exists_pages : ∃ pages : Alternation, pages.Made ∧ pages.isMatch "http://ads.b.c/ok/".toList = true := by
  have hmatch : (Alternation.Matcher.ofFragments? ["/ok/".toList]).map
      (·.isMatch "http://ads.b.c/ok/".toList) = some true := by decide +kernel
  obtain ⟨m, hm, hmatch⟩ := Option.map_eq_some_iff.mp hmatch
  have hpages : Alternation.ofFragments ["/ok/".toList] ["/ok/".toList] =
      .ok ⟨["/ok/".toList], Alternation.join ["/ok/".toList], some m⟩ :=
    (Alternation.ofFragments_eq_ok_iff (List.cons_ne_nil _ _)).mpr ⟨m, hm, rfl⟩
  exact ⟨_, .ofFragments rfl hpages, hmatch⟩

/-- No good bucket of the lenient rule base in front of the exception applies to a page. -/
theorem not_applies_lenient (pages : Alternation) : ∀ b ∈ (Category.all.take 5).map (Bucket.mk · .good),
    ¬(lenient pages).Applies { url := "http://ads.b.c/ok/".toList } b := by
  intro b hb
  have hsilent : ∀ b ∈ (Category.all.take 5).map (Bucket.mk · .good), b ≠ ⟨.urlFragment, .good⟩ ∧
      strict.applies { url := "http://ads.b.c/ok/".toList } b = false := by decide
  rw [← applies_iff, applies, lenient_bucket (hsilent b hb).1, ← applies, (hsilent b hb).2]
  exact Bool.false_ne_true

/-- One rule base blocks a host, another lets some of its pages pass. There the verdict on a page rests on the
exception, which is asked about in the sixth place, and that on a URL without path as before. -/
theorem judge_by_precedence_sample :
    ∃ pages, strict.Made ∧ (lenient pages).Made ∧ strict.Extends .good (lenient pages) ∧
      strict.SameOnHosts (lenient pages) ∧
      (strict.judge .silent { url := "http://ads.b.c/ok/".toList }).ground = .bucket ⟨.domainExact, .bad⟩ ∧
      (strict.judge .silent { url := "http://ads.b.c/ok/".toList }).decision = .block ∧
      ((lenient pages).judge .silent { url := "http://ads.b.c/ok/".toList }).ground =
        .bucket ⟨.urlFragment, .good⟩ ∧
      ((lenient pages).judge .silent { url := "http://ads.b.c/ok/".toList }).decision = .allow ∧
      ((lenient pages).judge .silent { url := "http://b.c/x".toList }).decision = .allow ∧
      ((lenient pages).judge .silent { url := "https://ads.b.c/".toList }).ground = .bucket ⟨.domainExact, .bad⟩ ∧
      (lenient pages).judge .silent { url := "https://ads.b.c/".toList } =
        strict.judge .silent { url := "https://ads.b.c/".toList } ∧
      ∀ b, ((lenient pages).judge .silent { url := "ftp://ads.b.c/ok/".toList }).ground ≠ .bucket b := by
  obtain ⟨pages, hpages, hmatch⟩ := exists_pages
  have hlenient : (lenient pages).Made := lenient_made hpages
  -- On a page the first rule base gets as far as the bad buckets, the second only as far as the exceptions.
  obtain ⟨-, hstrictPage, -, hdecision, -⟩ :=
    judge_by_precedence strict_made .silent { url := "http://ads.b.c/ok/".toList }
  obtain ⟨-, hlenientPage, -, hdecision', -⟩ :=
    judge_by_precedence hlenient .silent { url := "http://ads.b.c/ok/".toList }
  have hblocked := (hstrictPage (.inl (by decide)) (by decide) ⟨.domainExact, .bad⟩).mpr
    ⟨by decide, rfl, applies_iff.mp (by decide), Category.all.map (⟨·, .good⟩), Category.all.tail.map (⟨·, .bad⟩),
      by decide, by simp only [← applies_iff]; decide⟩
  have hexcepted := (hlenientPage (.inl (by decide)) (by decide) ⟨.urlFragment, .good⟩).mpr
    ⟨rfl, rfl, hmatch, (Category.all.take 5).map (⟨·, .good⟩),
      [⟨.rawPattern, .good⟩] ++ Category.all.map (⟨·, .bad⟩), by decide, not_applies_lenient pages⟩
  -- Where the path is hidden, both get to the same bad bucket.
  obtain ⟨hhiddenPage, -, -, -, -, -, hhidden⟩ :=
    judge_by_precedence strict_made .silent { url := "https://ads.b.c/".toList }
  have hstill := (hhiddenPage (by decide) (by decide) ⟨.domainExact, .bad⟩).mpr
    ⟨by decide, rfl, applies_iff.mp (by decide), [⟨.domainExact, .good⟩, ⟨.domainPattern, .good⟩],
      [⟨.domainPattern, .bad⟩], by decide, by simp only [← applies_iff]; decide⟩
  have hequal := hhidden _ hlenient (strict_sameOnHosts_lenient pages) (by decide) (by decide)
  obtain ⟨-, -, -, -, hmore, -⟩ := judge_by_precedence strict_made .silent { url := "http://b.c/x".toList }
  obtain ⟨-, -, hother, -⟩ := judge_by_precedence hlenient .silent { url := "ftp://ads.b.c/ok/".toList }
  exact ⟨pages, strict_made, hlenient, strict_extends_lenient pages, strict_sameOnHosts_lenient pages, hblocked,
    hdecision _ hblocked, hexcepted, hdecision' _ hexcepted,
    hmore _ hlenient (strict_extends_lenient pages) (by decide), hequal ▸ hstill, hequal,
    hother (by decide) (by decide)⟩

end RuleBase

end UrlFilter
