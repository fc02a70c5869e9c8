import UrlFilter.Proofs.Build.Cuts
import UrlFilter.Proofs.Build.Scan
import UrlFilter.Proofs.Glob.Case
import UrlFilter.Proofs.Lookup.Case
import UrlFilter.Proofs.Snapshot.RoundTrip

/-!
# The letter case of a lookup's scheme and host

Two lookups that differ in the case of letters in the scheme, the authority and the host alone get the same
verdict. Sets and patterns over hosts and paths are tested against views in lower case, which are the same for
both. The other patterns are tested against views that keep their case, and do not see it, as long as none is
a regular expression.
-/

namespace UrlFilter

namespace RuleBase

/-- The rules that are tested against views with letters of either case match texts without regard to it. -/
def IgnoresCase (base : RuleBase) : Prop :=
  ∀ b, b.category.keepsCase = true → (base.bucket b).hasRules = true →
    ∀ t, (base.bucket b).isMatch (Text.lower t) = (base.bucket b).isMatch t

/-- Whether one of the views matches, up to the case of letters. -/
theorem any_eraseDups_eq_any_lower {f : Text → Bool} (h : ∀ t, f (Text.lower t) = f t) (ts : List Text) :
    ts.eraseDups.any f = (ts.map Text.lower).any f := by
  rw [Bool.eq_iff_iff, List.any_eq_true, List.any_eq_true]
  simp only [List.mem_eraseDups, List.mem_map, exists_exists_and_eq_and, h]

variable {base : RuleBase} {l l' : Lookup}

/-- A bucket has a rule for both lookups or for none of them. -/
theorem hits_eq_of_sameUpToCase (hbase : base.IgnoresCase) (h : l.SameUpToCase l') :
    base.hits l' = base.hits l := by
  funext b
  unfold hits
  cases hcase : b.category.keepsCase with
  | false => rw [h.views_eq hcase]
  | true =>
    dsimp only
    cases hrules : (base.bucket b).hasRules with
    | false => rfl
    | true =>
      have hlower := hbase b hcase hrules
      rw [any_eraseDups_eq_any_lower hlower, any_eraseDups_eq_any_lower hlower, h.map_lower_views]

/-- Lookups that are the same up to case consult the same categories. -/
theorem consulted_eq_of_sameUpToCase (h : l.SameUpToCase l') : consulted l' = consulted l := by
  unfold consulted
  rw [h.isPathHidden, h.isHttp, h.isHttps]

/-- A rule base that ignores case gives the same verdict on lookups that are the same up to case. -/
theorem judge_eq_of_sameUpToCase (hbase : base.IgnoresCase) (h : l.SameUpToCase l') :
    base.judge .silent l' = base.judge .silent l := by
  unfold judge firstHit?
  rw [h.host, consulted_eq_of_sameUpToCase h, hits_eq_of_sameUpToCase hbase h]
  rfl

end RuleBase

/-! ## Rule bases that are built -/

namespace Build

/-- An alternation of globs matches a text when it matches the text in lower case. -/
theorem isMatch_lower_of_alternationOf {c : Category} (hc : c ≠ .rawPattern) {patterns : List Text}
    {a : Alternation} (h : alternationOf c patterns = .ok a) (t : Text) :
    a.isMatch (Text.lower t) = a.isMatch t := by
  cases patterns with
  | nil =>
    obtain rfl : Alternation.empty = a := Except.ok.inj h
    rfl
  | cons q qs =>
    obtain ⟨m, hm, rfl⟩ := (Alternation.ofFragments_eq_ok_iff (List.cons_ne_nil _ _)).mp h
    have hm : Alternation.Matcher.ofFragments? (Glob.ofRules c 0 (q :: qs)) = some m := hm
    rw [ofRules_eq_texts hc] at hm
    obtain ⟨kept, -, hmatch⟩ := Glob.exists_of_ofFragments?_texts hm
    rw [Alternation.isMatch, Alternation.isMatch, Option.any_some, Option.any_some, Bool.eq_iff_iff, hmatch,
      hmatch]
    simp only [Glob.Outline.isMatch_lower]

/-- A rule base that is built without raw patterns ignores case. -/
theorem ignoresCase_of_build {b : Builder} {p : Policy} {ranking : Ranking} {base : RuleBase}
    {report : Report} (h : b.build p ranking = .ok (base, report)) (hraw : base.HasNoRaw) :
    base.IgnoresCase := by
  intro k hcase hrules t
  obtain ⟨r, -, hk⟩ := Builder.bucket_of_build h k
  have hpattern : k.category.isExact = false := by
    cases hc : k.category <;> simp_all [Category.keepsCase, Category.isExact]
  obtain ⟨a, ha, halternation, -⟩ := (left_of_compileBucket hk).2.2.2 hpattern
  have hglobs : k.category ≠ .rawPattern := by
    intro hc
    obtain ⟨c, q⟩ := k
    subst hc
    simp [RuleSet.hasRules, hraw q] at hrules
  rw [ha]
  exact isMatch_lower_of_alternationOf hglobs halternation t

end Build

namespace Builder

/-- A rule base that was built without regular expressions decides without regard to the case of letters in
the scheme, the authority and the host. -/
theorem judge_ignores_case {b : Builder} {p : Policy} {ranking : Ranking} {base : RuleBase} {report : Report}
    (hbuild : b.build p ranking = .ok (base, report)) (hraw : base.HasNoRaw) {l l' : Lookup}
    (h : l.SameUpToCase l') : base.judge .silent l' = base.judge .silent l :=
  RuleBase.judge_eq_of_sameUpToCase (Build.ignoresCase_of_build hbuild hraw) h

/-- Patterns with wildcards over the whole URL and over host, path and query, a host, and an exception. -/
def mixedCase : Builder :=
  addSource {} .permissive
    "ads.*/Banner^\n||Track*.example.com/a?b=*\n||blocked.com^\n@@||ok.blocked.com^".toList

/-- The lookup of a banner, and the same one with the scheme and the host in other letters. -/
def banner : Lookup := ⟨"http://ads.site.com/Banner/1".toList, "ads.site.com".toList⟩

/-- The lookup of the banner, in letters of the other case. -/
def loudBanner : Lookup := ⟨"HTTP://ADS.Site.com/Banner/1".toList, "Ads.SITE.com".toList⟩

/-- The banner is blocked in letters of either case. -/
theorem judge_ignores_case_sample :
    ∃ base report, mixedCase.build .permissive .inOrder = .ok (base, report) ∧ base.HasNoRaw ∧
      banner.SameUpToCase loudBanner ∧ base.judge .silent banner = .ofBucket ⟨.urlFragment, .bad⟩ ∧
      base.judge .silent loudBanner = .ofBucket ⟨.urlFragment, .bad⟩ := by
  have hok : (mixedCase.build .permissive .inOrder).toOption.any (fun r =>
      decide ((∀ q ∈ Polarity.all, (r.1.bucket ⟨.rawPattern, q⟩).rules = []) ∧
        r.1.judge .silent banner = .ofBucket ⟨.urlFragment, .bad⟩)) = true := by
    decide +kernel
  have hsame : banner.SameUpToCase loudBanner := ⟨by decide +kernel, by decide +kernel, by decide +kernel⟩
  obtain ⟨⟨base, report⟩, hbuild, hshown⟩ := exists_of_toOption_any hok
  obtain ⟨hrules, hblocked⟩ := of_decide_eq_true hshown
  have hraw : base.HasNoRaw := fun q => hrules q (by cases q <;> decide)
  exact ⟨base, report, hbuild, hraw, hsame, hblocked, (judge_ignores_case hbuild hraw hsame).trans hblocked⟩

end Builder

end UrlFilter
