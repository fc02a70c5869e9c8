import UrlFilter.Proofs.Build.Cuts
import UrlFilter.Proofs.Glob.Marks
import UrlFilter.Snapshot.Document

/-!
# Reloading rule bases

A snapshot keeps of an alternation its rules and its joined text. The fragments are cut out of the text
again when the snapshot is loaded, which gives back the alternation where each fragment is a branch of
the text; so it does for globs, whatever characters they are made of. A rule base is the same after
export and load when each of its buckets reloads.
-/

namespace UrlFilter

namespace Snapshot

/-- The rules are the same after export and load. -/
def Reloads (b : Bucket) (rules : RuleSet) : Prop := (entryOf b rules).ruleSet = .ok rules

/-- A set of texts is the same after export and load. -/
theorem reloads_exact (b : Bucket) (s : ExactSet) : Reloads b (.exact s) := by
  simp only [Reloads, Entry.ruleSet, entryOf, RuleSet.isExact, RuleSet.rules, if_true,
    ExactSet.ofList_entries]

/-- A pattern that its own rules and text make again is the same after export and load. -/
theorem reloads_pattern {b : Bucket} {a : Alternation} (h : Alternation.ofText a.rules a.text = .ok a) :
    Reloads b (.pattern a) := by
  simp only [Reloads, Entry.ruleSet, entryOf, RuleSet.isExact, RuleSet.rules, Bool.false_eq_true,
    if_false, h]

/-- Entries of different buckets that reload are read as the rules they were made of. -/
theorem ruleSets_entries {base : RuleBase} {seen bs : List Bucket} (hnodup : bs.Nodup)
    (hseen : ∀ b ∈ bs, b ∉ seen) (h : ∀ b ∈ bs, Reloads b (base.bucket b)) :
    ruleSets seen (bs.map fun b => entryOf b (base.bucket b)) =
      .ok (bs.map fun b => (b, base.bucket b)) := by
  induction bs generalizing seen with
  | nil => rfl
  | cons b bs ih =>
    have hb : b ∉ seen := hseen b (by simp)
    have hkind : (entryOf b (base.bucket b)).isExact = b.category.isExact := base.isExact_bucket b
    have hrules : (entryOf b (base.bucket b)).ruleSet = .ok (base.bucket b) := h b (by simp)
    obtain ⟨hnotMem, hrest⟩ := List.nodup_cons.mp hnodup
    have hseen' : ∀ b' ∈ bs, b' ∉ b :: seen := by
      intro b' hb' hmem
      rcases List.mem_cons.mp hmem with rfl | hmem
      · exact hnotMem hb'
      · exact hseen b' (by simp [hb']) hmem
    have hname : Bucket.ofName? (entryOf b (base.bucket b)).name = some b := Bucket.ofName?_name b
    rw [List.map_cons, ruleSets, hname]
    simp [hb, hkind, hrules, ih hrest hseen' fun b' hb' => h b' (by simp [hb']), Except.bind, Except.map]

/-- A rule base whose buckets reload is made again from its snapshot: every bucket and the blocked hosts
are the same. -/
theorem toRuleBase_ofRuleBase {base : RuleBase} (h : ∀ b, Reloads b (base.bucket b)) :
    ∃ loaded, (ofRuleBase base).toRuleBase = .ok loaded ∧
      (∀ b, loaded.bucket b = base.bucket b) ∧ loaded.blockedHosts = base.blockedHosts := by
  have hentries := @ruleSets_entries base [] _ Bucket.nodup_all (by simp) fun b _ => h b
  -- The entries are those of all buckets, so that none is missing and none is there twice.
  have hfits : ∀ e ∈ Bucket.all.map (fun b => (b, base.bucket b)),
      e.2.isExact = e.1.category.isExact := by
    intro e he
    obtain ⟨b, -, rfl⟩ := List.mem_map.mp he
    exact base.isExact_bucket b
  have hfst : (Bucket.all.map fun b => (b, base.bucket b)).map Prod.fst = Bucket.all := by
    rw [List.map_map]
    exact List.map_id _
  obtain ⟨loaded, hloaded⟩ := RuleBase.ofBuckets_ok base.blockedHosts hfits (hfst ▸ Bucket.nodup_all)
  obtain ⟨hlisted, hhosts⟩ := RuleBase.listed_of_ofBuckets hloaded
  refine ⟨loaded, ?_, ?_, hhosts⟩
  · have hversion : ¬(ofRuleBase base).version ≠ currentVersion := by simp [ofRuleBase]
    have hblocked : ExactSet.ofList (ofRuleBase base).blockedHosts = base.blockedHosts :=
      ExactSet.ofList_entries _
    have hread : ruleSets [] (ofRuleBase base).entries = .ok (Bucket.all.map fun b => (b, base.bucket b)) :=
      hentries
    rw [toRuleBase, if_neg hversion, hread, Except.bind, hblocked, hloaded]
  · intro b
    have hlookup : loaded.listed.lookup b = some (base.bucket b) :=
      lookup_of_mem loaded.nodup (hlisted ▸ List.mem_map.mpr ⟨b, Bucket.mem_all b, rfl⟩)
    rw [RuleBase.bucket, hlookup, Option.getD_some]

/-- Rule bases with the same buckets and blocked hosts have the same snapshot. -/
theorem ofRuleBase_congr {base base' : RuleBase} (hb : ∀ b, base'.bucket b = base.bucket b)
    (hh : base'.blockedHosts = base.blockedHosts) : ofRuleBase base' = ofRuleBase base := by
  simp only [ofRuleBase, hb, hh]

end Snapshot

namespace RuleBase

/-- No bucket of regular expressions has rules. -/
def HasNoRaw (base : RuleBase) : Prop := ∀ p, (base.bucket ⟨.rawPattern, p⟩).rules = []

end RuleBase

namespace Build

/-- The alternation of a bucket of globs, or of a bucket that came out empty, is made again from its
rules and its text. -/
theorem ofText_alternationOf {c : Category} {patterns : List Text} {a : Alternation}
    (h : alternationOf c patterns = .ok a) (hraw : c = .rawPattern → a.rules = []) :
    Alternation.ofText a.rules a.text = .ok a := by
  by_cases hc : c = .rawPattern
  · have hpatterns : patterns = [] := rules_of_alternationOf h ▸ hraw hc
    subst hpatterns
    simp only [alternationOf, Glob.ofRules, Alternation.ofFragments, List.isEmpty_nil, if_true,
      Except.ok.injEq] at h
    subst h
    rfl
  · exact Alternation.ofText_ofFragments (Glob.length_ofRules c 0 patterns)
      (fun f hf => Glob.isBranch_of_mem_ofRules hc hf) h

/-- Every bucket that was compiled reloads, but for one of regular expressions that has some. -/
theorem reloads_of_compileBucket {p : Policy} {ranking : Ranking} {b : Bucket}
    {pinned rules : List Placed} {rs : RuleSet} {report : BucketReport}
    (h : compileBucket p ranking b pinned rules = .ok (rs, report))
    (hraw : b.category = .rawPattern → rs.rules = []) : Snapshot.Reloads b rs := by
  rcases compileBucket_cases h with ⟨-, rfl, -⟩ | ⟨-, a, dropped, wildcards, hjoined, rfl, -⟩
  · exact Snapshot.reloads_exact b _
  · obtain ⟨left, -, ha, -⟩ := of_joinRules hjoined
    exact Snapshot.reloads_pattern (ofText_alternationOf ha hraw)

/-- Every bucket of a rule base that was built without regular expressions reloads. -/
theorem reloads_of_build {b : Builder} {p : Policy} {ranking : Ranking} {base : RuleBase}
    {report : Report} (h : b.build p ranking = .ok (base, report)) (hraw : base.HasNoRaw) (k : Bucket) :
    Snapshot.Reloads k (base.bucket k) := by
  obtain ⟨r, -, hk⟩ := Builder.bucket_of_build h k
  refine reloads_of_compileBucket hk fun hc => ?_
  obtain ⟨c, pol⟩ := k
  subst hc
  exact hraw pol

end Build

end UrlFilter
