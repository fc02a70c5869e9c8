import UrlFilter.Proofs.Build.Buckets
import UrlFilter.Proofs.Lookup.Names
import UrlFilter.Proofs.Policy.Settings
import UrlFilter.Proofs.Snapshot.Canonical

/-!
# Hosts that no exception reaches

The hosts that the settings list to be blocked are compared before any rule is looked at. They are kept without blanks
around them and in lower case, and the host that is looked up is put in lower case, too. But dots at the end of a host
are not taken off for this, as they are for the rules over hosts: a host with a dot more at its end is another one
here, and an exception reaches it.
-/

namespace UrlFilter

namespace Settings

/-- The settings list the host of the lookup, whatever the letter case. -/
def Blocks (s : Settings) (l : Lookup) : Prop :=
  ∃ e ∈ s.blockedHosts, Text.trim e ≠ [] ∧ Text.sameIgnoringCase (Text.trim e) l.namedHost = true

/-- The settings list the host of the lookup, whatever the letter case and the dots at the end. -/
def BlocksUpToDots (s : Settings) (l : Lookup) : Prop :=
  ∃ e ∈ s.blockedHosts, Text.trim e ≠ [] ∧
    Text.sameIgnoringCase (Host.trimDots (Text.trim e)) (Host.trimDots l.namedHost) = true

/-- Settings that list one host and admit every rule. -/
def blocking (host : Text) : Settings where
  maxExactRules := none
  maxPatternRules := none
  maxWildcards := none
  includeExceptions := true
  dropOptionedPatterns := false
  ignoredOptions := []
  highValueOptions := []
  contentKeywords := []
  rankingKeywords := []
  wildcardPreferences := []
  ignoredSections := []
  pathExtensions := []
  pinnedRules := []
  blockedHosts := [host]

end Settings

namespace Policy

/-- The hosts of the exceptions are their texts, trimmed and in lower case, where anything is left of them. -/
theorem mem_hosts_iff {ts : List Text} {h : Text} :
    h ∈ hosts ts ↔ ∃ t ∈ ts, Text.trim t ≠ [] ∧ Text.lower (Text.trim t) = h := by
  simp only [hosts, List.mem_filter, List.mem_map, Bool.not_eq_true', List.isEmpty_eq_false_iff]
  constructor
  · rintro ⟨⟨t, ht, rfl⟩, hne⟩
    exact ⟨t, ht, Text.lower_eq_nil_iff.not.mp hne, rfl⟩
  · rintro ⟨t, ht, hne, rfl⟩
    exact ⟨⟨t, ht, rfl⟩, Text.lower_eq_nil_iff.not.mpr hne⟩

/-- A policy keeps the hosts of its settings. -/
theorem blockedHosts_of_ofSettings {s : Settings} {p : Policy} (h : ofSettings s = .ok p) :
    p.blockedHosts = hosts s.blockedHosts := by
  obtain ⟨-, -, -, -, -, -, -, hrest⟩ := ofSettings_eq_ok_iff.mp h
  exact congrArg Policy.blockedHosts hrest

/-- The policy of the settings that list one host. -/
theorem ofSettings_blocking (host : Text) :
    ofSettings (.blocking host) = .ok { permissive with blockedHosts := hosts [host] } := rfl

end Policy

namespace RuleBase

variable {base : RuleBase} {s : Settings} {p : Policy}

/-- The first check of a verdict is the only one that comes to this ground. -/
theorem judge_eq_blocked_iff (filter : PreFilter) (l : Lookup) :
    base.judge filter l = ⟨.block, .blockedHost⟩ ↔ l.host ∈ base.blockedHosts.entries := by
  rw [judge, ← ExactSet.contains_iff]
  cases base.blockedHosts.contains l.host with
  | true => simp
  | false =>
    -- Behind this check, the ground is the filter, a bucket, or that nothing was found.
    cases filter l with
    | some d => simp
    | none => cases base.firstHit? l (consulted l) <;> simp [Verdict.ofBucket, Verdict.passing]

/-- With the hosts of a policy, these are the lookups of the hosts that its settings list. -/
theorem judge_eq_blocked_iff_blocks (hp : Policy.ofSettings s = .ok p)
    (hhosts : base.blockedHosts = .ofList p.blockedHosts) (filter : PreFilter) (l : Lookup) :
    base.judge filter l = ⟨.block, .blockedHost⟩ ↔ s.Blocks l := by
  rw [judge_eq_blocked_iff, hhosts, ExactSet.mem_entries_ofList, Policy.blockedHosts_of_ofSettings hp,
    Policy.mem_hosts_iff, Settings.Blocks, Lookup.host_eq_lower]
  simp only [Text.sameIgnoringCase, beq_iff_eq]

/-- A rule base that is loaded again blocks the same hosts. -/
theorem blockedHosts_of_reload {loaded : RuleBase} (h : (Snapshot.ofRuleBase base).toRuleBase = .ok loaded) :
    loaded.blockedHosts = base.blockedHosts := by
  obtain ⟨-, -, hhosts⟩ := Snapshot.of_toRuleBase h
  exact hhosts.trans (ExactSet.ofList_entries _)

/-- Whatever rules a rule base was built of, and whatever filter stands in front of it, the lookups that the listed
hosts block are those of a listed host, in any letter case, as it ends in the list. That is still so after the rule
base was stored and loaded, which succeeds where no regular expressions are in it. -/
theorem judge_blocks_listed (hp : Policy.ofSettings s = .ok p) {b : Builder} {ranking : Ranking} {report : Report}
    (hbuild : b.build p ranking = .ok (base, report)) :
    (∀ filter l, base.judge filter l = ⟨.block, .blockedHost⟩ ↔ s.Blocks l) ∧
      (∀ loaded, (Snapshot.ofRuleBase base).toRuleBase = .ok loaded →
        ∀ filter l, loaded.judge filter l = ⟨.block, .blockedHost⟩ ↔ s.Blocks l) ∧
      (base.HasNoRaw → ∃ loaded, (Snapshot.ofRuleBase base).toRuleBase = .ok loaded) := by
  obtain ⟨-, -, -, hhosts, -⟩ := Builder.of_build hbuild
  refine ⟨judge_eq_blocked_iff_blocks hp hhosts, fun loaded hload => ?_, fun hraw => ?_⟩
  · exact judge_eq_blocked_iff_blocks hp ((blockedHosts_of_reload hload).trans hhosts)
  · obtain ⟨loaded, hload, -⟩ := Snapshot.toRuleBase_ofRuleBase (Build.reloads_of_build hbuild hraw)
    exact ⟨loaded, hload⟩

/-- A host that is listed with blanks around it is blocked in another letter case, in spite of an exception for it. -/
theorem judge_blocks_listed_sample :
    ∃ p base report loaded, Policy.ofSettings (.blocking " Ads.b.c ".toList) = .ok p ∧
      (Builder.addSource {} p "@@||ads.b.c^".toList).build p .inOrder = .ok (base, report) ∧
      (Snapshot.ofRuleBase base).toRuleBase = .ok loaded ∧
      base.judge .silent { url := "http://ADS.b.c/x".toList } = ⟨.block, .blockedHost⟩ ∧
      loaded.judge .silent { url := "http://ADS.b.c/x".toList } = ⟨.block, .blockedHost⟩ := by
  have hpolicy := Policy.ofSettings_blocking " Ads.b.c ".toList
  let p : Policy := { Policy.permissive with blockedHosts := Policy.hosts [" Ads.b.c ".toList] }
  let built := (Builder.addSource {} p "@@||ads.b.c^".toList).build p .inOrder
  have hok : built.toOption.any (fun r =>
      decide (∀ q ∈ Polarity.all, (r.1.bucket ⟨.rawPattern, q⟩).rules = [])) = true := by
    decide +kernel
  obtain ⟨⟨base, report⟩, hbuilt, hrules⟩ := exists_of_toOption_any hok
  obtain ⟨hjudge, hreload, hloads⟩ := judge_blocks_listed hpolicy hbuilt
  obtain ⟨loaded, hload⟩ := hloads fun q => of_decide_eq_true hrules q (by cases q <;> decide)
  have hlisted : (Settings.blocking " Ads.b.c ".toList).Blocks { url := "http://ADS.b.c/x".toList } :=
    ⟨_, List.mem_singleton_self _, by decide, by decide⟩
  exact ⟨p, base, report, loaded, hpolicy, hbuilt, hload, (hjudge _ _).mpr hlisted,
    (hreload _ hload _ _).mpr hlisted⟩

/-- With a dot at its end, the host of an exception is not blocked though it is listed. -/
theorem listed_host_evades :
    ∃ p base report, Policy.ofSettings (.blocking "ads.b.c".toList) = .ok p ∧
      (Builder.addSource {} p "@@||ads.b.c^".toList).build p .inOrder = .ok (base, report) ∧
      (Settings.blocking "ads.b.c".toList).BlocksUpToDots { url := "http://ads.b.c./x".toList } ∧
      base.judge .silent { url := "http://ads.b.c./x".toList } = ⟨.allow, .bucket ⟨.domainExact, .good⟩⟩ := by
  let p : Policy := { Policy.permissive with blockedHosts := Policy.hosts ["ads.b.c".toList] }
  let built := (Builder.addSource {} p "@@||ads.b.c^".toList).build p .inOrder
  have hok : built.toOption.any (fun r =>
      decide (r.1.judge .silent { url := "http://ads.b.c./x".toList } =
        ⟨.allow, .bucket ⟨.domainExact, .good⟩⟩)) = true := by
    decide +kernel
  obtain ⟨⟨base, report⟩, hbuilt, hallowed⟩ := exists_of_toOption_any hok
  exact ⟨p, base, report, Policy.ofSettings_blocking _, hbuilt,
    ⟨_, List.mem_singleton_self _, by decide, by decide⟩, of_decide_eq_true hallowed⟩

end RuleBase

end UrlFilter
