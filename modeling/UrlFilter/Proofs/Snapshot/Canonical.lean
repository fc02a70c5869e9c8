import UrlFilter.Proofs.Snapshot.RoundTrip

/-!
# Canonical snapshots

A snapshot that is loaded need not be one that was exported: its buckets may come in any order or not
at all, the rules of an exact bucket may repeat, its flags may be wrong, and a pattern bucket without
rules may have any text. Loading passes over all of this. What it makes is exported with every bucket in
its place, and that snapshot loads again, to the same rules.

The reason is that each bucket of a loaded rule base reloads. Its alternation was made from its rules and
its text, or is the empty one, and it keeps the text as it was given; the buckets that the snapshot does
not list are empty. So reloading needs nothing of the expressions but that they were loaded once.
-/

namespace UrlFilter

namespace Alternation

/-- What was made from rules and a text has those rules. It has that text where there are rules, and the
text of the empty alternation where there are none. -/
theorem of_ofText {rules : List Text} {text : Text} {a : Alternation} (h : ofText rules text = .ok a) :
    a.rules = rules ∧ a.text = if rules.isEmpty then emptyText else text := by
  by_cases hne : rules = []
  · subst hne
    simp only [ofText, List.isEmpty_nil, if_true, Except.ok.injEq] at h
    subst h
    exact ⟨rfl, rfl⟩
  · obtain ⟨fragments, -, -, m, -, rfl⟩ := (ofText_eq_ok_iff hne).mp h
    exact ⟨rfl, by simp [hne]⟩

/-- What was made from rules and a text is made again from its own. -/
theorem ofText_of_ofText {rules : List Text} {text : Text} {a : Alternation}
    (h : ofText rules text = .ok a) : ofText a.rules a.text = .ok a := by
  obtain ⟨hrules, htext⟩ := of_ofText h
  rw [hrules, htext]
  by_cases hne : rules = []
  · -- The text that was given is gone, but no text is looked at without rules.
    subst hne
    exact h
  · rw [if_neg (by simpa using hne)]
    exact h

end Alternation

namespace Bucket

/-- A text that is read as a bucket is the name of the bucket. -/
theorem eq_name_of_ofName? {t : Text} {b : Bucket} (h : ofName? t = some b) : t = b.name := by
  have hname := List.find?_some h
  exact (eq_of_beq hname).symm

/-- The position of a bucket leads to it. -/
theorem getElem?_all (b : Bucket) : all[b.index]? = some b := by
  obtain ⟨c, p⟩ := b
  cases p <;> cases c <;> rfl

end Bucket

namespace Snapshot

/-- The entry is one that loads to the rules of a bucket. -/
structure Entry.Loads (e : Entry) (b : Bucket) (rules : RuleSet) : Prop where
  name : Bucket.ofName? e.name = some b
  kind : e.isExact = b.category.isExact
  ruleSet : e.ruleSet = .ok rules

/-- What an entry loads to: a set of its rules, or the alternation of its rules and its text. -/
theorem Entry.of_ruleSet {e : Entry} {rules : RuleSet} (h : e.ruleSet = .ok rules) :
    (e.isExact = true ∧ rules = .exact (.ofList e.rules)) ∨
      (e.isExact = false ∧ ∃ text a, e.joined = some text ∧ Alternation.ofText e.rules text = .ok a ∧
        rules = .pattern a) := by
  unfold Entry.ruleSet at h
  split at h
  · rename_i hexact
    exact .inl ⟨hexact, (Except.ok.inj h).symm⟩
  · rename_i hexact
    cases hjoined : e.joined with
    | none => simp [hjoined] at h
    | some text =>
      cases ha : Alternation.ofText e.rules text with
      | error f => simp [hjoined, ha] at h
      | ok a =>
        simp only [hjoined, ha, Except.ok.injEq] at h
        exact .inr ⟨by simpa using hexact, text, a, rfl, ha, h.symm⟩

/-- What an entry loads to reloads, whatever the entry was. -/
theorem Entry.reloads_of_ruleSet {e : Entry} {rules : RuleSet} (h : e.ruleSet = .ok rules) (b : Bucket) :
    Reloads b rules := by
  rcases Entry.of_ruleSet h with ⟨-, rfl⟩ | ⟨-, text, a, -, ha, rfl⟩
  · exact reloads_exact b _
  · exact reloads_pattern (Alternation.ofText_of_ofText ha)

/-- A bucket that is empty is the same after export and load. -/
theorem reloads_emptyFor (b : Bucket) : Reloads b (.emptyFor b.category) := by
  unfold RuleSet.emptyFor
  split
  · exact reloads_exact b _
  · exact reloads_pattern rfl

/-- One entry of a list that loads, and the entries behind it. -/
theorem of_ruleSets_cons {seen : List Bucket} {e : Entry} {es : List Entry}
    {loaded : List (Bucket × RuleSet)} (h : ruleSets seen (e :: es) = .ok loaded) :
    ∃ b rules rest, e.Loads b rules ∧ b ∉ seen ∧ ruleSets (b :: seen) es = .ok rest ∧
      loaded = (b, rules) :: rest := by
  unfold ruleSets at h
  cases hname : Bucket.ofName? e.name with
  | none => simp [hname] at h
  | some b =>
    simp only [hname] at h
    split at h
    · simp at h
    · rename_i hseen
      split at h
      · simp at h
      · rename_i hkind
        simp only [bind_eq_ok_iff, map_eq_ok_iff] at h
        obtain ⟨rules, hrules, rest, hrest, rfl⟩ := h
        exact ⟨b, rules, rest, ⟨hname, by simpa using hkind, hrules⟩, by simpa using hseen, hrest, rfl⟩

/-- The entries of a list that loads are loaded one by one. -/
theorem loads_of_ruleSets {seen : List Bucket} {es : List Entry} {loaded : List (Bucket × RuleSet)}
    (h : ruleSets seen es = .ok loaded) : List.Forall₂ (fun e x => e.Loads x.1 x.2) es loaded := by
  induction es generalizing seen loaded with
  | nil =>
    simp only [ruleSets, Except.ok.injEq] at h
    rw [← h]
    exact .nil
  | cons e es ih =>
    obtain ⟨b, rules, rest, hloads, -, hrest, rfl⟩ := of_ruleSets_cons h
    exact .cons hloads (ih hrest)

/-- A rule base that was loaded lists what the entries load to, in their order. -/
theorem of_toRuleBase {s : Snapshot} {base : RuleBase} (h : s.toRuleBase = .ok base) :
    s.version = currentVersion ∧ List.Forall₂ (fun e x => e.Loads x.1 x.2) s.entries base.listed ∧
      base.blockedHosts = .ofList s.blockedHosts := by
  unfold toRuleBase at h
  split at h
  · simp at h
  · rename_i hversion
    rw [bind_eq_ok_iff] at h
    obtain ⟨es, hread, h⟩ := h
    cases hbase : RuleBase.ofBuckets es (.ofList s.blockedHosts) with
    | error f => simp [hbase] at h
    | ok base' =>
      simp only [hbase, Except.ok.injEq] at h
      subst h
      obtain ⟨hlisted, hhosts⟩ := RuleBase.listed_of_ofBuckets hbase
      exact ⟨by simpa using hversion, hlisted ▸ loads_of_ruleSets hread, hhosts⟩

/-- What corresponds to a list has a counterpart there for each of its elements. -/
theorem exists_left_of_forall₂ {α β : Type} {R : α → β → Prop} {as : List α} {bs : List β} {b : β}
    (h : List.Forall₂ R as bs) (hb : b ∈ bs) : ∃ a ∈ as, R a b := by
  induction h with
  | nil => simp at hb
  | @cons a' b' as bs hr _ ih =>
    rcases List.mem_cons.mp hb with rfl | hb
    · exact ⟨a', by simp, hr⟩
    · obtain ⟨a, ha, hab⟩ := ih hb
      exact ⟨a, by simp [ha], hab⟩

section
variable {s : Snapshot} {base : RuleBase} {b : Bucket}

/-- A bucket of a rule base that was loaded has the rules of the entry with its name. -/
theorem loads_bucket (h : s.toRuleBase = .ok base) {e : Entry} (he : e ∈ s.entries)
    (hname : e.name = b.name) : e.Loads b (base.bucket b) := by
  obtain ⟨-, hloads, -⟩ := of_toRuleBase h
  obtain ⟨⟨b', rules⟩, hmem, hentry⟩ := exists_left_of_forall₂ hloads.flip he
  have hbucket : b' = b := by
    have hfound := hentry.name
    rw [hname, Bucket.ofName?_name] at hfound
    exact (Option.some.inj hfound).symm
  subst hbucket
  have hrules : base.bucket b' = rules := by
    rw [RuleBase.bucket, lookup_of_mem base.nodup hmem, Option.getD_some]
  exact hrules ▸ hentry

/-- A bucket that no entry names is empty. -/
theorem bucket_eq_emptyFor (h : s.toRuleBase = .ok base) (hname : ∀ e ∈ s.entries, e.name ≠ b.name) :
    base.bucket b = .emptyFor b.category := by
  obtain ⟨-, hloads, -⟩ := of_toRuleBase h
  have hlookup : base.listed.lookup b = none := by
    rw [List.lookup_eq_none_iff]
    intro x hx
    obtain ⟨e, he, hentry⟩ := exists_left_of_forall₂ hloads hx
    have hne : b ≠ x.1 := by
      rintro rfl
      exact hname e he (Bucket.eq_name_of_ofName? hentry.name)
    simpa using hne
  rw [RuleBase.bucket, hlookup, Option.getD_none]

/-- Every bucket of a rule base that was loaded reloads. -/
theorem reloads_of_toRuleBase (h : s.toRuleBase = .ok base) (b : Bucket) : Reloads b (base.bucket b) := by
  by_cases hname : ∃ e ∈ s.entries, e.name = b.name
  · obtain ⟨e, he, hname⟩ := hname
    exact Entry.reloads_of_ruleSet (loads_bucket h he hname).ruleSet b
  · rw [bucket_eq_emptyFor h fun e he hb => hname ⟨e, he, hb⟩]
    exact reloads_emptyFor b

end

/-! ## The canonical form -/

/-- The entry as it is exported once it was loaded: an exact one keeps the first of each rule, a pattern
entry without rules has the text of the empty alternation, and the flag is set by the rules. -/
def Entry.canonical (e : Entry) : Entry where
  name := e.name
  isExact := e.isExact
  hasRules := !e.rules.isEmpty
  rules := if e.isExact then (ExactSet.ofList e.rules).entries else e.rules
  joined := if e.isExact then none else if e.rules.isEmpty then some Alternation.emptyText else e.joined

/-- The snapshot with every bucket at its place and each entry in its canonical form. -/
def canonical (s : Snapshot) : Snapshot where
  version := currentVersion
  entries := Bucket.all.map fun b =>
    match s.entries.find? (·.name == b.name) with
    | some e => e.canonical
    | none => entryOf b (.emptyFor b.category)
  blockedHosts := (ExactSet.ofList s.blockedHosts).entries

/-- What an entry loads to is exported as its canonical form. -/
theorem Entry.entryOf_of_loads {e : Entry} {b : Bucket} {rules : RuleSet} (h : e.Loads b rules) :
    entryOf b rules = e.canonical := by
  have hname : e.name = b.name := Bucket.eq_name_of_ofName? h.name
  rcases Entry.of_ruleSet h.ruleSet with ⟨hexact, rfl⟩ | ⟨hpattern, text, a, hjoined, ha, rfl⟩
  · have hflag : (ExactSet.ofList e.rules).entries.isEmpty = e.rules.isEmpty := by
      rw [Bool.eq_iff_iff, List.isEmpty_iff, List.isEmpty_iff, List.eq_nil_iff_forall_not_mem,
        List.eq_nil_iff_forall_not_mem]
      simp only [ExactSet.mem_entries_ofList]
    simp [entryOf, canonical, hname, hexact, RuleSet.isExact, RuleSet.hasRules, RuleSet.rules, hflag]
  · obtain ⟨hrules, htext⟩ := Alternation.of_ofText ha
    have hkept : some a.text = if e.rules.isEmpty then some Alternation.emptyText else e.joined := by
      rw [htext, hjoined, apply_ite some]
    simp [entryOf, canonical, hname, hpattern, RuleSet.isExact, RuleSet.hasRules, RuleSet.rules, hrules,
      hkept]

/-- A rule base that was loaded is exported as the canonical form of the snapshot. -/
theorem ofRuleBase_of_toRuleBase {s : Snapshot} {base : RuleBase} (h : s.toRuleBase = .ok base) :
    ofRuleBase base = s.canonical := by
  obtain ⟨-, -, hhosts⟩ := of_toRuleBase h
  have hentry : ∀ b, entryOf b (base.bucket b) =
      match s.entries.find? (·.name == b.name) with
      | some e => e.canonical
      | none => entryOf b (.emptyFor b.category) := by
    intro b
    cases hfind : s.entries.find? (·.name == b.name) with
    | some e =>
      have hname : e.name = b.name := eq_of_beq (List.find?_some hfind :)
      exact Entry.entryOf_of_loads (loads_bucket h (List.mem_of_find?_eq_some hfind) hname)
    | none =>
      have hnone : ∀ e ∈ s.entries, e.name ≠ b.name := by simpa using hfind
      simp only [bucket_eq_emptyFor h hnone]
  simp only [ofRuleBase, canonical, hentry, hhosts]

/-- A snapshot with every bucket in the place of its position, in the form of its category, with a flag
that tells whether it has rules, and with a text exactly where the rules are patterns. -/
structure IsCanonical (s : Snapshot) : Prop where
  version : s.version = currentVersion
  length : s.entries.length = 14
  name : ∀ b : Bucket, s.entries[b.index]?.map (·.name) = some b.name
  kind : ∀ b : Bucket, s.entries[b.index]?.map (·.isExact) = some b.category.isExact
  hasRules : ∀ e ∈ s.entries, e.hasRules = !e.rules.isEmpty
  joined : ∀ e ∈ s.entries, e.joined.isSome = !e.isExact

/-- The entry of a bucket stands at its position. -/
theorem getElem?_ofRuleBase (base : RuleBase) (b : Bucket) :
    (ofRuleBase base).entries[b.index]? = some (entryOf b (base.bucket b)) := by
  rw [ofRuleBase, List.getElem?_map, Bucket.getElem?_all, Option.map_some]

/-- Every rule base is exported to a canonical snapshot. -/
theorem isCanonical_ofRuleBase (base : RuleBase) : (ofRuleBase base).IsCanonical where
  version := rfl
  length := List.length_map _
  name b := by
    rw [getElem?_ofRuleBase]
    rfl
  kind b := by
    rw [getElem?_ofRuleBase]
    exact congrArg some (base.isExact_bucket b)
  hasRules e he := by
    obtain ⟨b, -, rfl⟩ := List.mem_map.mp he
    rfl
  joined e he := by
    obtain ⟨b, -, rfl⟩ := List.mem_map.mp he
    unfold entryOf
    cases base.bucket b <;> rfl

/-- Loading makes a snapshot canonical once and for all: what was loaded is exported with all buckets in
their places, that snapshot loads to a rule base with the same export, and both decide alike. -/
theorem load_canonicalizes {s : Snapshot} {base : RuleBase} (h : s.toRuleBase = .ok base) :
    (ofRuleBase base).IsCanonical ∧ ofRuleBase base = s.canonical ∧
      ∃ loaded, (ofRuleBase base).toRuleBase = .ok loaded ∧ ofRuleBase loaded = ofRuleBase base ∧
        (∀ b t, (loaded.bucket b).isMatch t = (base.bucket b).isMatch t) ∧
        ∀ filter l, loaded.judge filter l = base.judge filter l := by
  obtain ⟨loaded, hloaded, hbuckets, hhosts⟩ := toRuleBase_ofRuleBase (reloads_of_toRuleBase h)
  refine ⟨isCanonical_ofRuleBase base, ofRuleBase_of_toRuleBase h, loaded, hloaded,
    ofRuleBase_congr hbuckets hhosts, fun b t => ?_, RuleBase.judge_congr hbuckets hhosts⟩
  rw [hbuckets b]

/-- A snapshot out of order, with wrong flags, a rule twice, and a text that is no expression. -/
def untidy : Snapshot where
  version := currentVersion
  entries := [
    ⟨"bad_url_fragment".toList, false, false, ["ads".toList], some "(?i)(?:ads)".toList⟩,
    ⟨"bad_raw_pattern".toList, false, true, [], some "((".toList⟩,
    ⟨"good_domain_exact".toList, true, false, ["b".toList, "a".toList, "b".toList], some "*".toList⟩]
  blockedHosts := ["h".toList, "h".toList]

/-- The untidy snapshot loads, and is tidy ever after: the first entry lists both texts of the set, and no
bucket has a flag or a text that does not belong to it. -/
theorem load_canonicalizes_untidy :
    untidy.canonical.entries.head? =
        some ⟨"good_domain_exact".toList, true, true, ["b".toList, "a".toList], none⟩ ∧
      ∃ base loaded, untidy.toRuleBase = .ok base ∧ (ofRuleBase base).IsCanonical ∧
        ofRuleBase base = untidy.canonical ∧ (ofRuleBase base).toRuleBase = .ok loaded ∧
        ofRuleBase loaded = ofRuleBase base ∧
        ∀ filter l, loaded.judge filter l = base.judge filter l := by
  have hloads : untidy.toRuleBase.toOption.map (fun _ => ()) = some () := by decide +kernel
  obtain ⟨base, hbase, -⟩ := exists_of_toOption_map hloads
  obtain ⟨hcanonical, hform, loaded, hloaded, hsame, -, hjudge⟩ := load_canonicalizes hbase
  exact ⟨by decide +kernel, base, loaded, hbase, hcanonical, hform, hloaded, hsame, hjudge⟩

end Snapshot

end UrlFilter
