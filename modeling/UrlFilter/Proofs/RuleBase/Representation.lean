import UrlFilter.Proofs.Build.Buckets
import UrlFilter.Proofs.Snapshot.Canonical
import Mathlib.Data.List.Induction

/-!
# What a rule base represents

A rule base is put together of a list of buckets. The list makes one exactly when the rules of each bucket have
the form that its category asks for and no bucket comes twice; otherwise the first bucket for which this fails
is reported, and the form of its rules counts before the repetition (`ofBuckets_eq_error_iff`). All fourteen
buckets are then found at their positions: those of the list with their rules, the others empty.

Snapshots and builds look at forms and repetitions by themselves, before they put a rule base together. What
they hand on is a list that makes one, so they never fail at this last step.
-/

namespace UrlFilter

namespace ExactSet

/-- A set made of texts has the first of each, in their order. -/
theorem entries_ofList (ts : List Text) : (ofList ts).entries = ts.eraseDups := by
  induction ts using List.reverseRecOn with
  | nil => rfl
  | append_singleton ts t ih =>
    have hinsert : ofList (ts ++ [t]) = (ofList ts).insert t := by simp [ofList]
    rw [hinsert, List.eraseDups_append, ← ih]
    by_cases ht : t ∈ ts
    · have hmem : t ∈ (ofList ts).entries := mem_entries_ofList.mpr ht
      simp [insert, hmem, List.removeAll, ht]
    · rw [entries_insert_of_notMem (mt mem_entries_ofList.mp ht)]
      simp [List.removeAll, ht, List.eraseDups_cons]

end ExactSet

namespace RuleBase

/-! ## Lists that make no rule base -/

/-- Why a bucket with its rules cannot follow others: the rules have the wrong form or, where their form is
right, the bucket is among the others. -/
inductive Failure.Refuses (before : List (Bucket × RuleSet)) (e : Bucket × RuleSet) : Failure → Prop where
  | wrongKind (hkind : e.2.isExact ≠ e.1.category.isExact) : Refuses before e (.wrongKind e.1)
  | duplicate (hkind : e.2.isExact = e.1.category.isExact) (hseen : e.1 ∈ before.map Prod.fst) :
    Refuses before e (.duplicate e.1)

/-- The failure is that of the first bucket of a list that cannot follow those in front of it. -/
def Failure.IsFirst (f : Failure) (es : List (Bucket × RuleSet)) : Prop :=
  ∃ before e after, es = before ++ e :: after ∧ Admissible before ∧ f.Refuses before e

section

variable {base : RuleBase} {es : List (Bucket × RuleSet)} {blockedHosts : ExactSet} {f : Failure}

/-- The list of a rule base is one that buckets can be added in. -/
theorem admissible_listed (base : RuleBase) : Admissible base.listed := ⟨base.fits, base.nodup⟩

/-- One more bucket is refused for the reasons that the rule base gives. -/
theorem add_eq_error_iff {b : Bucket} {rules : RuleSet} :
    base.add b rules = .error f ↔ f.Refuses base.listed (b, rules) := by
  unfold add
  constructor
  · intro h
    split at h
    · rename_i hkind
      split at h
      · rename_i hseen
        exact Except.error.inj h ▸ .duplicate hkind hseen
      · simp at h
    · rename_i hkind
      exact Except.error.inj h ▸ .wrongKind hkind
  · intro h
    cases h with
    | wrongKind hkind => rw [dif_neg hkind]
    | duplicate hkind hseen => rw [dif_pos hkind, dif_pos hseen]

/-- To add buckets in two parts is to add the first part and then the second. -/
theorem addAll_append (base : RuleBase) (es es' : List (Bucket × RuleSet)) :
    base.addAll (es ++ es') = (base.addAll es).bind fun base => base.addAll es' := by
  induction es generalizing base with
  | nil => rfl
  | cons e es ih =>
    obtain ⟨b, rules⟩ := e
    rw [List.cons_append, addAll, addAll]
    cases base.add b rules with
    | error f => rfl
    | ok base' => exact ih base'

/-- A rule base of buckets in two parts is that of the first part with the second added. -/
theorem ofBuckets_append (es es' : List (Bucket × RuleSet)) (blockedHosts : ExactSet) :
    ofBuckets (es ++ es') blockedHosts = (ofBuckets es blockedHosts).bind fun base => base.addAll es' :=
  addAll_append _ es es'

/-- A list makes a rule base exactly when its buckets fit and none comes twice. -/
theorem exists_ofBuckets_iff : (∃ base, ofBuckets es blockedHosts = .ok base) ↔ Admissible es := by
  constructor
  · rintro ⟨base, h⟩
    exact (listed_of_ofBuckets h).1 ▸ admissible_listed base
  · exact fun h => ofBuckets_ok blockedHosts h.fits h.nodup

/-- The first bucket that is refused ends the assembly with its failure. -/
theorem addAll_eq_error_of_refuses {e : Bucket × RuleSet} (h : f.Refuses base.listed e)
    (after : List (Bucket × RuleSet)) : base.addAll (e :: after) = .error f := by
  obtain ⟨b, rules⟩ := e
  rw [addAll, add_eq_error_iff.mpr h]
  rfl

/-- A list fails with what is wrong with the first bucket that cannot follow those in front of it. -/
theorem ofBuckets_eq_error_iff : ofBuckets es blockedHosts = .error f ↔ f.IsFirst es := by
  constructor
  · intro h
    -- The last bucket of the list fails, or the list failed without it.
    induction es using List.reverseRecOn with
    | nil => simp [ofBuckets, addAll] at h
    | append_singleton es e ih =>
      rw [ofBuckets_append] at h
      cases hes : ofBuckets es blockedHosts with
      | error f' =>
        rw [hes] at h
        obtain ⟨before, e', after, rfl, hbefore, hrefuses⟩ := ih (hes.trans h)
        exact ⟨before, e', after ++ [e], by simp, hbefore, hrefuses⟩
      | ok base =>
        obtain ⟨hlisted, -⟩ := listed_of_ofBuckets hes
        rw [hes] at h
        have hadd : base.add e.1 e.2 = .error f := by
          have hlast : base.addAll [e] = .error f := h
          rw [addAll, bind_eq_error_iff] at hlast
          obtain hadd | ⟨_, _, hnil⟩ := hlast
          · exact hadd
          · cases hnil
        exact ⟨es, e, [], rfl, hlisted ▸ admissible_listed base, hlisted ▸ add_eq_error_iff.mp hadd⟩
  · rintro ⟨before, e, after, rfl, hbefore, hrefuses⟩
    obtain ⟨base, hbase⟩ := ofBuckets_ok blockedHosts hbefore.fits hbefore.nodup
    obtain ⟨hlisted, -⟩ := listed_of_ofBuckets hbase
    rw [ofBuckets_append, hbase]
    exact addAll_eq_error_of_refuses (hlisted ▸ hrefuses) after

end

/-! ## What is found in a rule base -/

/-- The rules of all buckets, in the order of the buckets. -/
def slots (base : RuleBase) : List RuleSet := Bucket.all.map base.bucket

/-- The rule base holds the buckets of a list, and no rules beside them; every bucket is found at its position,
with rules of the right form. -/
structure Holds (base : RuleBase) (es : List (Bucket × RuleSet)) (blockedHosts : ExactSet) : Prop where
  listed : ∀ e ∈ es, base.bucket e.1 = e.2
  others : ∀ b ∉ es.map Prod.fst, base.bucket b = .emptyFor b.category
  kind : ∀ b, (base.bucket b).isExact = b.category.isExact
  length_slots : base.slots.length = 14
  slot : ∀ b, base.slots[b.index]? = some (base.bucket b)
  blockedHosts_eq : base.blockedHosts = blockedHosts

/-- A rule base holds what it lists. -/
theorem holds_listed (base : RuleBase) : base.Holds base.listed base.blockedHosts where
  listed e he := by
    rw [bucket, lookup_of_mem base.nodup he, Option.getD_some]
  others b hb := by
    have hlookup : base.listed.lookup b = none := by
      rw [List.lookup_eq_none_iff]
      intro e he
      have hne : b ≠ e.1 := fun h => hb (h ▸ List.mem_map_of_mem he)
      simpa using hne
    rw [bucket, hlookup, Option.getD_none]
  kind := base.isExact_bucket
  length_slots := List.length_map _
  slot b := by rw [slots, List.getElem?_map, Bucket.getElem?_all, Option.map_some]
  blockedHosts_eq := rfl

/-- A rule base that is made of buckets holds them. -/
theorem holds_of_ofBuckets {es : List (Bucket × RuleSet)} {blockedHosts : ExactSet} {base : RuleBase}
    (h : ofBuckets es blockedHosts = .ok base) : base.Holds es blockedHosts := by
  obtain ⟨rfl, rfl⟩ := listed_of_ofBuckets h
  exact holds_listed base

end RuleBase

/-! ## Snapshots -/

namespace Snapshot

section

variable {f : RuleBase.Failure}

/-- To read an entry never fails as the assembly does. -/
theorem Entry.ruleSet_ne_error (e : Entry) : e.ruleSet ≠ .error (.ruleBase f) := by
  unfold ruleSet
  split
  · simp
  · split
    · simp
    · split <;> simp

/-- Entries are refused for other reasons than those of rule bases. -/
theorem ruleSets_ne_error (seen : List Bucket) (es : List Entry) :
    ruleSets seen es ≠ .error (.ruleBase f) := by
  induction es generalizing seen with
  | nil => simp [ruleSets]
  | cons e es ih =>
    unfold ruleSets
    split
    · simp
    · rename_i b _
      split
      · simp
      · split
        · simp
        · rw [ne_eq, bind_eq_error_iff, not_or, not_exists]
          refine ⟨Entry.ruleSet_ne_error e, fun rules h => ih (b :: seen) ?_⟩
          exact map_eq_error_iff.mp h.2

/-- An entry loads rules of the form that its bucket has. -/
theorem Entry.Loads.isExact {e : Entry} {b : Bucket} {rules : RuleSet} (h : e.Loads b rules) :
    rules.isExact = b.category.isExact := by
  rw [← h.kind]
  rcases Entry.of_ruleSet h.ruleSet with ⟨hexact, rfl⟩ | ⟨hpattern, text, a, -, -, rfl⟩
  · exact hexact.symm
  · exact hpattern.symm

/-- Entries that load make buckets that can be put together, none of them seen before. -/
theorem admissible_of_ruleSets {seen : List Bucket} {es : List Entry} {loaded : List (Bucket × RuleSet)}
    (h : ruleSets seen es = .ok loaded) :
    RuleBase.Admissible loaded ∧ ∀ x ∈ loaded, x.1 ∉ seen := by
  induction es generalizing seen loaded with
  | nil =>
    simp only [ruleSets, Except.ok.injEq] at h
    subst h
    exact ⟨⟨by simp, by simp⟩, by simp⟩
  | cons e es ih =>
    obtain ⟨b, rules, rest, hloads, hseen, hrest, rfl⟩ := of_ruleSets_cons h
    obtain ⟨⟨hfits, hnodup⟩, hnew⟩ := ih hrest
    refine ⟨⟨?_, ?_⟩, ?_⟩
    · rintro x (_ | ⟨_, hx⟩)
      · exact hloads.isExact
      · exact hfits x hx
    · refine List.nodup_cons.mpr ⟨fun hmem => ?_, hnodup⟩
      obtain ⟨x, hx, rfl⟩ := List.mem_map.mp hmem
      exact hnew x hx (List.mem_cons_self ..)
    · rintro x (_ | ⟨_, hx⟩)
      · exact hseen
      · exact fun hmem => hnew x hx (List.mem_cons_of_mem _ hmem)

/-- What entries load to is never refused. -/
theorem toRuleBase_ne_error (s : Snapshot) : s.toRuleBase ≠ .error (.ruleBase f) := by
  unfold toRuleBase
  split
  · simp
  · rw [ne_eq, bind_eq_error_iff, not_or, not_exists]
    refine ⟨ruleSets_ne_error [] s.entries, fun es h => ?_⟩
    obtain ⟨hread, h⟩ := h
    have hadmissible := (admissible_of_ruleSets hread).1
    obtain ⟨base, hbase⟩ :=
      RuleBase.ofBuckets_ok (.ofList s.blockedHosts) hadmissible.fits hadmissible.nodup
    simp [hbase] at h

end

/-- The rule base represents the snapshot: it holds what the entries load to, with the first of each text in a
set, and as many branches as rules in an alternation that has rules. -/
structure Represents (s : Snapshot) (base : RuleBase) : Prop where
  loads : List.Forall₂ (fun e x => e.Loads x.1 x.2) s.entries base.listed
  holds : base.Holds base.listed (.ofList s.blockedHosts)
  exact_rules : ∀ e ∈ s.entries, ∀ b : Bucket, e.name = b.name → e.isExact = true →
    (base.bucket b).rules = e.rules.eraseDups
  pattern_rules : ∀ e ∈ s.entries, ∀ b : Bucket, e.name = b.name → e.isExact = false →
    (base.bucket b).rules = e.rules
  unnamed : ∀ b : Bucket, (∀ e ∈ s.entries, e.name ≠ b.name) → (base.bucket b).rules = []
  isMatch_iff : ∀ b : Bucket, b.category.isExact = true →
    ∀ t, (base.bucket b).isMatch t = true ↔ t ∈ (base.bucket b).rules
  branches : ∀ b : Bucket, b.category.isExact = false → (base.bucket b).rules ≠ [] →
    ∃ a branches, base.bucket b = .pattern a ∧ Alternation.branchesOf? a.text = some branches ∧
      branches.length = a.rules.length ∧ Alternation.Matcher.ofFragments? branches = a.matcher

/-- An alternation that was loaded with rules has as many branches, and they are what it matches with. -/
theorem exists_branches_of_ofText {rules : List Text} {text : Text} {a : Alternation}
    (h : Alternation.ofText rules text = .ok a) (hne : a.rules ≠ []) :
    ∃ branches, Alternation.branchesOf? a.text = some branches ∧ branches.length = a.rules.length ∧
      Alternation.Matcher.ofFragments? branches = a.matcher := by
  have hrules := (Alternation.of_ofText h).1
  rw [hrules] at hne
  obtain ⟨branches, hbranches, hlength, m, hm, rfl⟩ := (Alternation.ofText_eq_ok_iff hne).mp h
  exact ⟨branches, hbranches, hlength, hm⟩

/-- A snapshot that is loaded is represented. -/
theorem represents_of_toRuleBase {s : Snapshot} {base : RuleBase} (h : s.toRuleBase = .ok base) :
    s.Represents base := by
  obtain ⟨-, hloads, hhosts⟩ := of_toRuleBase h
  have hentry {e : Entry} (he : e ∈ s.entries) {b : Bucket} (hname : e.name = b.name) :=
    Entry.of_ruleSet (loads_bucket h he hname).ruleSet
  refine
    { loads := hloads
      holds := hhosts ▸ base.holds_listed
      exact_rules := fun e he b hname hexact => ?_
      pattern_rules := fun e he b hname hpattern => ?_
      unnamed := fun b hname => by rw [bucket_eq_emptyFor h hname, RuleSet.rules_emptyFor]
      isMatch_iff := fun b hexact => RuleSet.isMatch_iff_of_isExact (by rw [base.isExact_bucket, hexact])
      branches := fun b hpattern hne => ?_ }
  · rcases hentry he hname with ⟨-, hrules⟩ | ⟨hpattern, -⟩
    · rw [hrules]
      exact ExactSet.entries_ofList e.rules
    · simp [hexact] at hpattern
  · rcases hentry he hname with ⟨hexact, -⟩ | ⟨-, text, a, -, ha, hrules⟩
    · simp [hpattern] at hexact
    · rw [hrules]
      exact (Alternation.of_ofText ha).1
  · -- A bucket with rules is one that an entry names, and its text is the one of that entry.
    by_cases hname : ∃ e ∈ s.entries, e.name = b.name
    · obtain ⟨e, he, hname⟩ := hname
      rcases hentry he hname with ⟨-, hrules⟩ | ⟨-, text, a, -, ha, hrules⟩
      · rw [← base.isExact_bucket b, hrules] at hpattern
        simp [RuleSet.isExact] at hpattern
      · rw [hrules] at hne ⊢
        obtain ⟨branches, hbranches⟩ := exists_branches_of_ofText ha hne
        exact ⟨a, branches, rfl, hbranches⟩
    · rw [bucket_eq_emptyFor h fun e he hb => hname ⟨e, he, hb⟩, RuleSet.rules_emptyFor] at hne
      simp at hne

end Snapshot

/-! ## Builds -/

namespace Builder

/-- What was compiled is never refused. -/
theorem build_ne_error (b : Builder) (p : Policy) (ranking : Ranking) (f : RuleBase.Failure) :
    b.build p ranking ≠ .error (.ruleBase f) := by
  unfold build
  cases hbuilt : Build.compileBuckets p ranking (Build.pinnedRules p) b.rules Bucket.all with
  | error f' => simp
  | ok built =>
    have hadmissible := Build.admissible_of_compileBuckets Bucket.nodup_all hbuilt
    obtain ⟨base, hbase⟩ :=
      RuleBase.ofBuckets_ok (.ofList p.blockedHosts) hadmissible.fits hadmissible.nodup
    simp [hbase]

end Builder

namespace RuleBase

/-- Rule bases represent what they are made of. A list of buckets makes one exactly when they fit and differ,
and fails with the first that does not; a rule base that was made holds the list and nothing else. A snapshot
that is loaded is represented in full. Neither snapshots nor builds fail where the rule base is put together. -/
theorem represents :
    (∀ es blockedHosts,
      ((∃ base, ofBuckets es blockedHosts = .ok base) ↔ Admissible es) ∧
        (∀ f, ofBuckets es blockedHosts = .error f ↔ f.IsFirst es) ∧
        ∀ base, ofBuckets es blockedHosts = .ok base → base.Holds es blockedHosts) ∧
      (∀ (s : Snapshot) base, s.toRuleBase = .ok base → s.Represents base) ∧
      (∀ (s : Snapshot) f, s.toRuleBase ≠ .error (.ruleBase f)) ∧
      ∀ (b : Builder) p ranking f, b.build p ranking ≠ .error (.ruleBase f) :=
  ⟨fun _ _ => ⟨exists_ofBuckets_iff, fun _ => ofBuckets_eq_error_iff, fun _ => holds_of_ofBuckets⟩,
    fun _ _ => Snapshot.represents_of_toRuleBase, fun s _ => s.toRuleBase_ne_error,
    Builder.build_ne_error⟩

/-- A bucket that comes three times, at first and at last with rules of its form. -/
def repeated : List (Bucket × RuleSet) :=
  [(⟨.domainExact, .bad⟩, .exact .empty), (⟨.domainExact, .bad⟩, .pattern .empty),
    (⟨.domainExact, .bad⟩, .exact .empty)]

/-- What is wrong with the second bucket is the form of its rules, although it is a repetition as well. The
untidy snapshot is represented by a rule base whose set has its two texts once each, and whose fragment has
one branch. -/
theorem represents_sample :
    ofBuckets repeated .empty = .error (.wrongKind ⟨.domainExact, .bad⟩) ∧
      (Failure.wrongKind ⟨.domainExact, .bad⟩).IsFirst repeated ∧ ¬Admissible repeated ∧
      (∃ base, ofBuckets (repeated.take 1) .empty = .ok base ∧ base.Holds (repeated.take 1) .empty) ∧
      ∃ base, Snapshot.untidy.toRuleBase = .ok base ∧ Snapshot.untidy.Represents base ∧
        (base.bucket ⟨.domainExact, .good⟩).rules = ["b".toList, "a".toList] ∧
        (base.bucket ⟨.urlFragment, .bad⟩).rules = ["ads".toList] := by
  obtain ⟨hlists, hsnapshots, -, -⟩ := represents
  have hfails : ofBuckets repeated .empty = .error (.wrongKind ⟨.domainExact, .bad⟩) := rfl
  obtain ⟨hadmissible, hfirst, -⟩ := hlists repeated .empty
  refine ⟨hfails, (hfirst _).mp hfails, fun h => ?_, ?_, ?_⟩
  · obtain ⟨base, hbase⟩ := hadmissible.mpr h
    simp [hfails] at hbase
  · obtain ⟨hadmissible, -, hholds⟩ := hlists (repeated.take 1) .empty
    obtain ⟨base, hbase⟩ := hadmissible.mpr ⟨by decide, by decide⟩
    exact ⟨base, hbase, hholds base hbase⟩
  · have hloads : Snapshot.untidy.toRuleBase.toOption.map (fun _ => ()) = some () := by decide +kernel
    obtain ⟨base, hbase, -⟩ := exists_of_toOption_map hloads
    have hrepresents := hsnapshots _ base hbase
    refine ⟨base, hbase, hrepresents, ?_, ?_⟩
    · exact hrepresents.exact_rules _ (.tail _ (.tail _ (.head _))) ⟨.domainExact, .good⟩ rfl rfl
    · exact hrepresents.pattern_rules _ (.head _) ⟨.urlFragment, .bad⟩ rfl rfl

end RuleBase

end UrlFilter
