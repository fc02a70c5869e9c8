import UrlFilter.Proofs.Except
import UrlFilter.Verdict
import Mathlib.Data.List.Basic

/-!
# Assembling rule bases

What a rule base that was put together holds: the buckets of the list, in its order, and no others.
Verdicts look at nothing but the buckets and the blocked hosts.
-/

namespace UrlFilter

/-! ## Exact sets -/

namespace ExactSet

/-- A new text is added at the end. -/
theorem entries_insert_of_notMem {s : ExactSet} {t : Text} (h : t ∉ s.entries) :
    (s.insert t).entries = s.entries ++ [t] := by
  simp [insert, h]

/-- The texts of a set after insertions are those it had and those inserted. -/
theorem mem_foldl_insert {ts : List Text} {s : ExactSet} {u : Text} :
    u ∈ (ts.foldl insert s).entries ↔ u ∈ s.entries ∨ u ∈ ts := by
  induction ts generalizing s with
  | nil => simp
  | cons t ts ih =>
    simp only [List.foldl_cons, ih, mem_entries_insert, List.mem_cons]
    tauto

/-- A set made of texts has those texts. -/
theorem mem_entries_ofList {ts : List Text} {u : Text} : u ∈ (ofList ts).entries ↔ u ∈ ts := by
  simp [ofList, mem_foldl_insert, empty]

/-- Inserting texts that are all new appends them. -/
theorem entries_foldl_insert {ts : List Text} {s : ExactSet} (h : (s.entries ++ ts).Nodup) :
    (ts.foldl insert s).entries = s.entries ++ ts := by
  induction ts generalizing s with
  | nil => simp
  | cons t ts ih =>
    have ht : t ∉ s.entries := by
      intro hmem
      exact (List.nodup_append.mp h).2.2 t hmem t (by simp) rfl
    have hs := entries_insert_of_notMem ht
    rw [List.foldl_cons, ih (by rw [hs]; simpa using h), hs]
    simp

/-- Sets are equal when their texts are, in order. -/
theorem ext_entries {s t : ExactSet} (h : s.entries = t.entries) : s = t := by
  cases s
  cases t
  simpa using h

/-- A set is made again from its entries. -/
theorem ofList_entries (s : ExactSet) : ofList s.entries = s :=
  ext_entries (by simpa [ofList, empty] using entries_foldl_insert (s := empty) (by simpa [empty] using s.nodup))

end ExactSet

/-- A bucket that was not given has no rules. -/
theorem RuleSet.rules_emptyFor (c : Category) : (RuleSet.emptyFor c).rules = [] := by
  unfold RuleSet.emptyFor
  split <;> rfl

/-- In a set exactly its rules match. -/
theorem RuleSet.isMatch_iff_of_isExact {rules : RuleSet} (h : rules.isExact = true) (t : Text) :
    rules.isMatch t = true ↔ t ∈ rules.rules := by
  cases rules with
  | exact s => exact ExactSet.contains_iff
  | pattern a => simp [RuleSet.isExact] at h

/-! ## Rule bases -/

/-- In a list whose keys differ, looking up a key finds its entry. -/
theorem lookup_of_mem {α β : Type} [BEq α] [LawfulBEq α] {es : List (α × β)} {a : α} {b : β}
    (hnodup : (es.map Prod.fst).Nodup) (h : (a, b) ∈ es) : es.lookup a = some b := by
  induction es with
  | nil => simp at h
  | cons e es ih =>
    obtain ⟨a', b'⟩ := e
    simp only [List.map_cons, List.nodup_cons] at hnodup
    rcases List.mem_cons.mp h with heq | hmem
    · simp only [Prod.mk.injEq] at heq
      obtain ⟨rfl, rfl⟩ := heq
      simp
    · have hne : a ≠ a' := by
        rintro rfl
        exact hnodup.1 (List.mem_map.mpr ⟨(a, b), hmem, rfl⟩)
      rw [List.lookup_cons, beq_false_of_ne hne]
      exact ih hnodup.2 hmem

namespace RuleBase

/-- The buckets of a list have rules of the form that their category asks for, and none is listed twice. -/
structure Admissible (es : List (Bucket × RuleSet)) : Prop where
  fits : ∀ e ∈ es, e.2.isExact = e.1.category.isExact
  nodup : (es.map Prod.fst).Nodup

/-- A bucket that is added is listed last, and the exceptions stay. -/
theorem listed_of_add {base base' : RuleBase} {b : Bucket} {rules : RuleSet}
    (h : base.add b rules = .ok base') :
    base'.listed = base.listed ++ [(b, rules)] ∧ base'.blockedHosts = base.blockedHosts := by
  unfold add at h
  split at h
  · split at h
    · simp at h
    · simp only [Except.ok.injEq] at h
      subst h
      exact ⟨rfl, rfl⟩
  · simp at h

/-- A rule base that was put together lists the buckets in their order. -/
theorem listed_of_addAll {base base' : RuleBase} {es : List (Bucket × RuleSet)}
    (h : base.addAll es = .ok base') :
    base'.listed = base.listed ++ es ∧ base'.blockedHosts = base.blockedHosts := by
  induction es generalizing base with
  | nil =>
    simp only [addAll, Except.ok.injEq] at h
    simp [h]
  | cons e es ih =>
    rw [addAll, bind_eq_ok_iff] at h
    obtain ⟨base₁, hadd, h⟩ := h
    obtain ⟨hl, hb⟩ := listed_of_add hadd
    obtain ⟨hl', hb'⟩ := ih h
    exact ⟨by simp [hl', hl], by rw [hb', hb]⟩

/-- A bucket is added where its rules have the right form and it is not listed yet. -/
theorem add_ok {base : RuleBase} {b : Bucket} {rules : RuleSet}
    (hk : rules.isExact = b.category.isExact) (hb : b ∉ base.listed.map Prod.fst) :
    ∃ base', base.add b rules = .ok base' := by
  unfold add
  rw [dif_pos hk, dif_neg hb]
  exact ⟨_, rfl⟩

/-- Buckets with rules of the right form, each listed once, can be put together. -/
theorem addAll_ok {base : RuleBase} {es : List (Bucket × RuleSet)}
    (hfits : ∀ e ∈ es, e.2.isExact = e.1.category.isExact)
    (hnodup : ((base.listed ++ es).map Prod.fst).Nodup) :
    ∃ base', base.addAll es = .ok base' := by
  induction es generalizing base with
  | nil => exact ⟨base, rfl⟩
  | cons e es ih =>
    obtain ⟨b, rules⟩ := e
    have hb : b ∉ base.listed.map Prod.fst := by
      intro hmem
      rw [List.map_append] at hnodup
      exact (List.nodup_append.mp hnodup).2.2 b hmem b (by simp) rfl
    obtain ⟨base₁, hadd⟩ := add_ok (hfits (b, rules) (by simp)) hb
    have hl := (listed_of_add hadd).1
    obtain ⟨base', h⟩ := ih (fun e he => hfits e (by simp [he]))
      (by rw [hl]; simpa using hnodup)
    exact ⟨base', by rw [addAll, hadd]; exact h⟩

/-- Buckets make up a rule base where their rules have the right forms and none of them is repeated. -/
theorem ofBuckets_ok {es : List (Bucket × RuleSet)} (blockedHosts : ExactSet)
    (hfits : ∀ e ∈ es, e.2.isExact = e.1.category.isExact) (hnodup : (es.map Prod.fst).Nodup) :
    ∃ base, ofBuckets es blockedHosts = .ok base :=
  addAll_ok hfits (by simpa [empty] using hnodup)

/-- A rule base lists the buckets that it is made of, with their rules and the exceptions. -/
theorem listed_of_ofBuckets {es : List (Bucket × RuleSet)} {blockedHosts : ExactSet} {base : RuleBase}
    (h : ofBuckets es blockedHosts = .ok base) :
    base.listed = es ∧ base.blockedHosts = blockedHosts := by
  obtain ⟨hl, hb⟩ := listed_of_addAll h
  exact ⟨by simpa [empty] using hl, by simpa using hb⟩

/-- A bucket has rules of the form that its category asks for. -/
theorem isExact_bucket (base : RuleBase) (b : Bucket) :
    (base.bucket b).isExact = b.category.isExact := by
  unfold bucket
  cases h : base.listed.lookup b with
  | none => exact RuleSet.isExact_emptyFor _
  | some rules =>
    obtain ⟨es, es', hes, -⟩ := List.lookup_eq_some_iff.mp h
    exact base.fits (b, rules) (by simp [hes])

/-- The rule base with the rules of one bucket. -/
def single (b : Bucket) (rules : RuleSet) (h : rules.isExact = b.category.isExact) : RuleBase where
  listed := [(b, rules)]
  blockedHosts := .empty
  fits := by simpa using h
  nodup := by simp

/-- The one bucket of such a rule base has its rules. -/
theorem bucket_single {b : Bucket} {rules : RuleSet} (h : rules.isExact = b.category.isExact) :
    (single b rules h).bucket b = rules := by
  simp [bucket, single]

/-- The other buckets of such a rule base are empty. -/
theorem bucket_single_of_ne {b c : Bucket} {rules : RuleSet} (h : rules.isExact = b.category.isExact)
    (hc : c ≠ b) : (single b rules h).bucket c = .emptyFor c.category := by
  simp [bucket, single, List.lookup_cons, beq_false_of_ne hc]

/-! ## Hits and verdicts -/

/-- A bucket without rules is hit by no lookup. -/
theorem hits_eq_false_of_rules {base : RuleBase} {b : Bucket} (h : (base.bucket b).rules = []) (l : Lookup) :
    base.hits l b = false := by
  simp [hits, RuleSet.hasRules, h]

/-- A bucket with a set is hit when one of its rules is a view of the lookup. -/
theorem hits_iff_of_isExact {base : RuleBase} {b : Bucket} (hexact : b.category.isExact = true) (l : Lookup) :
    base.hits l b = true ↔ ∃ t ∈ l.views b.category, t ∈ (base.bucket b).rules := by
  have hset : (base.bucket b).isExact = true := by rw [isExact_bucket, hexact]
  simp only [hits, Bool.and_eq_true, List.any_eq_true, List.mem_eraseDups, RuleSet.isMatch_iff_of_isExact hset]
  refine and_iff_right_of_imp fun ⟨t, _, ht⟩ => ?_
  simpa [RuleSet.hasRules] using List.ne_nil_of_mem ht

/-- Where there are no exceptions, a rule of a bucket that is asked blocks. -/
theorem decision_of_hits {base : RuleBase} (hgood : ∀ c, (base.bucket ⟨c, .good⟩).rules = []) {l : Lookup}
    {c : Category} (hc : c ∈ consulted l) (hhits : base.hits l ⟨c, .bad⟩ = true) :
    (base.judge .silent l).decision = .block := by
  have hmem : (⟨c, .bad⟩ : Bucket) ∈ Polarity.all.flatMap fun p => (consulted l).map fun c => ⟨c, p⟩ := by
    simpa [Polarity.all] using hc
  obtain ⟨b, hfirst⟩ := Option.isSome_iff_exists.mp (List.find?_isSome.mpr ⟨_, hmem, hhits⟩)
  -- Some bucket is the first that is hit. It is not a good one, for these are empty.
  have hbad : b.polarity = .bad := by
    have hhit := List.find?_some hfirst
    obtain ⟨d, q⟩ := b
    cases q with
    | bad => rfl
    | good => simp [hits_eq_false_of_rules (hgood d)] at hhit
  rw [judge, firstHit?, hfirst]
  split
  · rfl
  · rw [PreFilter.silent]
    dsimp only
    rw [Verdict.ofBucket, hbad]
    rfl

/-- Verdicts rest on the rules of the buckets and the blocked hosts alone. -/
theorem judge_congr {base base' : RuleBase} (hb : ∀ b, base'.bucket b = base.bucket b)
    (hh : base'.blockedHosts = base.blockedHosts) (filter : PreFilter) (l : Lookup) :
    base'.judge filter l = base.judge filter l := by
  have hhits : base'.hits l = base.hits l := by
    funext b
    simp only [hits, hb]
  simp only [judge, firstHit?, hhits, hh]

end RuleBase

end UrlFilter
