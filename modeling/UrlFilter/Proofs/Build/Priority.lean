import UrlFilter.Proofs.Build.Cuts
import UrlFilter.Proofs.Build.Feeds
import UrlFilter.Proofs.Rule.Placement
import UrlFilter.Proofs.Rule.Shape
import UrlFilter.Proofs.Text.Lower
import Mathlib.Algebra.Order.Ring.Nat
import Mathlib.Data.List.Lex

/-!
# Cuts by priority

The rules of a bucket have an order of priority: the pinned ones first, then the others as they are ranked, and in a
bucket of patterns those with wildcards behind those without, sorted by preference. A list is sorted in one way, as
elements with the same key stay in their order (`IsStablySorted.unique`). The cuts take from its end: of two rules
that are not pinned, the later one never stays without the earlier one. The budget for wildcards leaves a beginning of
the order (`budgeted_isPrefix`), and the limit on the number of rules leaves the pinned rules of a list and a
beginning of the others (`keepFirst_append`).
-/

namespace UrlFilter

/-! ## Stable sorting -/

/-- The list is sorted by a key, and elements with the same key stay in their order. -/
structure IsStablySorted {α κ : Type} [LinearOrder κ] (key : α → κ) (as sorted : List α) : Prop where
  perm : sorted.Perm as
  pairwise : sorted.Pairwise fun a b => key a ≤ key b
  stable : ∀ k, sorted.filter (fun a => key a = k) = as.filter fun a => key a = k

/-- Merge sort sorts stably. -/
theorem isStablySorted_mergeSort {α κ : Type} [LinearOrder κ] (key : α → κ) (as : List α) :
    IsStablySorted key as (as.mergeSort fun a b => decide (key a ≤ key b)) := by
  have htrans : ∀ a b c : α, decide (key a ≤ key b) → decide (key b ≤ key c) → decide (key a ≤ key c) := by
    simpa using fun a b c => le_trans
  have htotal : ∀ a b : α, decide (key a ≤ key b) || decide (key b ≤ key a) := by
    simpa using fun a b => le_total _ _
  have hperm := List.mergeSort_perm as fun a b => decide (key a ≤ key b)
  refine ⟨hperm, ?_, fun k => ?_⟩
  · simpa using List.pairwise_mergeSort htrans htotal as
  · -- Elements with one key are in order already, so they are a sublist of the sorted list.
    have hsame : (as.filter fun a => key a = k).Pairwise fun a b => decide (key a ≤ key b) := by
      refine List.pairwise_of_forall_mem_list fun a ha b hb => ?_
      simp only [List.mem_filter, decide_eq_true_eq] at ha hb
      simp [ha.2, hb.2]
    have hsublist := (List.sublist_mergeSort htrans htotal hsame List.filter_sublist).filter
      fun a => decide (key a = k)
    rw [List.filter_filter] at hsublist
    simp only [Bool.and_self] at hsublist
    exact (hsublist.eq_of_length (hperm.symm.filter _).length_eq).symm

/-- To check stability for the keys of the list is enough, as no element has another one. -/
theorem IsStablySorted.of_forall_mem {α κ : Type} [LinearOrder κ] {key : α → κ} {as sorted : List α}
    (hperm : sorted.Perm as) (hpairwise : sorted.Pairwise fun a b => key a ≤ key b)
    (hstable : ∀ a ∈ as, (sorted.filter fun b => key b = key a) = as.filter fun b => key b = key a) :
    IsStablySorted key as sorted := by
  refine ⟨hperm, hpairwise, fun k => ?_⟩
  by_cases hk : ∃ a ∈ as, key a = k
  · obtain ⟨a, ha, rfl⟩ := hk
    exact hstable a ha
  · have hnone (l : List α) (hl : l ⊆ as) : l.filter (fun a => key a = k) = [] :=
      List.filter_eq_nil_iff.mpr fun a ha => by simpa using fun hkey => hk ⟨a, hl ha, hkey⟩
    rw [hnone sorted hperm.subset, hnone as (List.Subset.refl as)]

/-- A list is stably sorted in one way. -/
theorem IsStablySorted.unique {α κ : Type} [LinearOrder κ] {key : α → κ} {as sorted sorted' : List α}
    (h : IsStablySorted key as sorted) (h' : IsStablySorted key as sorted') : sorted = sorted' := by
  have hsame (k : κ) : sorted.filter (fun a => key a = k) = sorted'.filter fun a => key a = k :=
    (h.stable k).trans (h'.stable k).symm
  have hmem {s t : List α} (hst : ∀ k, s.filter (fun a => key a = k) = t.filter fun a => key a = k) {a : α}
      (ha : a ∈ s) : a ∈ t :=
    (List.mem_filter.mp (hst (key a) ▸ List.mem_filter.mpr ⟨ha, by simp⟩)).1
  have hsorted := h.pairwise
  have hsorted' := h'.pairwise
  clear h h'
  induction sorted generalizing sorted' with
  | nil => exact (List.eq_nil_iff_forall_not_mem.mpr fun a ha => by simpa using hmem (fun k => (hsame k).symm) ha).symm
  | cons a s ih =>
    cases sorted' with
    | nil => simpa using hmem hsame (List.mem_cons_self ..)
    | cons b s' =>
      -- Each head has the smallest key, so both have the same one, and are the first elements with it.
      have hle {c d : α} {l : List α} (hl : (c :: l).Pairwise fun x y => key x ≤ key y) (hd : d ∈ c :: l) :
          key c ≤ key d := by
        rcases List.mem_cons.mp hd with rfl | hd
        · exact le_refl _
        · exact List.rel_of_pairwise_cons hl hd
      have hkey : key a = key b :=
        le_antisymm (hle hsorted (hmem (fun k => (hsame k).symm) (List.mem_cons_self ..)))
          (hle hsorted' (hmem hsame (List.mem_cons_self ..)))
      have hheads := hsame (key b)
      rw [List.filter_cons_of_pos (by simpa using hkey), List.filter_cons_of_pos (by simp)] at hheads
      obtain rfl := (List.cons.inj hheads).1
      have htails (k : κ) : s.filter (fun x => key x = k) = s'.filter fun x => key x = k := by
        have hk := hsame k
        rw [List.filter_cons, List.filter_cons] at hk
        split at hk
        · exact (List.cons.inj hk).2
        · exact hk
      rw [ih htails hsorted.of_cons hsorted'.of_cons]

namespace Limits

/-- Lists of misses are compared as words are: by the first difference. -/
theorem noMoreMisses_iff {as bs : List Bool} : noMoreMisses as bs = true ↔ as ≤ bs := by
  induction as generalizing bs with
  | nil => simp only [noMoreMisses, ← not_lt, List.not_lt_nil, not_false_eq_true]
  | cons a as ih =>
    cases bs with
    | nil => simp only [noMoreMisses, Bool.false_eq_true, ← not_lt, List.nil_lt_cons, not_true_eq_false]
    | cons b bs =>
      rw [noMoreMisses, ← not_lt, List.cons_lt_cons_iff]
      cases a <;> cases b <;> simp [ih]

/-- Sorting by preference is merge sort by misses. -/
theorem byPreference_eq (preferences : List Regex) (rules : List Placed) :
    byPreference preferences rules =
      rules.mergeSort fun a b => decide (misses preferences a ≤ misses preferences b) := by
  unfold byPreference
  rw [List.map_mergeSort (s := fun a b => decide (misses preferences a ≤ misses preferences b))]
  · rw [List.map_map]
    simp [Function.comp_def]
  · intro a ha b hb
    obtain ⟨r, -, rfl⟩ := List.mem_map.mp ha
    obtain ⟨r', -, rfl⟩ := List.mem_map.mp hb
    rw [Bool.eq_iff_iff, noMoreMisses_iff, decide_eq_true_iff]

/-- Sorting by preference is stable. -/
theorem isStablySorted_byPreference (preferences : List Regex) (rules : List Placed) :
    IsStablySorted (misses preferences) rules (byPreference preferences rules) := by
  rw [byPreference_eq]
  exact isStablySorted_mergeSort (misses preferences) rules

/-! ## Beginnings -/

/-- What comes first keeps its place when repeated patterns are left out. -/
theorem isPrefix_dedupFrom_append (seen : List Text) (as bs : List Placed) :
    dedupFrom seen as <+: dedupFrom seen (as ++ bs) := by
  induction as generalizing seen with
  | nil => exact List.nil_prefix
  | cons r rs ih =>
    rw [List.cons_append, dedupFrom, dedupFrom]
    split
    · exact ih seen
    · exact List.cons_prefix_cons.mpr ⟨rfl, ih _⟩

/-- What counting down leaves is a beginning of the rules. -/
theorem withinBudget_isPrefix (c : Category) (budget : Nat) (rules : List Placed) :
    withinBudget c budget rules <+: rules := by
  induction rules generalizing budget with
  | nil => exact List.nil_prefix
  | cons r rs ih =>
    rw [withinBudget]
    split
    · exact List.cons_prefix_cons.mpr ⟨rfl, ih _⟩
    · exact List.nil_prefix

/-- A budget leaves a beginning of what is left without one. -/
theorem applyBudget_isPrefix (c : Category) (budget : Option Nat) (preferences : List Regex)
    (rules : List Placed) :
    (applyBudget c budget preferences rules).1 <+: (applyBudget c none preferences rules).1 := by
  rw [applyBudget_fst, applyBudget_fst]
  cases budget with
  | none => exact List.prefix_refl _
  | some n => exact (List.prefix_append_right_inj _).mpr (withinBudget_isPrefix c n _)

/-- A budget takes no rule without wildcards. -/
theorem mem_applyBudget_of_plain {c : Category} {rules : List Placed} {r : Placed} (hr : r ∈ rules)
    (hplain : wildcards c r = 0) (budget : Option Nat) (preferences : List Regex) :
    r ∈ (applyBudget c budget preferences rules).1 := by
  rw [applyBudget_fst]
  exact List.mem_append_left _ (List.mem_filter.mpr ⟨hr, by simp [hplain]⟩)

/-! ## The number of rules -/

/-- Of no rules none are kept. -/
theorem keepFirst_nil (room : Nat) : keepFirst room [] = [] := by cases room <;> rfl

/-- A pinned rule is kept and takes no room. -/
theorem keepFirst_cons_of_pinned {r : Placed} (h : r.pinned = true) (room : Nat) (rs : List Placed) :
    keepFirst room (r :: rs) = r :: keepFirst room rs := by
  cases room <;> simp [keepFirst, h]

/-- Where there is no room a rule that is not pinned is left out. -/
theorem keepFirst_zero_cons {r : Placed} (h : r.pinned = false) (rs : List Placed) :
    keepFirst 0 (r :: rs) = keepFirst 0 rs := by
  simp [keepFirst, h]

/-- Where there is room a rule that is not pinned is kept and takes some of it. -/
theorem keepFirst_succ_cons {r : Placed} (h : r.pinned = false) (room : Nat) (rs : List Placed) :
    keepFirst (room + 1) (r :: rs) = r :: keepFirst room rs := by
  simp [keepFirst, h]

/-- Without room only the pinned rules stay. -/
theorem keepFirst_zero (rules : List Placed) : keepFirst 0 rules = rules.filter (·.pinned) := by
  induction rules with
  | nil => rfl
  | cons r rs ih =>
    cases hr : r.pinned with
    | true => rw [keepFirst_cons_of_pinned hr, List.filter_cons_of_pos hr, ih]
    | false => rw [keepFirst_zero_cons hr, List.filter_cons_of_neg (by simp [hr]), ih]

/-- The rules in front take their room first. -/
theorem keepFirst_append (room : Nat) (as bs : List Placed) :
    keepFirst room (as ++ bs) = keepFirst room as ++ keepFirst (room - as.countP (!·.pinned)) bs := by
  induction as generalizing room with
  | nil => simp [keepFirst_nil]
  | cons r rs ih =>
    cases hr : r.pinned with
    | true => simp [keepFirst_cons_of_pinned hr, hr, ih]
    | false =>
      cases room with
      | zero => simp [keepFirst_zero_cons hr, ih]
      | succ room => simp [keepFirst_succ_cons hr, hr, ih]

/-- Where there is room for all, all stay. -/
theorem keepFirst_eq_self {room : Nat} {rules : List Placed} (h : rules.countP (!·.pinned) ≤ room) :
    keepFirst room rules = rules := by
  induction rules generalizing room with
  | nil => exact keepFirst_nil room
  | cons r rs ih =>
    cases hr : r.pinned with
    | true => rw [keepFirst_cons_of_pinned hr, ih (by simpa [hr] using h)]
    | false =>
      simp only [List.countP_cons, hr, Bool.not_false, if_true] at h
      cases room with
      | zero => omega
      | succ room => rw [keepFirst_succ_cons hr, ih (by omega)]

/-- All pinned rules stay. -/
theorem filter_pinned_keepFirst (room : Nat) (rules : List Placed) :
    (keepFirst room rules).filter (·.pinned) = rules.filter (·.pinned) := by
  induction rules generalizing room with
  | nil => rw [keepFirst_nil]
  | cons r rs ih =>
    cases hr : r.pinned with
    | true => simp [keepFirst_cons_of_pinned hr, hr, ih]
    | false =>
      cases room with
      | zero => simp [keepFirst_zero_cons hr, hr, ih]
      | succ room => simp [keepFirst_succ_cons hr, hr, ih]

/-- Of the other rules so many stay as there is room for. -/
theorem countP_not_pinned_keepFirst_le (room : Nat) (rules : List Placed) :
    (keepFirst room rules).countP (!·.pinned) ≤ room := by
  induction rules generalizing room with
  | nil => simp [keepFirst_nil]
  | cons r rs ih =>
    cases hr : r.pinned with
    | true => simpa [keepFirst_cons_of_pinned hr, hr] using ih room
    | false =>
      cases room with
      | zero => simpa [keepFirst_zero_cons hr] using ih 0
      | succ room => simpa [keepFirst_succ_cons hr, hr] using ih room

/-- When a rule that is not pinned stays, so do all rules in front of it. -/
theorem mem_keepFirst_of_before {room : Nat} {before after : List Placed} {r : Placed}
    (hnew : r ∉ before) (hpinned : r.pinned = false) (hr : r ∈ keepFirst room (before ++ r :: after)) :
    ∀ x ∈ before, x ∈ keepFirst room (before ++ r :: after) := by
  intro x hx
  rw [keepFirst_append] at hr ⊢
  rcases Nat.lt_or_ge (before.countP (!·.pinned)) room with hroom | hroom
  · rw [keepFirst_eq_self (Nat.le_of_lt hroom)]
    exact List.mem_append_left _ hx
  · -- The rules in front have taken all the room, so this one would have to be pinned.
    rw [Nat.sub_eq_zero_of_le hroom, keepFirst_zero] at hr
    rcases List.mem_append.mp hr with hr | hr
    · exact absurd ((keepFirst_sublist _ _).subset hr) hnew
    · simp [hpinned] at hr

section
variable {limit : Option Nat}

/-- A limit on the number keeps exactly the pinned rules that there are. -/
theorem filter_pinned_truncate (limit : Option Nat) (rules : List Placed) :
    (truncate limit rules).1.filter (·.pinned) = rules.filter (·.pinned) := by
  cases limit with
  | none => rfl
  | some n =>
    rw [truncate]
    split
    · rfl
    · exact filter_pinned_keepFirst _ rules

/-- A pinned rule is kept whatever the limit. -/
theorem mem_truncate_of_pinned {rules : List Placed} {r : Placed} (hr : r ∈ rules)
    (hpinned : r.pinned = true) : r ∈ (truncate limit rules).1 := by
  have hfilter : r ∈ (truncate limit rules).1.filter (·.pinned) :=
    filter_pinned_truncate limit rules ▸ List.mem_filter.mpr ⟨hr, hpinned⟩
  exact (List.mem_filter.mp hfilter).1

/-- No more rules stay than the limit says, unless the pinned ones are more. -/
theorem length_truncate_le (n : Nat) (rules : List Placed) :
    (truncate (some n) rules).1.length ≤ max n ((truncate (some n) rules).1.countP (·.pinned)) := by
  have hpinned : (truncate (some n) rules).1.countP (·.pinned) = rules.countP (·.pinned) := by
    rw [List.countP_eq_length_filter, filter_pinned_truncate, ← List.countP_eq_length_filter]
  have hparts := List.length_eq_countP_add_countP (·.pinned) (l := (truncate (some n) rules).1)
  rw [hpinned] at hparts ⊢
  rw [truncate] at hparts ⊢
  split at hparts
  · next hfew =>
    rw [if_pos hfew]
    exact Nat.le_trans hfew (Nat.le_max_left ..)
  · next hmany =>
    rw [if_neg hmany]
    have hothers := countP_not_pinned_keepFirst_le (n - rules.countP (·.pinned)) rules
    simp only [Bool.not_eq_true, Bool.decide_eq_false] at hparts
    dsimp only at hparts ⊢
    omega

/-- When a rule that is not pinned stays, so do all rules in front of it. -/
theorem mem_truncate_of_before {before after : List Placed} {r : Placed} (hnew : r ∉ before)
    (hpinned : r.pinned = false) (hr : r ∈ (truncate limit (before ++ r :: after)).1) :
    ∀ x ∈ before, x ∈ (truncate limit (before ++ r :: after)).1 := by
  intro x hx
  cases limit with
  | none => exact List.mem_append_left _ hx
  | some n =>
    rw [truncate] at hr ⊢
    split
    · exact List.mem_append_left _ hx
    · next hmany =>
      rw [if_neg hmany] at hr
      exact mem_keepFirst_of_before hnew hpinned hr x hx

end

end Limits

/-! ## Sets have no wildcards -/

namespace Policy

/-- What a policy keeps for a set has no asterisks: it was seen to be literal, or its bucket is another. -/
theorem Places.notMem_star {p : Policy} {q pattern : Text} {c : Category} (h : p.Places q c pattern)
    (hexact : c.isExact = true) : '*' ∉ pattern := by
  cases h with
  | host _ _ _ hliteral =>
    exact Shape.isLiteral_iff.mp (Shape.isLiteral_lower.trans hliteral) '*' (by decide)
  | page _ _ _ _ _ hwhole =>
    have hliteral := (Bool.and_eq_true_iff.mp hwhole).1
    exact Shape.isLiteral_iff.mp (Shape.isLiteral_lowerHost.trans hliteral) '*' (by decide)
  | raw | fragment | starredHost | starredPage | generic => cases hexact

/-- A pattern in a bucket of texts has no asterisks. -/
theorem notMem_of_category {p : Policy} {q pattern : Text} {c : Category}
    (h : p.category q = (c, pattern)) (hexact : c.isExact = true) : '*' ∉ pattern := by
  have hplaces := p.places_category q
  rw [h] at hplaces
  exact hplaces.notMem_star hexact

end Policy

namespace Build

section
variable {p : Policy} {ranking : Ranking} {b : Bucket} {pinned rules : List Placed}

/-- The rules with different patterns, of which the first one with each pattern is taken. -/
def distinct (rules : List Placed) : List Placed := rules.eraseDupsBy fun r r' => r.pattern == r'.pattern

/-- The order of priority of a bucket. Its rules with different patterns are the pinned ones, and then the others as
they are ranked. In a bucket of patterns the ones without wildcards come first, and behind them the others. Those are
sorted by a list of flags, of which the first one that differs decides: not to be pinned, and then for each preference
not to match it. -/
def IsPriority (p : Policy) (ranking : Ranking) (b : Bucket) (pinned rules order : List Placed) : Prop :=
  let unique := distinct (pinned ++ ranking b (distinct rules))
  if b.category.isExact then order = unique
  else
    ∃ starred, order = (unique.filter fun r => Limits.wildcards b.category r == 0) ++ starred ∧
      IsStablySorted (fun r => (!r.pinned) :: p.wildcardPreferences.map fun x => !x.isMatch r.pattern)
        (unique.filter fun r => Limits.wildcards b.category r != 0) starred

/-- The rules of a bucket in order of priority. -/
def priority (p : Policy) (ranking : Ranking) (b : Bucket) (pinned rules : List Placed) : List Placed :=
  let unique := prioritized ranking b pinned rules
  if b.category.isExact then unique
  else (Limits.applyBudget b.category none p.wildcardPreferences unique).1

/-- A ranking that only orders the rules has none to order where there are none. -/
theorem prioritized_eq_distinct (horder : ranking.IsOrder) :
    prioritized ranking b pinned rules = distinct (pinned ++ ranking b (distinct rules)) := by
  have hranked : ranked ranking b rules = ranking b (distinct rules) := by
    rw [ranked, Limits.dedup_eq_eraseDupsBy, ← distinct]
    split
    · next hnone =>
      rw [List.isEmpty_iff] at hnone
      rw [hnone, (horder b []).eq_nil]
    · rfl
  rw [prioritized_eq, hranked, Limits.dedup_eq_eraseDupsBy]
  rfl

/-- The order in which a bucket is cut is its order of priority. -/
theorem isPriority_priority (horder : ranking.IsOrder) :
    IsPriority p ranking b pinned rules (priority p ranking b pinned rules) := by
  unfold IsPriority priority
  rw [← prioritized_eq_distinct horder]
  dsimp only
  split
  · rfl
  · rw [Limits.applyBudget_fst]
    exact ⟨_, rfl, Limits.isStablySorted_byPreference _ _⟩

/-- The rules of a bucket that the cuts leave, as they are compiled. -/
def handed (p : Policy) (ranking : Ranking) (b : Bucket) (pinned rules : List Placed) : List Placed :=
  (Limits.truncate (p.maxRules b.category.isExact)
    (budgeted p b (prioritized ranking b pinned rules)).1).1

/-- Patterns as they are matched in a bucket. -/
def compiled (b : Bucket) (patterns : List Text) : Except Alternation.Failure RuleSet :=
  if b.category.isExact then .ok (.exact (.ofList patterns))
  else (joinRules b.category patterns).map fun j => .pattern j.1

/-- A bucket is compiled of the rules that the cuts leave. -/
theorem compileBucket_eq_compiled (p : Policy) (ranking : Ranking) (b : Bucket)
    (pinned rules : List Placed) :
    (compileBucket p ranking b pinned rules).map Prod.fst =
      compiled b ((handed p ranking b pinned rules).map (·.pattern)) := by
  simp only [compileBucket, compiled, handed]
  split
  · rfl
  · generalize joinRules b.category _ = joined
    cases joined <;> rfl

/-- The budget leaves a beginning of the order of priority. -/
theorem budgeted_isPrefix (p : Policy) (ranking : Ranking) (b : Bucket) (pinned rules : List Placed) :
    (budgeted p b (prioritized ranking b pinned rules)).1 <+: priority p ranking b pinned rules := by
  unfold budgeted priority
  split
  · exact List.prefix_refl _
  · exact Limits.applyBudget_isPrefix _ _ _ _

/-- The order of priority has the rules of the bucket, each once. -/
theorem priority_perm (p : Policy) (ranking : Ranking) (b : Bucket) (pinned rules : List Placed) :
    (priority p ranking b pinned rules).Perm (prioritized ranking b pinned rules) := by
  unfold priority
  split
  · exact .refl _
  · exact Limits.applyBudget_none_perm _ _ _

/-- No pattern stands twice in the order of priority. -/
theorem nodup_priority (p : Policy) (ranking : Ranking) (b : Bucket) (pinned rules : List Placed) :
    ((priority p ranking b pinned rules).map (·.pattern)).Nodup :=
  ((priority_perm p ranking b pinned rules).map _).nodup_iff.mpr (Limits.nodup_dedupFrom _ _)

/-- What is handed over are rules of the order of priority, in that order. -/
theorem handed_sublist (p : Policy) (ranking : Ranking) (b : Bucket) (pinned rules : List Placed) :
    (handed p ranking b pinned rules).Sublist (priority p ranking b pinned rules) :=
  (Limits.truncate_sublist _ _).trans (budgeted_isPrefix p ranking b pinned rules).sublist

/-- When a rule that is not pinned is left, so is every rule in front of it. -/
theorem mem_handed_of_before {before after : List Placed} {r : Placed}
    (horder : priority p ranking b pinned rules = before ++ r :: after) (hpinned : r.pinned = false)
    (hr : r ∈ handed p ranking b pinned rules) : ∀ x ∈ before, x ∈ handed p ranking b pinned rules := by
  have hnew : r ∉ before := by
    have hnodup := nodup_priority p ranking b pinned rules
    rw [horder, List.map_append, List.map_cons, List.nodup_append] at hnodup
    exact fun hmem => hnodup.2.2 _ (List.mem_map_of_mem hmem) _ (List.mem_cons_self ..) rfl
  -- The rule is within the beginning that the budget leaves, so this splits at the same place.
  obtain ⟨rest, hrest⟩ := budgeted_isPrefix p ranking b pinned rules
  have hmem := (Limits.truncate_sublist _ _).subset hr
  rw [horder] at hrest
  unfold handed at hr ⊢
  generalize (budgeted p b (prioritized ranking b pinned rules)).1 = affordable at hr hrest hmem ⊢
  rcases List.append_eq_append_iff.mp hrest with ⟨as, rfl, -⟩ | ⟨as, rfl, has⟩
  · exact absurd (List.mem_append_left _ hmem) hnew
  · cases as with
    | nil => exact absurd (by simpa using hmem) hnew
    | cons r' as =>
      obtain ⟨rfl, -⟩ := List.cons.inj has
      exact Limits.mem_truncate_of_before hnew hpinned hr

/-- Pinned rules without wildcards are left. -/
theorem mem_handed_of_pinned {r : Placed} (hr : r ∈ prioritized ranking b pinned rules)
    (hpinned : r.pinned = true) (hplain : Limits.wildcards b.category r = 0) :
    r ∈ handed p ranking b pinned rules := by
  refine Limits.mem_truncate_of_pinned ?_ hpinned
  unfold budgeted
  split
  · exact hr
  · exact Limits.mem_applyBudget_of_plain hr hplain _ _

/-- The order of priority is one of the rules that came. -/
theorem mem_of_mem_priority (horder : ranking.IsOrder) {r : Placed}
    (hr : r ∈ priority p ranking b pinned rules) : r ∈ pinned ++ rules := by
  have hunique := (priority_perm p ranking b pinned rules).subset hr
  simp only [prioritized] at hunique
  rcases List.mem_append.mp ((Limits.dedup_sublist _).subset hunique) with hr | hr
  · exact List.mem_append_left _ hr
  · refine List.mem_append_right _ ((Limits.dedup_sublist rules).subset ?_)
    split at hr
    · exact hr
    · exact (horder b _).subset hr

/-- The rules that are left have no more wildcards than the budget allows. In a set this is so for another
reason than in a bucket of patterns, for there no budget is applied: its rules have no wildcards. -/
theorem totalWildcards_handed_le (horder : ranking.IsOrder) (hrules : AreRules p b pinned rules) {n : Nat}
    (hmax : p.maxWildcards = some n) :
    Limits.totalWildcards b.category (handed p ranking b pinned rules) ≤ n := by
  cases hexact : b.category.isExact with
  | true =>
    have hnone : ∀ r ∈ handed p ranking b pinned rules, Limits.wildcards b.category r = 0 := by
      intro r hr
      have hmem := mem_of_mem_priority horder ((handed_sublist p ranking b pinned rules).subset hr)
      obtain ⟨q, hq⟩ := hrules.placed r hmem
      have hparts := Text.parts_of_notMem (Policy.notMem_of_category hq hexact)
      unfold Limits.wildcards Glob.stars
      split
      · rfl
      · simp [hparts]
    rw [Limits.totalWildcards, List.map_congr_left hnone]
    simp
  | false =>
    calc Limits.totalWildcards b.category (handed p ranking b pinned rules)
        ≤ Limits.totalWildcards b.category (budgeted p b (prioritized ranking b pinned rules)).1 :=
          ((Limits.truncate_sublist _ _).map _).sum_le_sum fun _ _ => Nat.zero_le _
      _ ≤ n := by
          rw [budgeted, hexact, hmax]
          exact Limits.totalWildcards_applyBudget_le _ _ _ _

/-- The cuts leave some rules of an order of priority. -/
structure CutByPriority (p : Policy) (b : Bucket) (pinned order kept : List Placed) : Prop where
  sublist : kept.Sublist order
  nodup : (kept.map (·.pattern)).Nodup
  /-- The number of rules is within the limit, unless the pinned ones are more. -/
  length_le : ∀ n, p.maxRules b.category.isExact = some n → kept.length ≤ max n (kept.countP (·.pinned))
  wildcards_le : ∀ n, p.maxWildcards = some n → Limits.totalWildcards b.category kept ≤ n
  /-- All pinned rules without wildcards are left. -/
  of_pinned : ∀ r ∈ order, r.pinned = true → Limits.wildcards b.category r = 0 → r ∈ kept
  pinned_patterns : ∀ r ∈ pinned, Limits.wildcards b.category r = 0 →
    r.pattern ∈ kept.map (·.pattern)
  /-- With a rule that is not pinned every rule of higher priority is left. -/
  of_before : ∀ before r after, order = before ++ r :: after → r.pinned = false → r ∈ kept →
    ∀ x ∈ before, x ∈ kept

/-- A bucket is compiled of rules that were cut by priority, whatever the policy and the rules, as long as
the ranking only orders them. -/
theorem compileBucket_cuts_by_priority (horder : ranking.IsOrder) (hrules : AreRules p b pinned rules) :
    IsPriority p ranking b pinned rules (priority p ranking b pinned rules) ∧
      (compileBucket p ranking b pinned rules).map Prod.fst =
        compiled b ((handed p ranking b pinned rules).map (·.pattern)) ∧
      CutByPriority p b pinned (priority p ranking b pinned rules) (handed p ranking b pinned rules) := by
  refine ⟨isPriority_priority horder, compileBucket_eq_compiled p ranking b pinned rules, ?_⟩
  have hsublist := handed_sublist p ranking b pinned rules
  have hperm := priority_perm p ranking b pinned rules
  refine
    { sublist := hsublist
      nodup := (hsublist.map _).nodup (nodup_priority p ranking b pinned rules)
      length_le := fun n hmax => ?_
      wildcards_le := fun n hmax => totalWildcards_handed_le horder hrules hmax
      of_pinned := fun r hr => mem_handed_of_pinned (hperm.subset hr)
      pinned_patterns := fun r hr hplain => ?_
      of_before := fun before r after => mem_handed_of_before }
  · rw [handed, hmax]
    exact Limits.length_truncate_le n _
  · -- A pinned rule that repeats another is left out for that one, which is pinned as well.
    have hmem : r.pattern ∈ (Limits.dedup pinned).map (·.pattern) :=
      Limits.mem_dedup.mpr (List.mem_map_of_mem hr)
    obtain ⟨r', hr', hpattern⟩ := List.mem_map.mp hmem
    have hpinned := hrules.flagged r' ((Limits.dedup_sublist pinned).subset hr')
    have hplain' : Limits.wildcards b.category r' = 0 := by
      rwa [Limits.wildcards, hpattern]
    have hfirst : r' ∈ prioritized ranking b pinned rules :=
      (Limits.isPrefix_dedupFrom_append [] pinned _).subset hr'
    exact List.mem_map.mpr ⟨r', mem_handed_of_pinned hfirst hpinned hplain', hpattern⟩

end

/-- The pattern that finds a word, whatever the case of its letters. -/
def finding (word : Text) : Regex := .seqAll (word.map fun x => .one (.alike x))

/-- A policy that keeps four patterns and four wildcards, and prefers two words, with two pinned rules. -/
def preferring : Policy :=
  { Policy.permissive with
    maxPatternRules := some 4
    maxWildcards := some 4
    wildcardPreferences := [finding "ads".toList, finding "track".toList]
    pinnedRules := ["-x*y".toList, "-p-".toList] }

/-- A list of rules with wildcards, against their order of priority, and one without. -/
def unordered : Text := "-n*2-\n-track*2-\n-track*1-\n-a-\n-Ads*1-\n-n*1-\n-ads*track-".toList

/-- A fragment as it is read in a line. -/
def fragmentAt (ordinal : Nat) (pinned : Bool) (pattern : String) : Placed :=
  ⟨⟨.urlFragment, .bad⟩, pattern.toList, {}, ordinal, pinned⟩

/-- The rules of the policy and of the list. -/
def unorderedRules : List Placed :=
  [fragmentAt 0 true "-x*y", fragmentAt 1 true "-p-", fragmentAt 0 false "-n*2-", fragmentAt 1 false "-track*2-",
    fragmentAt 2 false "-track*1-", fragmentAt 3 false "-a-", fragmentAt 4 false "-Ads*1-", fragmentAt 5 false "-n*1-",
    fragmentAt 6 false "-ads*track-"]

/-- Those with wildcards, in order of priority. -/
def orderedStarred : List Placed :=
  [fragmentAt 0 true "-x*y", fragmentAt 6 false "-ads*track-", fragmentAt 4 false "-Ads*1-",
    fragmentAt 1 false "-track*2-", fragmentAt 2 false "-track*1-", fragmentAt 0 false "-n*2-", fragmentAt 5 false "-n*1-"]

/-- The rules without wildcards are in front, then the pinned one with a wildcard, and the others as they match both
words, the first, the second and none, those that match the same ones in the order of the list. The budget takes all
from the second rule with the second word on, and the two pinned rules leave room for two others. -/
theorem compileBucket_cuts_by_priority_sample :
    ∃ b rules, Ranking.inOrder.IsOrder ∧ AreRules preferring b (rulesOf b (pinnedRules preferring)) rules ∧
      (priority preferring .inOrder b (rulesOf b (pinnedRules preferring)) rules).map (·.pattern) =
        ["-p-".toList, "-a-".toList, "-x*y".toList, "-ads*track-".toList, "-Ads*1-".toList, "-track*2-".toList,
          "-track*1-".toList, "-n*2-".toList, "-n*1-".toList] ∧
      (handed preferring .inOrder b (rulesOf b (pinnedRules preferring)) rules).map (·.pattern) =
        ["-p-".toList, "-a-".toList, "-x*y".toList, "-ads*track-".toList] ∧
      IsPriority preferring .inOrder b (rulesOf b (pinnedRules preferring)) rules
        (priority preferring .inOrder b (rulesOf b (pinnedRules preferring)) rules) ∧
      CutByPriority preferring b (rulesOf b (pinnedRules preferring))
        (priority preferring .inOrder b (rulesOf b (pinnedRules preferring)) rules)
        (handed preferring .inOrder b (rulesOf b (pinnedRules preferring)) rules) := by
  have hrules := areRules_ofFeeds preferring [.source unordered] ⟨.urlFragment, .bad⟩
  have hcuts := compileBucket_cuts_by_priority Ranking.isOrder_inOrder hrules
  have hunique : prioritized .inOrder ⟨.urlFragment, .bad⟩ (rulesOf ⟨.urlFragment, .bad⟩ (pinnedRules preferring))
      (rulesOf ⟨.urlFragment, .bad⟩ (Builder.ofFeeds preferring [.source unordered]).rules) = unorderedRules := by
    decide +kernel
  have hstarred : Limits.starred .urlFragment preferring.wildcardPreferences unorderedRules = orderedStarred :=
    (Limits.isStablySorted_byPreference _ _).unique
      (.of_forall_mem (by decide +kernel) (by decide +kernel) (by decide +kernel))
  refine ⟨_, _, Ranking.isOrder_inOrder, hrules, ?_, ?_, hcuts.1, hcuts.2.2⟩
  · rw [priority, hunique]
    simp only [Category.isExact, Bool.false_eq_true, if_false, Limits.applyBudget_fst, hstarred]
    decide +kernel
  · rw [handed, hunique]
    simp only [budgeted, Category.isExact, Bool.false_eq_true, if_false, Limits.applyBudget_fst, hstarred]
    decide +kernel

end Build

end UrlFilter
