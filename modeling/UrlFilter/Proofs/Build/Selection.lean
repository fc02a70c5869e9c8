import UrlFilter.Proofs.Build.Buckets
import Mathlib.Data.List.Dedup
import Mathlib.Data.List.Perm.Basic

/-!
# The rules that are kept

A bucket keeps each of its patterns once. Without limits it keeps them all, whatever the ranking, as long
as that only orders rules; so what is kept are the distinct patterns of the bucket in some order.
-/

namespace UrlFilter

/-- The ranking orders rules: it leaves none out and makes none up. -/
def Ranking.IsOrder (ranking : Ranking) : Prop := ∀ b rules, (ranking b rules).Perm rules

/-- The policy limits neither the number of rules nor that of wildcards. -/
structure Policy.IsUnlimited (p : Policy) : Prop where
  exact : p.maxExactRules = none
  pattern : p.maxPatternRules = none
  wildcards : p.maxWildcards = none

/-- The order of the list is an order. -/
theorem Ranking.isOrder_inOrder : Ranking.inOrder.IsOrder := fun _ _ => .refl _

/-- The order by merits is an order. -/
theorem Ranking.isOrder_byMerits (m : Merits) : (Ranking.byMerits m).IsOrder := byMerits_perm m

/-- The permissive policy has no limits. -/
theorem Policy.isUnlimited_permissive : Policy.permissive.IsUnlimited := ⟨rfl, rfl, rfl⟩

namespace Limits

/-! ## Repeated patterns -/

/-- A pattern is left once when it is there and has not been seen. -/
theorem mem_dedupFrom {seen : List Text} {rules : List Placed} {q : Text} :
    q ∈ (dedupFrom seen rules).map (·.pattern) ↔ q ∈ rules.map (·.pattern) ∧ q ∉ seen := by
  induction rules generalizing seen with
  | nil => simp [dedupFrom]
  | cons r rs ih =>
    rw [dedupFrom]
    by_cases hr : r.pattern ∈ seen
    · rw [if_pos (by simpa using hr), ih]
      -- The pattern in front was seen, so a text that was not is another one.
      constructor
      · exact fun ⟨h, hseen⟩ => ⟨List.mem_cons_of_mem _ h, hseen⟩
      · rintro ⟨h, hseen⟩
        rcases List.mem_cons.mp h with rfl | h
        · exact absurd hr hseen
        · exact ⟨h, hseen⟩
    · rw [if_neg (by simpa using hr), List.map_cons, List.mem_cons, ih, List.map_cons, List.mem_cons,
        List.mem_cons]
      constructor
      · rintro (rfl | ⟨h, hseen⟩)
        · exact ⟨Or.inl rfl, hr⟩
        · exact ⟨Or.inr h, fun hq => hseen (Or.inr hq)⟩
      · rintro ⟨rfl | h, hseen⟩
        · exact Or.inl rfl
        · by_cases hq : q = r.pattern
          · exact Or.inl hq
          · exact Or.inr ⟨h, by simp [hq, hseen]⟩

/-- No pattern is left twice. -/
theorem nodup_dedupFrom (seen : List Text) (rules : List Placed) :
    ((dedupFrom seen rules).map (·.pattern)).Nodup := by
  induction rules generalizing seen with
  | nil => simp [dedupFrom]
  | cons r rs ih =>
    rw [dedupFrom]
    split
    · exact ih seen
    · rw [List.map_cons, List.nodup_cons]
      exact ⟨fun h => (mem_dedupFrom.mp h).2 (by simp), ih _⟩

/-- Repeated patterns apart, nothing is left out. -/
theorem mem_dedup {rules : List Placed} {q : Text} :
    q ∈ (dedup rules).map (·.pattern) ↔ q ∈ rules.map (·.pattern) := by
  rw [dedup, mem_dedupFrom]
  simp

/-- The rules that repeat the pattern of another in front of them are left out, and no others. -/
theorem dedup_eq_eraseDupsBy (rules : List Placed) :
    dedup rules = rules.eraseDupsBy fun r r' => r.pattern == r'.pattern := by
  have hseen (seen : List Text) (rules : List Placed) : dedupFrom seen rules =
      (rules.filter fun r => !seen.contains r.pattern).eraseDupsBy fun r r' => r.pattern == r'.pattern := by
    induction rules generalizing seen with
    | nil => rw [dedupFrom, List.filter_nil, List.eraseDupsBy_nil]
    | cons r rs ih =>
      rw [dedupFrom]
      split
      · next hr => rw [List.filter_cons_of_neg (by rwa [Bool.not_eq_true', Bool.not_eq_false]), ih]
      · next hr =>
        rw [List.filter_cons_of_pos (by rwa [Bool.not_eq_true', ← Bool.not_eq_true]), List.eraseDupsBy_cons, ih,
          List.filter_filter]
        refine congrArg (fun rs => r :: List.eraseDupsBy _ rs) (List.filter_congr fun x _ => ?_)
        simp
  simpa [dedup] using hseen [] rules

/-! ## Wildcards without a limit -/

/-- Sorting by preference leaves no rule out and makes none up. -/
theorem byPreference_perm (preferences : List Regex) (rules : List Placed) :
    (byPreference preferences rules).Perm rules := by
  have h := (List.mergeSort_perm (rules.map fun r => (misses preferences r, r))
    fun a b => noMoreMisses a.1 b.1).map Prod.snd
  simpa [byPreference, List.map_map, Function.comp_def] using h

/-- The rules with wildcards in the order of preference. -/
def starred (c : Category) (preferences : List Regex) (rules : List Placed) : List Placed :=
  byPreference preferences (rules.filter fun r => wildcards c r != 0)

/-- The longest beginning of a list of rules that has at most so many wildcards, found by counting down what is left
of the budget. -/
def withinBudget (c : Category) : Nat → List Placed → List Placed
  | _, [] => []
  | budget, r :: rs => if wildcards c r ≤ budget then r :: withinBudget c (budget - wildcards c r) rs else []

/-- Counting up to the budget finds the same cut as counting down what is left of it. -/
theorem take_firstOver? {c : Category} {budget total : Nat} (htotal : total ≤ budget) (rules : List Placed) :
    rules.take ((firstOver? c budget total rules).getD rules.length) = withinBudget c (budget - total) rules := by
  induction rules generalizing total with
  | nil => rfl
  | cons r rs ih =>
    rw [firstOver?, withinBudget]
    by_cases hover : budget < total + wildcards c r
    · rw [if_pos hover, if_neg (by omega)]
      rfl
    · have htotal : total + wildcards c r ≤ budget := by omega
      have hrest := ih htotal
      rw [if_neg hover, if_pos (by omega), Nat.sub_sub, ← hrest]
      cases firstOver? c budget (total + wildcards c r) rs <;> rfl

/-- The budget leaves the rules without wildcards, and behind them a beginning of the others. -/
theorem applyBudget_fst (c : Category) (budget : Option Nat) (preferences : List Regex) (rules : List Placed) :
    (applyBudget c budget preferences rules).1 = (rules.filter fun r => wildcards c r == 0) ++
      match budget with
      | none => starred c preferences rules
      | some n => withinBudget c n (starred c preferences rules) := by
  simp only [applyBudget, List.partition_eq_filter_filter]
  cases budget with
  | none => rfl
  | some n =>
    have hcut := take_firstOver? (c := c) (Nat.zero_le n) (starred c preferences rules)
    exact congrArg (rules.filter (fun r => wildcards c r == 0) ++ ·) hcut

/-- Without a budget the rules are only put in another order. -/
theorem applyBudget_none_perm (c : Category) (preferences : List Regex) (rules : List Placed) :
    (applyBudget c none preferences rules).1.Perm rules := by
  rw [applyBudget_fst]
  refine ((byPreference_perm _ _).append_left _).trans ?_
  exact List.filter_append_perm _ rules

end Limits

namespace Build

/-- The distinct patterns of a bucket among some rules. -/
def patternsOf (b : Bucket) (rules : List Placed) : List Text :=
  ((rulesOf b rules).map (·.pattern)).dedup

/-- The patterns of a bucket are those of the rules in it. -/
theorem mem_patternsOf {b : Bucket} {rules : List Placed} {q : Text} :
    q ∈ patternsOf b rules ↔ ∃ r ∈ rules, r.bucket = b ∧ r.pattern = q := by
  simp only [patternsOf, rulesOf, List.mem_dedup, List.mem_map, List.mem_filter, decide_eq_true_eq,
    and_assoc]

/-- The patterns of a bucket do not depend on the order of the rules, but for their own order. -/
theorem patternsOf_perm {rules rules' : List Placed} (h : rules.Perm rules') (b : Bucket) :
    (patternsOf b rules).Perm (patternsOf b rules') :=
  ((h.filter _).map _).dedup

section

variable {p : Policy} {ranking : Ranking}

/-- The ranked rules are those without repetition in some order. -/
theorem ranked_perm (horder : ranking.IsOrder) (b : Bucket) (rules : List Placed) :
    (ranked ranking b rules).Perm (Limits.dedup rules) := by
  unfold ranked
  split
  · exact .refl _
  · exact horder b _

/-- The rules in order of priority have the patterns of all rules, each once. -/
theorem prioritized_patterns (horder : ranking.IsOrder) (b : Bucket) (pinned rules : List Placed) :
    ((prioritized ranking b pinned rules).map (·.pattern)).Nodup ∧
      ∀ q, q ∈ (prioritized ranking b pinned rules).map (·.pattern) ↔
        q ∈ (pinned ++ rules).map (·.pattern) := by
  refine ⟨Limits.nodup_dedupFrom _ _, fun q => ?_⟩
  rw [prioritized_eq, Limits.mem_dedup, List.map_append, List.mem_append,
    ((ranked_perm horder b rules).map _).mem_iff, Limits.mem_dedup, List.map_append, List.mem_append]

/-- Without limits a bucket keeps its distinct patterns, in some order. -/
theorem keptOf_perm (hunlimited : p.IsUnlimited) (horder : ranking.IsOrder) (b : Bucket)
    (pinned rules : List Placed) :
    (keptOf p ranking b (rulesOf b pinned) (rulesOf b rules)).Perm (patternsOf b (pinned ++ rules)) := by
  have hmax : p.maxRules b.category.isExact = none := by
    rw [Policy.maxRules, hunlimited.exact, hunlimited.pattern, ite_self]
  have hbudget : (budgeted p b (prioritized ranking b (rulesOf b pinned) (rulesOf b rules))).1.Perm
      (prioritized ranking b (rulesOf b pinned) (rulesOf b rules)) := by
    rw [budgeted, hunlimited.wildcards]
    split
    · exact .refl _
    · exact Limits.applyBudget_none_perm _ _ _
  obtain ⟨hnodup, hmem⟩ := prioritized_patterns horder b (rulesOf b pinned) (rulesOf b rules)
  rw [keptOf, hmax, Limits.truncate]
  refine (hbudget.map _).trans ?_
  refine (List.perm_ext_iff_of_nodup hnodup (List.nodup_dedup _)).mpr fun q => ?_
  rw [hmem, List.mem_dedup, rulesOf, rulesOf, rulesOf, List.filter_append]

end

end Build

end UrlFilter
