import UrlFilter.Proofs.Build.Selection
import Mathlib.Algebra.Order.BigOperators.Group.List

/-!
# What the cuts leave

The limits cut a bucket down step by step: repeated patterns, wildcards beyond the budget, rules beyond
the limit on their number, and rules that cannot be joined. Each step leaves some of the rules that it
is given, each of them once, in their order or in that of preference. `left_of_compileBucket` says what
is left in the end, and what the report on the bucket says of it.
-/

namespace UrlFilter

namespace Limits

/-! ## Single cuts -/

/-- Leaving out repeated patterns leaves the others in their order. -/
theorem dedupFrom_sublist (seen : List Text) (rules : List Placed) :
    (dedupFrom seen rules).Sublist rules := by
  induction rules generalizing seen with
  | nil => exact .slnil
  | cons r rs ih =>
    rw [dedupFrom]
    split
    · exact (ih seen).cons r
    · exact (ih _).cons_cons r

/-- The rules without repetition are some of the rules, in their order. -/
theorem dedup_sublist (rules : List Placed) : (dedup rules).Sublist rules := dedupFrom_sublist [] rules

/-- The rules that there is room for are some of the rules, in their order. -/
theorem keepFirst_sublist (room : Nat) (rules : List Placed) : (keepFirst room rules).Sublist rules := by
  induction rules generalizing room with
  | nil => cases room <;> exact .slnil
  | cons r rs ih =>
    unfold keepFirst
    split
    · exact (ih room).cons_cons r
    · cases room with
      | zero => exact (ih 0).cons r
      | succ room => exact (ih room).cons_cons r

/-- A limit on the number leaves some of the rules, in their order. -/
theorem truncate_sublist (max : Option Nat) (rules : List Placed) :
    (truncate max rules).1.Sublist rules := by
  cases max with
  | none => exact .refl rules
  | some n =>
    rw [truncate]
    split
    · exact .refl rules
    · exact keepFirst_sublist _ rules

/-- Each rule is left by the limit on their number or counted. -/
theorem length_truncate (max : Option Nat) (rules : List Placed) :
    (truncate max rules).1.length + (truncate max rules).2 = rules.length := by
  have hle := (truncate_sublist max rules).length_le
  cases max with
  | none => rfl
  | some n =>
    rw [truncate] at hle ⊢
    split
    · rfl
    · next hmany =>
      rw [if_neg hmany] at hle
      exact Nat.add_sub_cancel' hle

/-- The rules within a budget are some of the rules, in their order. -/
theorem withinBudget_sublist (c : Category) (budget : Nat) (rules : List Placed) :
    (withinBudget c budget rules).Sublist rules := by
  induction rules generalizing budget with
  | nil => exact .slnil
  | cons r rs ih =>
    rw [withinBudget]
    split
    · exact (ih _).cons_cons r
    · exact List.nil_sublist _

/-- The rules within a budget for wildcards do not have more. -/
theorem totalWildcards_withinBudget_le (c : Category) (budget : Nat) (rules : List Placed) :
    totalWildcards c (withinBudget c budget rules) ≤ budget := by
  induction rules generalizing budget with
  | nil => simp [withinBudget, totalWildcards]
  | cons r rs ih =>
    rw [withinBudget]
    split
    · next hfits =>
      have hrest := ih (budget - wildcards c r)
      simp only [totalWildcards, List.map_cons, List.sum_cons] at hrest ⊢
      omega
    · simp [totalWildcards]

/-- The budget for wildcards leaves some of the rules, each once. -/
theorem applyBudget_subperm (c : Category) (budget : Option Nat) (preferences : List Regex)
    (rules : List Placed) : (applyBudget c budget preferences rules).1.Subperm rules := by
  have hall := applyBudget_none_perm c preferences rules
  rw [applyBudget_fst] at hall ⊢
  refine List.Subperm.trans (List.Sublist.subperm ?_) hall.subperm
  refine (List.Sublist.refl _).append ?_
  cases budget with
  | none => exact .refl _
  | some n => exact withinBudget_sublist c n _

/-- Each rule is left by the budget for wildcards or counted. -/
theorem length_applyBudget (c : Category) (budget : Option Nat) (preferences : List Regex) (rules : List Placed) :
    (applyBudget c budget preferences rules).1.length + (applyBudget c budget preferences rules).2 =
      rules.length := by
  have hall := (applyBudget_none_perm c preferences rules).length_eq
  cases budget with
  | none => exact hall
  | some n =>
    simp only [applyBudget, List.partition_eq_filter_filter, List.length_append, List.length_take] at hall ⊢
    omega

/-- What the budget for wildcards leaves does not have more of them. -/
theorem totalWildcards_applyBudget_le (c : Category) (budget : Nat) (preferences : List Regex)
    (rules : List Placed) : totalWildcards c (applyBudget c (some budget) preferences rules).1 ≤ budget := by
  have hstarred := totalWildcards_withinBudget_le c budget (starred c preferences rules)
  have hplain : totalWildcards c (rules.filter fun r => wildcards c r == 0) = 0 := by
    rw [totalWildcards]
    refine List.sum_eq_zero fun n hn => ?_
    obtain ⟨r, hr, rfl⟩ := List.mem_map.mp hn
    simpa using (List.mem_filter.mp hr).2
  rw [totalWildcards] at hplain hstarred ⊢
  rw [applyBudget_fst, List.map_append, List.sum_append, hplain, Nat.zero_add]
  exact hstarred

end Limits

namespace Build

/-! ## Joining -/

/-- An alternation has the rules that it was made of. -/
theorem rules_of_alternationOf {c : Category} {patterns : List Text} {a : Alternation}
    (h : alternationOf c patterns = .ok a) : a.rules = patterns := by
  cases patterns with
  | nil =>
    have hempty : Alternation.empty = a := Except.ok.inj h
    rw [← hempty]
    rfl
  | cons q qs =>
    obtain ⟨m, -, rfl⟩ := (Alternation.ofFragments_eq_ok_iff (List.cons_ne_nil _ _)).mp h
    rfl

/-- Joined rules are the alternation of those that are left; the others are counted, and so are the
wildcards of those that are left. -/
theorem of_joinRules {c : Category} {patterns : List Text} {a : Alternation} {dropped wildcards : Nat}
    (h : joinRules c patterns = .ok (a, dropped, wildcards)) :
    ∃ left, left.Sublist patterns ∧ alternationOf c left = .ok a ∧
      dropped = patterns.length - left.length ∧ wildcards = Glob.totalWildcards c left := by
  unfold joinRules at h
  cases hall : alternationOf c patterns with
  | ok a' =>
    simp only [hall, Except.ok.injEq, Prod.mk.injEq] at h
    obtain ⟨rfl, rfl, rfl⟩ := h
    exact ⟨patterns, .refl _, hall, (Nat.sub_self _).symm, rfl⟩
  | error f =>
    simp only [hall, map_eq_ok_iff, Prod.mk.injEq] at h
    obtain ⟨a', hvalid, rfl, rfl, rfl⟩ := h
    exact ⟨_, List.filter_sublist, hvalid, rfl, rfl⟩

/-! ## A whole bucket -/

section

variable {p : Policy} {ranking : Ranking} {b : Bucket} {pinned rules : List Placed}

/-- The budget of a policy leaves some of the rules of a bucket, each once. -/
theorem budgeted_subperm (p : Policy) (b : Bucket) (rules : List Placed) :
    (budgeted p b rules).1.Subperm rules := by
  rw [budgeted]
  split
  · exact .refl _
  · exact Limits.applyBudget_subperm _ _ _ _

/-- Each rule of a bucket is left by the budget or counted. -/
theorem length_budgeted (p : Policy) (b : Bucket) (rules : List Placed) :
    (budgeted p b rules).1.length + (budgeted p b rules).2 = rules.length := by
  rw [budgeted]
  split
  · rfl
  · exact Limits.length_applyBudget _ _ _ _

/-- A ranking that only orders rules puts none of them into a bucket twice. -/
theorem length_prioritized_le (horder : ranking.IsOrder) (b : Bucket) (pinned rules : List Placed) :
    (prioritized ranking b pinned rules).length ≤ rules.length + pinned.length := by
  have hranked : (ranked ranking b rules).length ≤ rules.length := by
    rw [(ranked_perm horder b rules).length_eq]
    exact (Limits.dedup_sublist rules).length_le
  calc (prioritized ranking b pinned rules).length
      ≤ (pinned ++ ranked ranking b rules).length := (Limits.dedup_sublist _).length_le
    _ = pinned.length + (ranked ranking b rules).length := List.length_append
    _ ≤ rules.length + pinned.length := by omega

/-- A bucket keeps none of its patterns twice, whatever its ranking. -/
theorem nodup_keptOf (p : Policy) (ranking : Ranking) (b : Bucket) (pinned rules : List Placed) :
    (keptOf p ranking b pinned rules).Nodup := by
  obtain ⟨left, hperm, hsublist⟩ :=
    (Limits.truncate_sublist (p.maxRules b.category.isExact) _).subperm.trans
      (budgeted_subperm p b (prioritized ranking b pinned rules))
  have hleft : (left.map (·.pattern)).Nodup :=
    (hsublist.map _).nodup (Limits.nodup_dedupFrom _ _)
  exact (hperm.map _).nodup_iff.mp hleft

/-- The report on a bucket counts the rules that came and those that each limit took. -/
theorem report_of_compileBucket {rs : RuleSet} {report : BucketReport}
    (h : compileBucket p ranking b pinned rules = .ok (rs, report)) :
    report.bucket = b ∧ report.admitted = rules.length + pinned.length ∧
      report.unique = (prioritized ranking b pinned rules).length ∧
      report.unique =
        (keptOf p ranking b pinned rules).length + report.truncated + report.wildcardDropped := by
  -- Each of the two cuts leaves a rule or counts it.
  have hbudget := length_budgeted p b (prioritized ranking b pinned rules)
  have hlimit := Limits.length_truncate (p.maxRules b.category.isExact)
    (budgeted p b (prioritized ranking b pinned rules)).1
  have hcut : (cutReport p ranking b pinned rules).unique = (keptOf p ranking b pinned rules).length +
      (cutReport p ranking b pinned rules).truncated + (cutReport p ranking b pinned rules).wildcardDropped := by
    simp only [cutReport, keptOf, List.length_map]
    omega
  rcases compileBucket_cases h with ⟨-, -, rfl⟩ | ⟨-, a, dropped, wildcards, -, -, rfl⟩
  · exact ⟨rfl, rfl, rfl, hcut⟩
  · exact ⟨rfl, rfl, rfl, hcut⟩

/-- What is left of a bucket are some of the patterns that the limits keep. The report counts them, those
that could not be joined, and the wildcards in the alternation of a bucket of patterns. -/
theorem left_of_compileBucket {rs : RuleSet} {report : BucketReport}
    (h : compileBucket p ranking b pinned rules = .ok (rs, report)) :
    rs.rules.Sublist (keptOf p ranking b pinned rules) ∧
      report.finalCount = rs.rules.length ∧
      report.compileDropped = (keptOf p ranking b pinned rules).length - rs.rules.length ∧
      (b.category.isExact = false → ∃ a, rs = .pattern a ∧
        alternationOf b.category a.rules = .ok a ∧
        report.wildcards = Glob.totalWildcards b.category a.rules) := by
  rcases compileBucket_cases h with ⟨hexact, rfl, rfl⟩ | ⟨hpattern, a, dropped, wildcards, hjoined, rfl, rfl⟩
  · -- The set leaves out repeated texts, but there are none.
    have hrules : (RuleSet.exact (.ofList (keptOf p ranking b pinned rules))).rules =
        keptOf p ranking b pinned rules := by
      simpa [RuleSet.rules, ExactSet.ofList, ExactSet.empty] using
        ExactSet.entries_foldl_insert (s := ExactSet.empty)
          (by simpa [ExactSet.empty] using nodup_keptOf p ranking b pinned rules)
    rw [hrules]
    exact ⟨.refl _, rfl, (Nat.sub_self _).symm, fun hpattern => by simp [hexact] at hpattern⟩
  · obtain ⟨left, hsublist, ha, hdropped, hwildcards⟩ := of_joinRules hjoined
    obtain rfl := rules_of_alternationOf ha
    exact ⟨hsublist, rfl, hdropped, fun _ => ⟨a, rfl, ha, hwildcards⟩⟩

end

end Build

end UrlFilter
