import UrlFilter.Proofs.Build.Jobs

/-!
# Positions of lines

A rule carries the position of its line. The limits look at patterns, options and pins, and so do the rankings
by order and by merits; so rules that differ in their positions alone are ordered and cut in the same way, and
what is exported does not show the positions (`exported_unnumbered`).
-/

namespace UrlFilter

/-- The rule without the position of its line. -/
def Rule.unnumbered (r : Rule) : Rule := { r with ordinal := 0 }

/-- The rule in its bucket, without the position of its line. -/
def Placed.unnumbered (r : Placed) : Placed := { r with ordinal := 0 }

namespace Placed

/-- The pattern of a rule is not its place. -/
@[simp] theorem pattern_unnumbered (r : Placed) : r.unnumbered.pattern = r.pattern := rfl

/-- A rule is pinned or not wherever it stands. -/
@[simp] theorem pinned_unnumbered (r : Placed) : r.unnumbered.pinned = r.pinned := rfl

end Placed

open Placed (unnumbered)

/-- A sort by a key that the position has no part in leaves positions where they were. -/
theorem Placed.sort_unnumbered {K : Type} {key : Placed → K} (hkey : ∀ r, key r.unnumbered = key r)
    (le : K → K → Bool) (rules : List Placed) :
    (((rules.map unnumbered).map fun r => (key r, r)).mergeSort fun a b => le a.1 b.1).map Prod.snd =
      (((rules.map fun r => (key r, r)).mergeSort fun a b => le a.1 b.1).map Prod.snd).map unnumbered := by
  have hkeyed : (rules.map unnumbered).map (fun r => (key r, r)) =
      (rules.map fun r => (key r, r)).map (Prod.map id unnumbered) := by
    simp [List.map_map, Function.comp_def, hkey]
  rw [hkeyed, ← List.map_mergeSort (r := fun a b => le a.1 b.1) fun _ _ _ _ => rfl, List.map_map, List.map_map]
  rfl

/-! ## Limits -/

namespace Limits

/-- Repeated patterns are left out wherever they stand. -/
theorem dedupFrom_unnumbered (seen : List Text) (rules : List Placed) :
    dedupFrom seen (rules.map unnumbered) = (dedupFrom seen rules).map unnumbered := by
  induction rules generalizing seen with
  | nil => rfl
  | cons r rs ih =>
    rw [List.map_cons, dedupFrom, dedupFrom, Placed.pattern_unnumbered, ih, ih]
    split <;> rfl

/-- The rules without repetition are the same wherever they stand. -/
theorem dedup_unnumbered (rules : List Placed) :
    dedup (rules.map unnumbered) = (dedup rules).map unnumbered := dedupFrom_unnumbered [] rules

/-- The rules that there is room for are the same wherever they stand. -/
theorem keepFirst_unnumbered (room : Nat) (rules : List Placed) :
    keepFirst room (rules.map unnumbered) = (keepFirst room rules).map unnumbered := by
  induction rules generalizing room with
  | nil => cases room <;> rfl
  | cons r rs ih =>
    rw [List.map_cons]
    unfold keepFirst
    rw [Placed.pinned_unnumbered]
    split
    · rw [ih, List.map_cons]
    · cases room with
      | zero => exact ih 0
      | succ room => simp only [ih, List.map_cons]

/-- A limit on the number leaves and counts the same rules wherever they stand. -/
theorem truncate_unnumbered (max : Option Nat) (rules : List Placed) :
    truncate max (rules.map unnumbered) = (truncate max rules).map (·.map unnumbered) id := by
  cases max with
  | none => rfl
  | some n =>
    simp only [truncate, List.length_map, List.countP_map, keepFirst_unnumbered]
    split <;> rfl

/-- Rules are sorted by preference in the same way wherever they stand. -/
theorem byPreference_unnumbered (preferences : List Regex) (rules : List Placed) :
    byPreference preferences (rules.map unnumbered) = (byPreference preferences rules).map unnumbered :=
  Placed.sort_unnumbered (fun _ => rfl) noMoreMisses rules

/-- The wildcards are too many with the same rule wherever it stands. -/
theorem firstOver?_unnumbered (c : Category) (budget total : Nat) (rules : List Placed) :
    firstOver? c budget total (rules.map unnumbered) = firstOver? c budget total rules := by
  induction rules generalizing total with
  | nil => rfl
  | cons r rs ih =>
    rw [List.map_cons, firstOver?, firstOver?]
    have hcost : wildcards c r.unnumbered = wildcards c r := rfl
    rw [hcost, ih]

/-- The budget leaves and counts the same rules wherever they stand. -/
theorem applyBudget_unnumbered (c : Category) (budget : Option Nat) (preferences : List Regex)
    (rules : List Placed) : applyBudget c budget preferences (rules.map unnumbered) =
      (applyBudget c budget preferences rules).map (·.map unnumbered) id := by
  simp only [applyBudget, List.partition_eq_filter_filter, List.filter_map, byPreference_unnumbered]
  cases budget with
  | none => exact congrArg (Prod.mk · 0) (List.map_append ..).symm
  | some n =>
    simp only [firstOver?_unnumbered, List.length_map, ← List.map_take]
    exact congrArg (Prod.mk · _) (List.map_append ..).symm

end Limits

/-! ## Rankings -/

namespace Ranking

/-- The ranking does not look at the positions of lines. -/
def IgnoresOrdinals (ranking : Ranking) : Prop :=
  ∀ b rules, ranking b (rules.map unnumbered) = (ranking b rules).map unnumbered

/-- The order of the list does not look at the positions of lines. -/
theorem ignoresOrdinals_inOrder : inOrder.IgnoresOrdinals := fun _ _ => rfl

/-- Merits do not look at the positions of lines. -/
theorem ignoresOrdinals_byMerits (m : Merits) : (byMerits m).IgnoresOrdinals :=
  fun _ rules => Placed.sort_unnumbered (fun _ => rfl) (fun a b => decide (b ≤ a)) rules

end Ranking

/-! ## Builds -/

namespace Build

variable {ranking : Ranking}

/-- The order of priority is the same wherever the rules stand. -/
theorem prioritized_unnumbered (h : ranking.IgnoresOrdinals) (b : Bucket) (pinned rules : List Placed) :
    prioritized ranking b (pinned.map unnumbered) (rules.map unnumbered) =
      (prioritized ranking b pinned rules).map unnumbered := by
  unfold prioritized
  dsimp only
  rw [Limits.dedup_unnumbered, List.isEmpty_map, h]
  split <;> rw [← List.map_append, Limits.dedup_unnumbered]

/-- The budget of a policy leaves and counts the same rules wherever they stand. -/
theorem budgeted_unnumbered (p : Policy) (b : Bucket) (rules : List Placed) :
    budgeted p b (rules.map unnumbered) = (budgeted p b rules).map (·.map unnumbered) id := by
  unfold budgeted
  split
  · rfl
  · exact Limits.applyBudget_unnumbered _ _ _ rules

/-- What is compiled of rules, and the report on them, do not show their positions. -/
theorem compileBucket_unnumbered (h : ranking.IgnoresOrdinals) (p : Policy) (b : Bucket)
    (pinned rules : List Placed) :
    compileBucket p ranking b (pinned.map unnumbered) (rules.map unnumbered) =
      compileBucket p ranking b pinned rules := by
  simp only [compileBucket, prioritized_unnumbered h, budgeted_unnumbered, Limits.truncate_unnumbered,
    Prod.map_fst, Prod.map_snd, List.length_map, List.map_map]
  rfl

/-- The rules of a bucket are the same wherever they stand. -/
theorem rulesOf_unnumbered (b : Bucket) (rules : List Placed) :
    rulesOf b (rules.map unnumbered) = (rulesOf b rules).map unnumbered := List.filter_map ..

end Build

open Build in
/-- Builders whose rules differ in their positions alone export the same, or fail in the same way. -/
theorem Builder.exported_unnumbered {b b' : Builder} {ranking : Ranking} (horder : ranking.IgnoresOrdinals)
    (h : b'.rules.map unnumbered = b.rules.map unnumbered) (p : Policy) :
    b'.exported p ranking = b.exported p ranking := by
  refine exported_congr fun k => congrArg (Except.map Prod.fst) ?_
  unfold job
  rw [← compileBucket_unnumbered horder, ← compileBucket_unnumbered horder p k _ (rulesOf k b.rules),
    ← rulesOf_unnumbered k b'.rules, h, rulesOf_unnumbered k b.rules]

end UrlFilter
