import UrlFilter.Proofs.Build.Priority

/-!
# The budget for wildcards

The budget takes rules from the end of the order of preference. It leaves all rules without wildcards, and of the
others the longest beginning that is within it (`applyBudget_cuts`). A second cut takes nothing, for what the first
one leaves is in the order of preference already, and within the budget.
-/

namespace UrlFilter.Limits

/-! ## The longest beginning -/

/-- The wildcards of the first rule are counted with those of the others. -/
theorem totalWildcards_cons (c : Category) (r : Placed) (rs : List Placed) :
    totalWildcards c (r :: rs) = wildcards c r + totalWildcards c rs := by
  rw [totalWildcards, List.map_cons, List.sum_cons, totalWildcards]

/-- The rules have no more wildcards than the budget, if there is one. -/
def IsWithin (c : Category) (budget : Option Nat) (rules : List Placed) : Prop :=
  ∀ n, budget = some n → totalWildcards c rules ≤ n

/-- A list of rules is the longest beginning of another within the budget. -/
structure IsLongestWithin (c : Category) (budget : Option Nat) (rules kept : List Placed) : Prop where
  isPrefix : kept <+: rules
  isWithin : IsWithin c budget kept
  longest : ∀ front, front <+: rules → IsWithin c budget front → front <+: kept

/-- What counting down leaves is the longest beginning within the budget. -/
theorem isLongestWithin_withinBudget (c : Category) (n : Nat) (rules : List Placed) :
    IsLongestWithin c (some n) rules (withinBudget c n rules) := by
  refine ⟨withinBudget_isPrefix c n rules, ?_, fun front hfront hwithin => ?_⟩
  · rintro _ ⟨⟩
    exact totalWildcards_withinBudget_le c n rules
  · replace hwithin := hwithin n rfl
    induction rules generalizing n front with
    | nil => exact hfront.trans List.nil_prefix
    | cons r rs ih =>
      cases front with
      | nil => exact List.nil_prefix
      | cons r' front =>
        obtain ⟨rfl, hrest⟩ := List.cons_prefix_cons.mp hfront
        rw [totalWildcards_cons] at hwithin
        rw [withinBudget, if_pos (by omega), List.cons_prefix_cons]
        exact ⟨rfl, ih _ _ hrest (by omega)⟩

section
variable {c : Category} {budget : Option Nat} {rules kept : List Placed}

/-- With the first rule that is cut off the wildcards would be too many. -/
theorem IsLongestWithin.over (h : IsLongestWithin c budget rules kept) {r : Placed} {rest : List Placed}
    (hcut : rules = kept ++ r :: rest) {n : Nat} (hbudget : budget = some n) :
    n < totalWildcards c (kept ++ [r]) := by
  by_contra hle
  have hfront : kept ++ [r] <+: rules := ⟨rest, by rw [hcut, List.append_assoc, List.singleton_append]⟩
  have hwithin : IsWithin c budget (kept ++ [r]) := by
    rintro m hm
    cases hbudget.symm.trans hm
    omega
  have hlength := (h.longest _ hfront hwithin).length_le
  simp at hlength

/-- Nothing is cut off a list within the budget. -/
theorem IsLongestWithin.eq_of_isWithin (h : IsLongestWithin c budget rules kept) (hwithin : IsWithin c budget rules) :
    kept = rules :=
  h.isPrefix.eq_of_length_le (h.longest rules (List.prefix_refl _) hwithin).length_le

end

/-! ## What the budget leaves -/

section
variable (c : Category) (budget : Option Nat) (preferences : List Regex) (rules : List Placed)

/-- The rules without wildcards are left as they are, and of the others the longest beginning. -/
theorem exists_applyBudget_fst : ∃ kept, IsLongestWithin c budget (starred c preferences rules) kept ∧
    (applyBudget c budget preferences rules).1 = (rules.filter fun r => wildcards c r == 0) ++ kept := by
  rw [applyBudget_fst]
  cases budget with
  | none => exact ⟨_, ⟨List.prefix_refl _, nofun, fun _ hfront _ => hfront⟩, rfl⟩
  | some n => exact ⟨_, isLongestWithin_withinBudget c n _, rfl⟩

end

/-- Rules with wildcards that are in the order of preference stay as they are. -/
theorem starred_eq_self {c : Category} {preferences : List Regex} {rules : List Placed}
    (hstars : ∀ r ∈ rules, wildcards c r ≠ 0)
    (hordered : rules.Pairwise fun r r' => misses preferences r ≤ misses preferences r') :
    starred c preferences rules = rules := by
  have hall : rules.filter (fun r => wildcards c r != 0) = rules :=
    List.filter_eq_self.mpr fun r hr => by simpa using hstars r hr
  rw [starred, hall, byPreference_eq]
  exact List.mergeSort_of_pairwise (by simpa using hordered)

/-- Rules without wildcards in front change nothing about those with wildcards. -/
theorem starred_append (c : Category) (preferences : List Regex) {plain : List Placed}
    (hplain : ∀ r ∈ plain, wildcards c r = 0) (rules : List Placed) :
    starred c preferences (plain ++ rules) = starred c preferences rules := by
  have hnone : plain.filter (fun r => wildcards c r != 0) = [] :=
    List.filter_eq_nil_iff.mpr fun r hr => by simp [hplain r hr]
  rw [starred, starred, List.filter_append, hnone, List.nil_append]

/-- What the budget leaves is left by it again, and nothing is counted then. -/
theorem applyBudget_applyBudget (c : Category) (budget : Option Nat) (preferences : List Regex)
    (rules : List Placed) : applyBudget c budget preferences (applyBudget c budget preferences rules).1 =
      ((applyBudget c budget preferences rules).1, 0) := by
  obtain ⟨kept, hlongest, hleft⟩ := exists_applyBudget_fst c budget preferences rules
  have hsorted := isStablySorted_byPreference preferences (rules.filter fun r => wildcards c r != 0)
  have hplain : ∀ r ∈ rules.filter (fun r => wildcards c r == 0), wildcards c r = 0 := fun r hr => by
    simpa using (List.mem_filter.mp hr).2
  have hstars : ∀ r ∈ kept, wildcards c r ≠ 0 := fun r hr => by
    simpa using (List.mem_filter.mp (hsorted.perm.subset (hlongest.isPrefix.subset hr))).2
  -- The second time, the rules are parted as they stand, and those with wildcards are in order and within the budget.
  have hordered : starred c preferences (rules.filter (fun r => wildcards c r == 0) ++ kept) = kept := by
    rw [starred_append c preferences hplain]
    exact starred_eq_self hstars (hsorted.pairwise.sublist hlongest.isPrefix.sublist)
  have hparted : (rules.filter (fun r => wildcards c r == 0) ++ kept).filter (fun r => wildcards c r == 0) =
      rules.filter fun r => wildcards c r == 0 := by
    have hnone : kept.filter (fun r => wildcards c r == 0) = [] := List.filter_eq_nil_iff.mpr (by simpa using hstars)
    rw [List.filter_append, hnone, List.append_nil, List.filter_filter]
    simp only [Bool.and_self]
  obtain ⟨kept', hlongest', hleft'⟩ := exists_applyBudget_fst c budget preferences
    (rules.filter (fun r => wildcards c r == 0) ++ kept)
  rw [hordered] at hlongest'
  rw [hparted, hlongest'.eq_of_isWithin hlongest.isWithin] at hleft'
  have hcount := length_applyBudget c budget preferences
    (rules.filter (fun r => wildcards c r == 0) ++ kept)
  rw [hleft'] at hcount
  rw [hleft]
  exact Prod.ext hleft' (by omega)

/-- The budget leaves the rules without wildcards in their order and behind them the longest beginning within it of
the others. Those are stably sorted by a list of flags, of which the first one that differs decides: not to be pinned,
and then for each preference not to match it. The budget counts the rules that it takes, and finds nothing to take the
second time. -/
theorem applyBudget_cuts (c : Category) (budget : Option Nat) (preferences : List Regex) (rules : List Placed) :
    ∃ ordered kept cut,
      IsStablySorted (fun r => (!r.pinned) :: preferences.map fun x => !x.isMatch r.pattern)
        (rules.filter fun r => wildcards c r != 0) ordered ∧
      ordered = kept ++ cut ∧ IsLongestWithin c budget ordered kept ∧
      applyBudget c budget preferences rules =
        ((rules.filter fun r => wildcards c r == 0) ++ kept, cut.length) ∧
      (applyBudget c budget preferences rules).2 =
        rules.length - (applyBudget c budget preferences rules).1.length ∧
      (∀ n, budget = some n → totalWildcards c (applyBudget c budget preferences rules).1 ≤ n ∧
        ∀ r rest, cut = r :: rest → n < totalWildcards c (kept ++ [r])) ∧
      (budget = none → (applyBudget c budget preferences rules).1.Perm rules) ∧
      applyBudget c budget preferences (applyBudget c budget preferences rules).1 =
        ((applyBudget c budget preferences rules).1, 0) := by
  obtain ⟨kept, hlongest, hleft⟩ := exists_applyBudget_fst c budget preferences rules
  obtain ⟨cut, hcut⟩ := hlongest.isPrefix
  have hsorted := isStablySorted_byPreference preferences (rules.filter fun r => wildcards c r != 0)
  -- The rules are left or counted, and without a budget they are all left: so what is counted is the cut.
  have hcount := length_applyBudget c budget preferences rules
  have hcounted : (applyBudget c budget preferences rules).2 = cut.length := by
    have hperm := (applyBudget_none_perm c preferences rules).length_eq
    have hall := congrArg List.length hcut
    rw [applyBudget_fst, List.length_append] at hperm
    rw [hleft, List.length_append] at hcount
    rw [List.length_append] at hall
    dsimp only at hperm
    omega
  refine ⟨starred c preferences rules, kept, cut, hsorted, hcut.symm, hlongest, Prod.ext hleft hcounted, by omega,
    ?_, ?_, applyBudget_applyBudget c budget preferences rules⟩
  · rintro n rfl
    exact ⟨totalWildcards_applyBudget_le c n preferences rules, fun r rest hr =>
      hlongest.over (hr ▸ hcut.symm) rfl⟩
  · rintro rfl
    exact applyBudget_none_perm c preferences rules

section
open Build

/-- Rules with seven wildcards, and two without. -/
def mixed : List Placed :=
  [fragmentAt 0 false "-n*1*2-", fragmentAt 1 false "-track*2-", fragmentAt 2 false "-b-", fragmentAt 3 false "-track*1-",
    fragmentAt 4 false "-m*1-", fragmentAt 5 false "-Ads*1-", fragmentAt 6 true "-x*y", fragmentAt 7 false "-a-"]

/-- The ones without. -/
def mixedPlain : List Placed := [fragmentAt 2 false "-b-", fragmentAt 7 false "-a-"]

/-- The pinned one of the others, and those that match a preference, in their order. -/
def mixedKept : List Placed :=
  [fragmentAt 6 true "-x*y", fragmentAt 5 false "-Ads*1-", fragmentAt 1 false "-track*2-",
    fragmentAt 3 false "-track*1-"]

/-- A budget of five leaves the rules with the first four wildcards. The next rule has two more; the last one would fit
and is taken with it. Of the two rules with the second word the one that was read first stays in front. -/
theorem applyBudget_cuts_sample :
    ∃ ordered cut,
      IsStablySorted (fun r => (!r.pinned) :: preferring.wildcardPreferences.map fun x => !x.isMatch r.pattern)
        (mixed.filter fun r => wildcards .urlFragment r != 0) ordered ∧
      ordered = mixedKept ++ cut ∧
      applyBudget .urlFragment (some 5) preferring.wildcardPreferences mixed =
        (mixedPlain ++ mixedKept, 2) ∧
      cut.length = 2 ∧
      applyBudget .urlFragment (some 5) preferring.wildcardPreferences
          (applyBudget .urlFragment (some 5) preferring.wildcardPreferences mixed).1 =
        (mixedPlain ++ mixedKept, 0) := by
  obtain ⟨ordered, kept, cut, hsorted, rfl, -, hleft, -, -, -, hagain⟩ :=
    applyBudget_cuts .urlFragment (some 5) preferring.wildcardPreferences mixed
  have hordered : kept ++ cut = mixedKept ++ [fragmentAt 0 false "-n*1*2-", fragmentAt 4 false "-m*1-"] :=
    hsorted.unique (.of_forall_mem (by decide +kernel) (by decide +kernel) (by decide +kernel))
  have hfst : (applyBudget .urlFragment (some 5) preferring.wildcardPreferences mixed).1 = mixedPlain ++ mixedKept := by
    have hstarred : starred .urlFragment preferring.wildcardPreferences mixed = kept ++ cut :=
      (isStablySorted_byPreference _ _).unique hsorted
    rw [applyBudget_fst, hstarred, hordered]
    decide +kernel
  have hresult : applyBudget .urlFragment (some 5) preferring.wildcardPreferences mixed =
      (mixedPlain ++ mixedKept, 2) := by
    have hlength := length_applyBudget .urlFragment (some 5) preferring.wildcardPreferences mixed
    rw [hfst] at hlength
    exact Prod.ext hfst (Nat.add_left_cancel hlength)
  have hplain : mixed.filter (fun r => wildcards .urlFragment r == 0) = mixedPlain := by decide +kernel
  rw [hresult] at hleft hagain
  rw [hplain] at hleft
  obtain ⟨hkept, hcut⟩ := Prod.mk.inj hleft
  obtain rfl := List.append_cancel_left hkept
  exact ⟨_, cut, hsorted, rfl, hresult, hcut.symm, hresult ▸ hagain⟩

end

end UrlFilter.Limits
