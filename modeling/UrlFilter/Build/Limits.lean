import UrlFilter.Rule.Admission

/-!
# Limits

How the rules of a bucket are cut: repeated patterns, rules with too many wildcards together, and too
many rules. Rules that are kept stay in their order, and pinned ones are cut last. A limit says how many
rules it takes beside those that it leaves.
-/

namespace UrlFilter.Limits

/-- The rules whose patterns are neither in `seen` nor those of rules in front of them. -/
def dedupFrom (seen : List Text) : List Placed → List Placed
  | [] => []
  | r :: rs =>
    if seen.contains r.pattern then dedupFrom seen rs else r :: dedupFrom (r.pattern :: seen) rs

/-- The rules without those that repeat the pattern of another in front of them. -/
def dedup (rules : List Placed) : List Placed := dedupFrom [] rules

/-! ## The number of rules -/

/-- The pinned rules, and the first `room` of the others. -/
def keepFirst : Nat → List Placed → List Placed
  | _, [] => []
  | room, r :: rs =>
    if r.pinned then r :: keepFirst room rs
    else
      match room with
      | 0 => keepFirst 0 rs
      | room + 1 => r :: keepFirst room rs

/-- At most so many rules, or all pinned ones when they are more; then the number of the others. -/
def truncate (max : Option Nat) (rules : List Placed) : List Placed × Nat :=
  match max with
  | none => (rules, 0)
  | some n =>
    if rules.length ≤ n then (rules, 0)
    else
      let kept := keepFirst (n - rules.countP (·.pinned)) rules
      (kept, rules.length - kept.length)

/-! ## Wildcards -/

/-- The wildcards of a rule. -/
def wildcards (c : Category) (r : Placed) : Nat := Glob.stars c r.pattern

/-- What puts a rule behind others: it is not pinned, and then each preference that it does not match. -/
def misses (preferences : List Regex) (r : Placed) : List Bool :=
  (!r.pinned) :: preferences.map fun p => !p.isMatch r.pattern

/-- The order of lists of misses: the first difference decides. -/
def noMoreMisses : List Bool → List Bool → Bool
  | [], _ => true
  | _ :: _, [] => false
  | a :: as, b :: bs => if a = b then noMoreMisses as bs else !a

/-- Rules in the order of their misses; those with the same ones stay in their order. -/
def byPreference (preferences : List Regex) (rules : List Placed) : List Placed :=
  let keyed := rules.map fun r => (misses preferences r, r)
  (keyed.mergeSort fun a b => noMoreMisses a.1 b.1).map Prod.snd

/-- The place of the first rule with which the wildcards are too many, when `total` of them are in front. -/
def firstOver? (c : Category) (budget total : Nat) : List Placed → Option Nat
  | [] => none
  | r :: rs =>
    let total := total + wildcards c r
    if budget < total then some 0 else (firstOver? c budget total rs).map (· + 1)

/-- The rules without wildcards, then those with wildcards in the order of preference, up to the first one
with which they are too many; then the number of rules that are left out. -/
def applyBudget (c : Category) (budget : Option Nat) (preferences : List Regex)
    (rules : List Placed) : List Placed × Nat :=
  let (plain, starred) := rules.partition fun r => wildcards c r == 0
  let starred := byPreference preferences starred
  match budget with
  | none => (plain ++ starred, 0)
  | some n =>
    let keep := (firstOver? c n 0 starred).getD starred.length
    (plain ++ starred.take keep, starred.length - keep)

/-- The wildcards of all rules. -/
def totalWildcards (c : Category) (rules : List Placed) : Nat := (rules.map (wildcards c)).sum

end UrlFilter.Limits
