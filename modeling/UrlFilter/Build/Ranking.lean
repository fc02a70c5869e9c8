import UrlFilter.Rule.Placed

/-!
# Ranking

A ranking orders the rules of a bucket before the limits cut them: what it puts first stays. It may also
leave rules out.
-/

namespace UrlFilter

/-- Orders the rules of a bucket. -/
abbrev Ranking := Bucket → List Placed → List Placed

/-- What raises the rank of a rule. -/
structure Merits where
  keywords : List Regex
  options : RuleOption.Set
  deriving Repr

namespace Merits

/-- The merits that a policy names. -/
def ofPolicy (p : Policy) : Merits := ⟨p.rankingKeywords, p.highValueOptions⟩

/-- The number of matches of keywords in a pattern. -/
def hits (m : Merits) (pattern : Text) : Nat := (m.keywords.map (·.count pattern)).sum

/-- The score of a rule: one, a share that falls with its length in bytes, one for each match of a
keyword, and one for an option of merit. -/
def score (m : Merits) (r : Placed) : Float :=
  let share := 1.0 / Float.ofNat (max 1 (Text.byteLength r.pattern))
  let bonus := if r.options.meets m.options then 1.0 else 0.0
  1.0 + share + Float.ofNat (m.hits r.pattern) + bonus

/-- The bits of the score. Scores are positive, so their bits are in the same order. -/
def rank (m : Merits) (r : Placed) : Nat := (m.score r).toBits.toNat

end Merits

namespace Ranking

/-- The order in which the rules came. -/
def inOrder : Ranking := fun _ rules => rules

/-- The rules with higher scores first; those with equal scores stay in their order. -/
def byMerits (m : Merits) : Ranking := fun _ rules =>
  let ranked := rules.map fun r => (m.rank r, r)
  (ranked.mergeSort fun a b => decide (b.1 ≤ a.1)).map Prod.snd

/-- A ranking by merits reorders rules and changes nothing else. -/
theorem byMerits_perm (m : Merits) (b : Bucket) (rules : List Placed) :
    (byMerits m b rules).Perm rules := by
  have h := (List.mergeSort_perm (rules.map fun r => (m.rank r, r))
    fun a b => decide (b.1 ≤ a.1)).map Prod.snd
  simpa [byMerits, List.map_map, Function.comp_def] using h

end Ranking

end UrlFilter
