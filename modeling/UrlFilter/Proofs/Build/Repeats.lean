import UrlFilter.Proofs.Build.Feeds
import UrlFilter.Proofs.Build.Jobs
import UrlFilter.Proofs.Build.Priority

/-!
# Repeated rules

What a builder holds already can be read again without an effect on what is exported. A bucket leaves out
repeated patterns before it ranks its rules and before the limits cut them, and keeps the first of each: so it
ranks and cuts the same rules, whatever options the repetition has. A list that is read again gives the same
rules as before, because sections end with a list, and each of them is held or kept from its bucket as before.

Only the report tells the difference, for it counts what came.
-/

namespace UrlFilter

namespace Limits

/-- Rules whose patterns were all seen are left out. -/
theorem dedupFrom_eq_nil {seen : List Text} {rules : List Placed} (h : ∀ r ∈ rules, r.pattern ∈ seen) :
    dedupFrom seen rules = [] := by
  induction rules with
  | nil => rfl
  | cons r rs ih =>
    have hr : r.pattern ∈ seen := h r (List.mem_cons_self ..)
    rw [dedupFrom, if_pos (by simpa using hr), ih fun x hx => h x (List.mem_cons_of_mem _ hx)]

/-- Rules at the end that repeat others change nothing. -/
theorem dedupFrom_append_of_repeats {seen : List Text} {rules more : List Placed}
    (h : ∀ r ∈ more, r.pattern ∈ seen ∨ r.pattern ∈ rules.map (·.pattern)) :
    dedupFrom seen (rules ++ more) = dedupFrom seen rules := by
  induction rules generalizing seen with
  | nil => exact dedupFrom_eq_nil fun r hr => by simpa using h r hr
  | cons r rs ih =>
    rw [List.cons_append, dedupFrom, dedupFrom]
    by_cases hr : r.pattern ∈ seen
    · rw [if_pos (by simpa using hr), if_pos (by simpa using hr)]
      refine ih fun x hx => ?_
      rcases h x hx with hseen | hrepeats
      · exact .inl hseen
      · rcases List.mem_cons.mp hrepeats with hfirst | hrest
        · exact .inl (hfirst ▸ hr)
        · exact .inr hrest
    · rw [if_neg (by simpa using hr), if_neg (by simpa using hr)]
      refine congrArg (r :: ·) (ih fun x hx => ?_)
      rcases h x hx with hseen | hrepeats
      · exact .inl (List.mem_cons_of_mem _ hseen)
      · rcases List.mem_cons.mp hrepeats with hfirst | hrest
        · exact .inl (hfirst ▸ List.mem_cons_self ..)
        · exact .inr hrest

end Limits

/-- Some rule of a list has the bucket and the pattern of the rule. -/
def Placed.Repeats (r : Placed) (rules : List Placed) : Prop :=
  ∃ r' ∈ rules, r'.bucket = r.bucket ∧ r'.pattern = r.pattern

/-- Whether a rule repeats one of a list is decided rule by rule. -/
instance (r : Placed) (rules : List Placed) : Decidable (r.Repeats rules) :=
  inferInstanceAs (Decidable (∃ r' ∈ rules, r'.bucket = r.bucket ∧ r'.pattern = r.pattern))

namespace Build

variable {p : Policy} {ranking : Ranking} {rules more : List Placed}

/-- The distinct rules of a bucket are the same with repetitions. -/
theorem dedup_rulesOf_append (h : ∀ r ∈ more, r.Repeats rules) (k : Bucket) :
    Limits.dedup (rulesOf k (rules ++ more)) = Limits.dedup (rulesOf k rules) := by
  rw [rulesOf, List.filter_append]
  refine Limits.dedupFrom_append_of_repeats fun r hr => .inr ?_
  obtain ⟨hmore, hbucket⟩ := List.mem_filter.mp hr
  obtain ⟨r', hr', hsame, hpattern⟩ := h r hmore
  refine List.mem_map.mpr ⟨r', List.mem_filter.mpr ⟨hr', ?_⟩, hpattern⟩
  rw [hsame]
  exact hbucket

/-- What is compiled of a bucket rests on its distinct rules. -/
theorem compileBucket_congr {pinned rules' : List Placed} {k : Bucket}
    (h : Limits.dedup rules' = Limits.dedup rules) :
    (compileBucket p ranking k pinned rules').map Prod.fst =
      (compileBucket p ranking k pinned rules).map Prod.fst := by
  have hprioritized : prioritized ranking k pinned rules' = prioritized ranking k pinned rules := by
    simp only [prioritized, h]
  rw [compileBucket_eq_compiled, compileBucket_eq_compiled, handed, handed, hprioritized]

end Build

namespace Builder

open Build

/-- A builder that holds nothing but repetitions beside the rules of another exports the same. -/
theorem exported_of_repeats {p : Policy} {ranking : Ranking} {b b' : Builder} {more : List Placed}
    (hrules : b'.rules = b.rules ++ more) (h : ∀ r ∈ more, r.Repeats b.rules) :
    b'.exported p ranking = b.exported p ranking := by
  refine exported_congr fun k => ?_
  rw [job, job, hrules]
  exact compileBucket_congr (dedup_rulesOf_append h k)

/-- Reading again what was read before, be it a list or a rule, leaves what is exported as it is, and so does
a rule that repeats one that its bucket holds, whatever its options: the build succeeds or fails as before. -/
theorem exported_ignores_repeats (p : Policy) (ranking : Ranking) :
    (∀ feeds, ∀ f ∈ feeds,
      (ofFeeds p (feeds ++ [f])).exported p ranking = (ofFeeds p feeds).exported p ranking) ∧
      ∀ (b : Builder) (rule : Rule), (p.place rule).Repeats b.rules →
        (b.push p rule).exported p ranking = b.exported p ranking := by
  constructor
  · intro feeds f hf
    have hrules : (ofFeeds p (feeds ++ [f])).rules = (ofFeeds p feeds).rules ++ f.admitted p := by
      rw [rules_ofFeeds, rules_ofFeeds, List.flatMap_append, List.flatMap_singleton]
    refine exported_of_repeats hrules fun r hr => ⟨r, ?_, rfl, rfl⟩
    rw [rules_ofFeeds]
    exact List.mem_flatMap.mpr ⟨f, hf, hr⟩
  · intro b rule h
    refine exported_of_repeats (rules_push b p rule) fun r hr => ?_
    rw [List.mem_singleton.mp (List.mem_filter.mp hr).1]
    exact h

/-- A policy that keeps two patterns and no wildcard, with two pinned rules. -/
def capped : Policy :=
  { Policy.permissive with
    maxPatternRules := some 2
    maxWildcards := some 0
    pinnedRules := ["-x*y".toList, "-p-".toList] }

/-- A list with more rules than `capped` keeps. -/
def crowded : Text := "-a-\n-b-\n! x\n-c-\n-d-".toList

/-- A rule of the crowded list, with an option. -/
def optioned : Rule := { pattern := "-b-".toList, options := [.image] }

/-- Read twice, the crowded list fills the builder with eight rules instead of four, and the cuts leave the same
two; a rule of it that has an option changes nothing either. -/
theorem exported_ignores_repeats_sample :
    (ofFeeds capped [.source crowded]).rules.length = 4 ∧
      (ofFeeds capped [.source crowded, .source crowded]).rules.length = 8 ∧
      ((ofFeeds capped [.source crowded]).push capped optioned).rules.length = 5 ∧
      (capped.place optioned).Repeats (ofFeeds capped [.source crowded]).rules ∧
      ∃ snapshot, (ofFeeds capped [.source crowded]).exported capped .inOrder = .ok snapshot ∧
        snapshot.entries.map (·.rules.length) = [0, 0, 0, 0, 0, 0, 0, 0, 0, 0, 0, 0, 2, 0] ∧
        (ofFeeds capped [.source crowded, .source crowded]).exported capped .inOrder = .ok snapshot ∧
        ((ofFeeds capped [.source crowded]).push capped optioned).exported capped .inOrder = .ok snapshot := by
  have hheld : (capped.place optioned).Repeats (ofFeeds capped [.source crowded]).rules :=
    by decide +kernel
  obtain ⟨hagain, hrepeats⟩ := exported_ignores_repeats capped .inOrder
  have hsizes : ((ofFeeds capped [.source crowded]).exported capped .inOrder).toOption.map
      (fun snapshot => snapshot.entries.map (·.rules.length)) =
        some [0, 0, 0, 0, 0, 0, 0, 0, 0, 0, 0, 0, 2, 0] := by decide +kernel
  obtain ⟨snapshot, hsnapshot, hsizes⟩ := exists_of_toOption_map hsizes
  refine ⟨by decide +kernel, by decide +kernel, by decide +kernel, hheld, snapshot, hsnapshot, hsizes, ?_, ?_⟩
  · rw [← hsnapshot]
    exact hagain [.source crowded] (.source crowded) (List.mem_singleton.mpr rfl)
  · rw [← hsnapshot]
    exact hrepeats _ optioned hheld

end Builder

end UrlFilter
