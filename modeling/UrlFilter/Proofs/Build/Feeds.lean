import UrlFilter.Proofs.Build.Buckets

/-!
# Filling a builder

A builder is fed with lists and with single rules, in any order. Whatever it is fed with, it holds the rules
that were read, as the policy places them, but for those that have an obstacle (`rules_ofFeeds`); a rule that is
kept from its bucket leaves the others as they are. In particular the regular expressions that it holds compile.
-/

namespace UrlFilter

/-- What a builder is fed with. -/
inductive Feed where
  | source (text : Text)
  | rule (r : Rule)
  deriving Repr, DecidableEq

namespace Feed

/-- The rules that are read of it. -/
def read (p : Policy) : Feed → List Rule
  | source text => (Reader.readAll {} p (Text.lines text)).2
  | rule r => [r]

/-- The rules of it that nothing keeps from their buckets. -/
def admitted (p : Policy) (f : Feed) : List Placed :=
  ((f.read p).map p.place).filter fun r => (p.obstacle? r).isNone

end Feed

namespace Builder

/-- The builder with one list or one rule more. -/
def feed (b : Builder) (p : Policy) : Feed → Builder
  | .source text => b.addSource p text
  | .rule r => b.push p r

/-- The builder that was fed with lists and rules, one after the other. -/
def ofFeeds (p : Policy) (feeds : List Feed) : Builder := feeds.foldl (·.feed p ·) {}

section
variable {p : Policy}

/-- A rule with an obstacle only costs itself. -/
theorem rules_push (b : Builder) (p : Policy) (rule : Rule) :
    (b.push p rule).rules = b.rules ++ [p.place rule].filter fun r => (p.obstacle? r).isNone := by
  cases hobstacle : p.obstacle? (p.place rule) with
  | none => simp [push, hobstacle]
  | some d => simp [push, hobstacle]

/-- Rules that are pushed are placed, and those that nothing keeps out are added in their order. -/
theorem rules_foldl_push (b : Builder) (p : Policy) (rules : List Rule) :
    (rules.foldl (·.push p ·) b).rules =
      b.rules ++ (rules.map p.place).filter fun r => (p.obstacle? r).isNone := by
  induction rules generalizing b with
  | nil => simp
  | cons rule rules ih =>
    rw [List.foldl_cons, ih, rules_push, List.append_assoc, ← List.filter_append]
    rfl

/-- What is fed to a builder adds the rules that it admits. -/
theorem rules_feed (b : Builder) (p : Policy) (f : Feed) :
    (b.feed p f).rules = b.rules ++ f.admitted p := by
  cases f with
  | rule r => exact rules_push b p r
  | source text => exact rules_foldl_push _ p _

/-- A builder holds the rules that were admitted of what it was fed with, in their order. -/
theorem rules_ofFeeds (p : Policy) (feeds : List Feed) :
    (ofFeeds p feeds).rules = feeds.flatMap (·.admitted p) := by
  have hrun (b : Builder) : (feeds.foldl (·.feed p ·) b).rules = b.rules ++ feeds.flatMap (·.admitted p) := by
    induction feeds generalizing b with
    | nil => simp
    | cons f feeds ih => rw [List.foldl_cons, ih, rules_feed, List.flatMap_cons, List.append_assoc]
  exact hrun {}

/-- Every rule that a builder holds was placed by the policy, and nothing keeps it from its bucket. -/
theorem admits_ofFeeds {feeds : List Feed} {r : Placed} (hr : r ∈ (ofFeeds p feeds).rules) :
    (∃ rule, p.place rule = r) ∧ p.obstacle? r = none := by
  rw [rules_ofFeeds] at hr
  obtain ⟨f, -, hf⟩ := List.mem_flatMap.mp hr
  obtain ⟨hmem, hobstacle⟩ := List.mem_filter.mp hf
  obtain ⟨rule, -, rfl⟩ := List.mem_map.mp hmem
  exact ⟨⟨rule, rfl⟩, Option.isNone_iff_eq_none.mp hobstacle⟩

end

end Builder

namespace Build

/-- Rules and pinned rules are ones of a bucket: the policy keeps their patterns there, and the pinned ones
carry their flag. -/
structure AreRules (p : Policy) (b : Bucket) (pinned rules : List Placed) : Prop where
  placed : ∀ r ∈ pinned ++ rules, ∃ pattern, p.category pattern = (b.category, r.pattern)
  flagged : ∀ r ∈ pinned, r.pinned = true

/-- A rule that is placed in a bucket has the pattern that its category keeps of it. -/
theorem category_of_place {p : Policy} {rule : Rule} {b : Bucket} (h : (p.place rule).bucket = b) :
    p.category rule.pattern = (b.category, (p.place rule).pattern) := by
  subst h
  rfl

/-- What a builder holds for a bucket, and what the policy pins there, are rules of the bucket. -/
theorem areRules_ofFeeds (p : Policy) (feeds : List Feed) (b : Bucket) :
    AreRules p b (rulesOf b (pinnedRules p)) (rulesOf b (Builder.ofFeeds p feeds).rules) where
  placed r hr := by
    rcases List.mem_append.mp hr with hr | hr
    · obtain ⟨hpinned, hbucket⟩ := List.mem_filter.mp hr
      obtain ⟨r', hr', rfl⟩ := List.mem_map.mp hpinned
      obtain ⟨rule, -, rfl⟩ := List.mem_map.mp (List.mem_filter.mp hr').1
      exact ⟨rule.pattern, category_of_place (by simpa using hbucket)⟩
    · obtain ⟨hadmitted, hbucket⟩ := List.mem_filter.mp hr
      obtain ⟨⟨rule, rfl⟩, -⟩ := Builder.admits_ofFeeds hadmitted
      exact ⟨rule.pattern, category_of_place (by simpa using hbucket)⟩
  flagged r hr := by
    obtain ⟨r', -, rfl⟩ := List.mem_map.mp (List.mem_filter.mp hr).1
    rfl

end Build

end UrlFilter
