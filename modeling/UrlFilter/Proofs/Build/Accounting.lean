import UrlFilter.Proofs.Build.Cuts

/-!
# Accounts

No line and no rule is lost or counted twice. A line gives a rule or is dropped for one reason of nine,
and a rule reaches its bucket or is dropped for one of four; so the tally of the lists stays balanced line
by line, rule by rule and list by list. In each bucket, what the cuts take and what is left make up its
distinct patterns.
-/

namespace UrlFilter

/-! ## Reasons and counts -/

/-- The reason concerns the line, and not the rule that it gives. -/
def Drop.ofLine : Drop → Bool
  | .contentFilter | .optionedPattern | .invalidRawPattern | .rawBackreference => false
  | _ => true

namespace Tally

/-- The lines that gave no rule. -/
def lineDrops (t : Tally) : Nat :=
  t.comments + t.configLines + t.selectors + t.blank + t.emptyUrls + t.ignoredSections +
    t.ignoredOptions + t.unsupportedOptions + t.droppedExceptions

/-- The rules that did not reach their bucket. -/
def ruleDrops (t : Tally) : Nat :=
  t.contentFiltered + t.optionedPatterns + t.invalidRawPatterns + t.rawBackreferences

/-- A drop for a reason of lines is counted among them. -/
theorem lineDrops_drop (t : Tally) (d : Drop) :
    (t.drop d).lineDrops = t.lineDrops + if d.ofLine then 1 else 0 := by
  cases d <;> simp only [drop, lineDrops, Drop.ofLine, if_true, Bool.false_eq_true, if_false] <;> omega

/-- A drop for any other reason is counted among those of rules. -/
theorem ruleDrops_drop (t : Tally) (d : Drop) :
    (t.drop d).ruleDrops = t.ruleDrops + if d.ofLine then 0 else 1 := by
  cases d <;> simp only [drop, ruleDrops, Drop.ofLine, if_true, Bool.false_eq_true, if_false] <;> omega

/-- The tally counts so many lines, each as a rule or as dropped, and so many of the rules were not
dropped. -/
structure Balanced (t : Tally) (lines admitted : Nat) : Prop where
  lines_eq : t.lines = lines
  read : t.lines = t.accepted + t.lineDrops
  sorted : t.accepted = admitted + t.ruleDrops

/-- Nothing is balanced before the first line. -/
theorem balanced_zero : Balanced {} 0 0 := ⟨rfl, rfl, rfl⟩

section

variable {t : Tally} {lines admitted : Nat}

/-- A line that gives a rule is balanced by that rule. -/
theorem Balanced.accept (h : t.Balanced lines admitted) :
    t.line.accept.Balanced (lines + 1) (admitted + 1) := by
  obtain ⟨hlines, hread, hsorted⟩ := h
  refine ⟨?_, ?_, ?_⟩
  · simp only [Tally.accept, line, hlines]
  · simp only [Tally.accept, line, lineDrops] at hread ⊢
    omega
  · simp only [Tally.accept, line, ruleDrops] at hsorted ⊢
    omega

/-- A line that is dropped for a reason of lines is balanced by its drop. -/
theorem Balanced.dropLine {d : Drop} (hd : d.ofLine = true) (h : t.Balanced lines admitted) :
    (t.line.drop d).Balanced (lines + 1) admitted := by
  obtain ⟨hlines, hread, hsorted⟩ := h
  refine ⟨?_, ?_, ?_⟩
  · simp only [lines_drop, line, hlines]
  · rw [lines_drop, accepted_drop, lineDrops_drop, if_pos hd]
    simp only [line, lineDrops] at hread ⊢
    omega
  · rw [accepted_drop, ruleDrops_drop, if_pos hd]
    exact hsorted

/-- Of the rules that were found, one more does not reach its bucket. -/
theorem Balanced.dropRule {d : Drop} (hd : d.ofLine = false) (h : t.Balanced lines (admitted + 1)) :
    (t.drop d).Balanced lines admitted := by
  obtain ⟨hlines, hread, hsorted⟩ := h
  refine ⟨by rw [lines_drop, hlines], ?_, ?_⟩
  · rw [lines_drop, accepted_drop, lineDrops_drop, hd]
    exact hread
  · rw [accepted_drop, ruleDrops_drop, hd, hsorted]
    simp only [Bool.false_eq_true, if_false]
    omega

/-- Tallies that are balanced are so together. -/
theorem Balanced.add {t' : Tally} {lines' admitted' : Nat} (h : t.Balanced lines admitted)
    (h' : t'.Balanced lines' admitted') :
    (t.add t').Balanced (lines + lines') (admitted + admitted') := by
  obtain ⟨hlines, hread, hsorted⟩ := h
  obtain ⟨hlines', hread', hsorted'⟩ := h'
  refine ⟨by simp only [Tally.add, hlines, hlines'], ?_, ?_⟩
  · simp only [Tally.add, lineDrops] at hread hread' ⊢
    omega
  · simp only [Tally.add, ruleDrops] at hsorted hsorted' ⊢
    omega

end

end Tally

/-! ## Reading a list -/

namespace Policy

/-- What a rule is judged by is a reason of its line. -/
theorem ofLine_of_judge {p : Policy} {isException : Bool} {pattern options : Text} {ordinal : Nat}
    {d : Drop} (h : p.judge isException pattern options ordinal = .error d) : d.ofLine = true := by
  unfold judge at h
  split at h
  · exact Except.error.inj h ▸ rfl
  · repeat' split at h
    all_goals first
      | exact Except.error.inj h ▸ rfl
      | simp at h

/-- Where a line gives no rule, the reason concerns the line. -/
theorem ofLine_of_readLine {p : Policy} {s : Section} {text : Text} {ordinal : Nat} {d : Drop}
    (h : (p.readLine s text ordinal).result = .error d) : d.ofLine = true := by
  unfold readLine at h
  dsimp only at h
  split at h
  · exact Except.error.inj h ▸ rfl
  split at h
  · exact Except.error.inj h ▸ rfl
  split at h
  · exact Except.error.inj h ▸ rfl
  split at h
  · exact Except.error.inj h ▸ rfl
  cases s with
  | ignoring n => exact Except.error.inj h ▸ rfl
  | scanning => exact ofLine_of_judge h

/-- A flaw of a raw pattern is a reason of the rule. -/
theorem not_ofLine_of_rawFlaw? {raw : Text} {d : Drop} (h : rawFlaw? raw = some d) :
    d.ofLine = false := by
  unfold rawFlaw? at h
  split at h
  · exact Option.some.inj h ▸ rfl
  · split at h
    · exact Option.some.inj h ▸ rfl
    · simp at h

/-- What refuses a rule is a reason of the rule. -/
theorem not_ofLine_of_refusal? {p : Policy} {r : Placed} {d : Drop} (h : p.refusal? r = some d) :
    d.ofLine = false := by
  unfold refusal? at h
  split at h
  · exact Option.some.inj h ▸ rfl
  · split at h
    · simp at h
    · split at h
      · simp at h
      · exact Option.some.inj h ▸ rfl

/-- What keeps a rule from its bucket concerns the rule. -/
theorem not_ofLine_of_obstacle? {p : Policy} {r : Placed} {d : Drop} (h : p.obstacle? r = some d) :
    d.ofLine = false := by
  unfold obstacle? at h
  rcases Option.or_eq_some_iff.mp h with hrefusal | ⟨-, hflaw⟩
  · exact not_ofLine_of_refusal? hrefusal
  · split at hflaw
    · exact not_ofLine_of_rawFlaw? hflaw
    · simp at hflaw

end Policy

namespace Reader

/-- One more line is counted, and one more rule if it gives one. -/
theorem balanced_read {r : Reader} {lines found : Nat} (h : r.tally.Balanced lines found) (p : Policy)
    (text : Text) (ordinal : Nat) :
    (r.read p text ordinal).1.tally.Balanced (lines + 1)
      (found + (r.read p text ordinal).2.toList.length) := by
  unfold read
  cases hresult : (p.readLine r.current text ordinal).result with
  | ok rule =>
    simp only [hresult]
    exact h.accept
  | error d =>
    simp only [hresult]
    exact h.dropLine (Policy.ofLine_of_readLine hresult)

/-- A whole list is counted, by induction on its lines. -/
theorem balanced_readFrom {r : Reader} {lines found : Nat} (h : r.tally.Balanced lines found) (p : Policy)
    (n : Nat) (ts : List Text) :
    (r.readFrom p n ts).1.tally.Balanced (lines + ts.length)
      (found + (r.readFrom p n ts).2.length) := by
  induction ts generalizing r lines found n with
  | nil => exact h
  | cons t ts ih =>
    have hrest := ih (balanced_read h p t n) (n + 1)
    simp only [readFrom, List.length_append, List.length_cons]
    rw [Nat.add_assoc, Nat.add_comm 1 ts.length] at hrest
    rwa [Nat.add_assoc] at hrest

end Reader

/-! ## Filling the builder -/

namespace Builder

/-- The builder has counted so many lines, and its rules and as many that are still to come are those
that were found. -/
def Balanced (b : Builder) (lines pending : Nat) : Prop :=
  b.tally.Balanced lines (b.rules.length + pending)

/-- A rule that is pushed is admitted or dropped for a reason of its own. -/
theorem Balanced.push {b : Builder} {lines pending : Nat} (h : b.Balanced lines (pending + 1))
    (p : Policy) (rule : Rule) : (b.push p rule).Balanced lines pending := by
  unfold Builder.push
  cases ho : p.obstacle? (p.place rule) with
  | none =>
    simp only [ho, Balanced, List.length_append, List.length_singleton]
    have hone : b.rules.length + 1 + pending = b.rules.length + (pending + 1) := by omega
    rw [hone]
    exact h
  | some d =>
    simp only [ho]
    exact Tally.Balanced.dropRule (Policy.not_ofLine_of_obstacle? ho) h

/-- Rules that are pushed one after the other are all accounted for. -/
theorem Balanced.foldl_push {b : Builder} {lines : Nat} {rules : List Rule}
    (h : b.Balanced lines rules.length) (p : Policy) :
    (rules.foldl (·.push p ·) b).Balanced lines 0 := by
  induction rules generalizing b with
  | nil => exact h
  | cons rule rules ih => exact ih (h.push p rule)

/-- A list that is read is accounted for line by line. -/
theorem Balanced.addSource {b : Builder} {lines : Nat} (h : b.Balanced lines 0) (p : Policy)
    (source : Text) : (b.addSource p source).Balanced (lines + (Text.lines source).length) 0 := by
  have hread := Reader.balanced_readFrom (r := {}) Tally.balanced_zero p 0 (Text.lines source)
  rw [Nat.zero_add, Nat.zero_add] at hread
  have htally := Tally.Balanced.add h hread
  rw [Nat.add_zero] at htally
  unfold Builder.addSource
  exact Balanced.foldl_push
    (b := { b with tally := b.tally.add _, sources := b.sources + 1 }) htally p

/-- Every list keeps the builder balanced. -/
theorem Balanced.foldl_addSource {b : Builder} {lines : Nat} (h : b.Balanced lines 0) (p : Policy)
    (sources : List Text) :
    (sources.foldl (·.addSource p ·) b).Balanced
      (lines + (sources.map fun s => (Text.lines s).length).sum) 0 := by
  induction sources generalizing b lines with
  | nil => exact h
  | cons s sources ih =>
    rw [List.foldl_cons, List.map_cons, List.sum_cons, ← Nat.add_assoc]
    exact ih (h.addSource p s)

end Builder

/-! ## Buckets -/

/-- The report on a bucket accounts for its rules: those that came, so many of them pinned, were repeated,
taken by a cut, or are left. -/
structure BucketReport.Accounts (k : BucketReport) (pinned : Nat) (left : RuleSet) : Prop where
  pinned_le : pinned ≤ k.admitted
  unique_le : k.unique ≤ k.admitted
  unique_eq : k.unique = k.finalCount + k.truncated + k.wildcardDropped + k.compileDropped
  size_eq : left.size = k.finalCount

namespace Build

section

variable {p : Policy} {ranking : Ranking}

/-- A bucket that is compiled accounts for its rules. -/
theorem compileBucket_accounts (horder : ranking.IsOrder) {b : Bucket} {pinned rules : List Placed}
    {rs : RuleSet} {k : BucketReport} (h : compileBucket p ranking b pinned rules = .ok (rs, k)) :
    k.Accounts pinned.length rs := by
  obtain ⟨-, hadmitted, hunique, hcuts⟩ := report_of_compileBucket h
  obtain ⟨hleft, hfinal, hcompile, -⟩ := left_of_compileBucket h
  have hprioritized := length_prioritized_le horder b pinned rules
  have hjoined := hleft.length_le
  refine ⟨by omega, by omega, by omega, ?_⟩
  rw [hfinal, RuleSet.size]

/-- Every rule is in one bucket. -/
theorem sum_length_rulesOf (rules : List Placed) :
    (Bucket.all.map fun b => (rulesOf b rules).length).sum = rules.length := by
  have hone (k : Bucket) : (Bucket.all.map fun b => if k = b then 1 else 0).sum = 1 := by
    obtain ⟨c, pol⟩ := k
    cases pol <;> cases c <;> decide
  induction rules with
  | nil => simp [rulesOf]
  | cons r rs ih =>
    have hcons (b : Bucket) : (rulesOf b (r :: rs)).length =
        (if r.bucket = b then 1 else 0) + (rulesOf b rs).length := by
      by_cases hr : r.bucket = b
      · simp [rulesOf, hr, Nat.add_comm]
      · simp [rulesOf, hr]
    simp only [hcons, List.sum_map_add, hone, ih, List.length_cons]
    omega

end

end Build

namespace Builder

open Build

/-- The reports of a build are on all buckets, each on what the bucket of the rule base holds. -/
theorem reports_of_build {b : Builder} {p : Policy} {ranking : Ranking} {base : RuleBase}
    {report : Report} (h : b.build p ranking = .ok (base, report)) :
    report.buckets.map (·.bucket) = Bucket.all ∧
      ∀ k ∈ report.buckets, compileBucket p ranking k.bucket (rulesOf k.bucket (pinnedRules p))
        (rulesOf k.bucket b.rules) = .ok (base.bucket k.bucket, k) := by
  obtain ⟨built, hbuilt, -, -, rfl⟩ := of_build h
  have hbucket : ∀ e ∈ built, e.2.2.bucket = e.1 := fun e he =>
    (report_of_compileBucket (compileBucket_of_mem hbuilt he)).1
  constructor
  · rw [List.map_map, ← map_fst_of_compileBuckets hbuilt]
    exact List.map_congr_left hbucket
  · intro k hk
    obtain ⟨⟨b', rs, k'⟩, he, rfl⟩ := List.mem_map.mp hk
    have hmem := compileBucket_of_mem hbuilt he
    obtain ⟨r, -, hr⟩ := bucket_of_build h b'
    -- Both speak of the same bucket, so the rule base holds what was compiled.
    have hsame : base.bucket b' = rs := congrArg Prod.fst (Except.ok.inj (hr.symm.trans hmem))
    rw [hbucket _ he, hsame]
    exact hmem

end Builder

/-! ## Whole builds -/

/-- A report accounts for the lines of all lists and the rules of a rule base. -/
structure Report.Accounts (r : Report) (p : Policy) (sources : List Text) (base : RuleBase) : Prop where
  /-- All lines are counted. -/
  lines_eq : r.tally.lines = (sources.map fun s => (Text.lines s).length).sum
  /-- A line is a rule or was dropped for one reason. -/
  read : r.tally.lines = r.tally.accepted + r.tally.comments + r.tally.configLines +
    r.tally.selectors + r.tally.blank + r.tally.emptyUrls + r.tally.ignoredSections +
    r.tally.ignoredOptions + r.tally.unsupportedOptions + r.tally.droppedExceptions
  /-- A rule of a line was dropped for one reason or reached one bucket, where the pinned ones came to it. -/
  sorted : r.tally.accepted = r.tally.contentFiltered + r.tally.optionedPatterns +
    r.tally.invalidRawPatterns + r.tally.rawBackreferences +
    (r.buckets.map fun k => k.admitted - (Build.rulesOf k.bucket (Build.pinnedRules p)).length).sum
  /-- There is one report on each bucket. -/
  buckets_eq : r.buckets.map (·.bucket) = Bucket.all
  buckets : ∀ k ∈ r.buckets,
    k.Accounts (Build.rulesOf k.bucket (Build.pinnedRules p)).length (base.bucket k.bucket)
  ruleCount_eq : base.ruleCount = r.totalRules

namespace Build

/-- The report on a build accounts for all lines and rules, whatever the policy and the lists, as long as
the ranking only orders rules. -/
theorem compile_accounts {p : Policy} {ranking : Ranking} (horder : ranking.IsOrder)
    {sources : List Text} {base : RuleBase} {report : Report}
    (h : compile p ranking sources = .ok (base, report)) : report.Accounts p sources base := by
  unfold compile at h
  obtain ⟨hbuckets, hcompiled⟩ := Builder.reports_of_build h
  have hbalanced := Builder.Balanced.foldl_addSource (b := {}) Tally.balanced_zero p sources
  generalize sources.foldl (·.addSource p ·) ({} : Builder) = b at h hcompiled hbalanced
  have htally : report.tally = b.tally := by
    obtain ⟨built, -, -, -, rfl⟩ := Builder.of_build h
    rfl
  obtain ⟨hlines, hread, hsorted⟩ := hbalanced
  -- What reached a bucket, without what is pinned there, are the rules that the builder holds for it.
  have hall : (report.buckets.map fun k =>
      k.admitted - (rulesOf k.bucket (pinnedRules p)).length).sum = b.rules.length := by
    have hadmitted : ∀ k ∈ report.buckets,
        k.admitted - (rulesOf k.bucket (pinnedRules p)).length = (rulesOf k.bucket b.rules).length := by
      intro k hk
      rw [(report_of_compileBucket (hcompiled k hk)).2.1]
      exact Nat.add_sub_cancel ..
    rw [List.map_congr_left hadmitted, ← sum_length_rulesOf b.rules, ← hbuckets, List.map_map]
    rfl
  refine ⟨?_, ?_, ?_, hbuckets, fun k hk => compileBucket_accounts horder (hcompiled k hk), ?_⟩
  · rw [htally, hlines, Nat.zero_add]
  · rw [htally, hread, Tally.lineDrops]
    omega
  · rw [htally, hsorted, hall, Tally.ruleDrops]
    omega
  · have hsize : ∀ k ∈ report.buckets, (base.bucket k.bucket).size = k.finalCount := fun k hk =>
      (compileBucket_accounts horder (hcompiled k hk)).size_eq
    rw [RuleBase.ruleCount, Report.totalRules, ← hbuckets, List.map_map]
    exact congrArg List.sum (List.map_congr_left hsize)

/-- A policy without exceptions that keeps one rule of a set and one wildcard, and pins a host. -/
def frugal : Policy :=
  { Policy.permissive with
    maxExactRules := some 1
    maxWildcards := some 1
    includeExceptions := false
    pinnedRules := ["||p.q^".toList] }

/-- Lists whose lines are dropped for several reasons, with rules that repeat others, are cut, or are no
expressions. -/
def lists : List Text :=
  ["[Adblock Plus]\n! hosts\n\n||a.b^\n||a.b^\n||c.d^\n@@||e.f^\n##.x".toList,
    "||a*b.c^\n/img/*/y*z\n/(/\n/a\\1/".toList]

/-- Both rankings only order rules. Of the twelve lines, seven give a rule; two of these are no
expressions, one repeats another, and the pinned host takes the only place among the hosts. -/
theorem compile_accounts_sample :
    Ranking.inOrder.IsOrder ∧ (∀ m, (Ranking.byMerits m).IsOrder) ∧
      ∃ base report, compile frugal .inOrder lists = .ok (base, report) ∧
        report.Accounts frugal lists base ∧
        report.tally.lines = 12 ∧ report.tally.accepted = 7 ∧ report.totalRules = 2 := by
  have hcounts : (compile frugal .inOrder lists).toOption.map
      (fun e => (e.2.tally.lines, e.2.tally.accepted, e.2.totalRules)) = some (12, 7, 2) := by
    decide +kernel
  obtain ⟨⟨base, report⟩, hcompile, hcounts⟩ := exists_of_toOption_map hcounts
  simp only [Prod.mk.injEq] at hcounts
  exact ⟨Ranking.isOrder_inOrder, Ranking.isOrder_byMerits, base, report, hcompile,
    compile_accounts Ranking.isOrder_inOrder hcompile, hcounts⟩

end Build

end UrlFilter
