import UrlFilter.Proofs.Build.Cuts
import UrlFilter.Proofs.Build.Scan

/-!
# Wildcards in joined patterns

Each wildcard of a bucket of globs becomes a group in a look ahead and the reference to that group right
behind it. Groups are numbered by their opening parentheses, and the numbers of the references are handed
out fragment by fragment; `numbered_join` shows that both run from one on without a gap. How many wildcards
there are is told beforehand by counting asterisks, and the budget goes by that count.
-/

namespace UrlFilter

namespace Alternation

/-! ## Marks with wildcards -/

/-- The number that a mark refers to, as it is written. -/
def Mark.reference? : Mark → Option Text
  | reference digits => some digits
  | _ => none

/-- The mark neither opens a group with a number nor refers to one. -/
def Mark.isQuiet : Mark → Bool
  | reference _ => false
  | opening k => k != .capturing
  | _ => true

/-- What opens a look ahead that begins with a group. -/
def lookAhead : List Mark := [.opening .backtracking, .plain '?', .plain '=', .opening .capturing]

/-- The marks close all groups that they open, and no others; none of their bars stands outside. -/
def IsBalanced (ms : List Mark) : Prop := ∀ depth, through depth ms = some depth

/-- The numbers behind `used`, up to another one, are those of wildcards among the marks, in order, and no
other mark has to do with numbers. -/
inductive Wildcards : Nat → List Mark → Nat → Prop
  | nil (used : Nat) : Wildcards used [] used
  | skip {used total : Nat} {m : Mark} {ms : List Mark} (hm : m.isQuiet = true)
      (h : Wildcards used ms total) : Wildcards used (m :: ms) total
  | wildcard {used total : Nat} {inner ms : List Mark} (hinner : ∀ m ∈ inner, m.isQuiet = true)
      (hbalanced : IsBalanced inner) (hms : Text.NoDigitFirst (Mark.write ms))
      (h : Wildcards (used + 1) ms total) :
      Wildcards used (lookAhead ++ inner ++
        [.closing, .closing, .reference (Text.ofNat (used + 1))] ++ ms) total

/-- There are `n` wildcards among the marks. Their references are one to `n` in order, their groups are
the only ones, and each group ends right in front of its reference. -/
structure Numbered (ms : List Mark) (n : Nat) : Prop where
  references_eq : ms.filterMap Mark.reference? = (List.range' 1 n).map Text.ofNat
  groups_eq : ms.countP (· == .opening .capturing) = n
  captures : ∀ k, 0 < k → k ≤ n → ∃ before inner behind,
    ms = before ++ lookAhead ++ inner ++ [.closing, .closing, .reference (Text.ofNat k)] ++ behind ∧
      before.countP (· == .opening .capturing) = k - 1 ∧
      inner.countP (· == .opening .capturing) = 0 ∧ IsBalanced inner ∧
      Text.NoDigitFirst (Mark.write behind)

namespace Wildcards

variable {used total : Nat} {ms : List Mark}

/-- Marks that neither capture nor refer can stand in front of wildcards. -/
theorem skipAll {ms' : List Mark} (hms' : ∀ m ∈ ms', m.isQuiet = true) (h : Wildcards used ms total) :
    Wildcards used (ms' ++ ms) total := by
  induction ms' with
  | nil => exact h
  | cons m ms' ih => exact .skip (hms' m (by simp)) (ih fun m hm => hms' m (by simp [hm]))

/-- Numbering goes on from one sequence of marks to the next. -/
theorem append {n : Nat} {ms' : List Mark} (h : Wildcards used ms total) (h' : Wildcards total ms' n)
    (hms' : Text.NoDigitFirst (Mark.write ms')) : Wildcards used (ms ++ ms') n := by
  induction h with
  | nil used => exact h'
  | skip hm _ ih => exact .skip hm (ih h')
  | @wildcard used total inner ms hinner hbalanced hms _ ih =>
    rw [List.append_assoc _ ms]
    refine .wildcard hinner hbalanced ?_ (ih h')
    -- What follows the reference begins as before, or with the next sequence.
    rw [Mark.write, List.flatMap_append]
    cases hwrite : Mark.write ms with
    | nil =>
      rw [Mark.write] at hwrite
      rw [hwrite]
      exact hms'
    | cons c t =>
      rw [hwrite] at hms
      rw [Mark.write] at hwrite
      rw [hwrite]
      exact hms

/-- The numbers of wildcards go on from those in use. -/
theorem le (h : Wildcards used ms total) : used ≤ total := by
  induction h with
  | nil used => exact Nat.le_refl used
  | skip _ _ ih => exact ih
  | wildcard _ _ _ _ ih => exact Nat.le_of_succ_le ih

/-- A quiet mark refers to no group. -/
theorem reference?_of_isQuiet {m : Mark} (hm : m.isQuiet = true) : m.reference? = none := by
  cases m with
  | reference digits => simp [Mark.isQuiet] at hm
  | _ => rfl

/-- Quiet marks capture nothing. -/
theorem countP_of_isQuiet {inner : List Mark} (hinner : ∀ m ∈ inner, m.isQuiet = true) :
    inner.countP (· == .opening .capturing) = 0 := by
  rw [List.countP_eq_zero]
  intro m hm hcapturing
  have hquiet := hinner m hm
  rw [beq_iff_eq.mp hcapturing] at hquiet
  exact absurd hquiet (by decide)

/-- The references of wildcards are their numbers one behind the other. -/
theorem references (h : Wildcards used ms total) :
    ms.filterMap Mark.reference? = (List.range' (used + 1) (total - used)).map Text.ofNat := by
  induction h with
  | nil used => simp
  | skip hm _ ih => rw [List.filterMap_cons_none (reference?_of_isQuiet hm), ih]
  | @wildcard used total inner ms hinner _ _ h ih =>
    have hnone : inner.filterMap Mark.reference? = [] :=
      List.filterMap_eq_nil_iff.mpr fun m hm => reference?_of_isQuiet (hinner m hm)
    have hsucc : total - used = (total - (used + 1)) + 1 := by
      have := h.le
      omega
    rw [List.filterMap_append, List.filterMap_append, List.filterMap_append, hnone, ih, hsucc,
      List.range'_succ]
    rfl

/-- Each wildcard has one group. -/
theorem groups (h : Wildcards used ms total) :
    ms.countP (· == .opening .capturing) = total - used := by
  induction h with
  | nil used => simp
  | skip hm _ ih =>
    have hone := countP_of_isQuiet (List.forall_mem_singleton.mpr hm)
    rw [← List.singleton_append, List.countP_append, hone, ih, Nat.zero_add]
  | @wildcard used total inner ms hinner _ _ h ih =>
    have hopening : lookAhead.countP (· == .opening .capturing) = 1 := by decide
    have hclosing : [.closing, .closing, .reference (Text.ofNat (used + 1))].countP
        (· == Mark.opening .capturing) = 0 := by rfl
    have hle := h.le
    rw [List.countP_append, List.countP_append, List.countP_append, hopening, hclosing,
      countP_of_isQuiet hinner, ih]
    omega

/-- The wildcard with a number stands behind as many groups as there are numbers before it. -/
theorem capture (h : Wildcards used ms total) {k : Nat} (hlow : used < k) (hhigh : k ≤ total) :
    ∃ before inner behind,
      ms = before ++ lookAhead ++ inner ++ [.closing, .closing, .reference (Text.ofNat k)] ++ behind ∧
        before.countP (· == .opening .capturing) = k - used - 1 ∧
        inner.countP (· == .opening .capturing) = 0 ∧ IsBalanced inner ∧
        Text.NoDigitFirst (Mark.write behind) := by
  induction h with
  | nil used => omega
  | @skip used total m ms hm _ ih =>
    obtain ⟨before, inner, behind, rfl, hbefore, hrest⟩ := ih hlow hhigh
    have hone := countP_of_isQuiet (List.forall_mem_singleton.mpr hm)
    refine ⟨[m] ++ before, inner, behind, by simp, ?_, hrest⟩
    rw [List.countP_append, hone, hbefore, Nat.zero_add]
  | @wildcard used total inner ms hinner hbalanced hms h ih =>
    -- Either it is the wildcard that stands here, or that one puts a group more in front of it.
    by_cases hk : k = used + 1
    · subst hk
      exact ⟨[], inner, ms, by simp, by simp, countP_of_isQuiet hinner, hbalanced, hms⟩
    · obtain ⟨before, inner', behind, rfl, hbefore, hrest⟩ := ih (by omega) hhigh
      refine ⟨lookAhead ++ inner ++ [.closing, .closing, .reference (Text.ofNat (used + 1))] ++ before,
        inner', behind, by simp, ?_, hrest⟩
      have hopening : lookAhead.countP (· == .opening .capturing) = 1 := by decide
      have hclosing : [.closing, .closing, .reference (Text.ofNat (used + 1))].countP
          (· == Mark.opening .capturing) = 0 := by rfl
      rw [List.countP_append, List.countP_append, List.countP_append, hopening, hclosing,
        countP_of_isQuiet hinner, hbefore]
      omega

/-- Wildcards that start from nothing are numbered from one on. -/
theorem numbered (h : Wildcards 0 ms total) : Numbered ms total where
  references_eq := h.references
  groups_eq := h.groups
  captures _ hpos hle := h.capture hpos hle

end Wildcards

end Alternation

namespace Glob

open Alternation

/-! ## Fragments -/

/-- The marks of a span are quiet. -/
theorem isQuiet_of_mem_spanMarks {ss : List Sign} {m : Mark} (hm : m ∈ spanMarks ss) :
    m.isQuiet = true := by
  obtain ⟨s, -, hm⟩ := List.mem_flatMap.mp hm
  cases s with
  | literal c =>
    by_cases h : isEscaped c
    · simp only [Sign.marks, h, if_true, List.mem_singleton] at hm
      rw [hm]
      rfl
    · simp only [Sign.marks, h, Bool.false_eq_true, if_false, List.mem_singleton] at hm
      rw [hm]
      rfl
  | separator =>
    have hall : ∀ m ∈ Sign.marks .separator, m.isQuiet = true := by decide
    exact hall m hm
  | textStart => exact List.mem_singleton.mp hm ▸ rfl
  | textEnd => exact List.mem_singleton.mp hm ▸ rfl

/-- No digit follows on the references of wildcards. -/
theorem noDigitFirst_write_starsMarks (used : Nat) (rest : List (List Sign)) :
    Text.NoDigitFirst (Mark.write (starsMarks used rest)) := by
  cases rest with
  | nil => exact .nil
  | cons ss rest => exact .cons rfl

/-- The spans behind asterisks have one wildcard each. -/
theorem wildcards_starsMarks (used : Nat) (rest : List (List Sign)) :
    Wildcards used (starsMarks used rest) (used + rest.length) := by
  induction rest generalizing used with
  | nil => exact .nil used
  | cons ss rest ih =>
    let run : List Mark :=
      [.plain '[', .plain '\\', .plain 's', .plain '\\', .plain 'S', .plain ']', .plain '*', .plain '?']
    have hmarks : starsMarks used (ss :: rest) = lookAhead ++ (run ++ spanMarks ss) ++
        [.closing, .closing, .reference (Text.ofNat (used + 1))] ++ starsMarks (used + 1) rest := by
      simp [starsMarks, starMarks, starOpeningMarks, lookAhead, run]
    have hrest := ih (used + 1)
    rw [Nat.add_assoc, Nat.add_comm 1] at hrest
    rw [hmarks]
    refine .wildcard (fun m hm => ?_) (fun depth => ?_) (noDigitFirst_write_starsMarks _ rest) hrest
    · rcases List.mem_append.mp hm with hm | hm
      · have hall : ∀ m ∈ run, m.isQuiet = true := by decide
        exact hall m hm
      · exact isQuiet_of_mem_spanMarks hm
    · have hrun : through depth run = some depth := rfl
      rw [through_append hrun]
      exact through_spanMarks depth ss

/-- An outline has one wildcard for each span behind its first. -/
theorem Outline.wildcards (o : Outline) (used : Nat) :
    Wildcards used (o.marks used) (used + o.rest.length) := by
  unfold Outline.marks
  have hanchor : ∀ m ∈ if o.anchored then [Mark.plain '^'] else [], m.isQuiet = true := by
    cases o.anchored <;> decide
  exact ((wildcards_starsMarks used o.rest).skipAll fun _ => isQuiet_of_mem_spanMarks).skipAll hanchor

/-- Fragments joined by bars number their wildcards one after the other. -/
theorem wildcards_join (used : Nat) (os : List Outline) :
    Wildcards used (Mark.ofText false (Text.join ['|'] (texts used os) ++ [')'])) (used + starTotal os) := by
  have hclosing : Mark.ofText false [')'] = [.closing] := rfl
  have hlast (n : Nat) : Wildcards n [.closing] n := .skip rfl (.nil n)
  -- By induction on the fragments: no digit follows a fragment, so that the marks of a text are those of its
  -- parts.
  induction os generalizing used with
  | nil => exact hlast used
  | cons o os ih =>
    have hfirst := o.wildcards used
    cases os with
    | nil =>
      have hend : Text.NoDigitFirst [')'] := .cons rfl
      simp only [texts, Text.join]
      rw [o.marks_append used hend, hclosing]
      simpa [starTotal] using hfirst.append (hlast _) (.cons rfl)
    | cons o' os =>
      have hbar (u : Text) : Mark.ofText false ('|' :: u) = .bar :: Mark.ofText false u := by
        rw [Mark.ofText] <;> simp
      have hjoin : Text.join ['|'] (texts used (o :: o' :: os)) ++ [')'] = o.text used ++
          '|' :: (Text.join ['|'] (texts (used + o.rest.length) (o' :: os)) ++ [')']) := by
        simp [texts, Text.join]
      have htotal : used + starTotal (o :: o' :: os) = used + o.rest.length + starTotal (o' :: os) := by
        simp [starTotal, Nat.add_assoc]
      rw [hjoin, o.marks_append used (.cons rfl), hbar, htotal]
      exact hfirst.append (.skip rfl (ih _)) (.cons rfl)

/-- The wildcards of joined fragments are numbered from one on. -/
theorem numbered_texts (os : List Outline) : Numbered (marks (join (texts 0 os))) (starTotal os) := by
  have hmarks (u : Text) : marks (opening ++ u) =
      [.opening .other, .plain '?', .plain 'i', .closing, .opening .other, .plain '?', .plain ':'] ++
        Mark.ofText false u := by
    rw [show opening = ['(', '?', 'i', ')', '(', '?', ':'] by decide]
    rfl
  have hjoined := wildcards_join 0 os
  rw [Nat.zero_add] at hjoined
  rw [join, List.append_assoc, hmarks]
  exact (hjoined.skipAll (by decide)).numbered

end Glob

namespace Build

open Alternation

/-! ## Buckets -/

section

variable {c : Category} (hraw : c ≠ .rawPattern)

include hraw

/-- The wildcards of joined globs are numbered from one on. -/
theorem numbered_join (patterns : List Text) :
    Numbered (marks (join (Glob.ofRules c 0 patterns))) (Glob.totalWildcards c patterns) := by
  rw [ofRules_eq_texts hraw, totalWildcards_eq hraw]
  exact Glob.numbered_texts _

/-- The text of an alternation of globs, also where it is empty, has their wildcards. -/
theorem numbered_alternationOf {patterns : List Text} {a : Alternation}
    (h : alternationOf c patterns = .ok a) :
    Numbered (marks a.text) (Glob.totalWildcards c a.rules) := by
  cases patterns with
  | nil =>
    have hempty : Alternation.empty = a := Except.ok.inj h
    subst hempty
    have hquiet : Wildcards 0 (marks Alternation.empty.text) 0 := .skip rfl (.skip rfl (.nil 0))
    exact hquiet.numbered
  | cons q qs =>
    have hne : Glob.ofRules c 0 (q :: qs) ≠ [] := List.cons_ne_nil _ _
    obtain ⟨m, -, rfl⟩ := (ofFragments_eq_ok_iff hne).mp h
    exact numbered_join hraw (q :: qs)

end

/-- Counting the asterisks of a rule tells how many numbers its fragment takes. -/
theorem stars_eq (c : Category) (pattern : Text) : Glob.stars c pattern = Glob.wildcards c pattern := by
  have hspans (ss : List Text) : ss.countP (!·.isEmpty) = (Glob.laterSpans ss).length := by
    induction ss with
    | nil => rfl
    | cons s ss ih =>
      rw [Glob.laterSpans]
      by_cases hs : s.isEmpty
      · simp [hs, ih]
      · simp [hs, ih]
  cases c with
  | rawPattern => rfl
  | _ => exact hspans _

/-- Counting asterisks rule by rule and span by span comes to the same. -/
theorem totalWildcards_eq_of_rules (c : Category) (rules : List Placed) :
    Limits.totalWildcards c rules = Glob.totalWildcards c (rules.map (·.pattern)) := by
  rw [Limits.totalWildcards, Glob.totalWildcards, List.map_map]
  exact congrArg List.sum (List.map_congr_left fun r _ => stars_eq c r.pattern)

/-- The rules that a bucket of patterns keeps have no more wildcards than the budget allows. -/
theorem totalWildcards_keptOf_le {p : Policy} {n : Nat} (hmax : p.maxWildcards = some n)
    (ranking : Ranking) {b : Bucket} (hpattern : b.category.isExact = false)
    (pinned rules : List Placed) :
    Glob.totalWildcards b.category (keptOf p ranking b pinned rules) ≤ n := by
  have hbudget := Limits.totalWildcards_applyBudget_le b.category n p.wildcardPreferences
    (prioritized ranking b pinned rules)
  -- What the caps cut off behind the budget only lowers the sum.
  have hkept := (Limits.truncate_sublist (p.maxRules b.category.isExact)
    (budgeted p b (prioritized ranking b pinned rules)).1).map (Limits.wildcards b.category)
  rw [keptOf, ← totalWildcards_eq_of_rules]
  refine Nat.le_trans (hkept.sum_le_sum fun _ _ => Nat.zero_le _) ?_
  rw [budgeted, hpattern, hmax]
  exact hbudget

/-- The wildcards of joined rules are numbered from one on without a gap, each number once, and a wildcard
refers to its own group. There are as many as the rules have by counting their asterisks; a bucket reports
that many, and not more than its budget. -/
theorem wildcards_numbered {c : Category} (hraw : c ≠ .rawPattern) :
    (∀ rules : List Placed,
      Numbered (marks (join (Glob.ofRules c 0 (rules.map (·.pattern)))))
          (Glob.totalWildcards c (rules.map (·.pattern))) ∧
        Glob.totalWildcards c (rules.map (·.pattern)) = Limits.totalWildcards c rules ∧
        ∀ r ∈ rules, Glob.wildcards c r.pattern = Limits.wildcards c r) ∧
      ∀ (p : Policy) (ranking : Ranking) (q : Polarity) (pinned rules : List Placed) (a : Alternation)
        (report : BucketReport),
        compileBucket p ranking ⟨c, q⟩ pinned rules = .ok (.pattern a, report) →
          Numbered (marks a.text) report.wildcards ∧
            report.wildcards = (a.rules.map (Glob.stars c)).sum ∧
            ∀ n, p.maxWildcards = some n → report.wildcards ≤ n := by
  constructor
  · intro rules
    exact ⟨numbered_join hraw _, (totalWildcards_eq_of_rules c rules).symm,
      fun r _ => (stars_eq c r.pattern).symm⟩
  · intro p ranking q pinned rules a report h
    -- A bucket that reports an alternation joined it from the rules that it lists.
    have hpattern : c.isExact = false := (isExact_of_compileBucket h).symm
    obtain ⟨hleft, -, -, hbucket⟩ := left_of_compileBucket h
    obtain ⟨a', ha', halternation, hwildcards⟩ := hbucket hpattern
    cases ha'
    have hstars : (a.rules.map (Glob.stars c)).sum = Glob.totalWildcards c a.rules :=
      congrArg List.sum (List.map_congr_left fun q _ => stars_eq c q)
    refine ⟨hwildcards ▸ numbered_alternationOf hraw halternation, hstars ▸ hwildcards, fun n hmax => ?_⟩
    calc report.wildcards = Glob.totalWildcards c a.rules := hwildcards
      _ ≤ Glob.totalWildcards c (keptOf p ranking ⟨c, q⟩ pinned rules) :=
        (hleft.map (Glob.wildcards c)).sum_le_sum fun _ _ => Nat.zero_le _
      _ ≤ n := totalWildcards_keptOf_le (b := ⟨c, q⟩) hmax ranking hpattern pinned rules

/-- A rule with two wildcards, and one with a parenthesis, a separator, a backslash in front of a digit, and
asterisks that stand at its ends or side by side. -/
def starred : List Placed :=
  [⟨⟨.urlFragment, .bad⟩, "a*(b^*\\1".toList, [], 0, false⟩,
    ⟨⟨.urlFragment, .bad⟩, "*c**2|*".toList, [], 1, false⟩]

/-- The four wildcards of two rules are numbered through, and those of the first rule take up a budget of
two. -/
theorem wildcards_numbered_sample :
    Category.urlFragment ≠ .rawPattern ∧
      Numbered (marks (join (Glob.ofRules .urlFragment 0 (starred.map (·.pattern))))) 4 ∧
      ∃ a report, compileBucket { Policy.permissive with maxWildcards := some 2 } .inOrder
          ⟨.urlFragment, .bad⟩ [] (starred.take 1) = .ok (.pattern a, report) ∧
        Numbered (marks a.text) report.wildcards ∧ report.wildcards = 2 := by
  have hraw : Category.urlFragment ≠ .rawPattern := by decide
  obtain ⟨hjoin, hbucket⟩ := wildcards_numbered hraw
  obtain ⟨hnumbered, htotal, -⟩ := hjoin starred
  have hfour : Limits.totalWildcards .urlFragment starred = 4 := by decide +kernel
  rw [htotal, hfour] at hnumbered
  refine ⟨hraw, hnumbered, ?_⟩
  have hcounts : (compileBucket { Policy.permissive with maxWildcards := some 2 } .inOrder
      ⟨.urlFragment, .bad⟩ [] (starred.take 1)).toOption.map (·.2.wildcards) = some 2 := by
    decide +kernel
  obtain ⟨⟨rs, report⟩, hcompiled, hwildcards⟩ := exists_of_toOption_map hcounts
  obtain ⟨a, rfl, -⟩ := (left_of_compileBucket hcompiled).2.2.2 rfl
  exact ⟨a, report, hcompiled, (hbucket _ _ _ _ _ _ _ hcompiled).1, hwildcards⟩

end Build

end UrlFilter
