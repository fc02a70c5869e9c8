import UrlFilter.Proofs.Backtrack.Plain
import UrlFilter.Proofs.Glob.Starred

/-!
# Compiling fragments with memory

What fragments joined by bars are compiled to. The groups are all referred to, so that each look ahead
keeps its group, and what is in the group is handed over whole. So is the front of the first span, up to its
first caret. A fragment with asterisks compiles as long as nothing that is handed over is too large.
-/

namespace UrlFilter.Glob

open Backtrack (Expr Pattern)

/-! ## Patterns -/

/-- The pattern of a sign. -/
def Sign.pattern : Sign → Pattern
  | .literal c => .plain (.one (.literal (foldsPlain c) c))
  | .separator => .alt (.plain (.one separatorClass)) (.plain (.look .textEnd))
  | .textStart => .plain (.look .textStart)
  | .textEnd => .plain (.look .textEnd)

/-- The look ahead for a span behind an asterisk. -/
def runPattern (k : Nat) (ss : List Sign) : Pattern :=
  .ahead (.capture k (.first (.plain (runRegex foldsPlain ss))))

/-- The patterns of the spans behind asterisks, numbered behind `used`. -/
def starPatterns (used : Nat) : List (List Sign) → List Pattern
  | [] => []
  | ss :: rest => runPattern (used + 1) ss :: .reference (used + 1) :: starPatterns (used + 1) rest

/-- A sign that matches one number of characters. A caret does not: it matches at the end of the text, too. -/
def Sign.isFixed : Sign → Bool
  | .separator => false
  | _ => true

/-- The signs of a span in front of its first caret. -/
def front (ss : List Sign) : List Sign := ss.takeWhile Sign.isFixed

/-- The signs of a span from its first caret on. -/
def back (ss : List Sign) : List Sign := ss.dropWhile Sign.isFixed

/-- The pattern of a fragment. -/
def Outline.pattern (o : Outline) (used : Nat) : Pattern :=
  .seq (.plain (spanRegex foldsPlain (front o.head)))
    (Pattern.seqAll ((back o.head).map Sign.pattern ++ starPatterns used o.rest))

/-- The patterns of fragments one after the other. -/
def patternsFrom (used : Nat) : List Outline → List Pattern
  | [] => []
  | o :: os => o.pattern used :: patternsFrom (used + o.rest.length) os

/-- A span and the run in front of it are not too large to be handed over. -/
def SpanFits (ss : List Sign) : Prop := 32 + anyClass.size + spanSize ss ≤ Regex.usualLimit

/-- Whether a run and a span fit is decided by their size. -/
instance (ss : List Sign) : Decidable (SpanFits ss) := inferInstanceAs (Decidable (_ ≤ _))

/-- A sign that is compared as it stands. -/
def Sign.isText : Sign → Bool
  | .literal c => isEscaped c
  | _ => false

/-- The front of a span can be handed over: it is a text, or not too large. -/
def FrontFits (ss : List Sign) : Prop := ss.all Sign.isText = true ∨ spanSize ss ≤ Regex.usualLimit

/-- Whether the front of a span fits is decided by its size, unless it is a text. -/
instance (ss : List Sign) : Decidable (FrontFits ss) := inferInstanceAs (Decidable (_ ∨ _))

/-- Nothing that is handed over of an outline with asterisks is too large. -/
def Outline.PartsFit (o : Outline) : Prop :=
  o.rest ≠ [] → FrontFits (front o.head) ∧ ∀ ss ∈ o.rest, SpanFits ss

/-- Whether the parts of an outline fit is decided span by span. -/
instance (o : Outline) : Decidable o.PartsFit :=
  decidable_of_iff (o.rest.isEmpty = true ∨ FrontFits (front o.head) ∧ ∀ ss ∈ o.rest, SpanFits ss)
    (by rw [Outline.PartsFit, List.isEmpty_iff, ne_eq, ← or_iff_not_imp_left])

/-- The parts of an outline with asterisks fit when its front and each run do. -/
theorem Outline.partsFit_iff {o : Outline} (hstar : o.rest ≠ []) :
    o.PartsFit ↔ FrontFits (front o.head) ∧ ∀ ss ∈ o.rest, SpanFits ss :=
  forall_prop_of_true hstar

/-! ## Compiling -/

/-- The class of a separator is the one of its pattern. -/
theorem toRegex?_separatorSet : separatorSet.toRegex? = some (.one separatorClass) := by
  rw [separatorSet, Expr.toRegex?]
  rfl

/-- Any characters are a repetition of the class of all, as few as possible. -/
theorem toRegex?_anyExpr : anyExpr.toRegex? = some (.turns (.one anyClass) 0 none false) := by
  have hset : anySet.toRegex? = some (.one anyClass) := by
    rw [anySet, Expr.toRegex?]
    rfl
  rw [anyExpr, Expr.toRegex?, hset]
  rfl

/-- The expression of a sign is its pattern. -/
theorem Sign.toRegex?_expr (s : Sign) : s.expr.toRegex? = some (s.regex foldsPlain) := by
  cases s with
  | literal c => rw [expr, Expr.toRegex?]; rfl
  | separator =>
    rw [expr, separatorExpr, Expr.toRegex?]
    simp only [Expr.toRegexes?, toRegex?_separatorSet, Expr.toRegex?]
    rfl
  | textStart => rw [expr, Expr.toRegex?]; rfl
  | textEnd => rw [expr, Expr.toRegex?]; rfl

/-- The expressions of a span are the patterns of its signs. -/
theorem toRegexes?_span (ss : List Sign) :
    Expr.toRegexes? (ss.map Sign.expr) = some (ss.map (Sign.regex foldsPlain)) := by
  induction ss with
  | nil => rfl
  | cons s ss ih => simp [Expr.toRegexes?, s.toRegex?_expr, ih]

/-- The sequence of a span is its pattern. -/
theorem toRegex?_span (ss : List Sign) :
    (Expr.concat (ss.map Sign.expr)).toRegex? = some (spanRegex foldsPlain ss) := by
  rw [Expr.toRegex?, toRegexes?_span]
  rfl

/-- The expression of a run is its pattern. -/
theorem toRegex?_runExpr (ss : List Sign) : (runExpr ss).toRegex? = some (runRegex foldsPlain ss) := by
  rw [runExpr, Expr.toRegex?, Expr.toRegexes?, toRegex?_anyExpr, Option.bind_some, toRegexes?_span]
  rfl

/-- A sign is handed over as it is. -/
theorem Sign.handOver?_expr (s : Sign) : s.expr.handOver? = some (.plain (s.regex foldsPlain)) := by
  refine Expr.handOver?_of_size_le s.toRegex?_expr ?_
  rw [s.size_regex ignoresCase_foldsPlain]
  cases s with
  | literal c =>
    simp only [Sign.size, Regex.CharClass.size, Regex.usualLimit]
    split <;> [split; skip] <;> omega
  | separator => decide
  | textStart => decide
  | textEnd => decide

/-- A sign that may be asked for another way keeps its branches apart. -/
theorem Sign.compile_expr (refs : List Nat) (s : Sign) : s.expr.compile refs true = some s.pattern := by
  have h := s.handOver?_expr
  rw [Expr.compile_true]
  cases s with
  | literal c => exact h
  | separator =>
    have hset : separatorSet.compile refs true = some (.plain (.one separatorClass)) := by
      rw [Expr.compile_true]
      exact Expr.handOver?_of_size_le toRegex?_separatorSet (by decide)
    have hend : (Expr.look .textEnd).compile refs true = some (.plain (.look .textEnd)) := by
      rw [Expr.compile_true]
      exact Sign.textEnd.handOver?_expr
    rw [expr, separatorExpr, Expr.compileParts]
    simp only [Expr.compileBranches, hset, hend]
    rfl
  | textStart => exact h
  | textEnd => exact h

/-! ## What asks for memory -/

/-- A sign needs no memory. -/
theorem Sign.hard_expr (refs : List Nat) (s : Sign) : (s.expr.info refs).hard = false := by
  cases s with
  | literal c => rw [expr, Expr.info]
  | separator =>
    have hset : (separatorSet.info refs).hard = false := by rw [separatorSet, Expr.info]
    have hend : ((Expr.look .textEnd).info refs).hard = false := by rw [Expr.info]; rfl
    rw [expr, separatorExpr, Expr.hard_alt]
    simp [hset, hend]
  | textStart => rw [expr, Expr.info]; rfl
  | textEnd => rw [expr, Expr.info]; rfl

/-- A run and a span need no memory. -/
theorem hard_runExpr (refs : List Nat) (ss : List Sign) : ((runExpr ss).info refs).hard = false := by
  have hany : (anyExpr.info refs).hard = false := by
    rw [anyExpr, Expr.info, anySet, Expr.info]
  rw [runExpr, Expr.hard_concat, List.any_cons, hany, List.any_map, Bool.false_or, List.any_eq_false]
  intro s _
  simp [s.hard_expr refs]

/-- A sign is whole unless it may be asked for another way. -/
theorem Sign.isWhole_expr (refs : List Nat) (s : Sign) : s.expr.isWhole refs true = s.isFixed := by
  rw [Expr.isWhole, s.hard_expr]
  cases s with
  | literal c => rw [expr, Expr.info]; rfl
  | separator =>
    have hset : separatorSet.info refs = ⟨1, true, false⟩ := by rw [separatorSet, Expr.info]
    have hend : (Expr.look .textEnd).info refs = ⟨0, true, false⟩ := by rw [Expr.info]; rfl
    rw [expr, separatorExpr, Expr.info, Expr.infos, Expr.infos, Expr.infos, hset, hend]
    rfl
  | textStart => rw [expr, Expr.info]; rfl
  | textEnd => rw [expr, Expr.info]; rfl

/-- A sign is a text when its expression is. -/
theorem Sign.isText_expr (s : Sign) : s.expr.isText = s.isText := by
  cases s with
  | literal c => rw [expr, Expr.isText, foldsPlain, Bool.not_not]; rfl
  | separator => simp [expr, separatorExpr, Expr.isText, isText]
  | textStart => simp [expr, Expr.isText, isText]
  | textEnd => simp [expr, Expr.isText, isText]

/-- A span is a text when all its signs are. -/
theorem isText_span (ss : List Sign) : (Expr.concat (ss.map Sign.expr)).isText = ss.all Sign.isText := by
  rw [Expr.isText]
  induction ss with
  | nil => rfl
  | cons s ss ih => rw [List.map_cons, Expr.areTexts, ih, s.isText_expr, List.all_cons]

/-- A run of any characters is no text. -/
theorem isText_runExpr (ss : List Sign) : (runExpr ss).isText = false := by
  simp [runExpr, anyExpr, Expr.isText, Expr.areTexts]

/-- No expression of a wildcard is empty. -/
theorem isEmpty_of_mem_starExprs {used : Nat} {rest : List (List Sign)} :
    ∀ e ∈ starExprs used rest, e.isEmpty = false := by
  induction rest generalizing used with
  | nil => simp [starExprs]
  | cons ss rest ih =>
    simp only [starExprs, List.forall_mem_cons]
    exact ⟨rfl, rfl, ih⟩

/-- The parts of a fragment with asterisks make a sequence. -/
theorem branchOf_exprs {o : Outline} (hstar : o.rest ≠ []) (used : Nat) :
    Backtrack.branchOf (o.exprs used) = .concat (o.exprs used) := by
  have hnonempty : ∀ e ∈ o.exprs used, e.isEmpty = false := by
    intro e he
    rcases List.mem_append.mp he with he | he
    · obtain ⟨s, -, rfl⟩ := List.mem_map.mp he
      exact s.isEmpty_expr
    · exact isEmpty_of_mem_starExprs e he
  rw [branchOf_of_nonempty hnonempty]
  -- There are two parts at least: the look ahead and the reference.
  obtain ⟨ss, rest, hrest⟩ := List.exists_cons_of_ne_nil hstar
  unfold Outline.exprs
  rw [hrest, starExprs]
  cases o.head with
  | nil => rfl
  | cons s head => cases head <;> rfl

/-- A branch with wildcards needs memory. -/
theorem hard_branch {o : Outline} (hstar : o.rest ≠ []) (refs : List Nat) (used : Nat) :
    ((Backtrack.branchOf (o.exprs used)).info refs).hard = true := by
  have hahead (ss : List Sign) : ((Expr.around .ahead (.group (used + 1) (runExpr ss))).info refs).hard = true := by
    rw [Expr.info]
  obtain ⟨ss, rest, hrest⟩ := List.exists_cons_of_ne_nil hstar
  rw [branchOf_exprs hstar, Expr.hard_concat, Outline.exprs, hrest, starExprs]
  simp [hahead]

/-! ## Compiling fragments -/

/-- A list whose first element and whose others are given under conditions. -/
theorem bind_cons_ite {α : Type} {p q : Prop} [Decidable p] [Decidable q] (a : α) (as : List α) :
    ((if p then some a else none).bind fun b => (if q then some as else none).map (b :: ·)) =
      if p ∧ q then some (a :: as) else none := by
  by_cases hp : p <;> by_cases hq : q <;> simp [hp, hq]

/-- Nothing asks for another way in a look ahead, so the run in it is handed over whole. -/
theorem compile_run (refs : List Nat) (ss : List Sign) : (runExpr ss).compile refs false =
    if SpanFits ss then some (.first (.plain (runRegex foldsPlain ss))) else none := by
  have hfits : ((runExpr ss).isText = true ∨ (runRegex foldsPlain ss).size ≤ Regex.usualLimit) ↔ SpanFits ss := by
    rw [isText_runExpr, size_runRegex ignoresCase_foldsPlain, SpanFits]
    simp
  rw [Expr.compile_eq, hard_runExpr, if_pos (by decide), Expr.handOver?_eq (toRegex?_runExpr ss)]
  simp only [hfits, apply_ite (Option.map Pattern.first), Option.map_some, Option.map_none]

/-- A run in its group is compiled where it fits. -/
theorem compile_runExpr {refs : List Nat} {k : Nat} (hk : k ∈ refs) (ss : List Sign) :
    (Expr.around .ahead (.group k (runExpr ss))).compile refs true =
      if SpanFits ss then some (runPattern k ss) else none := by
  have hcontains : refs.contains k = true := by simpa using hk
  have hgroup : ((Expr.group k (runExpr ss)).info refs).hard = true := by
    rw [Expr.info]
    simp [hk]
  have hcapture : (Expr.group k (runExpr ss)).compile refs false =
      if SpanFits ss then some (.capture k (.first (.plain (runRegex foldsPlain ss)))) else none := by
    rw [Expr.compile_eq, hgroup, if_neg (by decide), Expr.compileParts, compile_run]
    simp only [hcontains, if_true, apply_ite (Option.map (Pattern.capture k)), Option.map_some, Option.map_none]
  rw [Expr.compile_true, Expr.compileParts, hcapture]
  simp only [apply_ite (Option.map Pattern.ahead), Option.map_some, Option.map_none]
  rfl

/-- The wildcards of a branch are compiled where all their runs fit. -/
theorem compileBranches_stars {refs : List Nat} (used : Nat) (rest : List (List Sign))
    (hrefs : ∀ k, used < k → k ≤ used + rest.length → k ∈ refs) :
    Expr.compileBranches refs true (starExprs used rest) =
      if ∀ ss ∈ rest, SpanFits ss then some (starPatterns used rest) else none := by
  induction rest generalizing used with
  | nil => rfl
  | cons ss rest ih =>
    -- The group of a run is complete when the reference to it is read.
    have hk : used + 1 ∈ refs := hrefs (used + 1) (by omega) (by simp)
    have href : (Expr.reference (used + 1)).compile refs true = some (.reference (used + 1)) :=
      Expr.compile_true _ _
    have hrest := ih (used + 1) fun k h1 h2 => hrefs k (by omega) (by simp; omega)
    have hbehind : Expr.compileBranches refs true (.reference (used + 1) :: starExprs (used + 1) rest) =
        if ∀ ss ∈ rest, SpanFits ss then some (.reference (used + 1) :: starPatterns (used + 1) rest) else none := by
      rw [Expr.compileBranches, href, hrest]
      exact apply_ite (Option.map _) _ _ _
    rw [starExprs, Expr.compileBranches, compile_runExpr hk, hbehind, bind_cons_ite]
    simp only [List.forall_mem_cons]
    rfl

/-- The first part that is not handed over in front is the first caret, or the first look ahead. -/
theorem takeWhile_exprs (refs : List Nat) (o : Outline) (used : Nat) :
    (o.exprs used).takeWhile (Expr.isWhole refs true) = (front o.head).map Sign.expr ∧
      (o.exprs used).dropWhile (Expr.isWhole refs true) =
        (back o.head).map Sign.expr ++ starExprs used o.rest := by
  have hstars : (starExprs used o.rest).takeWhile (Expr.isWhole refs true) = [] ∧
      (starExprs used o.rest).dropWhile (Expr.isWhole refs true) = starExprs used o.rest := by
    cases o.rest with
    | nil => exact ⟨rfl, rfl⟩
    | cons ss rest =>
      have hahead : ¬Expr.isWhole refs true (.around .ahead (.group (used + 1) (runExpr ss))) = true := by
        simp [Expr.isWhole, Expr.info]
      exact ⟨List.takeWhile_cons_of_neg hahead, List.dropWhile_cons_of_neg hahead⟩
  unfold Outline.exprs front back
  induction o.head with
  | nil => exact hstars
  | cons s ss ih =>
    rw [List.map_cons, List.cons_append, List.takeWhile_cons, List.dropWhile_cons, s.isWhole_expr,
      List.takeWhile_cons, List.dropWhile_cons]
    cases s.isFixed with
    | true => exact ⟨congrArg _ ih.1, ih.2⟩
    | false => exact ⟨rfl, rfl⟩

/-- Behind its front a fragment with asterisks is compiled sign by sign, for it ends with a reference. -/
theorem compileSeq_back {refs : List Nat} {o : Outline} (hstar : o.rest ≠ []) (used : Nat)
    (hrefs : ∀ k, used < k → k ≤ used + o.rest.length → k ∈ refs) :
    Expr.compileSeq refs true false ((back o.head).map Sign.expr ++ starExprs used o.rest) =
      if ∀ ss ∈ o.rest, SpanFits ss then
        some (Pattern.seqAll ((back o.head).map Sign.pattern ++ starPatterns used o.rest))
      else none := by
  have hsigns (ss : List Sign) (es : List Expr) :
      Expr.compileBranches refs true (ss.map Sign.expr ++ es) =
        (Expr.compileBranches refs true es).map (ss.map Sign.pattern ++ ·) := by
    induction ss with
    | nil => simp
    | cons s ss ih =>
      rw [List.map_cons, List.cons_append, Expr.compileBranches, s.compile_expr, ih]
      cases Expr.compileBranches refs true es <;> rfl
  have hend (rest : List (List Sign)) (hrest : rest ≠ []) (used : Nat) :
      ∃ k, (starExprs used rest).getLast? = some (.reference k) := by
    induction rest generalizing used with
    | nil => exact absurd rfl hrest
    | cons ss rest ih =>
      cases rest with
      | nil => exact ⟨used + 1, rfl⟩
      | cons ss' rest => exact ih (by simp) (used + 1)
  have hlast : ∀ e ∈ ((back o.head).map Sign.expr ++ starExprs used o.rest).getLast?,
      e.isWhole refs true = false := by
    obtain ⟨k, hk⟩ := hend o.rest hstar used
    rw [List.getLast?_append, hk]
    rintro e ⟨⟩
    simp [Expr.isWhole, Expr.info]
  rw [Expr.compileSeq_of_getLast refs hlast, hsigns, compileBranches_stars used o.rest hrefs]
  simp only [apply_ite (Option.map _), Option.map_some, Option.map_none]

/-- A branch with wildcards is compiled where its parts fit. -/
theorem compile_branch {refs : List Nat} {o : Outline} (hstar : o.rest ≠ []) (used : Nat)
    (hrefs : ∀ k, used < k → k ≤ used + o.rest.length → k ∈ refs) :
    (Backtrack.branchOf (o.exprs used)).compile refs true =
      if o.PartsFit then some (o.pattern used) else none := by
  obtain ⟨hfront, hback⟩ := takeWhile_exprs refs o used
  have hover : (Expr.concat ((front o.head).map Sign.expr)).handOver? =
      if FrontFits (front o.head) then some (.plain (spanRegex foldsPlain (front o.head))) else none := by
    rw [Expr.handOver?_eq (toRegex?_span _), isText_span, size_spanRegex ignoresCase_foldsPlain]
    rfl
  rw [branchOf_exprs hstar, Expr.compile_true, Expr.compileParts_concat, hfront, hback, hover,
    compileSeq_back hstar used hrefs]
  by_cases hfits : FrontFits (front o.head) <;> by_cases hspans : ∀ ss ∈ o.rest, SpanFits ss <;>
    simp [Outline.partsFit_iff hstar, hfits, hspans, Outline.pattern]

/-- Branches with wildcards are compiled where the parts of each fit. -/
theorem compileBranches_branches {refs : List Nat} {os : List Outline} (hstar : ∀ o ∈ os, o.rest ≠ [])
    (used : Nat) (hrefs : ∀ k, used < k → k ≤ used + starTotal os → k ∈ refs) :
    Expr.compileBranches refs true (branchExprs used os) =
      if ∀ o ∈ os, o.PartsFit then some (patternsFrom used os) else none := by
  induction os generalizing used with
  | nil => rfl
  | cons o os ih =>
    have htotal : starTotal (o :: os) = o.rest.length + starTotal os := by simp [starTotal]
    rw [htotal] at hrefs
    have ho := compile_branch (hstar o (by simp)) used fun k h1 h2 => hrefs k h1 (by omega)
    have hos := ih (fun o' ho' => hstar o' (by simp [ho'])) (used + o.rest.length)
      fun k h1 h2 => hrefs k (by omega) (by omega)
    rw [branchExprs, Expr.compileBranches, ho, hos, bind_cons_ite]
    simp only [List.forall_mem_cons]
    rfl

/-- Outlines have a branch each. -/
theorem branchExprs_ne_nil (used : Nat) {os : List Outline} (hne : os ≠ []) : branchExprs used os ≠ [] := by
  obtain ⟨o, os, rfl⟩ := List.exists_cons_of_ne_nil hne
  simp [branchExprs]

/-- Fragments that all have asterisks, joined and compiled. -/
theorem memory_compile? {os : List Outline} (hne : os ≠ []) (hstar : ∀ o ∈ os, o.rest ≠ [])
    (hlimit : starTotal os < Backtrack.Token.numberLimit) :
    Backtrack.compile? (Alternation.join (texts 0 os)) =
      if ∀ o ∈ os, o.PartsFit then some (Pattern.altAll (patternsFrom 0 os)) else none := by
  obtain ⟨refs, hparse, hmem⟩ := memory_parse? hne hlimit
  have hbranches := compileBranches_branches hstar 0 fun k h0 hk => hmem k h0 (by omega)
  have hhard : ((Backtrack.choiceOf (branchExprs 0 os)).info refs).hard = true := by
    rw [Backtrack.hard_choiceOf, List.any_eq_true]
    obtain ⟨o, os, rfl⟩ := List.exists_cons_of_ne_nil hne
    exact ⟨_, by simp [branchExprs], hard_branch (hstar o (by simp)) refs 0⟩
  rw [Backtrack.compile?, hparse]
  simp only [Option.bind_some, hhard, if_true, Backtrack.compile_choiceOf refs (branchExprs_ne_nil 0 hne),
    hbranches]
  exact apply_ite (Option.map Pattern.altAll) _ _ _

end UrlFilter.Glob
