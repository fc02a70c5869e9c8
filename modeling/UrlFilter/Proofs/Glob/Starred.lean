import UrlFilter.Proofs.Backtrack.Joined
import UrlFilter.Proofs.Glob.Compiled
import UrlFilter.Proofs.Glob.Numbering

/-!
# Reading fragments with memory

What the reader of patterns with memory makes of fragments joined by bars: a choice of sequences, in which
a span behind an asterisk is a look ahead at a group and a reference to it. The groups are numbered in the
order in which they open, which is how the references count them.
-/

namespace UrlFilter.Glob

open Backtrack (Expr Choice Frame Reading Token choiceOf wholeGroup opening_eq skip_of_ne skip_of_not_comment)

/-! ## Expressions -/

/-- The class of separators, as it is read. -/
def separatorSet : Expr := .set ['[', '^', '\\', 'w', '.', '%', '-', ']'] true

/-- A separator as it is read. -/
def separatorExpr : Expr := .alt [separatorSet, .look .textEnd]

/-- The class of all characters, as it is read. -/
def anySet : Expr := .set ['[', '\\', 's', '\\', 'S', ']'] true

/-- Any number of characters, the fewest first, as it is read. -/
def anyExpr : Expr := .turns anySet 0 none false

/-- The sign as it is read. -/
def Sign.expr : Sign → Expr
  | .literal c => .literal c (foldsPlain c)
  | .separator => separatorExpr
  | .textStart => .look .textStart
  | .textEnd => .look .textEnd

/-- A span behind an asterisk, in its group. -/
def runExpr (ss : List Sign) : Expr := .concat (anyExpr :: ss.map Sign.expr)

/-- The spans behind asterisks, numbered behind `used`. -/
def starExprs (used : Nat) : List (List Sign) → List Expr
  | [] => []
  | ss :: rest =>
    .around .ahead (.group (used + 1) (runExpr ss)) :: .reference (used + 1) :: starExprs (used + 1) rest

/-- The parts of a fragment. -/
def Outline.exprs (o : Outline) (used : Nat) : List Expr := o.head.map Sign.expr ++ starExprs used o.rest

/-- The branches of fragments one after the other. -/
def branchExprs (used : Nat) : List Outline → List Expr
  | [] => []
  | o :: os => Backtrack.branchOf (o.exprs used) :: branchExprs (used + o.rest.length) os

/-- The number of asterisks of outlines. -/
def starTotal (os : List Outline) : Nat := (os.map fun o => o.rest.length).sum

/-- The expression of a sign is not empty. -/
theorem Sign.isEmpty_expr (s : Sign) : s.expr.isEmpty = false := by cases s <;> rfl

/-- Parts as one expression. -/
def sequenceOf : List Expr → Expr
  | [] => .empty
  | [e] => e
  | es => .concat es

/-- The parts of a branch that are not empty are all kept. -/
theorem branchOf_of_nonempty {es : List Expr} (h : ∀ e ∈ es, e.isEmpty = false) :
    Backtrack.branchOf es = sequenceOf es := by
  have hfilter : es.filter (!·.isEmpty) = es :=
    List.filter_eq_self.mpr fun e he => by simp [h e he]
  rw [Backtrack.branchOf, hfilter]
  rfl

/-! ## Reading spans -/

/-- The state that reads fragments: case is ignored, and `used` groups are open or closed. -/
def memoryWith (used : Nat) (refs : List Nat) (frames : List Frame) (choice : Choice)
    (numbered afterAtom : Bool) : Reading :=
  { modes := { ignoreCase := true }
    groups := used
    numbered := numbered
    refs := refs
    frames := frames
    choice := choice
    afterAtom := afterAtom }

/-- A character that is not escaped is read as itself, ignoring case. -/
theorem memory_next_plain {c : Char} (h : isEscaped c = false) (afterAtom : Bool) (size : Nat)
    (u : Text) : Token.next false afterAtom size (c :: u) = some (.literal c true, u) := by
  obtain ⟨hbar, hcaret, hback, hdot, hplus, hstar, hquestion, hopen, hclose, hbracket, hend, hbrace, -,
    hdollar⟩ := isEscaped_eq_false h
  rw [Token.next] <;> simp_all

/-- A character that is escaped is read as itself, minding case, for it has none. -/
theorem memory_next_escaped {c : Char} (h : isEscaped c = true) (afterAtom : Bool) (size : Nat)
    (u : Text) : Token.next false afterAtom size ('\\' :: c :: u) = some (.literal c false, u) := by
  rw [isEscaped, special_eq] at h
  simp only [Bool.or_eq_true, beq_iff_eq, List.contains_iff_mem, List.mem_cons, List.not_mem_nil,
    or_false] at h
  rcases h with (rfl | rfl) | rfl | rfl | rfl | rfl | rfl | rfl | rfl | rfl | rfl | rfl | rfl | rfl <;>
    rfl

section

variable {size used : Nat} {refs : List Nat} {frames : List Frame} {branches : List Expr}
  {numbered afterAtom : Bool} {ss : List Sign}

/-- A separator is read as the choice between its class and the end of the text, in a group of its own. -/
theorem memory_separator_leads (hframes : frames.length + 1 < Reading.maxDepth) (parts : List Expr) (u : Text) :
    (memoryWith used refs frames ⟨branches, parts⟩ numbered afterAtom).Leads size (separator ++ u)
      (memoryWith used refs frames ⟨branches, separatorExpr :: parts⟩ numbered true) u := by
  rw [separator_eq]
  let inner := ⟨.modes { ignoreCase := true }, ⟨branches, parts⟩⟩ :: frames
  have hopen : (memoryWith used refs frames ⟨branches, parts⟩ numbered afterAtom).Leads size
      ('(' :: '?' :: ':' :: '[' :: '^' :: '\\' :: 'w' :: '.' :: '%' :: '-' :: ']' :: '|' :: '$' :: ')' :: u)
      (memoryWith used refs inner {} numbered false)
      ('[' :: '^' :: '\\' :: 'w' :: '.' :: '%' :: '-' :: ']' :: '|' :: '$' :: ')' :: u) := by
    refine .step _ (skip_of_not_comment ?_) (Backtrack.next_openModes _ _ _) ?_ (by simp)
    · rintro r - hr
      simp at hr
    · simp [Reading.feed, Reading.enter, memoryWith, hframes, inner]
  have hset : (memoryWith used refs inner {} numbered false).Leads size
      ('[' :: '^' :: '\\' :: 'w' :: '.' :: '%' :: '-' :: ']' :: '|' :: '$' :: ')' :: u)
      (memoryWith used refs inner ⟨[], [separatorSet]⟩ numbered true) ('|' :: '$' :: ')' :: u) :=
    .step _ (skip_of_ne (by decide) _) rfl rfl (by simp)
  have hbar : (memoryWith used refs inner ⟨[], [separatorSet]⟩ numbered true).Leads size
      ('|' :: '$' :: ')' :: u) (memoryWith used refs inner ⟨[separatorSet], []⟩ numbered false)
      ('$' :: ')' :: u) :=
    .step _ (skip_of_ne (by decide) _) rfl rfl (by simp)
  have hend : (memoryWith used refs inner ⟨[separatorSet], []⟩ numbered false).Leads size
      ('$' :: ')' :: u) (memoryWith used refs inner ⟨[separatorSet], [.look .textEnd]⟩ numbered true)
      (')' :: u) :=
    .step _ (skip_of_ne (by decide) _) rfl rfl (by simp)
  have hclose : (memoryWith used refs inner ⟨[separatorSet], [.look .textEnd]⟩ numbered true).Leads size
      (')' :: u) (memoryWith used refs frames ⟨branches, separatorExpr :: parts⟩ numbered true) u :=
    .step _ (skip_of_ne (by decide) _) rfl rfl (by simp)
  exact hopen.trans (hset.trans (hbar.trans (hend.trans hclose)))

/-- A sign adds its expression to the branch. -/
theorem Sign.memory_leads (hframes : frames.length + 1 < Reading.maxDepth) (s : Sign)
    (parts : List Expr) (u : Text) :
    (memoryWith used refs frames ⟨branches, parts⟩ numbered afterAtom).Leads size (s.text ++ u)
      (memoryWith used refs frames ⟨branches, s.expr :: parts⟩ numbered true) u := by
  cases s with
  | literal c =>
    -- Behind a backslash a character is itself in either case, and no other case is asked for.
    cases h : isEscaped c with
    | true =>
      have hfolds : foldsPlain c = false := by simp [foldsPlain, h]
      rw [text, h, expr, hfolds]
      exact .step _ (skip_of_ne (by decide) _) (memory_next_escaped h _ _ u) rfl
        (by simp only [if_true, List.cons_append, List.nil_append, List.length_cons]; omega)
    | false =>
      have hfolds : foldsPlain c = true := by simp [foldsPlain, h]
      have hopen := (isEscaped_eq_false h).2.2.2.2.2.2.2.1
      rw [text, h, expr, hfolds]
      exact .step _ (skip_of_ne hopen _) (memory_next_plain h _ _ u) rfl (by simp)
  | separator => exact memory_separator_leads hframes parts u
  | textStart => exact .step _ (skip_of_ne (by decide) _) rfl rfl (by simp [text])
  | textEnd => exact .step _ (skip_of_ne (by decide) _) rfl rfl (by simp [text])

/-- A span adds its expressions to the branch. -/
theorem memory_span_leads (hframes : frames.length + 1 < Reading.maxDepth) (ss : List Sign)
    (parts : List Expr) (u : Text) :
    ∃ afterAtom', (memoryWith used refs frames ⟨branches, parts⟩ numbered afterAtom).Leads size
      (spanOf ss ++ u)
      (memoryWith used refs frames ⟨branches, (ss.map Sign.expr).reverse ++ parts⟩ numbered afterAtom')
      u := by
  induction ss generalizing parts afterAtom with
  | nil => exact ⟨afterAtom, .refl _ _⟩
  | cons s ss ih =>
    have hs := @Sign.memory_leads size used refs frames branches numbered afterAtom hframes s parts
      (spanOf ss ++ u)
    obtain ⟨afterAtom', hss⟩ := @ih true (s.expr :: parts)
    refine ⟨afterAtom', ?_⟩
    have h := hs.trans hss
    simpa [spanOf] using h

/-! ## Reading spans behind asterisks -/

/-- No plus sign begins a span, which would make the repetition in front of it another one. -/
theorem head_spanOf {ss : List Sign} (hne : ss ≠ []) (u : Text) :
    ∃ c t, spanOf ss ++ u = c :: t ∧ c ≠ '+' := by
  cases ss with
  | nil => exact absurd rfl hne
  | cons s ss =>
    rw [spanOf, List.flatMap_cons]
    cases s with
    | literal c =>
      cases h : isEscaped c with
      | true => exact ⟨'\\', c :: (spanOf ss ++ u), by simp [Sign.text, h, spanOf], by decide⟩
      | false => exact ⟨c, spanOf ss ++ u, by simp [Sign.text, h, spanOf], (isEscaped_eq_false h).2.2.2.2.1⟩
    | separator => exact ⟨'(', _, by rw [Sign.text, separator_eq]; rfl, by decide⟩
    | textStart => exact ⟨'^', _, rfl, by decide⟩
    | textEnd => exact ⟨'$', _, rfl, by decide⟩

/-- The shortest run of any characters is read as a repetition. -/
theorem memory_any_leads (hne : ss ≠ []) (u : Text) :
    (memoryWith used refs frames ⟨[], [anySet]⟩ numbered true).Leads size ('*' :: '?' :: (spanOf ss ++ u))
      (memoryWith used refs frames ⟨[], [anyExpr]⟩ numbered false) (spanOf ss ++ u) := by
  obtain ⟨c, t, htext, hplus⟩ := head_spanOf hne u
  rw [htext]
  refine .step (.turns 0 none true false) (skip_of_ne (by decide) _) ?_ rfl (by simp)
  have hrepetition : Token.repetition false 0 none ('?' :: c :: t) =
      some (.turns 0 none true false, c :: t) := by
    rw [Token.repetition, skip_of_ne (by decide)]
    simp [hplus]
  exact hrepetition

/-- A reference by a number is read to the end of the number. -/
theorem memory_reference_leads {n : Nat} {choice : Choice} (hpos : 0 < n) (hused : n ≤ used)
    (hlimit : n < Token.numberLimit) (hsize : n < size / 2) {u : Text} (hu : Text.NoDigitFirst u) :
    (memoryWith used refs frames choice numbered afterAtom).Leads size ('\\' :: (Text.ofNat n ++ u))
      (memoryWith used (n :: refs) frames { choice with parts := .reference n :: choice.parts } true true)
      u := by
  have hdigits : ∀ c ∈ Text.ofNat n, c.isDigit = true := fun c hc => Text.isDigit_of_mem_ofNat hc
  have hnumber : Token.referenceNumber size (Text.ofNat n ++ u) = some (n, u) := by
    simp [Token.referenceNumber, Token.number?, Text.takeWhile_digits hdigits hu,
      Text.dropWhile_digits hdigits hu, Text.toNat?_ofNat, hlimit, hsize]
  obtain ⟨c, ds, hcs, -⟩ := Text.head_ofNat hpos
  have hc : c.isDigit = true := hdigits c (by simp [hcs])
  -- The text of a positive number begins with a digit that is not zero, so the escape is a reference.
  have hnext : Token.escape size (Text.ofNat n ++ u) = some (.reference n, u) := by
    rw [hcs, List.cons_append] at hnumber ⊢
    unfold Token.escape
    simp only [hc, if_true, hnumber, Option.map_some]
  refine .step (.reference n) (skip_of_ne (by decide) _) hnext ?_
    (by simp only [List.length_cons, List.length_append]; omega)
  simp [Reading.feed, Reading.referByNumber, Reading.refer, memoryWith, hused, Reading.part]

/-- A reference by a number that is too large is none. -/
theorem memory_reference_fails {n : Nat} {choice : Choice} (hlimit : Token.numberLimit ≤ n) {u : Text}
    (hu : Text.NoDigitFirst u) :
    (memoryWith used refs frames choice numbered afterAtom).Fails size ('\\' :: (Text.ofNat n ++ u)) := by
  have hdigits : ∀ c ∈ Text.ofNat n, c.isDigit = true := fun c hc => Text.isDigit_of_mem_ofNat hc
  have hnumber : Token.referenceNumber size (Text.ofNat n ++ u) = none := by
    simp [Token.referenceNumber, Token.number?, Text.takeWhile_digits hdigits hu, Text.toNat?_ofNat,
      show ¬n < Token.numberLimit by omega]
  have hpos : 0 < n := Nat.lt_of_lt_of_le (by decide) hlimit
  obtain ⟨c, ds, hcs, -⟩ := Text.head_ofNat hpos
  have hc : c.isDigit = true := hdigits c (by simp [hcs])
  have hnext : Token.escape size (Text.ofNat n ++ u) = none := by
    rw [hcs, List.cons_append] at hnumber ⊢
    unfold Token.escape
    simp only [hc, if_true, hnumber, Option.map_none]
  exact .of_next (by simp) (skip_of_ne (by decide) _) hnext

/-- What is open where a span behind an asterisk is read: its group, in a look ahead. -/
def runFrames (used : Nat) (outer : Choice) (frames : List Frame) : List Frame :=
  ⟨.capture (used + 1), {}⟩ :: ⟨.around .ahead, outer⟩ :: frames

/-- A run in front of a span is one sequence. -/
theorem branchOf_run (hne : ss ≠ []) : Backtrack.branchOf (anyExpr :: ss.map Sign.expr) = runExpr ss := by
  have hparts : ∀ e ∈ anyExpr :: ss.map Sign.expr, e.isEmpty = false := by
    intro e he
    rcases List.mem_cons.mp he with rfl | he
    · rfl
    · obtain ⟨s, -, rfl⟩ := List.mem_map.mp he
      exact s.isEmpty_expr
  cases ss with
  | nil => exact absurd rfl hne
  | cons s ss => exact branchOf_of_nonempty hparts

/-- The look ahead and the group in it are opened. -/
theorem memory_run_opens (hframes : frames.length + 3 < Reading.maxDepth) (outer : Choice) (u : Text) :
    (memoryWith used refs frames outer numbered afterAtom).Leads size ('(' :: '?' :: '=' :: '(' :: '[' :: u)
      (memoryWith (used + 1) refs (runFrames used outer frames) {} numbered false) ('[' :: u) := by
  -- Two groups are opened: the look ahead, and in it the one that captures.
  have hahead : (memoryWith used refs frames outer numbered afterAtom).Leads size
      ('(' :: '?' :: '=' :: '(' :: '[' :: u)
      (memoryWith used refs (⟨.around .ahead, outer⟩ :: frames) {} numbered false) ('(' :: '[' :: u) := by
    refine .step (.openAround .ahead) (skip_of_not_comment ?_) ?_ ?_ (by simp)
    · rintro r - hr
      simp at hr
    · rw [memoryWith, Token.next, Token.group, skip_of_ne (by decide)]
      rfl
    · simp [Reading.feed, Reading.enter, memoryWith, show frames.length + 1 < Reading.maxDepth by omega]
  have hcapture : (memoryWith used refs (⟨.around .ahead, outer⟩ :: frames) {} numbered false).Leads size
      ('(' :: '[' :: u) (memoryWith (used + 1) refs (runFrames used outer frames) {} numbered false)
      ('[' :: u) := by
    refine .step (.openCapture none) (skip_of_not_comment ?_) ?_ ?_ (by simp)
    · rintro r - hr
      simp at hr
    · rw [memoryWith, Token.next, Token.group, skip_of_ne (by decide)]
      rfl
    · simp [Reading.feed, Reading.enter, memoryWith, show frames.length + 2 < Reading.maxDepth by omega, runFrames]
  exact hahead.trans hcapture

/-- The group is closed behind the span, and the look ahead behind the group. -/
theorem memory_run_closes (hne : ss ≠ []) (parts : List Expr) (u : Text) :
    (memoryWith (used + 1) refs (runFrames used ⟨branches, parts⟩ frames)
        ⟨[], (ss.map Sign.expr).reverse ++ [anyExpr]⟩ numbered afterAtom).Leads size (')' :: ')' :: u)
      (memoryWith (used + 1) refs frames
        ⟨branches, .around .ahead (.group (used + 1) (runExpr ss)) :: parts⟩ numbered true) u := by
  let outer : List Frame := ⟨.around .ahead, ⟨branches, parts⟩⟩ :: frames
  have hgroup : (memoryWith (used + 1) refs (runFrames used ⟨branches, parts⟩ frames)
        ⟨[], (ss.map Sign.expr).reverse ++ [anyExpr]⟩ numbered afterAtom).Leads size (')' :: ')' :: u)
      (memoryWith (used + 1) refs outer ⟨[], [.group (used + 1) (runExpr ss)]⟩ numbered true) (')' :: u) := by
    refine .step .close (skip_of_ne (by decide) _) rfl ?_ (by simp)
    simp [Reading.feed, Reading.leave, Reading.finish, memoryWith, branchOf_run hne, runFrames, outer, Reading.part]
  have hahead : (memoryWith (used + 1) refs outer ⟨[], [.group (used + 1) (runExpr ss)]⟩ numbered true).Leads size
      (')' :: u) (memoryWith (used + 1) refs frames
        ⟨branches, .around .ahead (.group (used + 1) (runExpr ss)) :: parts⟩ numbered true) u := by
    refine .step .close (skip_of_ne (by decide) _) rfl ?_ (by simp)
    simp [Reading.feed, Reading.leave, Reading.finish, memoryWith, outer, Reading.part, Backtrack.branchOf,
      Expr.isEmpty]
  exact hgroup.trans hahead

/-- A span behind an asterisk adds a look ahead to the branch, in front of the reference. -/
theorem memory_run_leads (hframes : frames.length + 3 < Reading.maxDepth) (hne : ss ≠ [])
    (parts : List Expr) (n : Nat) (u : Text) :
    (memoryWith used refs frames ⟨branches, parts⟩ numbered afterAtom).Leads size
      (starOf n ss ++ u)
      (memoryWith (used + 1) refs frames
        ⟨branches, .around .ahead (.group (used + 1) (runExpr ss)) :: parts⟩ numbered true)
      ('\\' :: (Text.ofNat n ++ u)) := by
  let inner := runFrames used ⟨branches, parts⟩ frames
  let closing := ')' :: ')' :: '\\' :: (Text.ofNat n ++ u)
  have hopen := @memory_run_opens size used refs frames numbered afterAtom hframes ⟨branches, parts⟩
    ('\\' :: 's' :: '\\' :: 'S' :: ']' :: '*' :: '?' :: (spanOf ss ++ closing))
  have hset : (memoryWith (used + 1) refs inner {} numbered false).Leads size
      ('[' :: '\\' :: 's' :: '\\' :: 'S' :: ']' :: '*' :: '?' :: (spanOf ss ++ closing))
      (memoryWith (used + 1) refs inner ⟨[], [anySet]⟩ numbered true)
      ('*' :: '?' :: (spanOf ss ++ closing)) :=
    .step _ (skip_of_ne (by decide) _) rfl rfl (by simp)
  have hany := @memory_any_leads size (used + 1) refs inner numbered ss hne closing
  obtain ⟨afterAtom', hspan⟩ := @memory_span_leads size (used + 1) refs inner [] numbered false
    (by simp only [inner, runFrames, List.length_cons]; omega) ss [anyExpr] closing
  have hclose := @memory_run_closes size used refs frames branches numbered afterAtom' ss hne parts
    ('\\' :: (Text.ofNat n ++ u))
  have h := hopen.trans (hset.trans (hany.trans (hspan.trans hclose)))
  rw [starOf, starOpening_eq, starClosing_eq]
  simpa [closing] using h

/-- A span behind an asterisk adds a look ahead and a reference to the branch. -/
theorem memory_star_leads (hframes : frames.length + 3 < Reading.maxDepth) (hne : ss ≠ [])
    (hlimit : used + 1 < Token.numberLimit) (hsize : used + 1 < size / 2) (parts : List Expr) {u : Text}
    (hu : Text.NoDigitFirst u) :
    (memoryWith used refs frames ⟨branches, parts⟩ numbered afterAtom).Leads size
      (starOf (used + 1) ss ++ u)
      (memoryWith (used + 1) ((used + 1) :: refs) frames
        ⟨branches, .reference (used + 1) :: .around .ahead (.group (used + 1) (runExpr ss)) :: parts⟩ true
        true)
      u :=
  (memory_run_leads hframes hne parts (used + 1) u).trans
    (memory_reference_leads (Nat.succ_pos used) (Nat.le_refl _) hlimit hsize hu)

/-- Spans behind asterisks add their looks ahead and references to the branch. -/
theorem memory_stars_leads (hframes : frames.length + 3 < Reading.maxDepth) {rest : List (List Sign)}
    (hne : ∀ ss ∈ rest, ss ≠ []) (hlimit : used + rest.length < Token.numberLimit)
    (hsize : used + rest.length < size / 2) (parts : List Expr) {u : Text} (hu : Text.NoDigitFirst u) :
    ∃ refs' numbered' afterAtom',
      (memoryWith used refs frames ⟨branches, parts⟩ numbered afterAtom).Leads size
        (starsOf used rest ++ u)
        (memoryWith (used + rest.length) refs' frames ⟨branches, (starExprs used rest).reverse ++ parts⟩
          numbered' afterAtom')
        u ∧
      ∀ k, k ∈ refs ∨ (used < k ∧ k ≤ used + rest.length) → k ∈ refs' := by
  -- By induction on the spans. Each opens the next group and refers to it, so that its number counts the groups.
  induction rest generalizing used refs numbered afterAtom parts with
  | nil =>
    refine ⟨refs, numbered, afterAtom, .refl _ _, fun k hk => ?_⟩
    simp only [List.length_nil] at hk
    rcases hk with hk | hk
    · exact hk
    · omega
  | cons ss rest ih =>
    simp only [List.length_cons] at hlimit hsize
    have hstar := @memory_star_leads size used refs frames branches numbered afterAtom ss hframes
      (hne ss (by simp)) (by omega) (by omega) parts _ (noDigitFirst_starsOf (used + 1) rest hu)
    obtain ⟨refs', numbered', afterAtom', hrest, hmem⟩ := @ih (used + 1) ((used + 1) :: refs) true true
      (fun ss' hss' => hne ss' (by simp [hss'])) (by omega) (by omega)
      (.reference (used + 1) :: .around .ahead (.group (used + 1) (runExpr ss)) :: parts)
    refine ⟨refs', numbered', afterAtom', ?_, fun k hk => hmem k ?_⟩
    · have h := hstar.trans hrest
      have hcount : used + 1 + rest.length = used + (ss :: rest).length := by simp; omega
      rw [hcount] at h
      simpa [starsOf, starExprs] using h
    · simp only [List.length_cons] at hk
      rcases hk with hk | hk
      · exact Or.inl (by simp [hk])
      · rcases Nat.lt_or_ge (used + 1) k with hlt | hge
        · exact Or.inr ⟨hlt, by omega⟩
        · exact Or.inl (by simp [show k = used + 1 by omega])

/-! ## Reading fragments joined by bars -/

/-- A fragment makes the branch that it begins. -/
theorem memory_outline_leads (hframes : frames.length + 3 < Reading.maxDepth) (o : Outline)
    (hlimit : used + o.rest.length < Token.numberLimit) (hsize : used + o.rest.length < size / 2)
    {u : Text} (hu : Text.NoDigitFirst u) :
    ∃ refs' numbered' afterAtom',
      (memoryWith used refs frames ⟨branches, []⟩ numbered afterAtom).Leads size (o.text used ++ u)
        (memoryWith (used + o.rest.length) refs' frames ⟨branches, (o.exprs used).reverse⟩ numbered'
          afterAtom')
        u ∧
      ∀ k, k ∈ refs ∨ (used < k ∧ k ≤ used + o.rest.length) → k ∈ refs' := by
  obtain ⟨afterAtom₁, hhead⟩ := @memory_span_leads size used refs frames branches numbered afterAtom
    (by omega) o.head [] (starsOf used o.rest ++ u)
  obtain ⟨refs', numbered', afterAtom', hstars, hmem⟩ := @memory_stars_leads size used refs frames
    branches numbered afterAtom₁ hframes _ o.rest_ne_nil hlimit hsize
    ((o.head.map Sign.expr).reverse ++ []) _ hu
  refine ⟨refs', numbered', afterAtom', ?_, hmem⟩
  have h := hhead.trans hstars
  rw [o.text_eq]
  simpa [Outline.exprs] using h

/-- A fragment in front of a bar makes a branch that is finished. -/
theorem memory_branch_leads (hframes : frames.length + 3 < Reading.maxDepth) (o : Outline)
    (hlimit : used + o.rest.length < Token.numberLimit) (hsize : used + o.rest.length < size / 2) (u : Text) :
    ∃ refs' numbered',
      (memoryWith used refs frames ⟨branches, []⟩ numbered afterAtom).Leads size (o.text used ++ '|' :: u)
        (memoryWith (used + o.rest.length) refs' frames ⟨Backtrack.branchOf (o.exprs used) :: branches, []⟩
          numbered' false)
        u ∧
      ∀ k, k ∈ refs ∨ (used < k ∧ k ≤ used + o.rest.length) → k ∈ refs' := by
  obtain ⟨refs', numbered', afterAtom', ho, hmem⟩ := @memory_outline_leads size used refs frames
    branches numbered afterAtom hframes o hlimit hsize _ (.cons rfl : Text.NoDigitFirst ('|' :: u))
  refine ⟨refs', numbered', ho.trans (.step .bar (skip_of_ne (by decide) _) rfl ?_ (by simp)), hmem⟩
  simp [Reading.feed, memoryWith]

/-- Fragments joined by bars make the branches, all but the last of which are finished. -/
theorem memory_join_leads (hframes : frames.length + 3 < Reading.maxDepth) {os : List Outline}
    (hne : os ≠ []) (hlimit : used + starTotal os < Token.numberLimit)
    (hsize : used + starTotal os < size / 2) {u : Text} (hu : Text.NoDigitFirst u) :
    ∃ refs' choice numbered' afterAtom',
      (memoryWith used refs frames ⟨branches, []⟩ numbered afterAtom).Leads size
        (Text.join ['|'] (texts used os) ++ u)
        (memoryWith (used + starTotal os) refs' frames choice numbered' afterAtom') u ∧
      choice.branches.reverse ++ [Backtrack.branchOf choice.parts.reverse] =
        branches.reverse ++ branchExprs used os ∧
      ∀ k, k ∈ refs ∨ (used < k ∧ k ≤ used + starTotal os) → k ∈ refs' := by
  -- By induction on the fragments, where `used` counts the groups of the branches that are finished.
  induction os generalizing used refs numbered afterAtom branches with
  | nil => exact absurd rfl hne
  | cons o os ih =>
    have htotal : starTotal (o :: os) = o.rest.length + starTotal os := by simp [starTotal]
    rw [htotal] at hlimit hsize ⊢
    cases os with
    | nil =>
      obtain ⟨refs', numbered', afterAtom', ho, hmem⟩ := @memory_outline_leads size used refs frames
        branches numbered afterAtom hframes o (by omega) (by omega) _ hu
      exact ⟨refs', _, numbered', afterAtom', ho, by simp [branchExprs], hmem⟩
    | cons o' os =>
      obtain ⟨refs₁, numbered₁, ho, hmem₁⟩ := @memory_branch_leads size used refs frames branches numbered
        afterAtom hframes o (by omega) (by omega)
        (Text.join ['|'] (texts (used + o.rest.length) (o' :: os)) ++ u)
      obtain ⟨refs', choice, numbered', afterAtom', hrest, hbranches, hmem⟩ := @ih
        (used + o.rest.length) refs₁ (Backtrack.branchOf (o.exprs used) :: branches) numbered₁ false
        (by simp) (by omega) (by omega)
      refine ⟨refs', choice, numbered', afterAtom', ?_, ?_, fun k hk => hmem k ?_⟩
      · have h := ho.trans hrest
        rw [Nat.add_assoc] at h
        simpa [texts, Text.join] using h
      · rw [hbranches]
        simp [branchExprs]
      · rcases hk with hk | hk
        · exact Or.inl (hmem₁ k (Or.inl hk))
        · rcases Nat.lt_or_ge (used + o.rest.length) k with hlt | hge
          · exact Or.inr ⟨hlt, by omega⟩
          · exact Or.inl (hmem₁ k (Or.inr ⟨hk.1, hge⟩))

end

/-! ## Reading a joined pattern -/

/-- A joined pattern has more than two bytes for each asterisk, when its branches have two. -/
theorem starTotal_lt {os : List Outline} {branches : List Text}
    (h : List.Forall₂ (fun o t => 2 * o.rest.length ≤ t.length) os branches) :
    starTotal os < Text.byteLength (Alternation.join branches) / 2 := by
  have hbytes (t : Text) : t.length ≤ Text.byteLength t := by
    induction t with
    | nil => simp [Text.byteLength]
    | cons c t ih =>
      have := Char.utf8Size_pos c
      simp only [Text.byteLength, List.map_cons, List.sum_cons, List.length_cons] at ih ⊢
      omega
  -- The bars and what is around the branches only add to the length.
  have hjoin : 2 * starTotal os ≤ (Text.join ['|'] branches).length := by
    induction h with
    | nil => simp [starTotal]
    | @cons o t os branches ho hos ih =>
      cases hos with
      | nil =>
        simp only [starTotal, Text.join, List.map_cons, List.map_nil, List.sum_cons, List.sum_nil]
        omega
      | cons =>
        simp only [starTotal, Text.join, List.length_append, List.map_cons, List.sum_cons] at ih ⊢
        omega
  have h := hbytes (Alternation.join branches)
  simp only [Alternation.join, opening_eq, List.length_append, List.length_cons, List.length_nil] at h
  simp only [Alternation.join, opening_eq]
  omega

/-- A wildcard takes two characters at least. -/
theorem two_le_length_starOf (n : Nat) (ss : List Sign) : 2 ≤ (starOf n ss).length := by
  simp only [starOf, starOpening_eq, List.length_append, List.length_cons]
  omega

/-- Wildcards take two characters each at least. -/
theorem two_mul_length_le_loweredStars (n used : Nat) (rest : List (List Sign)) :
    2 * rest.length ≤ (loweredStars n used rest).length := by
  induction rest generalizing used with
  | nil => simp
  | cons ss rest ih =>
    have hstar := two_le_length_starOf (loweredNumber n (used + 1)) ss
    have hrest := ih (used + 1)
    simp only [loweredStars, List.length_append, List.length_cons]
    omega

/-- Outlines are written with two characters at least for each wildcard. -/
theorem two_mul_length_le_texts (used : Nat) (os : List Outline) :
    List.Forall₂ (fun o t => 2 * o.rest.length ≤ t.length) os (texts used os) := by
  induction os generalizing used with
  | nil => exact .nil
  | cons o os ih =>
    refine .cons ?_ (ih _)
    have hstars := two_mul_length_le_loweredStars 0 used o.rest
    rw [loweredStars_zero] at hstars
    rw [o.text_eq, List.length_append]
    omega

/-- Fragments joined and read: the choice between them, and references to all their groups. -/
theorem memory_parse? {os : List Outline} (hne : os ≠ []) (hlimit : starTotal os < Token.numberLimit) :
    ∃ refs, Backtrack.parse? (Alternation.join (texts 0 os)) = some (choiceOf (branchExprs 0 os), refs) ∧
      ∀ k, 0 < k → k ≤ starTotal os → k ∈ refs := by
  let size := Text.byteLength (Alternation.join (texts 0 os))
  have hsize : 0 + starTotal os < size / 2 := by
    rw [Nat.zero_add]
    exact starTotal_lt (two_mul_length_le_texts 0 os)
  obtain ⟨refs, choice, numbered, afterAtom, hjoin, hbranches, hmem⟩ := @memory_join_leads size
    0 [] wholeGroup [] false false (by decide) _ hne (by omega) hsize _ (.cons rfl : Text.NoDigitFirst [')'])
  have hnumbered : (numbered && !([] : List (Text × Nat)).isEmpty) = false := by simp
  have hfinish : (memoryWith (0 + starTotal os) refs wholeGroup choice numbered afterAtom).finish =
      some (choiceOf (branchExprs 0 os)) := by
    rw [Backtrack.finish_eq_choiceOf hnumbered]
    exact congrArg (fun es => some (choiceOf es)) hbranches
  exact ⟨refs, Backtrack.parse?_join hjoin (Backtrack.skip_of_ne (by decide) []) rfl hnumbered hfinish,
    fun k h0 hk => hmem k (Or.inr ⟨h0, by omega⟩)⟩

end UrlFilter.Glob
