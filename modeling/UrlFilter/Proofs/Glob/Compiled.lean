import UrlFilter.Proofs.Glob.Outline
import UrlFilter.Proofs.Regex.Ends
import UrlFilter.Proofs.Unicode.Folding
import UrlFilter.Regex.Parser

/-!
# Spans as patterns

What the readers make of the signs of a span, and that it matches what the signs ask for. The reader of
patterns without memory ignores case for every literal; the other one takes a character behind a backslash
as it stands. Both come to the same, for the characters that are escaped differ from no other in case.
-/

namespace UrlFilter.Glob

open Regex (Cursor CharClass)

/-! ## Patterns -/

/-- The class of the characters that a caret stands for. -/
def separatorClass : CharClass :=
  .compl (.folded (.union (.union (.union (.union .none .word) (.single '.')) (.single '%'))
    (.single '-')))

/-- The class of all characters, as it is written in front of a span behind an asterisk. -/
def anyClass : CharClass := .folded (.union (.union .none .blank) (.compl .blank))

/-- Which literals ignore case: all of them, or all that are written without a backslash. -/
def IgnoresCase (folds : Char → Bool) : Prop := ∀ c, isEscaped c = false → folds c = true

/-- Whether a literal ignores case in a pattern with memory. -/
def foldsPlain (c : Char) : Bool := !isEscaped c

/-- Whether a literal ignores case in a pattern without memory. -/
def foldsAll (_ : Char) : Bool := true

/-- In a pattern with memory, literals that are written without a backslash ignore case. -/
theorem ignoresCase_foldsPlain : IgnoresCase foldsPlain := fun c h => by simp [foldsPlain, h]

/-- In a pattern without memory all literals ignore case. -/
theorem ignoresCase_foldsAll : IgnoresCase foldsAll := fun _ _ => rfl

/-- The pattern of a sign. -/
def Sign.regex (folds : Char → Bool) : Sign → Regex
  | .literal c => .one (.literal (folds c) c)
  | .separator => .alt (.one separatorClass) (.look .textEnd)
  | .textStart => .look .textStart
  | .textEnd => .look .textEnd

/-- The pattern of a span. -/
def spanRegex (folds : Char → Bool) (ss : List Sign) : Regex :=
  Regex.seqAll (ss.map (Sign.regex folds))

/-- The pattern of the shortest run of characters in front of a span, and the span. -/
def runRegex (folds : Char → Bool) (ss : List Sign) : Regex :=
  Regex.seqAll (.turns (.one anyClass) 0 none false :: ss.map (Sign.regex folds))

/-! ## What they match -/

/-- The escaped characters are no letters, and their numbers are small. -/
theorem isEscaped_ascii {c : Char} (h : isEscaped c = true) : c.toNat < 128 ∧ c.isAlpha = false := by
  rw [isEscaped, special_eq] at h
  simp only [Bool.or_eq_true, beq_iff_eq, List.contains_iff_mem, List.mem_cons, List.not_mem_nil,
    or_false] at h
  rcases h with (rfl | rfl) | rfl | rfl | rfl | rfl | rfl | rfl | rfl | rfl | rfl | rfl | rfl | rfl <;>
    decide

/-- A literal that takes case is an ASCII character, and no letter. -/
theorem IgnoresCase.ascii_of_eq_false {folds : Char → Bool} (h : IgnoresCase folds) {c : Char} (hf : folds c = false) :
    c.toNat < 128 ∧ c.isAlpha = false := by
  refine isEscaped_ascii ?_
  by_contra hc
  simp [h c (by simpa using hc)] at hf

/-- A literal character is matched by those that are equal to it up to case. -/
theorem mem_literal {folds : Char → Bool} (h : IgnoresCase folds) (c x : Char) :
    (CharClass.literal (folds c) c).mem x = Unicode.sameFolded x c := by
  cases hf : folds c with
  | true => rfl
  | false =>
    obtain ⟨hascii, halpha⟩ := h.ascii_of_eq_false hf
    rw [Bool.eq_iff_iff, Unicode.sameFolded_iff_of_not_isAlpha hascii halpha]
    exact CharClass.mem_single c x

/-- The class of a run has every character: blanks and all others. -/
theorem mem_anyClass (x : Char) : anyClass.mem x = true := by
  simp only [anyClass, CharClass.mem]
  cases Text.isBlank x <;> simp

/-- A character of the class that is no separator: a word character, a dot, a percent sign or a hyphen. -/
def isBound (x : Char) : Bool := Unicode.isWord x || x == '.' || x == '%' || x == '-'

/-- The class of what is no separator, as it is listed. -/
def boundClass : CharClass :=
  .union (.union (.union (.union .none .word) (.single '.')) (.single '%')) (.single '-')

/-- The class inside of a separator has the characters that separate nothing. -/
theorem mem_boundClass (x : Char) : boundClass.mem x = isBound x := by
  have hsingle (c : Char) : (CharClass.single c).mem x = (x == c) := by
    rw [Bool.eq_iff_iff, CharClass.mem_single, beq_iff_eq]
  simp only [boundClass, CharClass.mem, CharClass.mem_none, Bool.false_or, isBound, hsingle]

/-- What is no separator is closed under case, so that the mode changes nothing. -/
theorem mem_folded_boundClass (x : Char) : (CharClass.folded boundClass).mem x = isBound x := by
  rw [CharClass.mem, funext mem_boundClass]
  cases hx : isBound x with
  | true => rfl
  | false =>
    rw [Bool.false_or, List.any_eq_false]
    intro y hy hbound
    have hsame := Unicode.of_mem_variants (p := isBound) (fun c hc => by simp [isBound, hc])
      (by decide +kernel) hy hbound
    rw [hx] at hsame
    cases hsame

/-- The class of a separator has the characters that separate. -/
theorem mem_separatorClass (x : Char) : separatorClass.mem x = isSeparator x :=
  congrArg (!·) (mem_folded_boundClass x)

/-- The pattern of a sign matches as the sign does. -/
theorem Sign.ends_regex {folds : Char → Bool} (h : IgnoresCase folds) (s : Sign) (c : Cursor) :
    (s.regex folds).ends c = (s.after? c).toList := by
  obtain ⟨b, a⟩ := c
  cases s with
  | literal y =>
    cases a with
    | nil => simp [regex, Regex.ends, after?]
    | cons x a =>
      simp only [regex, Regex.ends, after?, mem_literal h]
      cases Unicode.sameFolded x y <;> rfl
  | separator =>
    cases a with
    | nil =>
      -- A separator at the end of the text reads nothing: only the look succeeds there.
      simp [regex, Regex.ends, after?, Regex.Look.holds, Cursor.next?, List.eraseDups_cons]
    | cons x a =>
      simp only [regex, Regex.ends, after?, mem_separatorClass, Regex.Look.holds, Cursor.next?,
        List.head?_cons, Option.isNone_some, Bool.false_eq_true, if_false, List.append_nil]
      cases isSeparator x <;> simp [List.eraseDups_cons]
  | textStart =>
    cases b <;> simp [regex, Regex.ends, after?, Regex.Look.holds, Cursor.previous?]
  | textEnd =>
    cases a <;> simp [regex, Regex.ends, after?, Regex.Look.holds, Cursor.next?]

/-- Behind a pattern, the first end from which a span matches. -/
theorem head?_ends_span {folds : Char → Bool} (h : IgnoresCase folds) (r : Regex) (ss : List Sign)
    (c : Cursor) :
    (((ss.map (Sign.regex folds)).foldl .seq r).ends c).head? =
      (r.ends c).findSome? (afterSpan? ss) := by
  induction ss generalizing r with
  | nil => cases hends : r.ends c <;> simp [hends, afterSpan?]
  | cons s ss ih =>
    rw [List.map_cons, List.foldl_cons, ih, Regex.ends, findSome?_eraseDups, findSome?_flatMap]
    congr 1
    funext d
    rw [s.ends_regex h]
    cases hs : s.after? d with
    | none => simp [afterSpan?, hs]
    | some e => simp [afterSpan?, hs, List.findSome?_cons]; cases afterSpan? ss e <;> rfl

/-- The pattern of a span matches as the span does, in one way at most. -/
theorem ends_spanRegex {folds : Char → Bool} (h : IgnoresCase folds) (ss : List Sign) (c : Cursor) :
    (spanRegex folds ss).ends c = (afterSpan? ss c).toList := by
  -- Behind a pattern that ends in one place at most there is one place at most again.
  have hfold (ss : List Sign) (r : Regex) (o : Option Cursor) (hr : r.ends c = o.toList) :
      ((ss.map (Sign.regex folds)).foldl .seq r).ends c = (o.bind (afterSpan? ss)).toList := by
    induction ss generalizing r o with
    | nil =>
      rw [List.map_nil, List.foldl_nil, hr]
      cases o <;> rfl
    | cons s ss ih =>
      have hsign : (Regex.seq r (s.regex folds)).ends c = (o.bind s.after?).toList := by
        rw [Regex.ends, hr]
        cases o with
        | none => rfl
        | some d =>
          simp only [Option.toList_some, List.flatMap_cons, List.flatMap_nil, List.append_nil, s.ends_regex h,
            Option.bind_some]
          cases s.after? d <;> simp [List.eraseDups_cons]
      rw [List.map_cons, List.foldl_cons, ih _ _ hsign, Option.bind_assoc]
      rfl
  cases ss with
  | nil => rfl
  | cons s ss =>
    rw [spanRegex, List.map_cons, Regex.seqAll, hfold ss _ _ (s.ends_regex h c)]
    rfl

/-- The pattern of a run and a span finds the nearest place where the span matches. -/
theorem head?_ends_runRegex {folds : Char → Bool} (h : IgnoresCase folds) (ss : List Sign) (c : Cursor) :
    ((runRegex folds ss).ends c).head? = nearest? ss c := by
  rw [runRegex, Regex.seqAll, head?_ends_span h, Regex.findSome?_ends_any mem_anyClass]
  rfl

/-- The pattern of a span matches somewhere when the span matches from some place. -/
theorem isMatch_spanRegex {folds : Char → Bool} (h : IgnoresCase folds) {ss : List Sign} {t : Text} :
    (spanRegex folds ss).isMatch t = true ↔
      ∃ c ∈ (Cursor.start t).onwards, (afterSpan? ss c).isSome := by
  simp only [Regex.isMatch, List.any_eq_true, Bool.not_eq_true', ends_spanRegex h]
  refine exists_congr fun c => and_congr_right fun _ => ?_
  cases afterSpan? ss c <;> simp

/-! ## Sizes -/

/-- The compiled size of a sign. Whether a literal ignores case does not show in it: one that does not is no letter. -/
def Sign.size : Sign → Nat
  | .literal c => (CharClass.alike c).size
  | .separator => 32 + separatorClass.size + 32
  | .textStart => 32
  | .textEnd => 32

/-- The size of a sign is that of its pattern, whichever letters ignore case. -/
theorem Sign.size_regex {folds : Char → Bool} (h : IgnoresCase folds) (s : Sign) : (s.regex folds).size = s.size := by
  cases s with
  | literal c =>
    cases hf : folds c with
    | true => simp only [regex, size, Regex.size, CharClass.literal, hf, if_true]
    | false =>
      obtain ⟨hascii, halpha⟩ := h.ascii_of_eq_false hf
      simp [regex, size, Regex.size, CharClass.literal, CharClass.single, CharClass.size, hf, hascii, halpha]
  | separator => rfl
  | textStart => rfl
  | textEnd => rfl

/-- The compiled size of a span. -/
def spanSize (ss : List Sign) : Nat := (ss.map Sign.size).sum

/-- The size of a span is that of its pattern, whichever letters ignore case. -/
theorem size_spanRegex {folds : Char → Bool} (h : IgnoresCase folds) (ss : List Sign) :
    (spanRegex folds ss).size = spanSize ss := by
  rw [spanRegex, Regex.size_seqAll, List.map_map, spanSize]
  congr 2
  funext s
  exact s.size_regex h

/-- The size of a run and a span is that of both. -/
theorem size_runRegex {folds : Char → Bool} (h : IgnoresCase folds) (ss : List Sign) :
    (runRegex folds ss).size = 32 + anyClass.size + spanSize ss := by
  have hany : (Regex.turns (.one anyClass) 0 none false).size = 32 + anyClass.size := by
    simp [Regex.size]
  have hspan := size_spanRegex h ss
  rw [spanRegex, Regex.size_seqAll] at hspan
  rw [runRegex, Regex.size_seqAll, List.map_cons, List.sum_cons, hany, hspan]

end UrlFilter.Glob
