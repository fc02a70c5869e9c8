import UrlFilter.Proofs.Rule.Placement
import UrlFilter.Proofs.Rule.Runs

/-!
# Indentation

Spaces and tabs at the end of a line change nothing. At its start they are skipped where a reader looks for a setting
of the list or for a comment, but not where it looks for the sign of an exception, for an anchor or for a regular
expression, and they stay in the pattern of a rule. So an indented line means what it means without its indentation
only where it gives no rule, and not always then (`meaning_indented`).
-/

namespace UrlFilter

/-! ## Behind an indentation -/

/-- The text consists of spaces and tabs. -/
def Text.IsIndent (w : Text) : Prop := ∀ c ∈ w, c = ' ' ∨ c = '\t'

/-- Whether a text is an indent is decided character by character. -/
instance (w : Text) : Decidable (Text.IsIndent w) := List.decidableBAll (fun c => c = ' ' ∨ c = '\t') w

/-- The text begins with a space or a tab, and has no signs that a reader looks for behind one. -/
structure Text.IsOffset (u : Text) : Prop where
  head : u.head? = some ' ' ∨ u.head? = some '\t'
  notMem_dollar : '$' ∉ u
  notMem_star : '*' ∉ u

namespace Text

variable {w u t : Text} {c : Char}

/-- An indent is blank. -/
theorem IsIndent.isBlank (h : IsIndent w) : ∀ c ∈ w, Text.isBlank c = true := by
  intro c hc
  rcases h c hc with rfl | rfl <;> decide

/-- An indent has no characters but blanks and tabs. -/
theorem IsIndent.notMem (h : IsIndent w) (hspace : c ≠ ' ') (htab : c ≠ '\t') : c ∉ w :=
  fun hc => (h c hc).elim hspace htab

/-- An indent that is not empty is an offset. -/
theorem IsIndent.isOffset (h : IsIndent w) (hne : w ≠ []) : IsOffset w where
  head := by
    obtain ⟨c, w, rfl⟩ := List.exists_cons_of_ne_nil hne
    exact (h c List.mem_cons_self).imp (congrArg some) (congrArg some)
  notMem_dollar := h.notMem (by decide) (by decide)
  notMem_star := h.notMem (by decide) (by decide)

/-- The sign of an exception behind an indentation is no more than a part of it. -/
theorem IsOffset.append_exception (h : IsOffset u) : IsOffset (u ++ "@@".toList) where
  head := by
    rw [List.head?_append]
    exact h.head.imp (fun h => by rw [h]; rfl) fun h => by rw [h]; rfl
  notMem_dollar := by simp [h.notMem_dollar]
  notMem_star := by simp [h.notMem_star]

/-- An offset is not empty. -/
theorem IsOffset.ne_nil (h : IsOffset u) : u ≠ [] := by
  rintro rfl
  rcases h.head with h | h <;> cases h

/-- A text behind an offset starts with a blank or a tab. -/
theorem IsOffset.exists_cons (h : IsOffset u) (t : Text) :
    ∃ c rest, (c = ' ' ∨ c = '\t') ∧ u ++ t = c :: rest := by
  obtain ⟨c, u, rfl⟩ := List.exists_cons_of_ne_nil h.ne_nil
  exact ⟨c, u ++ t, h.head.imp Option.some.inj Option.some.inj, rfl⟩

/-- Trimming at the start takes the indent away. -/
theorem trimStart_indent (h : IsIndent w) (t : Text) : trimStart (w ++ t) = trimStart t :=
  List.dropWhile_append_of_pos h.isBlank

/-- Nothing of an indent is left by trimming. -/
theorem trimEnd_of_isIndent (h : IsIndent w) : trimEnd w = [] :=
  List.rdropWhile_eq_nil_iff.mpr h.isBlank

/-- An indent at the end is trimmed away. -/
theorem trimEnd_append_indent (h : IsIndent w) (t : Text) : trimEnd (t ++ w) = trimEnd t := by
  rw [trimEnd_append, trimEnd_of_isIndent h]
  rfl

/-- Trimming at the end leaves the indent, unless nothing else is left. -/
theorem trimEnd_indent (h : IsIndent w) (t : Text) :
    trimEnd (w ++ t) = if (trimEnd t).isEmpty then trimEnd t else w ++ trimEnd t := by
  rw [trimEnd_append, trimEnd_of_isIndent h]
  split
  · next hempty => rw [List.isEmpty_iff.mp hempty]
  · rfl

/-- Asterisks are trimmed behind an offset only. -/
theorem trimChar_offset (h : IsOffset u) (t : Text) :
    trimChar '*' (u ++ t) = u ++ dropEndWhile (· == '*') t := by
  have hlast : u.getLast? ≠ some '*' := fun hlast => h.notMem_star (List.mem_of_getLast? hlast)
  obtain ⟨c, rest, hc, hcons⟩ := h.exists_cons t
  have hstart : (u ++ t).dropWhile (· == '*') = u ++ t := by
    rw [hcons, List.dropWhile_cons_of_neg]
    rcases hc with rfl | rfl <;> decide
  rw [trimChar, hstart, dropEndWhile_append, dropEndWhile_eq_self hlast]
  split
  · next hempty => rw [List.isEmpty_iff.mp hempty, List.append_nil]
  · rfl

/-- To trim a character at both ends leaves no more than to trim it at the end. -/
theorem length_trimChar_le (c : Char) (t : Text) : (trimChar c t).length ≤ (dropEndWhile (· == c) t).length := by
  nth_rewrite 2 [← List.takeWhile_append_dropWhile (p := (· == c)) (l := t)]
  rw [trimChar, dropEndWhile_append]
  split
  · next hempty => simp [List.isEmpty_iff.mp hempty]
  · simp

end Text

namespace Line

variable {u w t body : Text}

/-- A configuration line may be indented. -/
theorem isConfig_indent (h : Text.IsIndent w) (t : Text) : isConfig (w ++ t) = isConfig t := by
  rw [isConfig, isConfig, Text.trimStart_indent h]

/-- A comment may be indented. -/
theorem comment?_indent (h : Text.IsIndent w) (t : Text) : comment? (w ++ t) = comment? t := by
  rw [comment?, comment?, Text.trimStart_indent h]

/-- A sign of a selector does not begin in the indentation. -/
theorem isSelector_indent (h : Text.IsIndent w) (t : Text) : isSelector (w ++ t) = isSelector t := by
  have hsigns : ∀ sign ∈ selectorSigns, sign.head? = some '#' := by decide
  refine Bool.eq_iff_iff.mpr ?_
  simp only [isSelector, List.any_eq_true, Text.occursIn_iff]
  refine exists_congr fun sign => and_congr_right fun hsign => ⟨fun hinfix => ?_, fun hinfix =>
    hinfix.trans (List.suffix_append w t).isInfix⟩
  obtain ⟨rest, rfl⟩ : ∃ rest, sign = '#' :: rest := List.head?_eq_some_iff.mp (hsigns sign hsign)
  induction w with
  | nil => exact hinfix
  | cons c w ih =>
    rw [List.cons_append, List.infix_cons_iff] at hinfix
    rcases hinfix with hprefix | hinfix
    · rcases h c List.mem_cons_self with rfl | rfl <;> simp at hprefix
    · exact ih (fun d hd => h d (List.mem_cons_of_mem c hd)) hinfix

/-- A line behind an offset is no exception. -/
theorem splitException_offset (h : Text.IsOffset u) (t : Text) : splitException (u ++ t) = (false, u ++ t) := by
  obtain ⟨c, rest, hc, hcons⟩ := h.exists_cons t
  rw [hcons]
  rcases hc with rfl | rfl <;> rfl

/-- Behind an indentation the sign of an exception, if there is one, is part of an offset. -/
theorem exists_offset_splitException (h : Text.IsIndent w) (hne : w ≠ []) (t : Text) :
    ∃ u, Text.IsOffset u ∧ w ++ t = u ++ (splitException t).2 := by
  unfold splitException
  cases hsign : Text.after? "@@".toList t with
  | none => exact ⟨w, h.isOffset hne, rfl⟩
  | some rest =>
    refine ⟨w ++ "@@".toList, (h.isOffset hne).append_exception, ?_⟩
    rw [Text.after?_eq_some_iff.mp hsign, List.append_assoc]

/-- A pattern behind an offset is not raw. -/
theorem isRaw_offset (h : Text.IsOffset u) (t : Text) : isRaw (u ++ t) = false := by
  obtain ⟨c, rest, hc, hcons⟩ := h.exists_cons t
  rw [hcons]
  rcases hc with rfl | rfl <;> simp [isRaw]

/-- A pattern behind an offset is not the empty URL. -/
theorem isEmptyUrl_offset (h : Text.IsOffset u) (t : Text) : isEmptyUrl (u ++ t) = false := by
  obtain ⟨c, rest, hc, hcons⟩ := h.exists_cons t
  rw [hcons]
  rcases hc with rfl | rfl <;> simp [isEmptyUrl, dropBars]

/-- The options are cut off at the same sign, whatever stands in front without one. -/
theorem splitAtOption_append (hu : '$' ∉ u) (t : Text) :
    splitAtOption (u ++ t) = (splitAtOption t).map fun (a, b) => (u ++ a, b) := by
  induction u with
  | nil => simp
  | cons c u ih =>
    rw [List.mem_cons, not_or] at hu
    rw [List.cons_append, splitAtOption, if_neg fun h => hu.1 h.1.symm, ih hu.2, Option.map_map]
    rfl

/-- The options of a line stay the same behind an offset, unless the line is a regular expression by itself. -/
theorem splitOptions_offset (h : Text.IsOffset u) (hraw : isRaw body = false) :
    splitOptions (u ++ body) = (u ++ (splitOptions body).1, (splitOptions body).2) := by
  unfold splitOptions
  rw [isRaw_offset h, hraw, if_neg Bool.false_ne_true, if_neg Bool.false_ne_true, splitAtOption_append h.notMem_dollar]
  cases hend : Text.before? ['$'] body with
  | some pattern =>
    have hpattern : Text.before? ['$'] (u ++ body) = some (u ++ pattern) := by
      rw [Text.before?_eq_some_iff.mp hend, ← List.append_assoc]
      exact Text.before?_eq_some_iff.mpr rfl
    rw [hpattern]
  | none =>
    have hnone : Text.before? ['$'] (u ++ body) = none := by
      rw [Option.eq_none_iff_forall_ne_some] at hend ⊢
      intro pattern hpattern
      rcases List.append_eq_append_iff.mp (Text.before?_eq_some_iff.mp hpattern) with
        ⟨rest, -, hbody⟩ | ⟨rest, rfl, hdollar⟩
      · exact hend rest (Text.before?_eq_some_iff.mpr hbody)
      -- The dollar sign at the end would have to stand in the offset.
      · cases rest with
        | nil => exact hend [] (Text.before?_eq_some_iff.mpr hdollar.symm)
        | cons c rest =>
          obtain ⟨rfl, -⟩ := List.cons.inj hdollar
          exact h.notMem_dollar (by simp)
    rw [hnone]
    cases splitAtOption body <;> rfl

/-- An offset stays in the pattern, whatever is taken off as options. -/
theorem exists_splitOptions_offset (h : Text.IsOffset u) (body : Text) :
    ∃ rest, (splitOptions (u ++ body)).1 = u ++ rest := by
  obtain ⟨cut, hcut, hdollar⟩ := exists_cut (u ++ body)
  rcases List.append_eq_append_iff.mp hcut with ⟨rest, hpattern, -⟩ | ⟨rest, hu, hbehind⟩
  · exact ⟨rest, hpattern⟩
  · cases rest with
    | nil => exact ⟨[], by simpa using hu.symm⟩
    | cons c rest =>
      obtain rfl | ⟨behind, rfl⟩ := hdollar
      · cases hbehind
      · obtain ⟨rfl, -⟩ := List.cons.inj hbehind
        exact absurd (by simp) (hu ▸ h.notMem_dollar)

/-- What is heard of a line without the sign of an exception is heard behind an indentation too, and nothing else. -/
theorem comment?_splitOptions_indent (h : Text.IsIndent w) (t : Text) :
    comment? (splitOptions (w ++ t)).1 = none ↔ comment? t = none := by
  rw [← comment?_indent h t]
  rcases comment?_splitOptions (w ++ t) with ⟨hheard, hsaid⟩ | ⟨heard, said, hheard, hsaid, -⟩
  · rw [hheard, hsaid]
  · rw [hheard, hsaid]
    simp

/-- What is no exception is split into itself. -/
theorem splitException_of_fst (h : (splitException t).1 = false) : splitException t = (false, t) := by
  unfold splitException at h ⊢
  cases hsign : Text.after? "@@".toList t with
  | none => rfl
  | some rest =>
    rw [hsign] at h
    cases h

/-- A comment is no regular expression. -/
theorem isRaw_of_comment? {said : Text} (h : comment? t = some said) : isRaw t = false := by
  obtain ⟨rest, hrest, -⟩ := comment?_eq_some_iff.mp h
  refine Bool.eq_false_iff.mpr fun hraw => ?_
  simp only [isRaw, Bool.and_eq_true, beq_iff_eq] at hraw
  obtain ⟨behind, rfl⟩ := List.head?_eq_some_iff.mp hraw.1.2
  simp [Text.trimStart, show Text.isBlank '/' = false by decide] at hrest

/-- A comment is no exception. -/
theorem splitException_of_comment? {said : Text} (h : comment? t = some said) : splitException t = (false, t) := by
  obtain ⟨rest, hrest, -⟩ := comment?_eq_some_iff.mp h
  exact splitException_of_trimStart hrest (by decide)

/-- The same is heard of a comment behind an indentation. -/
theorem heard?_indent (hw : Text.IsIndent w) (hne : w ≠ []) {said : Text}
    (h : comment? (Text.trimEnd t) = some said) : heard? (w ++ t) = heard? t := by
  have hline : (Text.trimEnd t).isEmpty = false := by
    refine Bool.eq_false_iff.mpr fun hnil => ?_
    rw [List.isEmpty_iff.mp hnil] at h
    cases h
  have htrim : Text.trimEnd (w ++ t) = w ++ Text.trimEnd t := by rw [Text.trimEnd_indent hw, hline]; rfl
  rw [heard?, heard?, isSelector_indent hw, htrim, splitException_offset (hw.isOffset hne),
    splitException_of_comment? h, splitOptions_offset (hw.isOffset hne) (isRaw_of_comment? h), comment?_indent hw]

/-- A line that is no comment by itself is heard as one only behind the sign of an exception. -/
theorem splitException_of_heard? {heard : Text} (hheard : heard? t = some heard)
    (h : comment? (Text.trimEnd t) = none) : (splitException (Text.trimEnd t)).1 = true := by
  cases hsign : (splitException (Text.trimEnd t)).1 with
  | true => rfl
  | false =>
    unfold heard? at hheard
    split at hheard
    · cases hheard
    · rw [splitException_of_fst hsign] at hheard
      rcases comment?_splitOptions (Text.trimEnd t) with ⟨hnone, -⟩ | ⟨-, said, -, hsaid, -⟩
      · cases hnone.symm.trans hheard
      · cases h.symm.trans hsaid

/-- The parts of the rule that a line states are those of the line without blanks at its end. -/
theorem of_rule? {isException : Bool} {pattern options : Text} (h : rule? t = some (isException, pattern, options)) :
    (splitException (Text.trimEnd t)).1 = isException ∧
      splitOptions (splitException (Text.trimEnd t)).2 = (pattern, options) := by
  unfold rule? at h
  dsimp only at h
  split at h
  · cases h
  · cases h
    exact ⟨rfl, rfl⟩

end Line

/-! ## Rules behind an indentation -/

/-- Behind an offset no pattern is anchored. -/
theorem Shape.afterAnchor?_offset {u : Text} (h : Text.IsOffset u) (t : Text) : afterAnchor? (u ++ t) = none := by
  obtain ⟨c, rest, hc, hcons⟩ := h.exists_cons t
  have hscheme : isSchemeChar ' ' = false ∧ isSchemeChar '\t' = false := by decide
  rw [hcons]
  rcases hc with rfl | rfl <;> simp [afterAnchor?, afterScheme?, Text.after?, hscheme.1, hscheme.2]

namespace Policy

variable {p : Policy} {u w text pattern pattern' options options' : Text} {s : Section} {n : Nat}

/-- A pattern behind an offset has no anchor. -/
theorem category_offset (h : Text.IsOffset u) (t : Text) :
    p.category (u ++ t) = (.urlFragment, u ++ Text.dropEndWhile (· == '*') t) := by
  rw [category, Line.isRaw_offset h, if_neg Bool.false_ne_true, Text.trimChar_offset h]
  dsimp only
  rw [Shape.afterAnchor?_offset h]

/-- A pattern does not come to the same behind an offset, for that is kept. -/
theorem category_offset_ne (h : Text.IsOffset u) (t : Text) : p.category (u ++ t) ≠ p.category t := by
  intro hsame
  have hplaces := p.places_category t
  rw [← hsame, category_offset h] at hplaces
  have hlength := Text.length_trimChar_le '*' t
  have hpos := List.length_pos_of_ne_nil h.ne_nil
  rw [← hplaces.eq_trimChar, List.length_append] at hlength
  omega

/-! ## Lines behind an indentation -/

/-- What a line means in a section: why it is dropped, or its rule in its bucket, and the section behind it. -/
def meaning (p : Policy) (s : Section) (text : Text) (n : Nat) : Except Drop Placed × Section :=
  ((p.readLine s text n).result.map p.place, (p.readLine s text n).next)

/-- The line means the same behind an indentation: it is dropped for something that a reader finds behind blanks
as well. -/
def bearsIndent (p : Policy) (s : Section) (text : Text) (n : Nat) : Bool :=
  match (p.readLine s text n).result with
  | .ok _ | .error .emptyUrl | .error .exceptionExcluded => false
  | .error .blank => (Text.trimEnd text).isEmpty
  | .error .comment => !(Line.splitException (Text.trimEnd text)).1
  | .error _ => true

/-- Rules that are placed in the same way have the same category. -/
theorem category_of_place {r r' : Rule} (h : p.place r = p.place r') : p.category r.pattern = p.category r'.pattern :=
  Prod.ext (congrArg (·.bucket.category) h) (congrArg Placed.pattern h)

/-- A rule that is no exception and is placed elsewhere is judged like another one where their options alone
decide. -/
theorem judge_eq_iff {isException : Bool} (hempty : Line.isEmptyUrl pattern' = false)
    (hcategory : p.category pattern' ≠ p.category pattern) (hoptions : options = [] ∨ options' = options) :
    (p.judge false pattern' options' n).map p.place = (p.judge isException pattern options n).map p.place ↔
      p.judge isException pattern options n = .error .unsupportedOption ∨
        p.judge isException pattern options n = .error .ignoredOption := by
  have hplace : ∀ r r' : Rule, r.pattern = pattern' → r'.pattern = pattern → p.place r ≠ p.place r' := by
    rintro r r' rfl rfl hsame
    exact hcategory (category_of_place hsame)
  have hnone : Line.options? [] = some [] := by decide
  have hmeets : RuleOption.Set.meets [] p.ignoredOptions = false := rfl
  unfold judge
  rw [hempty]
  obtain rfl | rfl := hoptions
  · -- A rule without options is not dropped for them.
    rw [hnone]
    cases Line.options? options' <;> dsimp only <;> repeat' split
    all_goals simp_all [Except.map]
  · cases Line.options? options' <;> dsimp only <;> repeat' split
    all_goals simp_all [Except.map]

/-- A rule comes to the same behind an offset where its options are unknown or ignored. -/
theorem judge_offset_iff {isException : Bool} {body : Text} (h : Text.IsOffset u) :
    (p.judge false (Line.splitOptions (u ++ body)).1 (Line.splitOptions (u ++ body)).2 n).map p.place =
        (p.judge isException (Line.splitOptions body).1 (Line.splitOptions body).2 n).map p.place ↔
      p.judge isException (Line.splitOptions body).1 (Line.splitOptions body).2 n = .error .unsupportedOption ∨
        p.judge isException (Line.splitOptions body).1 (Line.splitOptions body).2 n = .error .ignoredOption := by
  obtain ⟨rest, hrest⟩ := Line.exists_splitOptions_offset h body
  have hempty : Line.isEmptyUrl (Line.splitOptions (u ++ body)).1 = false := hrest ▸ Line.isEmptyUrl_offset h rest
  cases hraw : Line.isRaw body with
  | true =>
    -- A regular expression is none behind an offset, so that options may be found in it.
    have hoptions : Line.splitOptions body = (body, []) := if_pos hraw
    refine judge_eq_iff hempty ?_ (.inl (by rw [hoptions]))
    rw [hrest, category_offset h, hoptions, category, if_pos hraw]
    simp
  | false =>
    have hoptions := Line.splitOptions_offset h hraw
    refine judge_eq_iff hempty ?_ (.inr (by rw [hoptions]))
    rw [hoptions]
    exact category_offset_ne h _

/-- The reasons for which a pattern is dropped when it is judged. -/
theorem drop_of_judge {isException : Bool} {d : Drop} (h : p.judge isException pattern options n = .error d) :
    d ∈ [Drop.unsupportedOption, .emptyUrl, .exceptionExcluded, .ignoredOption] := by
  unfold judge at h
  repeat' split at h
  all_goals cases h <;> simp

/-- A line holds a rule behind an indentation, whatever it is without, unless it is looked at behind its blanks. That
rule is no exception. -/
theorem rule?_indent (hw : Text.IsIndent w) (hne : w ≠ []) (hline : Text.trimEnd text ≠ [])
    (hconfig : Line.isConfig (Text.trimEnd text) = false) (hselector : Line.isSelector (Text.trimEnd text) = false)
    (hcomment : Line.comment? (Text.trimEnd text) = none) :
    Line.rule? (w ++ text) = some (false, (Line.splitOptions (w ++ Text.trimEnd text)).1,
      (Line.splitOptions (w ++ Text.trimEnd text)).2) := by
  have hheard := (Line.comment?_splitOptions_indent hw _).mpr hcomment
  obtain ⟨rest, hrest⟩ := Line.exists_splitOptions_offset (hw.isOffset hne) (Text.trimEnd text)
  have hblank : (Text.trimChar '*' (Line.splitOptions (w ++ Text.trimEnd text)).1).isEmpty = false := by
    rw [hrest, Text.trimChar_offset (hw.isOffset hne)]
    simp [hne]
  simp [Line.rule?, Text.trimEnd_indent hw, hline, Line.splitException_offset (hw.isOffset hne),
    Line.isConfig_indent hw, Line.isSelector_indent hw, hconfig, hselector, hheard, hblank]

/-- What a line that states a rule means: the pattern judged and placed, or one more rule of an ignored section. -/
theorem meaning_of_rule? {isException : Bool} (h : Line.rule? text = some (isException, pattern, options)) :
    p.meaning .scanning text n = ((p.judge isException pattern options n).map p.place, .scanning) ∧
      ∀ k, p.meaning (.ignoring k) text n = (.error .ignoredSection, .ignoring (k + 1)) := by
  rcases p.readLine_cases text with ⟨heard, hheard, -⟩ | ⟨_, _, _, hrule, hjudged, hpassed⟩ | ⟨-, hrule, -⟩
  · cases (rule?_of_heard hheard).symm.trans h
  · cases hrule.symm.trans h
    exact ⟨by rw [meaning, hjudged], fun k => by rw [meaning, hpassed]; rfl⟩
  · cases hrule.symm.trans h

/-- A line with a rule is not dropped for its looks. -/
theorem drop_of_rule? {isException : Bool} (h : Line.rule? text = some (isException, pattern, options)) {d : Drop}
    (hd : (p.meaning s text n).1 = .error d) : d ≠ .comment ∧ d ≠ .blank := by
  obtain ⟨hscanning, hignoring⟩ := meaning_of_rule? (p := p) (n := n) h
  cases s with
  | ignoring k =>
    rw [hignoring] at hd
    cases hd
    simp
  | scanning =>
    rw [hscanning] at hd
    cases hjudge : p.judge isException pattern options n with
    | ok rule => rw [hjudge] at hd; cases hd
    | error d' =>
      rw [hjudge] at hd
      cases hd
      have hmem := drop_of_judge hjudge
      constructor <;> rintro rfl <;> simp at hmem

/-- Whatever blanks are behind a line, it means the same. -/
theorem meaning_append_indent (hw : Text.IsIndent w) (p : Policy) (s : Section) (text : Text) (n : Nat) :
    p.meaning s (text ++ w) n = p.meaning s text n := by
  rw [meaning, meaning, readLine_congr (Text.trimEnd_append_indent hw text)]

/-- What is read of a line that is neither a comment nor a rule, and has no sign of anything else. -/
theorem readLine_of_blank (hconfig : Line.isConfig (Text.trimEnd text) = false)
    (hselector : Line.isSelector text = false) (hheard : Line.heard? text = none) (hrule : Line.rule? text = none) :
    p.readLine s text n = ⟨.error .blank, s⟩ := by
  rw [Line.heard?, hselector, if_neg Bool.false_ne_true] at hheard
  rw [← Line.isSelector_trimEnd] at hselector
  simp only [Line.rule?, hconfig, hselector, hheard, Option.isSome_none, Bool.or_self, Bool.false_or, ite_eq_left_iff,
    reduceCtorEq, imp_false, not_not] at hrule
  simp [readLine, hconfig, hselector, hheard, hrule]

/-- A rule bears an indentation for its options alone. -/
theorem bearsIndent_of_judge {isException : Bool}
    (h : (p.readLine s text n).result = p.judge isException pattern options n) :
    p.bearsIndent s text n = true ↔ p.judge isException pattern options n = .error .unsupportedOption ∨
      p.judge isException pattern options n = .error .ignoredOption := by
  rw [bearsIndent, h]
  cases hjudge : p.judge isException pattern options n with
  | ok rule => simp
  | error d =>
    have hd := drop_of_judge hjudge
    simp only [List.mem_cons, List.not_mem_nil, or_false] at hd
    rcases hd with rfl | rfl | rfl | rfl <;> simp

section
variable (hw : Text.IsIndent w) (hne : w ≠ [])

include hw hne

/-- A comment stays the same behind an indentation. -/
theorem meaning_indent_of_comment? {said : Text} (h : Line.comment? (Text.trimEnd text) = some said)
    (hselector : Line.isSelector text = false) :
    p.meaning s (w ++ text) n = p.meaning s text n ∧ p.bearsIndent s text n = true := by
  obtain ⟨heard, hheard⟩ : ∃ heard, Line.heard? text = some heard := by
    refine Option.isSome_iff_exists.mp ?_
    rw [Line.isSome_heard?, Line.isComment, Line.commentText?, if_neg (by simp [hselector]),
      Line.splitException_of_comment? h, h, Option.isSome_some]
  refine ⟨?_, ?_⟩
  · rw [meaning, meaning, readLine_of_heard hheard, readLine_of_heard ((Line.heard?_indent hw hne h).trans hheard)]
  · rw [bearsIndent, readLine_of_heard hheard]
    simp [Line.splitException_of_comment? h]

/-- Any other line holds a rule behind an indentation, and that is another one than without it. -/
theorem meaning_indent_of_rule (hline : Text.trimEnd text ≠ []) (hconfig : Line.isConfig (Text.trimEnd text) = false)
    (hselector : Line.isSelector text = false) (hcomment : Line.comment? (Text.trimEnd text) = none) :
    p.meaning s (w ++ text) n = p.meaning s text n ↔ p.bearsIndent s text n = true := by
  have hindented := rule?_indent hw hne hline hconfig (by rwa [Line.isSelector_trimEnd]) hcomment
  -- What is dropped for its looks is dropped for something else, if at all.
  have hlooks {d : Drop} (hd : (p.meaning s text n).1 = .error d) (hlook : d = .comment ∨ d = .blank) :
      p.meaning s (w ++ text) n ≠ p.meaning s text n := by
    intro hsame
    obtain ⟨hne, hne'⟩ := drop_of_rule? hindented ((congrArg Prod.fst hsame).trans hd)
    exact hlook.elim hne hne'
  rcases p.readLine_cases text with
    ⟨heard, hheard, hread⟩ | ⟨isException, pattern, options, hrule, hjudged, hpassed⟩ | ⟨hheard, hrule, -⟩
  · have hsign := Line.splitException_of_heard? hheard hcomment
    refine iff_of_false (hlooks (by rw [meaning, hread]; rfl) (.inl rfl)) ?_
    rw [bearsIndent, hread]
    simp [hsign]
  · obtain ⟨hscanning, hignoring⟩ := meaning_of_rule? (p := p) (n := n) hrule
    obtain ⟨hscanning', hignoring'⟩ := meaning_of_rule? (p := p) (n := n) hindented
    cases s with
    | ignoring k =>
      rw [hignoring, hignoring', bearsIndent, hpassed]
      simp
    | scanning =>
      obtain ⟨u, hu, hoffset⟩ := Line.exists_offset_splitException hw hne (Text.trimEnd text)
      obtain ⟨-, hparts⟩ := Line.of_rule? hrule
      have hjudge := @judge_offset_iff p u n isException (Line.splitException (Text.trimEnd text)).2 hu
      rw [← hoffset, hparts] at hjudge
      rw [hscanning, hscanning', bearsIndent_of_judge (congrArg Outcome.result (hjudged n)), ← hjudge]
      simp
  · have hread := readLine_of_blank (p := p) (s := s) (n := n) hconfig hselector hheard hrule
    refine iff_of_false (hlooks (by rw [meaning, hread]; rfl) (.inr rfl)) ?_
    rw [bearsIndent, hread]
    simpa using hline

/-- A line means the same behind an indentation exactly where it bears one. -/
theorem meaning_indent_iff : p.meaning s (w ++ text) n = p.meaning s text n ↔ p.bearsIndent s text n = true := by
  -- A line of blanks remains one, and any other keeps its indent when it is trimmed at its end.
  by_cases hline : Text.trimEnd text = []
  · have htrim : Text.trimEnd (w ++ text) = Text.trimEnd text := by rw [Text.trimEnd_indent hw, hline]; rfl
    have hread : p.readLine s text n = ⟨.error .blank, s⟩ := by
      rw [← readLine_nil p s n]
      exact readLine_congr (hline.trans rfl)
    rw [meaning, meaning, readLine_congr htrim, bearsIndent, hread]
    simp [hline]
  have htrim : Text.trimEnd (w ++ text) = w ++ Text.trimEnd text := by
    rw [Text.trimEnd_indent hw, if_neg (by simpa using hline)]
  -- Settings of a list, signs of elements and comments are told behind the indent.
  cases hconfig : Line.isConfig (Text.trimEnd text) with
  | true => simp [meaning, bearsIndent, readLine, htrim, Line.isConfig_indent hw, hconfig]
  | false =>
    cases hselector : Line.isSelector text with
    | true =>
      have hindented : Line.isSelector (w ++ text) = true := by rwa [Line.isSelector_indent hw]
      have hconfig' : Line.isConfig (Text.trimEnd (w ++ text)) = false := by rwa [htrim, Line.isConfig_indent hw]
      rw [meaning, meaning, readLine_of_isSelector hconfig hselector, readLine_of_isSelector hconfig' hindented,
        bearsIndent, readLine_of_isSelector hconfig hselector]
      simp
    | false =>
      cases hcomment : Line.comment? (Text.trimEnd text) with
      | none => exact meaning_indent_of_rule hw hne hline hconfig hselector hcomment
      | some said =>
        obtain ⟨hsame, hbears⟩ := meaning_indent_of_comment? (p := p) (s := s) (n := n) hw hne hcomment hselector
        exact iff_of_true hsame hbears

end

/-- Blanks at the end of a line never change what it means, and an indentation changes it unless the line bears
one. -/
theorem meaning_indented (hw : Text.IsIndent w) (p : Policy) (s : Section) (text : Text) (n : Nat) :
    p.meaning s (text ++ w) n = p.meaning s text n ∧
      (w ≠ [] → (p.meaning s (w ++ text) n = p.meaning s text n ↔ p.bearsIndent s text n = true)) :=
  ⟨meaning_append_indent hw p s text n, meaning_indent_iff hw⟩

/-- A line of the list's settings and a comment that opens a section, both of them indented. -/
theorem meaning_indented_sample :
    permissive.meaning .scanning "\t[Adblock]".toList 0 = permissive.meaning .scanning "[Adblock]".toList 0 ∧
      marking.meaning .scanning " \t! German".toList 0 = (.error .comment, .ignoring 0) := by
  have htab : Text.IsIndent "\t".toList := by decide
  have hboth : Text.IsIndent " \t".toList := by decide
  have hconfig := (meaning_indented htab permissive .scanning "[Adblock]".toList 0).2 (by decide)
  have hcomment := (meaning_indented hboth marking .scanning "! German".toList 0).2 (by decide)
  have hmeaning : marking.meaning .scanning "! German".toList 0 = (.error .comment, .ignoring 0) := by decide +kernel
  exact ⟨hconfig.mpr (by decide +kernel), (hcomment.mpr (by decide +kernel)).trans hmeaning⟩

/-- An exception behind a space is no exception, and the host of a rule is not looked for behind one. -/
theorem indented_rules_are_fragments :
    permissive.meaning .scanning "@@||a.b^".toList 0 =
        (.ok ⟨⟨.domainExact, .good⟩, "a.b".toList, [], 0, false⟩, .scanning) ∧
      permissive.meaning .scanning " @@||a.b^".toList 0 =
        (.ok ⟨⟨.urlFragment, .bad⟩, " @@||a.b^".toList, [], 0, false⟩, .scanning) ∧
      permissive.meaning .scanning "||a.b^".toList 0 =
        (.ok ⟨⟨.domainExact, .bad⟩, "a.b".toList, [], 0, false⟩, .scanning) ∧
      permissive.meaning .scanning "\t||a.b^".toList 0 =
        (.ok ⟨⟨.urlFragment, .bad⟩, "\t||a.b^".toList, [], 0, false⟩, .scanning) := by
  decide +kernel

end Policy

end UrlFilter
