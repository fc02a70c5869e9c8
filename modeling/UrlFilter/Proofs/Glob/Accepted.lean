import UrlFilter.Proofs.Glob.Single

/-!
# What the engines accept

A glob is implemented by its fragment as far as the engines accept what they are handed. A pattern without
asterisks goes to the engine without memory as it is. Of a pattern with asterisks that engine gets the front, up to
the first caret, and each span behind an asterisk with the run in front of it; the rest is signs that are always
small enough. Every part can be read, so that an engine refuses one for its size alone. What is accepted compiles,
and matches a text exactly when the glob does.
-/

namespace UrlFilter.Glob

/-! ## What is handed over -/

/-- The first span of a pattern. -/
def leading (pattern : Text) : Text := (Text.parts '*' pattern).headD []

/-- The front of a pattern with asterisks: its first span up to the first caret. -/
def frontText (anchored : Bool) (pattern : Text) : Text :=
  (if anchored then ['^'] else []) ++ spanText true false ((leading pattern).takeWhile (· != '^'))

/-- A span behind an asterisk, with the run of any characters in front of it. -/
def runText (span : Text) (last : Bool) : Text := runOpening ++ spanText false last span

/-- A text of characters behind backslashes; it is compared as it stands, and needs no engine. -/
def isEscapes : Text → Bool
  | [] => true
  | '\\' :: _ :: t => isEscapes t
  | _ => false

/-- The engines accept what they are handed of a pattern. -/
def IsAccepted (anchored : Bool) (pattern : Text) : Prop :=
  if starCount pattern = 0 then
    (Regex.compile? true Alternation.sizeLimit (fragment anchored 0 pattern)).isSome = true
  else
    starCount pattern < Alternation.referenceLimit ∧
    (isEscapes (frontText anchored pattern) = true ∨
      (Regex.compile? true Regex.usualLimit (frontText anchored pattern)).isSome = true) ∧
    ∀ s ∈ laterSpans (Text.parts '*' pattern).tail,
      (Regex.compile? true Regex.usualLimit (runText s.1 s.2)).isSome = true

/-! ## The parts as signs -/

/-- Only a caret may be asked for another way. -/
theorem isFixed_signOf (first last : Bool) (c : Char) : (signOf first last c).isFixed = (c != '^') := by
  unfold signOf
  by_cases hbar : c = '|'
  · subst hbar
    cases first <;> cases last <;> rfl
  · by_cases hcaret : c = '^' <;> simp [hbar, hcaret, Sign.isFixed]

/-- The signs in front of the first caret are those of the text in front of it. -/
theorem front_signs (first : Bool) (s : Text) :
    front (signs first false s) = signs first false (s.takeWhile (· != '^')) := by
  unfold front
  induction s generalizing first with
  | nil => rfl
  | cons c s ih =>
    rw [signs, Bool.false_and, List.takeWhile_cons, List.takeWhile_cons, isFixed_signOf, ih]
    split
    · rw [signs, Bool.false_and]
    · rfl

/-- The front of a pattern with asterisks is written as its signs are. -/
theorem frontText_eq {anchored : Bool} {pattern : Text} (hstar : (outline anchored pattern).rest ≠ []) :
    frontText anchored pattern = spanOf (front (outline anchored pattern).head) := by
  -- There is a span behind the first one, so the first one does not end the pattern.
  have hfirst : firstSpan pattern = signs true false (leading pattern) := by
    have hlater : restSpans pattern ≠ [] := hstar
    unfold restSpans at hlater
    unfold firstSpan leading
    cases hparts : Text.parts '*' pattern with
    | nil => rfl
    | cons s ss =>
      rw [hparts] at hlater
      cases ss with
      | nil => exact absurd rfl hlater
      | cons => rfl
  have hfront := front_signs true (leading pattern)
  rw [frontText, spanText_eq, ← hfront, ← hfirst]
  cases anchored with
  | false => rfl
  | true => rfl

/-- A run and a span are written as the run and its signs. -/
theorem runText_eq (s : Text × Bool) : runText s.1 s.2 = runOpening ++ spanOf (signs false s.2 s.1) := by
  rw [runText, spanText_eq]

/-- A span is written as characters behind backslashes exactly when its signs are such characters. -/
theorem isEscapes_spanOf (ss : List Sign) : isEscapes (spanOf ss) = ss.all Sign.isText := by
  induction ss with
  | nil => rfl
  | cons s ss ih =>
    rw [spanOf, List.flatMap_cons, List.all_cons, ← ih]
    cases s with
    | literal c =>
      cases hc : isEscaped c with
      | true => simp [Sign.text, Sign.isText, hc, isEscapes, spanOf]
      | false =>
        have hback : c ≠ '\\' := by
          rintro rfl
          exact absurd hc (by decide)
        simp [Sign.text, Sign.isText, hc, isEscapes, hback]
    | separator => simp [Sign.text, Sign.isText, separator_eq, isEscapes]
    | textStart => simp [Sign.text, Sign.isText, isEscapes]
    | textEnd => simp [Sign.text, Sign.isText, isEscapes]

/-! ## The verdict on the parts -/

/-- What can be read is accepted within a limit when it is no larger. -/
theorem isSome_compile?_iff {t : Text} {r : Regex} (h : Regex.parse? { ignoreCase := true } t = some r) (limit : Nat) :
    (Regex.compile? true limit t).isSome = true ↔ r.size ≤ limit := by
  rw [Regex.compile?, h, Option.filter_some]
  by_cases hsize : r.size ≤ limit <;> simp [hsize]

/-- The engine without memory accepts a span within a limit when it is no larger. -/
theorem isSome_compile?_span (limit : Nat) (ss : List Sign) :
    (Regex.compile? true limit (spanOf ss)).isSome = true ↔ spanSize ss ≤ limit := by
  rw [isSome_compile?_iff (parse?_span ss), size_spanRegex ignoresCase_foldsAll]

/-- The engine without memory accepts a run and a span when they fit. -/
theorem isSome_compile?_run (ss : List Sign) :
    (Regex.compile? true Regex.usualLimit (runOpening ++ spanOf ss)).isSome = true ↔ SpanFits ss := by
  rw [isSome_compile?_iff (parse?_run ss), size_runRegex ignoresCase_foldsAll, SpanFits]

/-- A pattern is accepted exactly when its outline fits. -/
theorem isAccepted_iff {anchored : Bool} {pattern : Text} :
    IsAccepted anchored pattern ↔ (outline anchored pattern).Fits := by
  have hcount : starCount pattern = 0 ↔ (outline anchored pattern).rest = [] := by
    rw [starCount_eq anchored, List.length_eq_zero_iff]
  unfold IsAccepted Outline.Fits
  by_cases hplain : (outline anchored pattern).rest = []
  · have hwritten : fragment anchored 0 pattern = spanOf (outline anchored pattern).head := by
      rw [fragment_eq, Outline.text_eq, hplain, starsOf, List.append_nil]
    rw [if_pos (hcount.mpr hplain), if_pos hplain, hwritten, isSome_compile?_span]
  · have hruns : (∀ s ∈ laterSpans (Text.parts '*' pattern).tail,
        (Regex.compile? true Regex.usualLimit (runText s.1 s.2)).isSome = true) ↔
        ∀ ss ∈ (outline anchored pattern).rest, SpanFits ss := by
      simp only [runText_eq, isSome_compile?_run]
      exact List.forall_mem_map.symm
    rw [if_neg (mt hcount.mp hplain), if_neg hplain, Outline.partsFit_iff hplain, hruns, frontText_eq hplain,
      isEscapes_spanOf, isSome_compile?_span, starCount_eq anchored]
    exact and_comm

/-- What the engines accept is decided by the sizes of the parts. -/
instance (anchored : Bool) (pattern : Text) : Decidable (IsAccepted anchored pattern) :=
  decidable_of_iff' _ isAccepted_iff

/-- What the engines are handed can be read, whatever its size. -/
theorem isSome_parse?_parts (anchored : Bool) (pattern : Text) :
    (starCount pattern = 0 → (Regex.parse? { ignoreCase := true } (fragment anchored 0 pattern)).isSome = true) ∧
      (starCount pattern ≠ 0 → (Regex.parse? { ignoreCase := true } (frontText anchored pattern)).isSome = true) ∧
      ∀ s ∈ laterSpans (Text.parts '*' pattern).tail,
        (Regex.parse? { ignoreCase := true } (runText s.1 s.2)).isSome = true := by
  refine ⟨fun h => ?_, fun h => ?_, fun s _ => ?_⟩
  · rw [starCount_eq anchored, List.length_eq_zero_iff] at h
    rw [fragment_eq, Outline.text_eq, h, starsOf, List.append_nil, parse?_span]
    rfl
  · rw [starCount_eq anchored, ne_eq, List.length_eq_zero_iff] at h
    rw [frontText_eq h, parse?_span]
    rfl
  · rw [runText_eq, parse?_run]
    rfl

/-! ## Implementing a glob -/

/-- A pattern compiles alone exactly when the engines accept what they are handed of it, and is refused otherwise.
They can read all of it, so that they refuse a part for its size alone. Where it compiles, it matches a text exactly
when its glob does. -/
theorem fragment_implements (anchored : Bool) (pattern : Text) :
    (∀ a, Alternation.ofFragments [pattern] [fragment anchored 0 pattern] = .ok a →
      ∀ t, a.isMatch t = true ↔ Matches anchored pattern t) ∧
    (IsAccepted anchored pattern →
      ∃ a, Alternation.ofFragments [pattern] [fragment anchored 0 pattern] = .ok a) ∧
    (¬IsAccepted anchored pattern →
      Alternation.ofFragments [pattern] [fragment anchored 0 pattern] = .error .invalidPattern) ∧
    (starCount pattern = 0 → (Regex.parse? { ignoreCase := true } (fragment anchored 0 pattern)).isSome = true) ∧
    (starCount pattern ≠ 0 → (Regex.parse? { ignoreCase := true } (frontText anchored pattern)).isSome = true) ∧
    ∀ s ∈ laterSpans (Text.parts '*' pattern).tail,
      (Regex.parse? { ignoreCase := true } (runText s.1 s.2)).isSome = true := by
  have hfits : IsAccepted anchored pattern ↔ Fits anchored pattern := isAccepted_iff.trans fits_iff.symm
  refine ⟨fun a ha => ?_, hfits.mp, fun h => ?_, isSome_parse?_parts anchored pattern⟩
  · obtain ⟨a', ha', hmatch⟩ := ofFragments_of_fits ⟨a, ha⟩ [pattern]
    rw [ha', Except.ok.injEq] at ha
    exact ha ▸ hmatch
  · exact ofFragments_of_not_fits (fun hfit => h (hfits.mpr hfit)) [pattern]

/-- A front with a caret and an asterisk in front of the span at the end of the text. -/
theorem fragment_implements_starred :
    IsAccepted false "a^*b^|".toList ∧
      ∃ a, Alternation.ofFragments ["a^*b^|".toList] [fragment false 0 "a^*b^|".toList] = .ok a ∧
        ∀ t, a.isMatch t = true ↔ Matches false "a^*b^|".toList t := by
  have haccepted : IsAccepted false "a^*b^|".toList := by decide
  obtain ⟨a, ha⟩ := (fragment_implements false "a^*b^|".toList).2.1 haccepted
  exact ⟨haccepted, a, ha, (fragment_implements false "a^*b^|".toList).1 a ha⟩

/-- A long run of carets behind an asterisk is a glob that no alternation implements. -/
theorem carets_not_compiled :
    ¬∃ a, Alternation.ofFragments ['a' :: '*' :: List.replicate 1000 '^']
        [fragment false 0 ('a' :: '*' :: List.replicate 1000 '^')] = .ok a ∧
      ∀ t, a.isMatch t = true ↔ Matches false ('a' :: '*' :: List.replicate 1000 '^') t := by
  rintro ⟨a, ha, -⟩
  rw [ofFragments_of_not_fits (not_fits_carets (by decide))] at ha
  cases ha

end UrlFilter.Glob
