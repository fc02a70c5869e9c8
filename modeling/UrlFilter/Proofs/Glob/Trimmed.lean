import UrlFilter.Proofs.Glob.Covers
import UrlFilter.Proofs.Glob.Single
import UrlFilter.Proofs.Text.Trimming

/-!
# Globs without the asterisks at their ends

A bucket keeps a pattern without the asterisks at its ends, for a glob may match anywhere in a text. But a bar is an
end of the text only at an end of the pattern. So it becomes one when the asterisk that shielded it is taken off, and
then other texts are matched; where no bar is shielded, the same ones are (`Policy.category_trims`).

Where no text tells two globs apart their signs are compared. Otherwise the bars are counted: a text that is matched
has as many as the glob asks for, and the shortest text that is matched without the asterisks has too few.
-/

namespace UrlFilter.Glob

open Regex (Cursor)

variable {first last : Bool} {a b t s : Text} {ss : List Text} {xs : List Sign} {c d : Cursor}

/-! ## Sign by sign -/

/-- The signs match one behind the other from a position on, where an asterisk passes over any run of characters. -/
def MatchesFrom : List Sign → Cursor → Prop
  | [], _ => True
  | x :: xs, c =>
    if x = .literal '*' then ∃ d ∈ c.onwards, MatchesFrom xs d else ∃ d, x.Matches c d ∧ MatchesFrom xs d

/-- The spans behind asterisks, the last of which ends the pattern or not. -/
def laterSigns (last : Bool) (ss : List Text) : List (List Sign) :=
  (laterSpans ss).map fun (s, atEnd) => signs false (atEnd && last) s

/-- The signs of a pattern are those of its characters one by one. -/
theorem signs_cons (first last : Bool) (x : Char) (t : Text) :
    signs first last (x :: t) = signOf first (last && t.isEmpty) x :: signs false last t := rfl

/-- A character other than a bar is a sign wherever it stands. -/
theorem signOf_of_ne_bar {x : Char} (h : x ≠ '|') :
    signOf first last x = if x = '^' then .separator else .literal x := by rw [signOf, if_neg h]

/-- An asterisk is a sign for itself wherever it stands. -/
theorem signOf_star : signOf first last '*' = .literal '*' := rfl

/-- No other character has the sign of an asterisk. -/
theorem signOf_eq_star_iff {x : Char} : signOf first last x = .literal '*' ↔ x = '*' := by
  by_cases hx : x = '|'
  · subst hx
    cases first <;> cases last <;> simp [signOf]
  · rw [signOf_of_ne_bar hx]
    split
    · next hcaret => simp [hcaret]
    · simp

/-- Only at the start is there a sign for the start. -/
theorem first_of_signOf {x : Char} (h : signOf first last x = .textStart) : first = true := by
  by_cases hx : x = '|'
  · subst hx
    cases first <;> cases last <;> simp [signOf] at h ⊢
  · rw [signOf_of_ne_bar hx] at h
    split at h <;> cases h

/-- Only at the end is there a sign for the end. -/
theorem last_of_signOf {x : Char} (h : signOf first last x = .textEnd) : last = true := by
  by_cases hx : x = '|'
  · subst hx
    cases first <;> cases last <;> simp [signOf] at h ⊢
  · rw [signOf_of_ne_bar hx] at h
    split at h <;> cases h

/-- An asterisk matches up to any position behind. -/
theorem matchesFrom_star : MatchesFrom (.literal '*' :: xs) c ↔ ∃ d ∈ c.onwards, MatchesFrom xs d := by
  rw [MatchesFrom, if_pos rfl]

/-- Any other sign matches up to where it ends, and the others from there. -/
theorem matchesFrom_cons {x : Sign} (hx : x ≠ .literal '*') :
    MatchesFrom (x :: xs) c ↔ ∃ d, x.Matches c d ∧ MatchesFrom xs d := by
  rw [MatchesFrom, if_neg hx]

/-- Spans are followed one by one, the last one with the sign for the end. -/
theorem followedBy_laterSigns_cons : FollowedBy (laterSigns last (s :: ss)) c ↔
    ∃ d ∈ c.onwards, ∃ e, SpanMatches (signs false (ss.isEmpty && last) s) d e ∧
      FollowedBy (laterSigns last ss) e := by
  rw [← followedBy_cons]
  cases s with
  | nil => exact followedBy_nil_cons.symm
  | cons x s => rfl

/-- A pattern is empty when it is one empty span. -/
theorem isEmpty_of_parts (h : Text.parts '*' t = s :: ss) : t.isEmpty = (ss.isEmpty && s.isEmpty) := by
  rw [Text.eq_append_flatMap_of_parts h]
  cases s <;> cases ss <;> simp

/-- Read sign by sign, a glob asks for its spans. -/
theorem matchesFrom_signs (h : Text.parts '*' t = s :: ss) : MatchesFrom (signs first last t) c ↔
    ∃ d, SpanMatches (signs first (ss.isEmpty && last) s) c d ∧ FollowedBy (laterSigns last ss) d := by
  induction t generalizing first c s ss with
  | nil =>
    cases h
    exact iff_of_true trivial ⟨c, .nil c, .nil c⟩
  | cons x t ih =>
    obtain ⟨q, qs, hq⟩ := List.exists_cons_of_ne_nil (Text.parts_ne_nil '*' t)
    rw [signs]
    -- An asterisk ends the first span, and anything else goes on with it.
    by_cases hx : x = '*'
    · subst hx
      obtain ⟨rfl, rfl⟩ : s = [] ∧ ss = q :: qs := by
        rw [Text.parts, hq] at h
        simpa [eq_comm] using h
      rw [signOf_star, matchesFrom_star]
      simp only [ih hq, ← followedBy_laterSigns_cons]
      constructor
      · exact fun hs => ⟨c, .nil c, hs⟩
      · rintro ⟨_, ⟨⟩, hs⟩
        exact hs
    · obtain ⟨rfl, rfl⟩ : x :: q = s ∧ qs = ss := by
        rw [Text.parts, hq] at h
        simpa [hx] using h
      have hempty : (last && t.isEmpty) = (qs.isEmpty && last && q.isEmpty) := by
        rw [isEmpty_of_parts hq]
        cases last <;> simp [Bool.and_comm]
      rw [matchesFrom_cons (signOf_eq_star_iff.not.mpr hx), hempty]
      simp only [ih hq, signs]
      constructor
      · rintro ⟨d, hd, e, he, hs⟩
        exact ⟨e, .cons hd he, hs⟩
      · rintro ⟨e, _ | ⟨hd, he⟩, hs⟩
        exact ⟨_, hd, e, he, hs⟩

/-! ## Counting bars -/

/-- A bar has no other case. -/
theorem eq_bar_of_sameFolded {x : Char} (h : Unicode.sameFolded x '|' = true) : x = '|' :=
  (Unicode.sameFolded_iff_of_not_isAlpha (by decide) (by decide)).mp h

/-- Further on, no more bars are ahead. -/
theorem count_after_le (h : d ∈ c.onwards) : d.after.count '|' ≤ c.after.count '|' := by
  obtain ⟨w, hw, -⟩ := Cursor.mem_onwards.mp h
  rw [hw, List.count_append]
  omega

/-- Signs need a bar of the text for each of theirs. -/
theorem count_le_of_matchesFrom (h : MatchesFrom xs c) : xs.count (.literal '|') ≤ c.after.count '|' := by
  induction xs generalizing c with
  | nil => simp
  | cons x xs ih =>
    rw [MatchesFrom] at h
    split at h
    · next hx =>
      obtain ⟨d, hd, h⟩ := h
      subst hx
      exact (ih h).trans (count_after_le hd)
    · obtain ⟨d, hd, h⟩ := h
      have hle := ih h
      -- A literal bar takes a bar of the text, and what other signs take only lowers the count.
      by_cases hx : x = .literal '|'
      · subst hx
        cases hd with
        | literal hfolded =>
          rw [eq_bar_of_sameFolded hfolded]
          simpa using hle
      · rw [List.count_cons_of_ne hx]
        exact hle.trans (count_after_le (Sign.after?_mem_onwards (Sign.matches_iff.mp hd)))

/-- A text that signs match, with nothing in place of asterisks and ends. -/
def sampleOf : List Sign → Text
  | [] => []
  | .literal c :: xs => if c = '*' then sampleOf xs else c :: sampleOf xs
  | .separator :: xs => '/' :: sampleOf xs
  | .textStart :: xs | .textEnd :: xs => sampleOf xs

/-- The sample of a glob has the bars that the glob asks for. -/
theorem count_sampleOf (xs : List Sign) : (sampleOf xs).count '|' = xs.count (.literal '|') := by
  induction xs with
  | nil => rfl
  | cons x xs ih =>
    cases x with
    | literal c =>
      rw [sampleOf]
      split
      · next hc =>
        subst hc
        simpa using ih
      · simp [List.count_cons, ih]
    | separator => simpa [sampleOf] using ih
    | textStart => simpa [sampleOf] using ih
    | textEnd => simpa [sampleOf] using ih

/-- A glob matches its sample, as the whole text where it has to be at the start. -/
theorem matchesFrom_sampleOf {before : Text} (h : first = true → before = []) :
    MatchesFrom (signs first last t) ⟨before, sampleOf (signs first last t)⟩ := by
  induction t generalizing first before with
  | nil => trivial
  | cons x t ih =>
    have hrest (before : Text) : MatchesFrom (signs false last t) ⟨before, sampleOf (signs false last t)⟩ :=
      ih (by simp)
    rw [signs]
    -- Each sign is matched by what the sample has for it, and a sign for an end stands at that end.
    cases hsign : signOf first (last && t.isEmpty) x with
    | literal y =>
      by_cases hy : y = '*'
      · subst hy
        rw [matchesFrom_star, sampleOf, if_pos rfl]
        exact ⟨_, Cursor.onwards_refl _, hrest before⟩
      · rw [matchesFrom_cons (by simpa using hy), sampleOf, if_neg hy]
        exact ⟨_, .literal (by simp [Unicode.sameFolded]), hrest _⟩
    | separator => exact (matchesFrom_cons (by simp)).mpr ⟨_, .separator (by decide), hrest _⟩
    | textStart =>
      obtain rfl := h (first_of_signOf hsign)
      exact (matchesFrom_cons (by simp)).mpr ⟨_, .textStart, hrest []⟩
    | textEnd =>
      obtain rfl : t = [] := by simpa using (Bool.and_eq_true_iff.mp (last_of_signOf hsign)).2
      exact (matchesFrom_cons (by simp)).mpr ⟨_, .textEnd, hrest before⟩

/-- Every bar is an end of the text or asked for as it stands. -/
theorem count_signs (first last : Bool) (t : Text) :
    (signs first last t).count (.literal '|') + (first && t.head? == some '|').toNat +
      (last && t.getLast? == some '|' && !(first && t == ['|'])).toNat = t.count '|' := by
  induction t generalizing first with
  | nil => simp [signs]
  | cons x t ih =>
    have hrest := ih false
    simp only [Bool.false_and, Bool.toNat_false, Nat.add_zero, Bool.not_false, Bool.and_true] at hrest
    rw [signs]
    by_cases hx : x = '|'
    · subst hx
      cases t with
      | nil => cases first <;> cases last <;> simp [signs, signOf]
      | cons y t =>
        rw [List.count_cons_self, ← hrest]
        cases first <;> simp [signOf] <;> omega
    · have hsign : signOf first (last && t.isEmpty) x ≠ .literal '|' := by
        rw [signOf_of_ne_bar hx]
        split <;> simp [hx]
      rw [List.count_cons_of_ne hsign, List.count_cons_of_ne hx, ← hrest]
      have hbar : (x == '|') = false := beq_false_of_ne hx
      cases t <;> simp [hbar]

/-! ## Ends of a pattern -/

/-- The signs are found somewhere in the text. -/
def Found (xs : List Sign) (t : Text) : Prop := ∃ c ∈ (Cursor.start t).onwards, MatchesFrom xs c

/-- A bar is an end of the text only where it is an end of the pattern; a bar alone is both ends of it. -/
def exposes (first last : Bool) (t : Text) : Bool :=
  if t = ['|'] then !first && !last else (!first && t.head? == some '|') || (!last && t.getLast? == some '|')

/-- The start of the pattern matters for a bar only. -/
theorem signs_first (h : (!first && t.head? == some '|') = false) (last : Bool) :
    signs first last t = signs true last t := by
  cases t with
  | nil => rfl
  | cons x t =>
    cases first with
    | true => rfl
    | false =>
      have hx : x ≠ '|' := by simpa using h
      rw [signs_cons, signs_cons, signOf_of_ne_bar hx, signOf_of_ne_bar hx]

/-- The end of the pattern matters for a bar only. -/
theorem signs_last (h : (!last && t.getLast? == some '|') = false) (first : Bool) :
    signs first last t = signs first true t := by
  cases last with
  | true => rfl
  | false =>
    induction t generalizing first with
    | nil => rfl
    | cons x t ih =>
      cases t with
      | nil =>
        have hx : x ≠ '|' := by simpa using h
        rw [signs_cons, signs_cons, signOf_of_ne_bar hx, signOf_of_ne_bar hx]
        rfl
      | cons y t =>
        rw [signs_cons, signs_cons first true, ih false (by simpa using h)]
        rfl

/-- A bar at an end of the pattern is found in every text. -/
theorem found_bar (h : (first || last) = true) (t : Text) : Found (signs first last ['|']) t := by
  cases first with
  | true =>
    have hstart : MatchesFrom [.textStart] (Cursor.start t) := (matchesFrom_cons (by simp)).mpr ⟨_, .textStart, trivial⟩
    exact ⟨_, Cursor.onwards_refl _, hstart⟩
  | false =>
    obtain rfl : last = true := by simpa using h
    have hend : MatchesFrom [.textEnd] ⟨t.reverse, []⟩ := (matchesFrom_cons (by simp)).mpr ⟨_, .textEnd, trivial⟩
    exact ⟨_, Cursor.mem_onwards.mpr ⟨t, by simp [Cursor.start], by simp [Cursor.start]⟩, hend⟩

/-- Where asterisks hide no bar from the ends of the pattern, nothing changes without them; otherwise the sample of
the pattern without them has too few bars. -/
theorem found_iff_iff : (∀ text, Found (signs true true t) text ↔ Found (signs first last t) text) ↔
    exposes first last t = false := by
  constructor
  · intro h
    have hsample : Found (signs true true t) (sampleOf (signs true true t)) :=
      ⟨_, Cursor.onwards_refl _, matchesFrom_sampleOf fun _ => rfl⟩
    obtain ⟨c, hc, hfound⟩ := (h _).mp hsample
    have hcount := (count_le_of_matchesFrom hfound).trans (count_after_le hc)
    rw [show (Cursor.start (sampleOf (signs true true t))).after = sampleOf (signs true true t) from rfl,
      count_sampleOf] at hcount
    -- Both count the bars of the same pattern, so one that is an end for one side only makes them differ.
    have hkept := count_signs true true t
    have hgiven := count_signs first last t
    refine Bool.eq_false_iff.mpr fun hexposes => ?_
    unfold exposes at hexposes
    by_cases hbar : t = ['|']
    · subst hbar
      simp only [if_pos, Bool.and_eq_true, Bool.not_eq_true'] at hexposes
      obtain ⟨rfl, rfl⟩ := hexposes
      simp at hkept hgiven
      omega
    · rw [if_neg hbar] at hexposes
      rw [beq_false_of_ne hbar] at hkept hgiven
      generalize (t.head? == some '|') = startsWithBar at hexposes hkept hgiven
      generalize (t.getLast? == some '|') = endsWithBar at hexposes hkept hgiven
      cases first <;> cases last <;> cases startsWithBar <;> cases endsWithBar <;> simp at hexposes hkept hgiven <;>
        omega
  · intro h text
    unfold exposes at h
    by_cases hbar : t = ['|']
    · subst hbar
      refine iff_of_true (found_bar rfl text) (found_bar ?_ text)
      cases first <;> simp_all
    · rw [if_neg hbar, Bool.or_eq_false_iff] at h
      rw [signs_first h.1, signs_last h.2]

/-! ## Asterisks at the ends -/

/-- An asterisk in front is an empty span in front. -/
theorem parts_star_cons (t : Text) : Text.parts '*' ('*' :: t) = [] :: Text.parts '*' t :=
  Text.parts_append '*' [] t

/-- Asterisks in front are as many empty spans in front. -/
theorem parts_stars_append (ha : ∀ x ∈ a, x = '*') (t : Text) :
    Text.parts '*' (a ++ t) = (a.map fun _ => []) ++ Text.parts '*' t := by
  induction a with
  | nil => rfl
  | cons x a ih =>
    obtain ⟨rfl, hrest⟩ := List.forall_mem_cons.mp ha
    rw [List.cons_append, parts_star_cons, ih hrest]
    rfl

/-- Asterisks at the end are as many empty spans at the end. -/
theorem parts_append_stars (hb : ∀ x ∈ b, x = '*') (t : Text) :
    Text.parts '*' (t ++ b) = Text.parts '*' t ++ b.map fun _ => [] := by
  induction b generalizing t with
  | nil => simp
  | cons x b ih =>
    obtain ⟨rfl, hrest⟩ := List.forall_mem_cons.mp hb
    have hparts : Text.parts '*' b = [] :: b.map fun _ => [] := by simpa [Text.parts] using ih hrest []
    rw [Text.parts_append, hparts, List.map_cons]

/-- Empty spans behind asterisks are passed over. -/
theorem laterSpans_nils (a : Text) (ss : List Text) :
    laterSpans ((a.map fun _ => []) ++ ss) = laterSpans ss := by
  induction a with
  | nil => rfl
  | cons x a ih => exact ih

/-- In front of asterisks at the end no span ends the pattern. -/
theorem laterSpans_append_nils (hb : b ≠ []) (ss : List Text) :
    laterSpans (ss ++ b.map fun _ => []) = (laterSpans ss).map fun p => (p.1, false) := by
  induction ss with
  | nil =>
    have hnone := laterSpans_nils b []
    rw [List.append_nil] at hnone
    rw [List.nil_append, hnone]
    rfl
  | cons s ss ih =>
    rw [List.cons_append, laterSpans, laterSpans, ih]
    split
    · rfl
    · simp [hb]

/-- The spans of a pattern with asterisks at its ends, by the parts of what is between them. -/
structure Surrounds (a t b : Text) (s : Text) (ss : List Text) : Prop where
  firstSpan_eq : firstSpan (a ++ t ++ b) = if a.isEmpty then signs true (ss.isEmpty && b.isEmpty) s else []
  restSpans_eq : restSpans (a ++ t ++ b) =
    (if a.isEmpty then [] else [signs false (ss.isEmpty && b.isEmpty) s]) ++ laterSigns b.isEmpty ss

section
variable (ha : ∀ x ∈ a, x = '*') (hb : ∀ x ∈ b, x = '*') (hs : s ≠ []) (hparts : Text.parts '*' t = s :: ss)

include ha hb hs hparts

/-- A pattern between asterisks has its spans between empty ones. -/
theorem surrounds : Surrounds a t b s ss := by
  have hall : Text.parts '*' (a ++ t ++ b) = (a.map fun _ => []) ++ (s :: ss ++ b.map fun _ => []) := by
    rw [parts_append_stars hb, parts_stars_append ha, hparts, List.append_assoc]
  have hlater : (laterSpans (ss ++ b.map fun _ => [])).map (fun (s, last) => signs false last s) =
      laterSigns b.isEmpty ss := by
    cases b with
    | nil => simp [laterSigns]
    | cons x b =>
      rw [laterSpans_append_nils (List.cons_ne_nil x b), laterSigns, List.map_map]
      simp
  have hempty : (ss ++ b.map fun _ => ([] : Text)).isEmpty = (ss.isEmpty && b.isEmpty) := by
    cases ss <;> cases b <;> rfl
  -- In front of the first asterisk there is the first span, or nothing where asterisks surround it.
  cases a with
  | nil =>
    have hall : Text.parts '*' ([] ++ t ++ b) = s :: (ss ++ b.map fun _ => []) := hall
    refine ⟨?_, ?_⟩
    · rw [firstSpan, hall]
      simp only [hempty]
      rfl
    · rw [restSpans, hall, List.tail_cons, hlater]
      rfl
  | cons x a =>
    have hall : Text.parts '*' (x :: a ++ t ++ b) =
        [] :: ((a.map fun _ => []) ++ (s :: ss ++ b.map fun _ => [])) := hall
    refine ⟨?_, ?_⟩
    · rw [firstSpan, hall]
      rfl
    · have hspans : laterSpans (s :: ss ++ b.map fun _ => []) =
          (s, ss.isEmpty && b.isEmpty) :: laterSpans (ss ++ b.map fun _ => []) := by
        rw [List.cons_append, laterSpans, if_neg (by simpa using hs), hempty]
      rw [restSpans, hall, List.tail_cons, laterSpans_nils, hspans, List.map_cons, hlater]
      rfl

/-- A pattern matches where the signs of what is between its asterisks are found. -/
theorem matches_iff_found (text : Text) :
    Matches false (a ++ t ++ b) text ↔ Found (signs a.isEmpty b.isEmpty t) text := by
  obtain ⟨hfirst, hrest⟩ := surrounds ha hb hs hparts
  unfold Matches Found
  simp only [Bool.false_eq_true, false_imp_iff, true_and, matchesFrom_signs hparts, hfirst, hrest]
  cases a with
  | nil => rfl
  | cons x a =>
    simp only [List.isEmpty_cons, Bool.false_eq_true, if_false, List.singleton_append, followedBy_cons]
    constructor
    · rintro ⟨c, hc, _, ⟨⟩, d, hd, e, he, hlater⟩
      exact ⟨d, Cursor.onwards_trans hc hd, e, he, hlater⟩
    · rintro ⟨c, hc, e, he, hlater⟩
      exact ⟨c, hc, c, .nil c, c, Cursor.onwards_refl c, e, he, hlater⟩

end

/-! ## Sizes -/

/-- A bar has the size of an end of the text, whether it is one or stands for itself. -/
theorem size_signOf (first last first' last' : Bool) (x : Char) :
    (signOf first last x).size = (signOf first' last' x).size := by
  by_cases hx : x = '|'
  · subst hx
    cases first <;> cases last <;> cases first' <;> cases last' <;> rfl
  · rw [signOf_of_ne_bar hx, signOf_of_ne_bar hx]

/-- The size of a span does not depend on where in its pattern it stands. -/
theorem spanSize_signs (first last first' last' : Bool) (s : Text) :
    spanSize (signs first last s) = spanSize (signs first' last' s) := by
  induction s generalizing first first' with
  | nil => rfl
  | cons x s ih =>
    have hrest := ih false false
    have hsign := size_signOf first (last && s.isEmpty) first' (last' && s.isEmpty) x
    simp only [spanSize, signs_cons, List.map_cons, List.sum_cons] at hrest ⊢
    omega

/-- A span fits or not wherever it stands. -/
theorem spanFits_signs {first last first' last' : Bool} {s : Text} (h : SpanFits (signs first last s)) :
    SpanFits (signs first' last' s) := by
  rw [SpanFits, spanSize_signs first' last' first last]
  exact h

/-- What is handed over with a run fits without it, and so does its front. -/
theorem SpanFits.frontFits {ss : List Sign} (h : SpanFits ss) : FrontFits (front ss) := by
  have hle : spanSize (front ss) ≤ spanSize ss := by
    have hparts := congrArg spanSize (List.takeWhile_append_dropWhile (p := Sign.isFixed) (l := ss))
    simp only [spanSize, List.map_append, List.sum_append] at hparts
    simp only [spanSize, front]
    omega
  unfold SpanFits at h
  exact Or.inr (by omega)

/-- A span that is within the limit behind an asterisk is within that for patterns without asterisks. -/
theorem SpanFits.spanSize_le {ss : List Sign} (h : SpanFits ss) : spanSize ss ≤ Alternation.sizeLimit := by
  have hlimits : Regex.usualLimit ≤ Alternation.sizeLimit := by decide
  unfold SpanFits at h
  omega

section
variable (ha : ∀ x ∈ a, x = '*') (hb : ∀ x ∈ b, x = '*') (hs : s ≠ []) (hparts : Text.parts '*' t = s :: ss)

include ha hb hs hparts

/-- A pattern that can be compiled can be without the asterisks at its ends. -/
theorem fits_of_surrounded (hfit : Fits false (a ++ t ++ b)) : Fits false t := by
  obtain ⟨hfirst, hrest⟩ := surrounds ha hb hs hparts
  have hkept : Surrounds [] t [] s ss := surrounds (by simp) (by simp) hs hparts
  have hkeptFirst : firstSpan t = signs true ss.isEmpty s := by simpa using hkept.firstSpan_eq
  have hkeptRest : restSpans t = laterSigns true ss := by simpa using hkept.restSpans_eq
  rw [fits_iff] at hfit ⊢
  have hfit : if restSpans (a ++ t ++ b) = [] then spanSize (firstSpan (a ++ t ++ b)) ≤ Alternation.sizeLimit
      else (restSpans (a ++ t ++ b) ≠ [] → FrontFits (front (firstSpan (a ++ t ++ b))) ∧
        ∀ xs ∈ restSpans (a ++ t ++ b), SpanFits xs) ∧
        (restSpans (a ++ t ++ b)).length < Alternation.referenceLimit := hfit
  show if restSpans t = [] then spanSize (firstSpan t) ≤ Alternation.sizeLimit
    else (restSpans t ≠ [] → FrontFits (front (firstSpan t)) ∧ ∀ xs ∈ restSpans t, SpanFits xs) ∧
      (restSpans t).length < Alternation.referenceLimit
  rw [hfirst, hrest] at hfit
  rw [hkeptFirst, hkeptRest]
  -- Without asterisks inside, the text is one plain span. In its surroundings it may have been a later one, of
  -- which less is allowed.
  by_cases hlater : laterSpans ss = []
  · have hnone (last : Bool) : laterSigns last ss = [] := by rw [laterSigns, hlater, List.map_nil]
    rw [if_pos (hnone true)]
    rw [hnone, List.append_nil] at hfit
    cases a with
    | nil => exact (spanSize_signs _ _ _ _ s).trans_le hfit
    | cons x a => exact (spanFits_signs ((hfit.1 (by simp)).2 _ List.mem_cons_self)).spanSize_le
  · have hsome (last : Bool) : laterSigns last ss ≠ [] := by simpa [laterSigns] using hlater
    -- A span behind the first one is left, so that the first one does not end the pattern.
    have hmore : ss.isEmpty = false := by
      cases ss with
      | nil => exact absurd rfl hlater
      | cons => rfl
    rw [if_neg (hsome true)]
    rw [if_neg (by simp [hsome])] at hfit
    obtain ⟨hfront, hspans⟩ := hfit.1 (by simp [hsome])
    refine ⟨fun _ => ⟨?_, fun xs hxs => ?_⟩, ?_⟩
    · cases a with
      | nil => simpa [hmore] using hfront
      | cons x a => exact (spanFits_signs (hspans _ List.mem_cons_self)).frontFits
    · obtain ⟨⟨s', atEnd⟩, hmem, rfl⟩ := List.mem_map.mp hxs
      exact spanFits_signs (hspans _ (List.mem_append_right _ (List.mem_map_of_mem hmem)))
    · have hlength := hfit.2
      rw [List.length_append] at hlength
      simp only [laterSigns, List.length_map] at hlength ⊢
      omega

end

/-! ## Trimmed patterns -/

/-- An asterisk at an end of the pattern shields a bar, which is an end of the text without it. -/
def shieldsBar (q : Text) : Bool :=
  exposes (q.head? != some '*') (q.getLast? != some '*') (Text.trimChar '*' q)

/-- A pattern that is trimmed: what is left of it, between the asterisks that are taken off. -/
structure Trims (q a t b : Text) : Prop where
  eq : q = a ++ t ++ b
  before : ∀ x ∈ a, x = '*'
  behind : ∀ x ∈ b, x = '*'
  head : t.head? ≠ some '*'
  last : t.getLast? ≠ some '*'

/-- A pattern that is more than asterisks stands between those that are trimmed. -/
theorem exists_trims {q : Text} (hne : Text.trimChar '*' q ≠ []) : ∃ a b, Trims q a (Text.trimChar '*' q) b := by
  obtain ⟨u, hu⟩ : ∃ u, q.dropWhile (· == '*') = u := ⟨_, rfl⟩
  have htrim : Text.trimChar '*' q = u.rdropWhile (· == '*') := by rw [← hu]; rfl
  have hends : u.rdropWhile (· == '*') ++ u.rtakeWhile (· == '*') = u := List.rdropWhile_append_rtakeWhile
  rw [htrim] at hne ⊢
  refine ⟨q.takeWhile (· == '*'), u.rtakeWhile (· == '*'), ?_, fun x hx => ?_, fun x hx => ?_, ?_, ?_⟩
  · rw [List.append_assoc, hends, ← hu, List.takeWhile_append_dropWhile]
  · simpa using List.mem_takeWhile_imp hx
  · simpa using List.mem_rtakeWhile_imp hx
  · have hhead : (u.rdropWhile (· == '*')).head? = u.head? := by
      nth_rewrite 2 [← hends]
      rw [List.head?_append_of_ne_nil _ hne]
    have hstart := List.head?_dropWhile_not (· == '*') q
    rw [hhead, ← hu]
    rintro hstar
    simp [hstar] at hstart
  · rw [List.getLast?_eq_some_getLast hne]
    have hend := List.rdropWhile_last_not (· == '*') u hne
    simpa using hend

section
variable {q : Text} (hq : Trims q a t b) (hne : t ≠ [])

include hq hne

/-- A trimmed pattern has a first span with characters. -/
theorem Trims.exists_parts : ∃ s ss, Text.parts '*' t = s :: ss ∧ s ≠ [] := by
  obtain ⟨s, ss, hparts⟩ := List.exists_cons_of_ne_nil (Text.parts_ne_nil '*' t)
  refine ⟨s, ss, hparts, ?_⟩
  rintro rfl
  have ht := Text.eq_append_flatMap_of_parts hparts
  cases ss with
  | nil => exact hne ht
  | cons s ss => exact hq.head (by rw [ht]; rfl)

/-- A pattern shields a bar when trimming exposes one. -/
theorem Trims.shieldsBar_eq (htrim : Text.trimChar '*' q = t) : shieldsBar q = exposes a.isEmpty b.isEmpty t := by
  obtain ⟨rfl, ha, hb, hhead, hlast⟩ := hq
  have hfirst : ((a ++ t ++ b).head? != some '*') = a.isEmpty := by
    cases a with
    | nil =>
      rw [List.nil_append, List.head?_append_of_ne_nil _ hne]
      simpa using hhead
    | cons x a => simp [ha x List.mem_cons_self]
  have hend : ((a ++ t ++ b).getLast? != some '*') = b.isEmpty := by
    rcases List.eq_nil_or_concat b with rfl | ⟨b, x, rfl⟩
    · rw [List.append_nil, List.getLast?_append_of_ne_nil _ hne]
      simpa using hlast
    · rw [List.concat_eq_append] at hb ⊢
      simp [← List.append_assoc, hb x (by simp)]
  rw [shieldsBar, hfirst, hend, htrim]

end

/-- A pattern is matched in the same texts without the asterisks at its ends, exactly when they shield no bar. -/
theorem matches_trimChar_iff {q : Text} (hne : Text.trimChar '*' q ≠ []) :
    (∀ text, Matches false (Text.trimChar '*' q) text ↔ Matches false q text) ↔ shieldsBar q = false := by
  obtain ⟨a, b, hq⟩ := exists_trims hne
  obtain ⟨s, ss, hparts, hs⟩ := hq.exists_parts hne
  have hgiven := matches_iff_found hq.before hq.behind hs hparts
  have hkept := matches_iff_found (a := []) (b := []) (by simp) (by simp) hs hparts
  rw [List.nil_append, List.append_nil] at hkept
  rw [← hq.eq] at hgiven
  rw [hq.shieldsBar_eq hne rfl, ← found_iff_iff]
  exact forall_congr' fun text => iff_congr (hkept text) (hgiven text)

/-- A pattern that can be compiled can be without the asterisks at its ends. -/
theorem fits_trimChar {q : Text} (hne : Text.trimChar '*' q ≠ []) (hfit : Fits false q) :
    Fits false (Text.trimChar '*' q) := by
  obtain ⟨a, b, hq⟩ := exists_trims hne
  obtain ⟨s, ss, hparts, hs⟩ := hq.exists_parts hne
  rw [hq.eq] at hfit
  exact fits_of_surrounded hq.before hq.behind hs hparts hfit

end UrlFilter.Glob
