import UrlFilter.Proofs.Glob.Alternation

/-!
# One glob

The alternation of one glob. A glob fits when it can be made: without asterisks it has to be within the limit
for patterns without memory, and otherwise everything that is handed over of it within the limit for a part.
Then it matches as the glob does.
-/

namespace UrlFilter.Glob

open Alternation (Fragment Matcher)
open Backtrack (Expr)

/-- A glob is not too large to be compiled alone, and its asterisks can be numbered. -/
def Outline.Fits (o : Outline) : Prop :=
  if o.rest = [] then spanSize o.head ≤ Alternation.sizeLimit
  else o.PartsFit ∧ o.rest.length < Alternation.referenceLimit

/-- Whether an outline fits is decided by the sizes of its parts. -/
instance (o : Outline) : Decidable o.Fits := by
  unfold Outline.Fits
  infer_instance

/-! ## Globs that are too large -/

/-- A glob without asterisks that is too large for one pattern without memory is also too large for the
reader of patterns with memory. -/
theorem compile?_plain_eq_none {o : Outline} (hplain : o.rest = [])
    (hlarge : Alternation.sizeLimit < spanSize o.head) :
    Backtrack.compile? (Alternation.join [o.text 0]) = none := by
  have htotal : starTotal [o] = 0 := by simp [starTotal, hplain]
  obtain ⟨refs, hparse, -⟩ := @memory_parse? [o] (by simp) (by rw [htotal]; decide)
  obtain ⟨hhard, hregex⟩ := toRegex?_branch hplain refs 0
  have hlimits : Regex.usualLimit < Alternation.sizeLimit := by decide
  have hover : (Backtrack.branchOf (o.exprs 0)).whole? = none := by
    rw [Expr.whole?_eq hregex, size_spanRegex ignoresCase_foldsPlain, if_neg (by omega)]
  have hjoin : Alternation.join [o.text 0] = Alternation.join (texts 0 [o]) := rfl
  have hchoice : Backtrack.choiceOf (branchExprs 0 [o]) = Backtrack.branchOf (o.exprs 0) := rfl
  rw [hjoin, Backtrack.compile?, hparse, hchoice]
  simp [hhard, hover]

section

variable {o : Outline}

/-- One fragment is one chunk. -/
theorem chunks_single (f : Fragment) : Alternation.chunks Alternation.chunkSize [f] = [[f]] := by
  rw [Alternation.chunks_of_ne_nil (by decide) (by simp)]
  exact congrArg _ (Alternation.chunks_nil _)

/-- The chunk of one outline is that outline as a pattern. -/
theorem chunkText_single : Alternation.chunkText [fragmentOf (o, 0)] = Alternation.join [o.text 0] := by
  simp [fragmentOf, Alternation.chunkText, Alternation.chunkTexts, Alternation.lowerReferences]

/-- One glob that goes into a chunk makes no matcher when it does not compile there. -/
theorem compileChunks?_single (hnone : Backtrack.compile? (Alternation.join [o.text 0]) = none) :
    Matcher.compileChunks? [[⟨o.text 0, 0⟩]] = none := by
  have hchunk : Alternation.chunkText [⟨o.text 0, 0⟩] = Alternation.join [o.text 0] := chunkText_single
  rw [Matcher.compileChunks?, hchunk, hnone]
  rfl

/-- An outline with wildcards makes no matcher when it does not compile. -/
theorem ofFragments?_starred (hstar : o.rest ≠ [])
    (hnone : Backtrack.compile? (Alternation.join [o.text 0]) = none) :
    Matcher.ofFragments? [o.text 0] = none := by
  have hback : (⟨o.text 0, 0⟩ : Fragment).backtracks = true := by
    rw [show (⟨o.text 0, 0⟩ : Fragment).backtracks = !o.rest.isEmpty from o.backtracks_text 0]
    simpa using hstar
  have hsplit : Matcher.splitLinear [] = (none, []) := rfl
  simp only [Matcher.ofFragments?, Fragment.listFrom, List.partition_eq_filter_filter, List.filter_cons,
    List.filter_nil, Function.comp_apply, hback, Bool.not_true, Bool.false_eq_true, if_false, if_true,
    hsplit, List.append_nil, chunks_single, compileChunks?_single hnone, Option.map_none]

/-- A glob without asterisks that is too large is no pattern without memory by itself. -/
theorem joined?_large (hplain : o.rest = []) (hlarge : Alternation.sizeLimit < spanSize o.head) (used : Nat) :
    Alternation.joined? [fragmentOf (o, used)] = none := by
  have h := @joined?_plain [(o, used)] (by simp) (by simpa using hplain)
  have hover : ¬(spanRegex foldsAll o.head).size ≤ Alternation.sizeLimit := by
    rw [size_spanRegex ignoresCase_foldsAll]
    omega
  have hone : Regex.altAll [spanRegex foldsAll o.head] = spanRegex foldsAll o.head := rfl
  simp only [List.map_cons, List.map_nil, hone, Option.filter_some, decide_eq_false hover] at h
  exact h

/-- An outline without wildcards makes no matcher when it is too large. -/
theorem ofFragments?_plain (hplain : o.rest = [])
    (hlarge : Alternation.sizeLimit < spanSize o.head) :
    Matcher.ofFragments? [o.text 0] = none := by
  have hback : (⟨o.text 0, 0⟩ : Fragment).backtracks = false := by
    rw [show (⟨o.text 0, 0⟩ : Fragment).backtracks = !o.rest.isEmpty from o.backtracks_text 0, hplain]
    rfl
  have hsplit : (Matcher.splitLinear [⟨o.text 0, 0⟩]).2 = [⟨o.text 0, 0⟩] := by
    have hjoined : Alternation.joined? [⟨o.text 0, 0⟩] = none := joined?_large hplain hlarge 0
    simp [Matcher.splitLinear_snd, hjoined]
  simp only [Matcher.ofFragments?_eq, Matcher.inChunks, Fragment.listFrom, List.filter_cons, List.filter_nil,
    Function.comp_apply, hback, Bool.not_false, Bool.false_eq_true, if_false, if_true, hsplit, List.nil_append,
    chunks_single, compileChunks?_single (compile?_plain_eq_none hplain hlarge), Option.map_none]

/-- A glob that does not fit makes no matcher. -/
theorem ofFragments?_eq_none (hfit : ¬o.Fits) : Matcher.ofFragments? [o.text 0] = none := by
  unfold Outline.Fits at hfit
  by_cases hplain : o.rest = []
  · rw [if_pos hplain, Nat.not_le] at hfit
    exact ofFragments?_plain hplain hfit
  · rw [if_neg hplain] at hfit
    by_cases hlimit : o.rest.length < Alternation.referenceLimit
    · exact @ofFragments?_texts_eq_none [o] (by simp [plainSize, plainOnes, hplain])
        (by simpa [starTotal] using hlimit) o (by simp) fun hparts => hfit ⟨hparts, hlimit⟩
    · have hcounts : Counts 0 [(o, 0)] := ⟨List.pairwise_singleton _ _, by simp⟩
      have hchunk := compile?_chunk_eq_none hcounts
        ⟨(o, 0), by simp, fun h => hlimit (by simpa using h hplain)⟩
      rw [List.map_singleton, chunkText_single] at hchunk
      exact ofFragments?_starred hplain hchunk

/-! ## Globs that fit -/

/-- A glob that fits makes a matcher, which matches as its outline does. -/
theorem ofFragments?_of_fits (hfit : o.Fits) :
    ∃ m, Matcher.ofFragments? [o.text 0] = some m ∧ ∀ t, m.isMatch t = true ↔ o.IsMatch t := by
  unfold Outline.Fits at hfit
  have hbounds : plainSize [o] ≤ Alternation.sizeLimit ∧ starTotal [o] < Alternation.referenceLimit ∧
      o.PartsFit := by
    -- What fits means depends on the rest: a plain outline is joined, a starred one is a chunk.
    by_cases hplain : o.rest = []
    · rw [if_pos hplain] at hfit
      refine ⟨?_, ?_, fun hstar => absurd hplain hstar⟩
      · simp only [plainSize, plainOnes, List.filter_cons, hplain, List.isEmpty_nil, if_true,
          List.filter_nil, List.map_cons, List.map_nil, List.sum_cons, List.sum_nil]
        omega
      · simp only [starTotal, List.map_cons, hplain, List.length_nil, List.map_nil, List.sum_cons,
          List.sum_nil]
        decide
    · rw [if_neg hplain] at hfit
      exact ⟨by simp [plainSize, plainOnes, hplain], by simpa [starTotal] using hfit.2, hfit.1⟩
  obtain ⟨m, hm, hmatch⟩ := ofFragments?_texts hbounds.1 hbounds.2.1 (by simpa using hbounds.2.2)
  exact ⟨m, hm, by simpa using hmatch⟩

end

/-- Globs each of which fits make a matcher, however large those without asterisks are together. -/
theorem exists_ofFragments?_of_fits {os : List Outline} (hlimit : starTotal os < Alternation.referenceLimit)
    (hfits : ∀ o ∈ os, o.Fits) : ∃ m, Matcher.ofFragments? (texts 0 os) = some m := by
  have hparts := partition_numbered os
  rw [List.partition_eq_filter_filter, Prod.mk.injEq] at hparts
  -- What has no asterisks fits into a pattern without memory alone, so only what has goes into chunks.
  have hplain : ((plainNumbered os).map fragmentOf).filter (fun f => (Alternation.joined? [f]).isNone) = [] := by
    refine List.filter_eq_nil_iff.mpr fun f hf => ?_
    obtain ⟨p, hp, rfl⟩ := List.mem_map.mp hf
    have hnil := rest_of_mem_plainNumbered hp
    have hfit := hfits p.1 (mem_of_mem_plainNumbered hp)
    rw [Outline.Fits, if_pos hnil] at hfit
    have hjoined := @joined?_plain [p] (by simp) (by simpa using hnil)
    have hsize : (Regex.altAll [spanRegex foldsAll p.1.head]).size ≤ Alternation.sizeLimit := by
      rw [Regex.altAll, List.foldl_nil, size_spanRegex ignoresCase_foldsAll]
      exact hfit
    rw [List.map_singleton, List.map_singleton, Option.filter_some, decide_eq_true hsize, if_pos rfl] at hjoined
    simp [hjoined]
  refine Matcher.exists_ofFragments? fun c hne hc _ => ?_
  rw [Matcher.chunked, hparts.1, hparts.2, hplain, List.append_nil] at hc
  obtain ⟨c, hsub, rfl⟩ := List.sublist_map_iff.mp hc
  refine ⟨_, (compile?_starred hlimit (by simpa using hne) hsub).trans (if_pos fun o ho => ?_)⟩
  obtain ⟨p, hp, rfl⟩ := List.mem_map.mp ho
  have hfit := hfits p.1 (mem_of_mem_starredOnes (hsub.subset hp))
  rw [Outline.Fits, if_neg (rest_of_mem_starredOnes (hsub.subset hp))] at hfit
  exact hfit.1

/-! ## Patterns -/

/-- One fragment makes an alternation when it makes a matcher. -/
theorem ofFragments_single (rules : List Text) (f : Text) :
    Alternation.ofFragments rules [f] =
      match Matcher.ofFragments? [f] with
      | some m => .ok ⟨rules, Alternation.join [f], some m⟩
      | none => .error .invalidPattern := by
  rw [Alternation.ofFragments, if_neg (by simp), Alternation.matcherOf]
  cases Matcher.ofFragments? [f] <;> rfl

/-- A pattern can be compiled alone. -/
def Fits (anchored : Bool) (pattern : Text) : Prop :=
  ∃ a, Alternation.ofFragments [pattern] [fragment anchored 0 pattern] = .ok a

/-- A pattern can be compiled alone when its outline fits, and not otherwise. -/
theorem fits_iff {anchored : Bool} {pattern : Text} : Fits anchored pattern ↔ (outline anchored pattern).Fits := by
  rw [Fits, ofFragments_single, fragment_eq]
  constructor
  · rintro ⟨a, ha⟩
    by_contra hfit
    rw [ofFragments?_eq_none hfit] at ha
    cases ha
  · intro hfit
    obtain ⟨m, hm, -⟩ := ofFragments?_of_fits hfit
    exact ⟨_, by rw [hm]⟩

/-- Whether a pattern fits is decided by its outline. -/
instance (anchored : Bool) (pattern : Text) : Decidable (Fits anchored pattern) := decidable_of_iff' _ fits_iff

/-- A pattern that can be compiled makes an alternation, which matches as the pattern does. -/
theorem ofFragments_of_fits {anchored : Bool} {pattern : Text} (hfit : Fits anchored pattern)
    (rules : List Text) :
    ∃ a, Alternation.ofFragments rules [fragment anchored 0 pattern] = .ok a ∧
      ∀ t, a.isMatch t = true ↔ Matches anchored pattern t := by
  obtain ⟨m, hm, hmatch⟩ := ofFragments?_of_fits (fits_iff.mp hfit)
  rw [← fragment_eq] at hm
  refine ⟨_, by rw [ofFragments_single, hm], fun t => ?_⟩
  rw [Alternation.isMatch, Option.any_some, hmatch, outline_isMatch_iff]

/-- A pattern that cannot be compiled makes no alternation. -/
theorem ofFragments_of_not_fits {anchored : Bool} {pattern : Text} (hfit : ¬Fits anchored pattern)
    (rules : List Text) :
    Alternation.ofFragments rules [fragment anchored 0 pattern] = .error .invalidPattern := by
  rw [ofFragments_single, fragment_eq, ofFragments?_eq_none fun h => hfit (fits_iff.mpr h)]

/-! ## Carets -/

/-- The signs of a run of carets. -/
theorem signs_carets (n : Nat) (first last : Bool) :
    signs first last (List.replicate n '^') = List.replicate n .separator := by
  induction n generalizing first with
  | zero => rfl
  | succ n ih =>
    rw [List.replicate_succ, signs, ih, List.replicate_succ]
    rfl

/-- A run of carets behind an asterisk is one span. -/
theorem restSpans_carets {n : Nat} (hn : n ≠ 0) :
    restSpans ('a' :: '*' :: List.replicate n '^') = [List.replicate n .separator] := by
  have hparts : Text.parts '*' ('a' :: '*' :: List.replicate n '^') = [['a'], List.replicate n '^'] := by
    have hcarets : '*' ∉ List.replicate n '^' := by simp [List.mem_replicate]
    simp [Text.parts, Text.parts_of_notMem hcarets]
  simp [restSpans, hparts, laterSpans, hn, signs_carets]

/-- The size of separators is that of one times their number. -/
theorem spanSize_separators (n : Nat) :
    spanSize (List.replicate n .separator) = n * Sign.size .separator := by
  rw [spanSize, List.map_replicate]
  simp

/-- A thousand carets behind an asterisk are too many. -/
theorem not_fits_carets {n : Nat} (hn : 1000 ≤ n) : ¬Fits false ('a' :: '*' :: List.replicate n '^') := by
  have hrest : (outline false ('a' :: '*' :: List.replicate n '^')).rest = [List.replicate n .separator] :=
    restSpans_carets (by omega)
  have hlarge : ¬SpanFits (List.replicate n .separator) := by
    have hlimit : Regex.usualLimit < 1000 * Sign.size .separator := by decide
    have hmono := Nat.mul_le_mul_right (Sign.size .separator) hn
    rw [SpanFits, spanSize_separators]
    omega
  intro hfit
  rw [fits_iff, Outline.Fits, Outline.partsFit_iff (by simp [hrest]), hrest, if_neg (by simp)] at hfit
  exact hlarge (hfit.1.2 _ (List.mem_singleton.mpr rfl))

end UrlFilter.Glob
