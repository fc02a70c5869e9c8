import UrlFilter.Proofs.Glob.Ways

/-!
# Chunks of fragments

What the fragments of a chunk are compiled to, those without asterisks among them. Their references are
lowered to count the groups of the chunk; a reference whose number no reference can have stays as it is, and
then the chunk is not read at all. So whatever a chunk is compiled to matches when one of its outlines does.
-/

namespace UrlFilter.Glob

open Alternation (chunkText chunkTexts referenceLimit)
open Backtrack (Expr Frame Pattern Reading Token)
open Regex (Cursor)

/-! ## Chunks whose references are lowered -/

/-- No more groups are opened than there are numbers, up to the end of an outline whose references are
lowered. -/
theorem Counts.next_lt {groups : Nat} {p : Outline × Nat} {c : List (Outline × Nat)}
    (h : Counts groups (p :: c)) (hgroups : groups < referenceLimit) (hp : Referable p) :
    groups + p.1.rest.length < referenceLimit := by
  by_cases hplain : p.1.rest = []
  · simpa [hplain] using hgroups
  · have hle := h.head hplain
    have hlt := hp hplain
    omega

/-- The wildcards of a chunk are fewer than the limit on references. -/
theorem Counts.starTotal_lt {groups : Nat} {c : List (Outline × Nat)} (h : Counts groups c)
    (hgroups : groups < referenceLimit) (hlimit : ∀ p ∈ c, Referable p) :
    groups + starTotal (c.map Prod.fst) < referenceLimit := by
  induction c generalizing groups with
  | nil => simpa [starTotal] using hgroups
  | cons p c ih =>
    have hrest := ih h.tail (h.next_lt hgroups (hlimit p (by simp))) fun q hq => hlimit q (by simp [hq])
    simp only [starTotal, List.map_cons, List.sum_cons] at hrest ⊢
    omega

/-- A chunk is written as the pattern of its outlines, numbered from one on. -/
theorem chunkText_fragmentOf {c : List (Outline × Nat)} (hcounts : Counts 0 c) (hlimit : ∀ p ∈ c, Referable p) :
    chunkText (c.map fragmentOf) = Alternation.join (texts 0 (c.map Prod.fst)) := by
  rw [chunkText, chunkTexts_fragmentOf hcounts hlimit]

/-- A chunk of outlines with asterisks is compiled as its outlines alone. -/
theorem compile?_chunk {c : List (Outline × Nat)} (hne : c ≠ []) (hstar : ∀ p ∈ c, p.1.rest ≠ [])
    (hcounts : Counts 0 c) (hlimit : ∀ p ∈ c, Referable p) :
    Backtrack.compile? (chunkText (c.map fragmentOf)) =
      if ∀ o ∈ c.map Prod.fst, o.PartsFit then
        some (Pattern.altAll (patternsFrom 0 (c.map Prod.fst)))
      else none := by
  have htotal := hcounts.starTotal_lt (by decide) hlimit
  rw [Nat.zero_add] at htotal
  rw [chunkText_fragmentOf hcounts hlimit]
  refine memory_compile? (by simpa using hne) ?_ htotal
  intro o ho
  obtain ⟨p, hp, rfl⟩ := List.mem_map.mp ho
  exact hstar p hp

/-! ## Numbers that are too large -/

/-- Wildcards begin with no digit, nor does what is left when there are none. -/
theorem noDigitFirst_loweredStars (n used : Nat) (rest : List (List Sign)) {u : Text}
    (hu : Text.NoDigitFirst u) : Text.NoDigitFirst (loweredStars n used rest ++ u) := by
  cases rest with
  | nil => exact hu
  | cons ss rest => exact .cons rfl

section

variable {size used : Nat} {refs : List Nat} {frames : List Frame} {branches : List Expr}
  {numbered afterAtom : Bool}

/-- Spans behind asterisks are not read when one of their references keeps a number that is too large. -/
theorem memory_loweredStars_fails (hframes : frames.length + 3 < Reading.maxDepth) {n : Nat}
    {rest : List (List Sign)} (hstar : rest ≠ []) (hne : ∀ ss ∈ rest, ss ≠ [])
    (hlimit : referenceLimit ≤ n + used + rest.length) (hsize : used + rest.length < size / 2)
    (parts : List Expr) {u : Text} (hu : Text.NoDigitFirst u) :
    (memoryWith used refs frames ⟨branches, parts⟩ numbered afterAtom).Fails size
      (loweredStars n (n + used) rest ++ u) := by
  -- By induction on the spans, up to the first one whose number is not lowered.
  induction rest generalizing used refs numbered afterAtom parts with
  | nil => exact absurd rfl hstar
  | cons ss rest ih =>
    rw [List.length_cons] at hlimit hsize
    have hu' : Text.NoDigitFirst (loweredStars n (n + used + 1) rest ++ u) :=
      noDigitFirst_loweredStars _ _ rest hu
    rw [loweredStars, List.append_assoc]
    by_cases hlower : n + used + 1 < referenceLimit
    · have hnumber : loweredNumber n (n + used + 1) = used + 1 := by
        rw [loweredNumber, if_pos hlower]
        omega
      have hrest : rest ≠ [] := by
        rintro rfl
        rw [List.length_nil] at hlimit
        omega
      rw [hnumber]
      exact (memory_star_leads hframes (hne ss (by simp)) (Nat.lt_of_le_of_lt (by omega) hlower) (by omega)
        parts hu').fails (ih hrest (fun ss' hss' => hne ss' (by simp [hss'])) (by omega) (by omega) _)
    · have hnumber : loweredNumber n (n + used + 1) = n + used + 1 := if_neg hlower
      rw [hnumber]
      exact (memory_run_leads hframes (hne ss (by simp)) parts _ _).fails
        (memory_reference_fails (Nat.le_of_not_lt hlower) hu')

/-- A fragment is not read when one of its references is not lowered. -/
theorem memory_lowered_fails (hframes : frames.length + 3 < Reading.maxDepth) {p : Outline × Nat}
    (hgroups : p.1.rest ≠ [] → used ≤ p.2) (hlarge : ¬Referable p) (hsize : used + p.1.rest.length < size / 2)
    {u : Text} (hu : Text.NoDigitFirst u) :
    (memoryWith used refs frames ⟨branches, []⟩ numbered afterAtom).Fails size
      (Alternation.lowerReferences (p.2 - used) (p.1.text p.2) ++ u) := by
  have hstar : p.1.rest ≠ [] := fun hplain => hlarge fun hstar => absurd hplain hstar
  have hlimit : referenceLimit ≤ p.2 + p.1.rest.length := Nat.le_of_not_lt fun hlt => hlarge fun _ => hlt
  have hle := hgroups hstar
  obtain ⟨afterAtom', hhead⟩ := @memory_span_leads size used refs frames branches numbered afterAtom
    (by omega) p.1.head [] (loweredStars (p.2 - used) p.2 p.1.rest ++ u)
  have hstars := @memory_loweredStars_fails size used refs frames branches numbered afterAtom' hframes
    (p.2 - used) p.1.rest hstar p.1.rest_ne_nil (by omega) hsize ((p.1.head.map Sign.expr).reverse ++ []) u hu
  rw [show p.2 - used + used = p.2 by omega] at hstars
  rw [p.1.lowerReferences_eq, List.append_assoc]
  exact hhead.fails hstars

/-- A chunk is not read when a reference of one of its outlines is not lowered. -/
theorem memory_chunk_fails (hframes : frames.length + 3 < Reading.maxDepth) {c : List (Outline × Nat)}
    (hcounts : Counts used c) (hused : used < referenceLimit) (hlarge : ∃ p ∈ c, ¬Referable p)
    (hsize : used + starTotal (c.map Prod.fst) < size / 2) {u : Text} (hu : Text.NoDigitFirst u) :
    (memoryWith used refs frames ⟨branches, []⟩ numbered afterAtom).Fails size
      (Text.join ['|'] (chunkTexts used (c.map fragmentOf)) ++ u) := by
  -- By induction on the outlines: those in front of the first such one are read.
  induction c generalizing used refs branches numbered afterAtom with
  | nil => simp at hlarge
  | cons p c ih =>
    have htotal : starTotal ((p :: c).map Prod.fst) = p.1.rest.length + starTotal (c.map Prod.fst) := by
      simp [starTotal]
    have htexts : chunkTexts used ((p :: c).map fragmentOf) =
        Alternation.lowerReferences (p.2 - used) (p.1.text p.2) ::
          chunkTexts (used + p.1.rest.length) (c.map fragmentOf) := by
      simp only [List.map_cons, chunkTexts, fragmentOf, Alternation.Fragment.groups, p.1.groupCount_text]
    rw [htotal] at hsize
    rw [htexts]
    by_cases hp : Referable p
    · have hlarge : ∃ q ∈ c, ¬Referable q := by simpa [hp] using hlarge
      have hnext := hcounts.next_lt hused hp
      obtain ⟨refs', numbered', hfirst, -⟩ := @memory_branch_leads size used refs frames branches numbered
        afterAtom hframes p.1 hnext (by omega)
        (Text.join ['|'] (chunkTexts (used + p.1.rest.length) (c.map fragmentOf)) ++ u)
      have hrest := @ih (used + p.1.rest.length) refs' (Backtrack.branchOf (p.1.exprs used) :: branches)
        numbered' false hcounts.tail hnext hlarge (by omega)
      rw [lowerReferences_fragmentOf hcounts.head hp]
      cases c with
      | nil => simp at hlarge
      | cons q c =>
        have h := hfirst.fails hrest
        simp only [List.map_cons, chunkTexts, Text.join, List.append_assoc] at h ⊢
        exact h
    · cases hts : chunkTexts (used + p.1.rest.length) (c.map fragmentOf) with
      | nil => exact memory_lowered_fails hframes hcounts.head hp (by omega) hu
      | cons t ts =>
        have h := @memory_lowered_fails size used refs frames branches numbered afterAtom hframes p
          hcounts.head hp (by omega) ('|' :: (Text.join ['|'] (t :: ts) ++ u)) (.cons rfl)
        simpa [Text.join] using h

end

/-- A chunk is not compiled when a reference of one of its outlines is not lowered. -/
theorem compile?_chunk_eq_none {c : List (Outline × Nat)} (hcounts : Counts 0 c)
    (hlarge : ∃ p ∈ c, ¬Referable p) : Backtrack.compile? (chunkText (c.map fragmentOf)) = none := by
  -- Each asterisk takes two characters at least, so that the text is long enough for every number that is in
  -- reach.
  have hlengths (groups : Nat) (c : List (Outline × Nat)) :
      List.Forall₂ (fun o t => 2 * o.rest.length ≤ t.length) (c.map Prod.fst)
        (chunkTexts groups (c.map fragmentOf)) := by
    induction c generalizing groups with
    | nil => exact .nil
    | cons p c ih =>
      refine .cons ?_ (ih _)
      have hstars := two_mul_length_le_loweredStars (p.2 - groups) p.2 p.1.rest
      show 2 * p.1.rest.length ≤ (Alternation.lowerReferences (p.2 - groups) (p.1.text p.2)).length
      rw [p.1.lowerReferences_eq, List.length_append]
      omega
  have hsize := starTotal_lt (hlengths 0 c)
  have hopen := Backtrack.leads_opening (Text.byteLength (chunkText (c.map fragmentOf)))
    (Text.join ['|'] (chunkTexts 0 (c.map fragmentOf)) ++ [')'])
  have hfails := hopen.fails (memory_chunk_fails (by decide) hcounts (by decide) hlarge
    (by rwa [Nat.zero_add]) (.cons rfl : Text.NoDigitFirst [')']))
  have htext : Alternation.opening ++ (Text.join ['|'] (chunkTexts 0 (c.map fragmentOf)) ++ [')']) =
      chunkText (c.map fragmentOf) := by
    rw [chunkText, Alternation.join, List.append_assoc]
  rw [htext] at hfails
  rw [Backtrack.compile?, Backtrack.parse?, hfails _ (Nat.lt_succ_self _)]
  rfl

/-! ## Outlines without asterisks -/

/-- A glob without asterisks as the reader of patterns with memory reads it. -/
theorem toRegex?_branch {o : Outline} (hplain : o.rest = []) (refs : List Nat) (used : Nat) :
    ((Backtrack.branchOf (o.exprs used)).info refs).hard = false ∧
      (Backtrack.branchOf (o.exprs used)).toRegex? = some (spanRegex foldsPlain o.head) := by
  have hexprs : o.exprs used = o.head.map Sign.expr := by
    rw [Outline.exprs, hplain]
    exact List.append_nil _
  have hnonempty : ∀ e ∈ o.head.map Sign.expr, e.isEmpty = false := by
    intro e he
    obtain ⟨s, -, rfl⟩ := List.mem_map.mp he
    exact s.isEmpty_expr
  rw [hexprs, branchOf_of_nonempty hnonempty]
  -- A sequence of one part is the part itself, and one of none is empty.
  cases o.head with
  | nil =>
    constructor
    · rw [List.map_nil, sequenceOf, Expr.info]
    · rw [List.map_nil, sequenceOf, Expr.toRegex?]
      rfl
  | cons s ss =>
    cases ss with
    | nil => exact ⟨s.hard_expr refs, s.toRegex?_expr⟩
    | cons s' ss =>
      have hsequence : sequenceOf ((s :: s' :: ss).map Sign.expr) = .concat ((s :: s' :: ss).map Sign.expr) :=
        rfl
      rw [hsequence]
      constructor
      · rw [Expr.hard_concat, List.any_eq_false]
        intro e he
        obtain ⟨t, -, rfl⟩ := List.mem_map.mp he
        simp [t.hard_expr refs]
      · rw [Expr.toRegex?, toRegexes?_span]
        rfl

/-- An outline without asterisks matches as its span does. -/
theorem Outline.isMatch_iff_of_plain {o : Outline} (hplain : o.rest = []) {folds : Char → Bool}
    (hfolds : IgnoresCase folds) (t : Text) : o.IsMatch t ↔ (spanRegex folds o.head).isMatch t = true := by
  rw [isMatch_spanRegex hfolds, IsMatch, hplain]
  refine exists_congr fun c => and_congr_right fun _ => ?_
  cases afterSpan? o.head c <;> simp [runSpans?]

/-! ## What a chunk matches -/

/-- A branch that is compiled matches as its outline does. -/
theorem isMatch_branch {refs : List Nat} {o : Outline} {used : Nat}
    (hrefs : ∀ k, used < k → k ≤ used + o.rest.length → k ∈ refs) {p : Pattern}
    (hp : (Backtrack.branchOf (o.exprs used)).compile refs true = some p) (t : Text) :
    p.isMatch t = true ↔ o.IsMatch t := by
  by_cases hplain : o.rest = []
  · obtain ⟨hhard, hregex⟩ := toRegex?_branch hplain refs used
    rw [(Expr.agrees_of_compile hhard hregex hp).isMatch_iff,
      o.isMatch_iff_of_plain hplain ignoresCase_foldsPlain]
  · rw [compile_branch hplain used hrefs, Option.ite_none_right_eq_some, Option.some.injEq] at hp
    rw [← hp.2, o.isMatch_pattern]

/-- A branch that is compiled matches where its outline does. -/
theorem exists_isMatch_branches {refs : List Nat} {os : List Outline} {used : Nat}
    (hrefs : ∀ k, used < k → k ≤ used + starTotal os → k ∈ refs) {ps : List Pattern}
    (hps : Expr.compileBranches refs true (branchExprs used os) = some ps) (t : Text) :
    (∃ p ∈ ps, p.isMatch t = true) ↔ ∃ o ∈ os, o.IsMatch t := by
  induction os generalizing used ps with
  | nil =>
    simp only [branchExprs, Expr.compileBranches, Option.some.injEq] at hps
    simp [← hps]
  | cons o os ih =>
    have htotal : starTotal (o :: os) = o.rest.length + starTotal os := by simp [starTotal]
    rw [htotal] at hrefs
    simp only [branchExprs, Expr.compileBranches, Option.bind_eq_some_iff, Option.map_eq_some_iff] at hps
    obtain ⟨p, hp, ps, hps, rfl⟩ := hps
    have hfirst := isMatch_branch (fun k h1 h2 => hrefs k h1 (by omega)) hp t
    have hrest := ih (fun k h1 h2 => hrefs k (by omega) (by omega)) hps
    simp only [List.mem_cons, exists_eq_or_imp, hfirst, hrest]

/-- A span that is read matches where its outline does. -/
theorem exists_isMatch_spans {os : List Outline} (hplain : ∀ o ∈ os, o.rest = []) {used : Nat}
    {rs : List Regex} (hrs : Expr.toRegexes? (branchExprs used os) = some rs) (t : Text) :
    (∃ r ∈ rs, r.isMatch t = true) ↔ ∃ o ∈ os, o.IsMatch t := by
  induction os generalizing used rs with
  | nil =>
    simp only [branchExprs, Expr.toRegexes?, Option.some.injEq] at hrs
    simp [← hrs]
  | cons o os ih =>
    have ho := hplain o (by simp)
    simp only [branchExprs, Expr.toRegexes?, (toRegex?_branch ho [] used).2, Option.bind_some,
      Option.map_eq_some_iff] at hrs
    obtain ⟨rs, hrs, rfl⟩ := hrs
    have hrest := ih (fun o' ho' => hplain o' (by simp [ho'])) hrs
    simp only [List.mem_cons, exists_eq_or_imp, hrest,
      o.isMatch_iff_of_plain ho ignoresCase_foldsPlain]

/-- Where no branch asks for memory, no outline has asterisks. -/
theorem plain_of_not_hard {refs : List Nat} {os : List Outline} {used : Nat}
    (h : ∀ e ∈ branchExprs used os, (e.info refs).hard = false) : ∀ o ∈ os, o.rest = [] := by
  induction os generalizing used with
  | nil => simp
  | cons o os ih =>
    have hrest := @ih (used + o.rest.length) fun e he => h e (by simp [branchExprs, he])
    intro o' ho'
    rcases List.mem_cons.mp ho' with rfl | ho'
    · by_contra hstar
      have hfirst := h (Backtrack.branchOf (o'.exprs used)) (by simp [branchExprs])
      rw [hard_branch hstar refs used] at hfirst
      cases hfirst
    · exact hrest o' ho'

/-- Fragments joined by bars match when one of their outlines does, once they are compiled. -/
theorem isMatch_of_compile?_texts {os : List Outline} (hne : os ≠ []) (hlimit : starTotal os < Token.numberLimit)
    {p : Pattern} (hp : Backtrack.compile? (Alternation.join (texts 0 os)) = some p) (t : Text) :
    p.isMatch t = true ↔ ∃ o ∈ os, o.IsMatch t := by
  obtain ⟨refs, hparse, hmem⟩ := memory_parse? hne hlimit
  obtain ⟨ps, hps, hmatch⟩ | ⟨hhard, rs, hrs, hmatch⟩ :=
    Backtrack.of_compile?_choiceOf (branchExprs_ne_nil 0 hne) hparse hp
  · rw [hmatch, exists_isMatch_branches (fun k h0 hk => hmem k h0 (by omega)) hps]
  · rw [hmatch, exists_isMatch_spans (plain_of_not_hard hhard) hrs]

/-- Whatever a chunk is compiled to matches when one of its outlines does. -/
theorem isMatch_of_compile?_chunk {c : List (Outline × Nat)} (hne : c ≠ []) (hcounts : Counts 0 c) {p : Pattern}
    (hp : Backtrack.compile? (chunkText (c.map fragmentOf)) = some p) (t : Text) :
    p.isMatch t = true ↔ ∃ q ∈ c, q.1.IsMatch t := by
  have hlimit : ∀ q ∈ c, Referable q := by
    by_contra hlarge
    rw [compile?_chunk_eq_none hcounts (by simpa using hlarge)] at hp
    cases hp
  have htotal := hcounts.starTotal_lt (by decide) hlimit
  rw [Nat.zero_add] at htotal
  rw [chunkText_fragmentOf hcounts hlimit] at hp
  rw [isMatch_of_compile?_texts (by simpa using hne) htotal hp]
  simp

end UrlFilter.Glob
