import UrlFilter.Alternation.Basic
import UrlFilter.Proofs.Alternation.Splitting
import UrlFilter.Proofs.Glob.Chunk
import UrlFilter.Proofs.Glob.Plain

/-!
# Alternations of globs

The fragments of globs, split in those with asterisks and those without, compile as long as nothing that is
handed over of those with asterisks is too large and those without are not too large together. Then the alternation
matches when one of the globs does. However large they are, an alternation that is made of them matches when
one of some of the globs does.
-/

namespace UrlFilter.Glob

open Alternation (Fragment Matcher)

/-! ## Sizes -/

/-- The outlines without asterisks. -/
def plainOnes (os : List Outline) : List Outline := os.filter (·.rest.isEmpty)

/-- The compiled size of the outlines without asterisks, joined. -/
def plainSize (os : List Outline) : Nat :=
  ((plainOnes os).map fun o => 32 + spanSize o.head).sum - 32

/-! ## Outlines without asterisks -/

/-- Spans are joined to the choice between them, unless this is too large. -/
theorem joined?_plain {ps : List (Outline × Nat)} (hne : ps ≠ [])
    (hplain : ∀ p ∈ ps, p.1.rest = []) :
    Alternation.joined? (ps.map fragmentOf) =
      (some (Regex.altAll (ps.map fun p => spanRegex foldsAll p.1.head))).filter
        (·.size ≤ Alternation.sizeLimit) := by
  have htexts : (ps.map fragmentOf).map (·.text) = (ps.map fun p => p.1.head).map spanOf := by
    rw [List.map_map, List.map_map]
    refine List.map_congr_left fun p hp => ?_
    simp [fragmentOf, Outline.text_eq, hplain p hp, starsOf]
  have hempty : (ps.map fragmentOf).isEmpty = false := by simpa using hne
  rw [Alternation.joined?, hempty, if_neg (by simp), Regex.compile?, htexts, parse?_join (by simpa using hne),
    List.map_map]
  rfl

/-- The size of a choice between spans is that of its branches. -/
theorem size_altAll_spans {os : List Outline} (hne : os ≠ []) :
    (Regex.altAll (os.map fun o => spanRegex foldsAll o.head)).size =
      (os.map fun o => 32 + spanSize o.head).sum - 32 := by
  have hregexes : (os.map fun o => spanRegex foldsAll o.head) ≠ [] := by simpa using hne
  have hsize := Regex.size_altAll_add hregexes
  simp only [List.map_map, Function.comp_def, size_spanRegex ignoresCase_foldsAll] at hsize
  omega

/-- The pattern of outlines without asterisks matches when one of them does. -/
theorem isMatch_of_joined? {ps : List (Outline × Nat)} (hplain : ∀ p ∈ ps, p.1.rest = []) {r : Regex}
    (h : Alternation.joined? (ps.map fragmentOf) = some r) (t : Text) :
    r.isMatch t = true ↔ ∃ p ∈ ps, p.1.IsMatch t := by
  by_cases hne : ps = []
  · subst hne
    cases h
  · rw [joined?_plain hne hplain, Option.filter_eq_some_iff, Option.some.injEq] at h
    rw [← h.1]
    simp only [Regex.isMatch_altAll, List.mem_map, exists_exists_and_eq_and]
    exact exists_congr fun p => and_congr_right fun hp =>
      (p.1.isMatch_iff_of_plain (hplain p hp) ignoresCase_foldsAll t).symm

/-- Outlines without asterisks that are not too large together become one pattern, which matches when one
of them does; none of them is left over. -/
theorem splitLinear_plain {ps : List (Outline × Nat)} (hplain : ∀ p ∈ ps, p.1.rest = [])
    (hsize : (ps.map fun p => 32 + spanSize p.1.head).sum - 32 ≤ Alternation.sizeLimit) :
    ∃ linear, Matcher.splitLinear (ps.map fragmentOf) = (linear, []) ∧
      ∀ t, linear.any (·.isMatch t) = true ↔ ∃ p ∈ ps, p.1.IsMatch t := by
  by_cases hne : ps = []
  · subst hne
    exact ⟨none, rfl, by simp⟩
  · have hjoined := joined?_plain hne hplain
    have hfst : (ps.map fun p => spanRegex foldsAll p.1.head) =
        (ps.map Prod.fst).map fun o => spanRegex foldsAll o.head := by
      rw [List.map_map]
      rfl
    have hfits : (Regex.altAll (ps.map fun p => spanRegex foldsAll p.1.head)).size ≤
        Alternation.sizeLimit := by
      rw [hfst, size_altAll_spans (by simpa using hne), List.map_map]
      exact hsize
    rw [Option.filter_some, decide_eq_true hfits, if_pos rfl] at hjoined
    exact ⟨some _, by rw [Matcher.splitLinear, hjoined], isMatch_of_joined? hplain hjoined⟩

/-- However large they are, some of the outlines without asterisks become one pattern, and some are left
over. -/
theorem splitLinear_some {ps : List (Outline × Nat)} (hplain : ∀ p ∈ ps, p.1.rest = []) :
    ∃ linear kept rejected, Matcher.splitLinear (ps.map fragmentOf) = (linear, rejected.map fragmentOf) ∧
      kept ⊆ ps ∧ rejected ⊆ ps ∧
      ∀ t, linear.any (·.isMatch t) = true ↔ ∃ p ∈ kept, p.1.IsMatch t := by
  -- What is joined matches when one of its outlines does, and where it cannot be joined nothing matches.
  have hkept : ∀ qs ⊆ ps, ∃ kept ⊆ qs, ∀ t,
      (Alternation.joined? (qs.map fragmentOf)).any (·.isMatch t) = true ↔ ∃ p ∈ kept, p.1.IsMatch t := by
    intro qs hqs
    cases hjoined : Alternation.joined? (qs.map fragmentOf) with
    | none => exact ⟨[], by simp, by simp⟩
    | some r => exact ⟨qs, List.Subset.refl _, isMatch_of_joined? (fun p hp => hplain p (hqs hp)) hjoined⟩
  cases hjoined : Alternation.joined? (ps.map fragmentOf) with
  | some r =>
    obtain ⟨kept, hsub, hmatch⟩ := hkept ps (List.Subset.refl _)
    rw [hjoined] at hmatch
    exact ⟨some r, kept, [], by rw [Matcher.splitLinear, hjoined]; rfl, hsub, by simp, hmatch⟩
  | none =>
    -- Those that fit alone are tried together, and may again be too large.
    let alone (p : Outline × Nat) := (Alternation.joined? [fragmentOf p]).isSome
    have haccepted : ps.filter alone ⊆ ps := List.filter_sublist.subset
    obtain ⟨kept, hsub, hmatch⟩ := hkept (ps.filter alone) haccepted
    refine ⟨_, kept, ps.filter fun p => !alone p, ?_, List.Subset.trans hsub haccepted,
      List.filter_sublist.subset, hmatch⟩
    rw [Matcher.splitLinear, hjoined]
    simp only [List.partition_eq_filter_filter, List.filter_map]
    rfl

/-! ## All outlines -/

/-- The numbered outlines without asterisks. -/
def plainNumbered (os : List Outline) : List (Outline × Nat) :=
  (numbered 0 os).filter fun p => p.1.rest.isEmpty

/-- The numbered outlines with asterisks. -/
def starredOnes (os : List Outline) : List (Outline × Nat) :=
  (numbered 0 os).filter fun p => !p.1.rest.isEmpty

section

variable {os : List Outline}

/-- An outline that is joined without memory has no asterisk. -/
theorem rest_of_mem_plainNumbered {p : Outline × Nat} (hp : p ∈ plainNumbered os) : p.1.rest = [] := by
  simpa using (List.mem_filter.mp hp).2

/-- An outline that needs memory has an asterisk. -/
theorem rest_of_mem_starredOnes {p : Outline × Nat} (hp : p ∈ starredOnes os) : p.1.rest ≠ [] := by
  simpa using (List.mem_filter.mp hp).2

/-- The outlines that need memory are among all. -/
theorem mem_of_mem_starredOnes {p : Outline × Nat} (hp : p ∈ starredOnes os) : p.1 ∈ os := by
  rw [← map_fst_numbered 0 os]
  exact List.mem_map_of_mem (List.mem_filter.mp hp).1

/-- The outlines that are joined without memory are among all. -/
theorem mem_of_mem_plainNumbered {p : Outline × Nat} (hp : p ∈ plainNumbered os) : p.1 ∈ os := by
  rw [← map_fst_numbered 0 os]
  exact List.mem_map_of_mem (List.mem_filter.mp hp).1

/-- Numbers aside, the outlines without asterisks are in their order. -/
theorem map_fst_plainNumbered (os : List Outline) : (plainNumbered os).map Prod.fst = plainOnes os := by
  have hfilter := List.filter_map (f := Prod.fst) (p := fun o : Outline => o.rest.isEmpty) (l := numbered 0 os)
  rw [map_fst_numbered] at hfilter
  exact hfilter.symm

/-- The outlines that are joined without memory are those without an asterisk. -/
theorem exists_plainNumbered (Q : Outline → Prop) :
    (∃ p ∈ plainNumbered os, Q p.1) ↔ ∃ o ∈ os, o.rest = [] ∧ Q o := by
  have hones : (∃ p ∈ plainNumbered os, Q p.1) ↔ ∃ o ∈ (plainNumbered os).map Prod.fst, Q o := by simp
  rw [hones, map_fst_plainNumbered]
  simp [plainOnes, and_assoc]

/-- The fragments of outlines, with memory and without. -/
theorem partition_numbered (os : List Outline) :
    (Fragment.listFrom 0 (texts 0 os)).partition Fragment.backtracks =
      ((starredOnes os).map fragmentOf, (plainNumbered os).map fragmentOf) := by
  have hback : Fragment.backtracks ∘ fragmentOf = fun p => !p.1.rest.isEmpty := by
    funext p
    exact p.1.backtracks_text p.2
  have hplain : (not ∘ Fragment.backtracks) ∘ fragmentOf = fun p => p.1.rest.isEmpty := by
    funext p
    have h : Fragment.backtracks (fragmentOf p) = !p.1.rest.isEmpty := p.1.backtracks_text p.2
    simp [h]
  rw [List.partition_eq_filter_filter, listFrom_texts, List.filter_map, List.filter_map, hback, hplain,
    starredOnes, plainNumbered]

/-- The outlines without asterisks are one pattern without memory when they are not too large together. -/
theorem isSome_joined?_plainNumbered (hne : plainNumbered os ≠ []) :
    (Alternation.joined? ((plainNumbered os).map fragmentOf)).isSome = true ↔
      plainSize os ≤ Alternation.sizeLimit := by
  have hones : plainOnes os ≠ [] := by
    rw [← map_fst_plainNumbered]
    simpa using hne
  have hregexes : (plainNumbered os).map (fun p => spanRegex foldsAll p.1.head) =
      (plainOnes os).map fun o => spanRegex foldsAll o.head := by
    rw [← map_fst_plainNumbered, List.map_map]
    rfl
  rw [joined?_plain hne fun p hp => rest_of_mem_plainNumbered hp, hregexes, Option.filter_some,
    size_altAll_spans hones, ← plainSize]
  by_cases hsize : plainSize os ≤ Alternation.sizeLimit <;> simp [hsize]

/-- A chunk of fragments with asterisks. -/
theorem compile?_starred (hlimit : starTotal os < Alternation.referenceLimit) {c : List (Outline × Nat)}
    (hne : c ≠ []) (hsub : c.Sublist (starredOnes os)) :
    Backtrack.compile? (Alternation.chunkText (c.map fragmentOf)) =
      if ∀ o ∈ c.map Prod.fst, o.PartsFit then
        some (Backtrack.Pattern.altAll (patternsFrom 0 (c.map Prod.fst)))
      else none := by
  refine compile?_chunk hne (fun p hp => ?_) ⟨?_, fun _ _ _ => Nat.zero_le _⟩ fun p hp _ => ?_
  · exact rest_of_mem_starredOnes (hsub.subset hp)
  · refine ((pairwise_numbered 0 os).sublist (hsub.trans List.filter_sublist)).imp ?_
    exact fun hprecedes _ => hprecedes
  · have := (le_of_mem_numbered (List.mem_filter.mp (hsub.subset hp)).1).2
    rw [starTotal] at hlimit
    omega

/-- An outline with asterisks is in one of the chunks. -/
theorem exists_chunk {o : Outline} (ho : o ∈ os) (hstar : o.rest ≠ []) :
    ∃ c ∈ Alternation.chunks Alternation.chunkSize (starredOnes os), o ∈ c.map Prod.fst := by
  rw [← map_fst_numbered 0 os] at ho
  obtain ⟨p, hp, rfl⟩ := List.mem_map.mp ho
  have hmem : p ∈ starredOnes os := List.mem_filter.mpr ⟨hp, by simpa using hstar⟩
  rw [← Alternation.flatten_chunks (n := Alternation.chunkSize) (by decide) (starredOnes os)] at hmem
  obtain ⟨c, hc, hpc⟩ := List.mem_flatten.mp hmem
  exact ⟨c, hc, List.mem_map.mpr ⟨p, hpc, rfl⟩⟩

variable (hsize : plainSize os ≤ Alternation.sizeLimit)

include hsize

/-- The parts of a matcher of outlines: the pattern of those without asterisks, and the chunks. -/
theorem ofFragments?_texts_eq :
    ∃ linear,
      Matcher.ofFragments? (texts 0 os) =
        (Matcher.compileChunks? ((Alternation.chunks Alternation.chunkSize (starredOnes os)).map
          (List.map fragmentOf))).map (⟨linear, ·⟩) ∧
      ∀ t, linear.any (·.isMatch t) = true ↔ ∃ o ∈ os, o.rest = [] ∧ o.IsMatch t := by
  have hfits : ((plainNumbered os).map fun p => 32 + spanSize p.1.head).sum - 32 ≤
      Alternation.sizeLimit := by
    rw [plainSize, ← map_fst_plainNumbered, List.map_map] at hsize
    exact hsize
  obtain ⟨linear, hsplit, hlinear⟩ := splitLinear_plain (fun p hp => rest_of_mem_plainNumbered hp) hfits
  refine ⟨linear, ?_, fun t => ?_⟩
  · rw [Matcher.ofFragments?, partition_numbered]
    -- Nothing is moved to the chunks, which hold the starred outlines only.
    simp only [hsplit]
    rw [List.append_nil, Alternation.chunks_map (by decide)]
  · rw [hlinear]
    exact exists_plainNumbered (·.IsMatch t)

variable (hlimit : starTotal os < Alternation.referenceLimit)

include hlimit

/-- Fragments that fit make a matcher, which matches when one of the outlines does. -/
theorem ofFragments?_texts (hfit : ∀ o ∈ os, o.PartsFit) :
    ∃ m, Matcher.ofFragments? (texts 0 os) = some m ∧
      ∀ t, m.isMatch t = true ↔ ∃ o ∈ os, o.IsMatch t := by
  obtain ⟨linear, hsplit, hlinear⟩ := ofFragments?_texts_eq hsize
  have hchunk {c : List (Outline × Nat)} (hsub : c.Sublist (starredOnes os)) (hne : c ≠ []) :
      Backtrack.compile? (Alternation.chunkText (c.map fragmentOf)) =
        some (Backtrack.Pattern.altAll (patternsFrom 0 (c.map Prod.fst))) := by
    refine (compile?_starred hlimit hne hsub).trans (if_pos fun o ho => ?_)
    obtain ⟨p, hp, rfl⟩ := List.mem_map.mp ho
    exact hfit p.1 (mem_of_mem_starredOnes (hsub.subset hp))
  have hcompile : ∀ c ∈ (Alternation.chunks Alternation.chunkSize (starredOnes os)).map (List.map fragmentOf),
      ∃ p, Backtrack.compile? (Alternation.chunkText c) = some p := by
    intro _ hmapped
    obtain ⟨c, hc, rfl⟩ := List.mem_map.mp hmapped
    obtain ⟨hsub, hne⟩ := Alternation.of_mem_chunks (by decide) hc
    exact ⟨_, hchunk hsub hne⟩
  obtain ⟨ps, hps⟩ := Matcher.exists_compileChunks? hcompile
  rw [hps, Option.map_some] at hsplit
  refine ⟨_, hsplit, fun t => ?_⟩
  have hstarred := Matcher.any_isMatch_chunks (t := t) (Q := fun p => p.1.IsMatch t)
    (fun c hsub hne p hp => by
      rw [hchunk hsub hne, Option.some.injEq] at hp
      rw [← hp, isMatch_altAll_patternsFrom]
      simp only [List.mem_map, exists_exists_and_eq_and]) hps
  -- A match is one of an outline without asterisks, or of one in a chunk.
  rw [Matcher.isMatch, Bool.or_eq_true, hlinear, hstarred]
  constructor
  · rintro (⟨o, ho, -, hmatch⟩ | ⟨p, hp, hmatch⟩)
    · exact ⟨o, ho, hmatch⟩
    · exact ⟨p.1, mem_of_mem_starredOnes hp, hmatch⟩
  · rintro ⟨o, ho, hmatch⟩
    by_cases hrest : o.rest = []
    · exact .inl ⟨o, ho, hrest, hmatch⟩
    · rw [← map_fst_numbered 0 os] at ho
      obtain ⟨p, hp, rfl⟩ := List.mem_map.mp ho
      exact .inr ⟨p, List.mem_filter.mpr ⟨hp, by simpa using hrest⟩, hmatch⟩

/-- Fragments one of which does not fit make no matcher. -/
theorem ofFragments?_texts_eq_none {o : Outline} (ho : o ∈ os) (hfit : ¬o.PartsFit) :
    Matcher.ofFragments? (texts 0 os) = none := by
  have hstar : o.rest ≠ [] := by
    exact fun hrest => hfit fun hstar => absurd hrest hstar
  obtain ⟨linear, hsplit, -⟩ := ofFragments?_texts_eq hsize
  obtain ⟨c, hc, hoc⟩ := exists_chunk ho hstar
  have hnone : Backtrack.compile? (Alternation.chunkText (c.map fragmentOf)) = none := by
    obtain ⟨hsub, hne⟩ := Alternation.of_mem_chunks (by decide) hc
    rw [compile?_starred hlimit hne hsub, if_neg fun h => hfit (h o hoc)]
  rw [hsplit, Matcher.compileChunks?_eq_none (List.mem_map.mpr ⟨c, hc, rfl⟩) hnone]
  rfl

end

/-! ## Outlines of any size -/

/-- The fragments with asterisks and any of the others, each numbered as it is. -/
theorem counts_append {os : List Outline} {ps c : List (Outline × Nat)} (hplain : ∀ p ∈ ps, p.1.rest = [])
    (hsub : c.Sublist (starredOnes os ++ ps)) : Counts 0 c := by
  have hpairwise : (starredOnes os ++ ps).Pairwise fun p q => q.1.rest ≠ [] → Precedes p q := by
    refine List.pairwise_append.mpr ⟨?_, ?_, ?_⟩
    · refine ((pairwise_numbered 0 os).sublist List.filter_sublist).imp ?_
      exact fun hprecedes _ => hprecedes
    · exact List.pairwise_of_forall_mem_list fun p _ q hq hstar => absurd (hplain q hq) hstar
    · exact fun p _ q hq hstar => absurd (hplain q hq) hstar
  exact ⟨hpairwise.sublist hsub, fun _ _ _ => Nat.zero_le _⟩

/-- Whatever matcher is made of fragments, it matches when one of some of the outlines does. -/
theorem exists_of_ofFragments?_texts {os : List Outline} {m : Matcher}
    (h : Matcher.ofFragments? (texts 0 os) = some m) :
    ∃ kept ⊆ os, ∀ t, m.isMatch t = true ↔ ∃ o ∈ kept, o.IsMatch t := by
  obtain ⟨linear, kept, rejected, hsplit, hkept, hrejected, hlinear⟩ :=
    @splitLinear_some (plainNumbered os) fun p hp => rest_of_mem_plainNumbered hp
  -- What is left over has no asterisks, so that the chunks are counted as if it were not there.
  have hcounts {c : List (Outline × Nat)} (hc : c.Sublist (starredOnes os ++ rejected)) : Counts 0 c :=
    counts_append (fun p hp => rest_of_mem_plainNumbered (hrejected hp)) hc
  rw [Matcher.ofFragments?, partition_numbered] at h
  simp only [hsplit, Option.map_eq_some_iff] at h
  obtain ⟨ps, hps, rfl⟩ := h
  rw [← List.map_append, Alternation.chunks_map (by decide)] at hps
  refine ⟨(kept ++ (starredOnes os ++ rejected)).map Prod.fst, ?_, fun t => ?_⟩
  · intro o ho
    obtain ⟨p, hp, rfl⟩ := List.mem_map.mp ho
    simp only [List.mem_append] at hp
    rcases hp with hp | hp | hp
    · exact mem_of_mem_plainNumbered (hkept hp)
    · exact mem_of_mem_starredOnes hp
    · exact mem_of_mem_plainNumbered (hrejected hp)
  · have hchunks := Matcher.any_isMatch_chunks (fun c hsub hne p hp =>
      isMatch_of_compile?_chunk hne (hcounts hsub) hp t) hps
    simp only [Matcher.isMatch, Bool.or_eq_true, hlinear, hchunks, List.mem_map, exists_exists_and_eq_and,
      ← exists_or, ← or_and_right, ← List.mem_append]

end UrlFilter.Glob
