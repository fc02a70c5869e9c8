import UrlFilter.Proofs.Build.Wildcards
import UrlFilter.Proofs.Glob.Single

/-!
# Chunks of globs

Globs that share one count of asterisks, and the chunks that their fragments are compiled in. The groups in front of a
fragment are as many as the numbers in use there, those of fragments that go elsewhere included, and the groups in front
of it in its chunk are some of them. So lowering the references by the difference numbers the chunk afresh
(`chunkText_entries`).
-/

namespace UrlFilter

/-- The mark without the number of a reference. -/
def Alternation.Mark.unnumbered : Alternation.Mark → Alternation.Mark
  | reference _ => reference []
  | m => m

namespace Glob

open Alternation

/-! ## Globs that share a count -/

/-- A pattern, and whether it is anchored. -/
structure Entry where
  anchored : Bool
  pattern : Text
  deriving Repr, DecidableEq

namespace Entry

/-- The numbers that the entry takes. -/
def stars (e : Entry) : Nat := starCount e.pattern

/-- The outline of the pattern. -/
def outline (e : Entry) : Outline := Glob.outline e.anchored e.pattern

/-- The outline of an entry has a wildcard for each of its asterisks that counts. -/
theorem length_rest_outline (e : Entry) : e.outline.rest.length = e.stars := (starCount_eq _ _).symm

/-- The outline of an entry is one span when it has no asterisk that counts. -/
theorem rest_outline_eq_nil_iff {e : Entry} : e.outline.rest = [] ↔ e.stars = 0 := by
  rw [← e.length_rest_outline, List.length_eq_zero_iff]

end Entry

/-- The fragments of entries, their asterisks numbered one after the other behind `used`. -/
def fragments (used : Nat) : List Entry → List Text
  | [] => []
  | e :: es => fragment e.anchored used e.pattern :: fragments (used + e.stars) es

/-- The wildcards of all entries. -/
def totalStars (es : List Entry) : Nat := (es.map Entry.stars).sum

/-- The entries with the numbers in use in front of them. -/
def numberedEntries (used : Nat) : List Entry → List (Entry × Nat)
  | [] => []
  | e :: es => (e, used) :: numberedEntries (used + e.stars) es

/-- Numbering leaves the entries as they are. -/
theorem map_fst_numberedEntries (used : Nat) (es : List Entry) : (numberedEntries used es).map Prod.fst = es := by
  induction es generalizing used with
  | nil => rfl
  | cons e es ih => rw [numberedEntries, List.map_cons, ih]

/-- The fragment of an entry behind numbers in use. -/
def entryFragment (p : Entry × Nat) : Fragment := ⟨fragment p.1.anchored p.2 p.1.pattern, p.2⟩

/-! ## Entries and outlines -/

/-- The fragments of entries are the texts of their outlines. -/
theorem fragments_eq_texts (used : Nat) (es : List Entry) :
    fragments used es = texts used (es.map Entry.outline) := by
  induction es generalizing used with
  | nil => rfl
  | cons e es ih => rw [fragments, ih, fragment_eq, ← e.length_rest_outline]; rfl

/-- The wildcards of entries are those of their outlines. -/
theorem totalStars_eq (es : List Entry) : totalStars es = starTotal (es.map Entry.outline) := by
  rw [totalStars, starTotal, List.map_map]
  exact congrArg List.sum (List.map_congr_left fun e _ => e.length_rest_outline.symm)

/-- A numbered entry as a numbered outline. -/
def numberedOutline (p : Entry × Nat) : Outline × Nat := (p.1.outline, p.2)

/-- The outlines of numbered entries are the numbered outlines. -/
theorem map_numberedOutline (used : Nat) (es : List Entry) :
    (numberedEntries used es).map numberedOutline = numbered used (es.map Entry.outline) := by
  induction es generalizing used with
  | nil => rfl
  | cons e es ih => rw [numberedEntries, List.map_cons, ih, ← e.length_rest_outline]; rfl

/-- The fragment of an entry is that of its outline. -/
theorem fragmentOf_numberedOutline (p : Entry × Nat) : fragmentOf (numberedOutline p) = entryFragment p := by
  rw [entryFragment, fragment_eq]
  rfl

/-- The fragments of entries are those of their outlines. -/
theorem map_entryFragment (ps : List (Entry × Nat)) :
    ps.map entryFragment = (ps.map numberedOutline).map fragmentOf := by
  rw [List.map_map]
  exact List.map_congr_left fun p _ => (fragmentOf_numberedOutline p).symm

/-- The outlines of numbered entries are those of the entries. -/
theorem map_fst_numberedOutline (ps : List (Entry × Nat)) :
    (ps.map numberedOutline).map Prod.fst = (ps.map Prod.fst).map Entry.outline := by
  rw [List.map_map, List.map_map]
  rfl

/-- The groups of all fragments in front of one are as many as the numbers in use there. -/
theorem listFrom_fragments (used : Nat) (es : List Entry) :
    Fragment.listFrom used (fragments used es) = (numberedEntries used es).map entryFragment := by
  rw [fragments_eq_texts, listFrom_texts, ← map_numberedOutline, map_entryFragment]

/-- The fragment of an entry has a group for each of its wildcards. -/
theorem groups_entryFragment (p : Entry × Nat) : (entryFragment p).groups = p.1.stars := by
  rw [← fragmentOf_numberedOutline, ← p.1.length_rest_outline]
  exact p.1.outline.groupCount_text p.2

/-- The fragment of an entry backtracks when it has a wildcard. -/
theorem backtracks_entryFragment (p : Entry × Nat) : (entryFragment p).backtracks = (p.1.stars != 0) := by
  have hback := p.1.outline.backtracks_text p.2
  rw [← fragmentOf_numberedOutline, ← p.1.length_rest_outline]
  refine hback.trans ?_
  cases p.1.outline.rest <;> rfl

/-! ## What goes into chunks -/

/-- The entries that took a number. -/
def starredEntries (es : List Entry) : List (Entry × Nat) := (numberedEntries 0 es).filter fun p => p.1.stars != 0

/-- The entries that took none. -/
def plainEntries (es : List Entry) : List (Entry × Nat) := (numberedEntries 0 es).filter fun p => p.1.stars == 0

/-- Where the fragments without asterisks cannot be one pattern without memory, those that cannot be one alone. -/
def movedEntries (es : List Entry) : List (Entry × Nat) :=
  if (joined? ((plainEntries es).map entryFragment)).isSome then []
  else (plainEntries es).filter fun p => (joined? [entryFragment p]).isNone

/-- The entries whose fragments go into chunks. -/
def chunkedEntries (es : List Entry) : List (Entry × Nat) := starredEntries es ++ movedEntries es

variable {es : List Entry} {c : List (Entry × Nat)}

/-- The fragments that do not backtrack are those of entries without wildcards. -/
theorem filter_not_backtracks :
    (Fragment.listFrom 0 (fragments 0 es)).filter (not ∘ Fragment.backtracks) =
      (plainEntries es).map entryFragment := by
  have hplain : (not ∘ Fragment.backtracks) ∘ entryFragment = fun p => p.1.stars == 0 := by
    funext p
    simp only [Function.comp_apply, backtracks_entryFragment, bne, Bool.not_not]
  rw [listFrom_fragments, List.filter_map, hplain, plainEntries]

/-- The fragments that are put into chunks are those of chunked entries. -/
theorem inChunks_fragments : Matcher.inChunks (fragments 0 es) = (chunkedEntries es).map entryFragment := by
  have hback : Fragment.backtracks ∘ entryFragment = fun p => p.1.stars != 0 := funext backtracks_entryFragment
  have hmoved : (Matcher.splitLinear ((plainEntries es).map entryFragment)).2 =
      (movedEntries es).map entryFragment := by
    rw [Matcher.splitLinear_snd, movedEntries, List.filter_map]
    split <;> rfl
  simp only [Matcher.inChunks]
  rw [filter_not_backtracks, hmoved, listFrom_fragments, List.filter_map, hback, ← List.map_append]
  rfl

/-- Entries that are moved are some of those without wildcards. -/
theorem movedEntries_sublist : (movedEntries es).Sublist (plainEntries es) := by
  rw [movedEntries]
  split
  · exact List.nil_sublist _
  · exact List.filter_sublist

/-- An entry that is moved has no wildcard. -/
theorem stars_of_mem_movedEntries {p : Entry × Nat} (h : p ∈ movedEntries es) : p.1.stars = 0 := by
  simpa using (List.mem_filter.mp (movedEntries_sublist.subset h)).2

/-- An entry in a chunk has kept its number. -/
theorem mem_numberedEntries {p : Entry × Nat} (h : p ∈ chunkedEntries es) : p ∈ numberedEntries 0 es := by
  rcases List.mem_append.mp h with h | h
  · exact List.mem_of_mem_filter h
  · exact List.mem_of_mem_filter (movedEntries_sublist.subset h)

/-! ## Numbering a chunk afresh -/

/-- The numbers of chunked entries go on from nothing. -/
theorem counts_entries (hsub : c.Sublist (chunkedEntries es)) : Counts 0 (c.map numberedOutline) := by
  have hstarred : (starredEntries es).map numberedOutline = starredOnes (es.map Entry.outline) := by
    have hstar : (fun p => !p.1.rest.isEmpty) ∘ numberedOutline = fun p => p.1.stars != 0 := by
      funext p
      simp only [Function.comp_apply, numberedOutline, ← p.1.length_rest_outline]
      cases p.1.outline.rest <;> rfl
    rw [starredOnes, ← map_numberedOutline, List.filter_map, hstar]
    rfl
  have hplain : ∀ p ∈ (movedEntries es).map numberedOutline, p.1.rest = [] := by
    intro p hp
    obtain ⟨q, hq, rfl⟩ := List.mem_map.mp hp
    exact Entry.rest_outline_eq_nil_iff.mpr (stars_of_mem_movedEntries hq)
  -- What stands behind the entries with asterisks has no references, so its place does not matter.
  refine @counts_append (es.map Entry.outline) _ _ hplain ?_
  rw [← hstarred, ← List.map_append]
  exact hsub.map numberedOutline

/-- References of chunked entries stay below the limit. -/
theorem referable_entries (hlimit : totalStars es < referenceLimit) (hsub : c.Sublist (chunkedEntries es)) :
    ∀ p ∈ c.map numberedOutline, Referable p := by
  intro p hp _
  obtain ⟨q, hq, rfl⟩ := List.mem_map.mp hp
  have hmem : numberedOutline q ∈ numbered 0 (es.map Entry.outline) :=
    map_numberedOutline 0 es ▸ List.mem_map_of_mem (mem_numberedEntries (hsub.subset hq))
  have hle := (le_of_mem_numbered hmem).2
  rw [totalStars_eq, starTotal] at hlimit
  omega

section
variable (hlimit : totalStars es < referenceLimit) (hsub : c.Sublist (chunkedEntries es))

include hlimit hsub

/-- The texts of a chunk are the fragments of its entries, numbered from one on. -/
theorem chunkTexts_entries : chunkTexts 0 (c.map entryFragment) = fragments 0 (c.map Prod.fst) := by
  rw [map_entryFragment, chunkTexts_fragmentOf (counts_entries hsub) (referable_entries hlimit hsub),
    map_fst_numberedOutline, fragments_eq_texts]

/-- The text of a chunk is that of its entries by themselves. -/
theorem chunkText_entries : chunkText (c.map entryFragment) = join (fragments 0 (c.map Prod.fst)) := by
  rw [chunkText, chunkTexts_entries hlimit hsub]

end

/-- The groups in front of an entry in its chunk are no more than those in front of it in the list. -/
theorem sum_groups_le {groups : Nat} {before behind : List (Entry × Nat)} {p : Entry × Nat}
    (hcounts : Counts groups ((before ++ p :: behind).map numberedOutline)) (hstar : p.1.stars ≠ 0) :
    groups + (before.map fun q => (entryFragment q).groups).sum ≤ (entryFragment p).groupsBefore := by
  -- By induction on what is in front of it in the chunk, whose groups are counted one by one.
  induction before generalizing groups with
  | nil => exact hcounts.le (numberedOutline p) (by simp) (Entry.rest_outline_eq_nil_iff.not.mpr hstar)
  | cons q before ih =>
    have hrest := ih (by exact hcounts.tail)
    have hgroups : (numberedOutline q).1.rest.length = (entryFragment q).groups :=
      q.1.length_rest_outline.trans (groups_entryFragment q).symm
    rw [List.map_cons, List.sum_cons]
    omega

/-- The groups in front of a fragment in its chunk are among those in front of it in the list. -/
theorem groups_le_groupsBefore (hsub : c.Sublist (chunkedEntries es)) {before behind : List (Entry × Nat)}
    {p : Entry × Nat} (hc : c = before ++ p :: behind) (hstar : p.1.stars ≠ 0) :
    (before.map fun q => (entryFragment q).groups).sum ≤ (entryFragment p).groupsBefore := by
  have hle := sum_groups_le (hc ▸ counts_entries hsub) hstar
  rwa [Nat.zero_add] at hle

/-- Whatever numbers are in use, the fragment has the same marks but for the numbers. -/
theorem unnumbered_fragment (anchored : Bool) (pattern : Text) (used used' : Nat) :
    (marks (fragment anchored used pattern)).map Mark.unnumbered =
      (marks (fragment anchored used' pattern)).map Mark.unnumbered := by
  have hstars (rest : List (List Sign)) (used used' : Nat) :
      (starsMarks used rest).map Mark.unnumbered = (starsMarks used' rest).map Mark.unnumbered := by
    induction rest generalizing used used' with
    | nil => rfl
    | cons ss rest ih =>
      simp only [starsMarks, starMarks, List.map_append, List.map_cons, List.map_nil, Mark.unnumbered,
        ih (used + 1) (used' + 1)]
  simp only [fragment_eq, Outline.marks_text, Outline.marks, List.map_append, hstars _ used used']

/-- The fragments of entries have the marks of the entries, wherever these stand in a longer list. -/
theorem forall₂_unnumbered (used : Nat) (c : List (Entry × Nat)) :
    List.Forall₂ (fun p t => (marks t).map Mark.unnumbered = (marks (entryFragment p).text).map Mark.unnumbered) c
      (fragments used (c.map Prod.fst)) := by
  induction c generalizing used with
  | nil => exact .nil
  | cons p c ih => exact .cons (unnumbered_fragment _ _ _ _) (ih _)

/-- The fragments with asterisks go into chunks of 32, in order, and behind them those without that are too large for
one pattern without memory even alone. Each chunk is compiled from the fragments of its own globs by themselves: every
reference is to a group of the chunk, the groups in front of a fragment with asterisks never exceed those it was
numbered behind, and all marks but the numbers stay as they are. -/
theorem chunks_renumbered (hlimit : totalStars es < referenceLimit) :
    Matcher.inChunks (fragments 0 es) = (starredEntries es ++ movedEntries es).map entryFragment ∧
      Matcher.ofFragments? (fragments 0 es) =
        (Matcher.compileChunks? ((chunks 32 (starredEntries es ++ movedEntries es)).map (List.map entryFragment))).map
          (⟨(Matcher.splitLinear ((plainEntries es).map entryFragment)).1, ·⟩) ∧
      ∀ c ∈ chunks 32 (starredEntries es ++ movedEntries es),
        chunkText (c.map entryFragment) = join (fragments 0 (c.map Prod.fst)) ∧
          Numbered (marks (chunkText (c.map entryFragment))) (totalStars (c.map Prod.fst)) ∧
          (∀ before p behind, c = before ++ p :: behind → p.1.stars ≠ 0 →
            (before.map fun q => (entryFragment q).groups).sum ≤ (entryFragment p).groupsBefore) ∧
          List.Forall₂ (fun p t => (marks t).map Mark.unnumbered = (marks (entryFragment p).text).map Mark.unnumbered)
            c (chunkTexts 0 (c.map entryFragment)) := by
  refine ⟨inChunks_fragments, ?_, fun c hc => ?_⟩
  · rw [Matcher.ofFragments?_eq, inChunks_fragments, filter_not_backtracks, chunks_map (by decide)]
    rfl
  · have hsub : c.Sublist (chunkedEntries es) := (of_mem_chunks (by decide) hc).1
    have htext := chunkText_entries hlimit hsub
    have hnumbered := numbered_texts ((c.map Prod.fst).map Entry.outline)
    rw [← fragments_eq_texts, ← totalStars_eq, ← htext] at hnumbered
    refine ⟨htext, hnumbered, fun _ _ _ => groups_le_groupsBefore hsub, ?_⟩
    rw [chunkTexts_entries hlimit hsub]
    exact forall₂_unnumbered 0 c

/-- Forty globs with one asterisk each, and two that have digits, parentheses, brackets and a backslash. -/
def manyEntries : List Entry :=
  List.replicate 40 ⟨false, "a*b".toList⟩ ++ [⟨true, "c\\1(*[d]9".toList⟩, ⟨false, "(?:\\2)".toList⟩]

/-- Forty entries and two more take two chunks, and each is numbered from one on. -/
theorem chunks_renumbered_sample :
    totalStars manyEntries < referenceLimit ∧
      ∀ c ∈ chunks 32 (starredEntries manyEntries ++ movedEntries manyEntries),
        chunkText (c.map entryFragment) = join (fragments 0 (c.map Prod.fst)) := by
  have hlimit : totalStars manyEntries < referenceLimit := by decide +kernel
  exact ⟨hlimit, fun c hc => ((chunks_renumbered hlimit).2.2 c hc).1⟩

/-! ## Globs without asterisks in chunks -/

/-- A run of carets. -/
def carets (n : Nat) : Entry := ⟨false, List.replicate n '^'⟩

/-- The outline of carets is one span of separators. -/
theorem outline_carets (n : Nat) :
    (carets n).outline.head = List.replicate n .separator ∧ (carets n).outline.rest = [] := by
  have hparts : Text.parts '*' (carets n).pattern = [List.replicate n '^'] :=
    Text.parts_of_notMem (by simp [carets, List.mem_replicate])
  simp only [Entry.outline, outline, Outline.head, firstSpan, restSpans, hparts, signs_carets]
  exact ⟨rfl, rfl⟩

section
variable {n : Nat} (hn : 6200 ≤ n)

include hn

/-- From that number on, carets are too large for one pattern. -/
theorem sizeLimit_lt_carets : sizeLimit < spanSize (carets n).outline.head := by
  have hlimit : sizeLimit < 6200 * Sign.size .separator := by decide
  have hmono := Nat.mul_le_mul_right (Sign.size .separator) hn
  rw [(outline_carets n).1, spanSize_separators]
  omega

/-- Six thousand carets are too many for one pattern, so they stand behind all globs with asterisks. -/
theorem chunkedEntries_carets {es : List Entry} (hstar : ∀ e ∈ es, e.stars ≠ 0) :
    chunkedEntries (carets n :: es) = numberedEntries 0 es ++ [(carets n, 0)] := by
  have hstars : (carets n).stars = 0 := Entry.rest_outline_eq_nil_iff.mp (outline_carets n).2
  have hjoined : joined? [entryFragment (carets n, 0)] = none := by
    rw [← fragmentOf_numberedOutline]
    exact joined?_large (outline_carets n).2 (sizeLimit_lt_carets hn) 0
  have hrest : ∀ p ∈ numberedEntries 0 es, p.1.stars ≠ 0 := fun p hp =>
    hstar p.1 (map_fst_numberedEntries 0 es ▸ List.mem_map_of_mem hp)
  have hnumbered : numberedEntries 0 (carets n :: es) = (carets n, 0) :: numberedEntries 0 es := by
    rw [numberedEntries, hstars]
  have hstarred : starredEntries (carets n :: es) = numberedEntries 0 es := by
    rw [starredEntries, hnumbered, List.filter_cons_of_neg (by simp [hstars])]
    exact List.filter_eq_self.mpr fun p hp => bne_iff_ne.mpr (hrest p hp)
  -- The carets are the only ones without asterisks, and no pattern alone.
  have hplain : plainEntries (carets n :: es) = [(carets n, 0)] := by
    rw [plainEntries, hnumbered, List.filter_cons_of_pos (by simp [hstars])]
    exact congrArg _ (List.filter_eq_nil_iff.mpr fun p hp => by simpa using hrest p hp)
  rw [chunkedEntries, hstarred, movedEntries, hplain]
  simp [hjoined]

end

/-- Some carets go into a chunk, where they are too many again. Behind a glob with an asterisk, they have fewer groups
in front of them in the list than in the chunk. -/
theorem carets_go_into_chunks :
    (carets 6200).stars = 0 ∧
      Matcher.inChunks (fragments 0 [carets 6200]) = [entryFragment (carets 6200, 0)] ∧
      Matcher.ofFragments? (fragments 0 [carets 6200]) = none ∧
      Matcher.inChunks (fragments 0 [carets 6200, ⟨false, "a*b".toList⟩]) =
        [entryFragment (⟨false, "a*b".toList⟩, 0), entryFragment (carets 6200, 0)] ∧
      (entryFragment (carets 6200, 0)).groupsBefore < (entryFragment (⟨false, "a*b".toList⟩, 0)).groups := by
  have hplain := (outline_carets 6200).2
  refine ⟨Entry.rest_outline_eq_nil_iff.mp hplain, ?_, ?_, ?_, ?_⟩
  · rw [inChunks_fragments, chunkedEntries_carets (by decide) (by simp)]
    rfl
  · rw [fragments_eq_texts]
    exact ofFragments?_plain hplain (sizeLimit_lt_carets (by decide))
  · rw [inChunks_fragments, chunkedEntries_carets (by decide) (by decide)]
    rfl
  · rw [groups_entryFragment]
    decide

end Glob

end UrlFilter
