import UrlFilter.Alternation.Matcher
import UrlFilter.Proofs.Glob.Marks

/-!
# Numbering fragments

The asterisks of the fragments of a bucket are numbered one after the other. Each asks for as many groups as
it has numbers, so that the groups in front of a fragment are as many as the numbers in use. In a chunk the
references are lowered by the groups of the fragments that the chunk leaves out, which gives the fragments
as they would be numbered in the chunk alone.
-/

namespace UrlFilter.Glob

open Alternation

/-! ## Groups of a fragment -/

/-- A span captures nothing. -/
theorem countP_spanMarks (ss : List Sign) :
    (spanMarks ss).countP (· == .opening .capturing) = 0 := by
  induction ss with
  | nil => rfl
  | cons s ss ih =>
    rw [spanMarks, List.flatMap_cons, List.countP_append, ← spanMarks, ih]
    cases s with
    | literal c => by_cases h : isEscaped c <;> simp [Sign.marks, h]
    | separator => rfl
    | textStart => rfl
    | textEnd => rfl

/-- A span does not backtrack. -/
theorem backtracks_spanMarks (ss : List Sign) : (spanMarks ss).any Mark.backtracks = false := by
  induction ss with
  | nil => rfl
  | cons s ss ih =>
    rw [spanMarks, List.flatMap_cons, List.any_append, ← spanMarks, ih]
    cases s with
    | literal c =>
      by_cases h : isEscaped c
      · have hk : c ≠ 'k' := by
          rintro rfl
          exact absurd h (by decide)
        simp [Sign.marks, h, Mark.backtracks, hk]
      · simp [Sign.marks, h, Mark.backtracks]
    | separator => rfl
    | textStart => rfl
    | textEnd => rfl

/-- A fragment opens a group for each of its asterisks. -/
theorem Outline.groupCount_text (o : Outline) (used : Nat) : groupCount (o.text used) = o.rest.length := by
  have hstars (used : Nat) (rest : List (List Sign)) :
      (starsMarks used rest).countP (· == .opening .capturing) = rest.length := by
    induction rest generalizing used with
    | nil => rfl
    | cons ss rest ih =>
      have hopening : starOpeningMarks.countP (· == .opening .capturing) = 1 := by decide
      simp only [starsMarks, starMarks, List.countP_append, hopening, countP_spanMarks, ih,
        List.length_cons]
      simp
      omega
  rw [groupCount, o.marks_text, Outline.marks, List.countP_append, List.countP_append, countP_spanMarks,
    hstars]
  cases o.anchored <;> simp

/-- A fragment asks for backtracking when it has asterisks. -/
theorem Outline.backtracks_text (o : Outline) (used : Nat) :
    backtracks (o.text used) = !o.rest.isEmpty := by
  rw [backtracks, o.marks_text, Outline.marks, List.any_append, List.any_append, backtracks_spanMarks]
  have hanchor : (if o.anchored then [Mark.plain '^'] else []).any Mark.backtracks = false := by
    cases o.anchored <;> rfl
  rw [hanchor]
  cases o.rest with
  | nil => rfl
  | cons ss rest => simp [starsMarks, starMarks, starOpeningMarks, Mark.backtracks]

/-! ## Lowering references -/

/-- A span refers to nothing that could be lowered. -/
theorem lower_spanMarks (n : Nat) (ss : List Sign) : (spanMarks ss).map (Mark.lower n) = spanMarks ss := by
  induction ss with
  | nil => rfl
  | cons s ss ih =>
    rw [spanMarks, List.flatMap_cons, List.map_append, ← spanMarks, ih]
    cases s with
    | literal c => by_cases h : isEscaped c <;> simp [Sign.marks, h, Mark.lower]
    | separator => rfl
    | textStart => rfl
    | textEnd => rfl

/-- The marks of a span are written as the span. -/
theorem write_spanMarks (ss : List Sign) : Mark.write (spanMarks ss) = spanOf ss := by
  have h := spanMarks_append ss []
  rw [List.append_nil, show Mark.ofText false [] = [] from rfl, List.append_nil] at h
  rw [← h]
  exact Mark.write_ofText false _

/-- The number that a reference to a group is lowered to; one that no reference can have stays. -/
def loweredNumber (n k : Nat) : Nat := if k < referenceLimit then k - n else k

/-- The spans behind asterisks, numbered behind `used`, with their references lowered. -/
def loweredStars (n used : Nat) : List (List Sign) → Text
  | [] => []
  | ss :: rest => starOf (loweredNumber n (used + 1)) ss ++ loweredStars n (used + 1) rest

/-- Marks of wildcards with lowered references are written as wildcards with them. -/
theorem write_lower_starsMarks (n used : Nat) (rest : List (List Sign)) :
    Mark.write ((starsMarks used rest).map (Mark.lower n)) = loweredStars n used rest := by
  induction rest generalizing used with
  | nil => rfl
  | cons ss rest ih =>
    -- The mark of the reference is the only one whose text lowering changes.
    have href : Mark.lower n (.reference (Text.ofNat (used + 1))) =
        .reference (Text.ofNat (loweredNumber n (used + 1))) := by
      simp only [Mark.lower, Text.digitsToNat_ofNat, loweredNumber]
      split <;> rfl
    have hopening : Mark.write (starOpeningMarks.map (Mark.lower n)) = starOpening := by
      rw [starOpening_eq]
      rfl
    have hclosing : Mark.write [.closing, .closing, .reference (Text.ofNat (loweredNumber n (used + 1)))] =
        starClosing ++ Text.ofNat (loweredNumber n (used + 1)) := by
      rw [starClosing_eq]
      simp [Mark.write, Mark.text]
    have happend (as bs : List Mark) : Mark.write (as ++ bs) = Mark.write as ++ Mark.write bs :=
      List.flatMap_append
    rw [starsMarks, starMarks, List.map_append, List.map_append, List.map_append, happend, happend, happend,
      ih, hopening, lower_spanMarks, write_spanMarks, List.map_cons, List.map_cons, List.map_cons, href]
    rw [show Mark.lower n .closing = .closing from rfl, List.map_nil, hclosing, loweredStars, starOf]

/-- Lowered by nothing, wildcards stay as they are. -/
theorem loweredStars_zero (used : Nat) (rest : List (List Sign)) :
    loweredStars 0 used rest = starsOf used rest := by
  induction rest generalizing used with
  | nil => rfl
  | cons ss rest ih => rw [loweredStars, starsOf, loweredNumber, Nat.sub_zero, ite_self, ih]

/-- Lowering the references of a fragment changes the numbers behind its spans. -/
theorem Outline.lowerReferences_eq (o : Outline) (n used : Nat) :
    lowerReferences n (o.text used) = spanOf o.head ++ loweredStars n used o.rest := by
  have hspans : o.marks used = spanMarks o.head ++ starsMarks used o.rest := by
    unfold Outline.marks head
    cases o.anchored <;> simp [spanMarks, Sign.marks]
  have hwrite : Mark.write ((o.marks used).map (Mark.lower n)) =
      spanOf o.head ++ loweredStars n used o.rest := by
    rw [hspans, List.map_append, lower_spanMarks, Mark.write, List.flatMap_append]
    exact congrArg₂ (· ++ ·) (write_spanMarks o.head) (write_lower_starsMarks n used o.rest)
  by_cases hn : n = 0
  · subst hn
    rw [lowerReferences, if_pos rfl, loweredStars_zero, o.text_eq]
  · rw [lowerReferences, if_neg hn, o.marks_text, hwrite]

/-- Lowered by the numbers in front, wildcards are numbered as if nothing were in front. -/
theorem loweredStars_eq {n : Nat} (used : Nat) (rest : List (List Sign))
    (hlimit : rest ≠ [] → n + used + rest.length < referenceLimit) :
    loweredStars n (n + used) rest = starsOf used rest := by
  induction rest generalizing used with
  | nil => rfl
  | cons ss rest ih =>
    have hlt := hlimit (by simp)
    rw [List.length_cons] at hlt
    have hnumber : loweredNumber n (n + used + 1) = used + 1 := by
      rw [loweredNumber, if_pos (by omega)]
      omega
    rw [loweredStars, starsOf, hnumber, show n + used + 1 = n + (used + 1) by omega,
      ih (used + 1) fun _ => by omega]

/-- Lowering the references of a fragment gives the fragment with lower numbers. -/
theorem Outline.lowerReferences_text (o : Outline) (n used : Nat)
    (hlimit : o.rest ≠ [] → n + used + o.rest.length < referenceLimit) :
    lowerReferences n (o.text (n + used)) = o.text used := by
  rw [o.lowerReferences_eq, loweredStars_eq used o.rest hlimit, o.text_eq]

/-! ## Numbered fragments -/

/-- Outlines with the numbers in use in front of them. -/
def numbered (used : Nat) : List Outline → List (Outline × Nat)
  | [] => []
  | o :: os => (o, used) :: numbered (used + o.rest.length) os

/-- A numbered outline as a fragment. -/
def fragmentOf (p : Outline × Nat) : Fragment := ⟨p.1.text p.2, p.2⟩

/-- A fragment is numbered behind another. -/
def Precedes (p q : Outline × Nat) : Prop := p.2 + p.1.rest.length ≤ q.2

/-- Fragments of outlines are listed with their numbers. -/
theorem listFrom_texts (used : Nat) (os : List Outline) :
    Fragment.listFrom used (texts used os) = (numbered used os).map fragmentOf := by
  induction os generalizing used with
  | nil => rfl
  | cons o os ih => simp [texts, Fragment.listFrom, numbered, fragmentOf, o.groupCount_text, ih]

/-- Numbering leaves the outlines as they are. -/
theorem map_fst_numbered (used : Nat) (os : List Outline) : (numbered used os).map Prod.fst = os := by
  induction os generalizing used with
  | nil => rfl
  | cons o os ih => simp [numbered, ih]

/-- The numbers of an outline lie within those of the list. -/
theorem le_of_mem_numbered {used : Nat} {os : List Outline} {p : Outline × Nat} (h : p ∈ numbered used os) :
    used ≤ p.2 ∧ p.2 + p.1.rest.length ≤ used + (os.map fun o => o.rest.length).sum := by
  induction os generalizing used with
  | nil => simp [numbered] at h
  | cons o os ih =>
    simp only [numbered, List.mem_cons] at h
    simp only [List.map_cons, List.sum_cons]
    rcases h with rfl | h
    · constructor
      · exact Nat.le_refl _
      · simp only
        omega
    · have := ih h
      omega

/-- Numbered outlines come one behind the other. -/
theorem pairwise_numbered (used : Nat) (os : List Outline) : (numbered used os).Pairwise Precedes := by
  induction os generalizing used with
  | nil => exact .nil
  | cons o os ih => exact .cons (fun q hq => (le_of_mem_numbered hq).1) (ih _)

/-! ## Chunks -/

/-- Outlines of a chunk that are numbered behind its groups, `groups` of them in front of it: those with
asterisks, the only ones to have references, each behind all that come before it. -/
structure Counts (groups : Nat) (c : List (Outline × Nat)) : Prop where
  pairwise : c.Pairwise fun p q => q.1.rest ≠ [] → Precedes p q
  le : ∀ p ∈ c, p.1.rest ≠ [] → groups ≤ p.2

namespace Counts

variable {groups : Nat} {p : Outline × Nat} {c : List (Outline × Nat)}

/-- The first outline of a chunk has its numbers behind those in use. -/
theorem head (h : Counts groups (p :: c)) : p.1.rest ≠ [] → groups ≤ p.2 := h.le p (by simp)

/-- Behind the first outline of a chunk its wildcards are in use as well. -/
theorem tail (h : Counts groups (p :: c)) : Counts (groups + p.1.rest.length) c where
  pairwise := (List.pairwise_cons.mp h.pairwise).2
  le q hq hstar := by
    have hp := (List.pairwise_cons.mp h.pairwise).1 q hq hstar
    have hq := h.le q (by simp [hq]) hstar
    have hhead := h.head
    rw [Precedes] at hp
    by_cases hplain : p.1.rest = []
    · rw [hplain, List.length_nil]
      exact hq
    · have := hhead hplain
      omega

end Counts

/-- The references of a numbered outline have numbers that a reference can have. -/
def Referable (p : Outline × Nat) : Prop := p.1.rest ≠ [] → p.2 + p.1.rest.length < referenceLimit

/-- A fragment of a chunk as it would be numbered in the chunk alone. -/
theorem lowerReferences_fragmentOf {p : Outline × Nat} {groups : Nat} (hgroups : p.1.rest ≠ [] → groups ≤ p.2)
    (hp : Referable p) : lowerReferences (p.2 - groups) (p.1.text p.2) = p.1.text groups := by
  by_cases hplain : p.1.rest = []
  · rw [p.1.lowerReferences_eq, p.1.text_eq, hplain]
    rfl
  · have hle := hgroups hplain
    have h := p.1.lowerReferences_text (p.2 - groups) groups fun hstar => by
      have := hp hstar
      omega
    rwa [show p.2 - groups + groups = p.2 by omega] at h

/-- The fragments of a chunk as they would be numbered in the chunk alone. -/
theorem chunkTexts_fragmentOf {c : List (Outline × Nat)} {groups : Nat} (hcounts : Counts groups c)
    (hlimit : ∀ p ∈ c, Referable p) : chunkTexts groups (c.map fragmentOf) = texts groups (c.map Prod.fst) := by
  induction c generalizing groups with
  | nil => rfl
  | cons p c ih =>
    have hlower := lowerReferences_fragmentOf hcounts.head (hlimit p (by simp))
    have hrest := ih hcounts.tail fun q hq => hlimit q (by simp [hq])
    simp only [List.map_cons, chunkTexts, texts, fragmentOf, Fragment.groups, p.1.groupCount_text, hlower]
    rw [← hrest]

end UrlFilter.Glob
