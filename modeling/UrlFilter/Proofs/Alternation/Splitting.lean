import UrlFilter.Alternation.Matcher
import Mathlib.Data.List.Basic

/-!
# Splitting an alternation

The chunks of a list hold its elements in their order. What is compiled chunk by chunk compiles when every
chunk does, and matches when one of them does.
-/

namespace UrlFilter.Alternation

/-! ## Chunks -/

/-- Of nothing there are no chunks. -/
theorem chunks_nil {α : Type} (n : Nat) : chunks n ([] : List α) = [] := by
  rw [chunks]
  simp

/-- A chunk is taken from the front as long as anything is left. -/
theorem chunks_of_ne_nil {α : Type} {n : Nat} (hn : n ≠ 0) {as : List α} (h : as ≠ []) :
    chunks n as = as.take n :: chunks n (as.drop n) := by
  rw [chunks, if_neg]
  simp [h, hn]

/-- A property of chunks, proved from the front of the list. -/
theorem chunks_induction {α : Type} {n : Nat} (hn : n ≠ 0) {motive : List α → Prop} (nil : motive [])
    (step : ∀ as, as ≠ [] → motive (as.drop n) → motive as) (as : List α) : motive as := by
  induction h : as.length using Nat.strongRecOn generalizing as with
  | _ l ih =>
    by_cases hne : as = []
    · exact hne ▸ nil
    · have := List.length_pos_iff.mpr hne
      exact step as hne (ih _ (by simp only [List.length_drop]; omega) _ rfl)

/-- The chunks make up the list. -/
theorem flatten_chunks {α : Type} {n : Nat} (hn : n ≠ 0) (as : List α) : (chunks n as).flatten = as := by
  induction as using chunks_induction hn with
  | nil => rw [chunks_nil]; rfl
  | step as h ih => rw [chunks_of_ne_nil hn h, List.flatten_cons, ih, List.take_append_drop]

/-- A chunk has no more elements than it may have. -/
theorem length_le_of_mem_chunks {α : Type} {n : Nat} (hn : n ≠ 0) {as c : List α} (hc : c ∈ chunks n as) :
    c.length ≤ n := by
  induction as using chunks_induction hn with
  | nil => simp [chunks_nil] at hc
  | step as h ih =>
    rw [chunks_of_ne_nil hn h, List.mem_cons] at hc
    rcases hc with rfl | hc
    · exact List.length_take_le n as
    · exact ih hc

/-- A chunk is a part of the list, in its order and not empty. -/
theorem of_mem_chunks {α : Type} {n : Nat} (hn : n ≠ 0) {as c : List α} (hc : c ∈ chunks n as) :
    c.Sublist as ∧ c ≠ [] := by
  induction as using chunks_induction hn with
  | nil => simp [chunks_nil] at hc
  | step as h ih =>
    rw [chunks_of_ne_nil hn h, List.mem_cons] at hc
    rcases hc with rfl | hc
    · exact ⟨List.take_sublist n as, by simp [hn, h]⟩
    · obtain ⟨hsub, hne⟩ := ih hc
      exact ⟨hsub.trans (List.drop_sublist n as), hne⟩

/-- Chunks are mapped one by one. -/
theorem chunks_map {α β : Type} {n : Nat} (hn : n ≠ 0) (f : α → β) (as : List α) :
    chunks n (as.map f) = (chunks n as).map (List.map f) := by
  induction as using chunks_induction hn with
  | nil => simp [chunks_nil]
  | step as h ih =>
    rw [chunks_of_ne_nil hn h, chunks_of_ne_nil hn (by simpa using h), List.map_cons, ← List.map_take,
      ← List.map_drop, ih]

/-! ## Compiling chunk by chunk -/

namespace Matcher

/-- Chunks that all compile, compile together. -/
theorem exists_compileChunks? {cs : List (List Fragment)}
    (h : ∀ c ∈ cs, ∃ p, Backtrack.compile? (chunkText c) = some p) : ∃ ps, compileChunks? cs = some ps := by
  induction cs with
  | nil => exact ⟨[], rfl⟩
  | cons c cs ih =>
    obtain ⟨p, hp⟩ := h c (by simp)
    obtain ⟨ps, hps⟩ := ih fun c' hc' => h c' (by simp [hc'])
    exact ⟨p :: ps, by simp [compileChunks?, hp, hps]⟩

/-- Chunks do not compile when one of them does not. -/
theorem compileChunks?_eq_none {cs : List (List Fragment)} {c : List Fragment} (hc : c ∈ cs)
    (h : Backtrack.compile? (chunkText c) = none) : compileChunks? cs = none := by
  induction cs with
  | nil => simp at hc
  | cons c' cs ih =>
    rw [compileChunks?]
    rcases List.mem_cons.mp hc with rfl | hc
    · rw [h]
      rfl
    · rw [ih hc]
      cases Backtrack.compile? (chunkText c') <;> rfl

/-- Where chunks compile, each of them does. -/
theorem exists_of_compileChunks? {cs : List (List Fragment)} {ps : List Backtrack.Pattern}
    (h : compileChunks? cs = some ps) {c : List Fragment} (hc : c ∈ cs) :
    ∃ p, Backtrack.compile? (chunkText c) = some p := by
  cases hp : Backtrack.compile? (chunkText c) with
  | some p => exact ⟨p, rfl⟩
  | none => rw [compileChunks?_eq_none hc hp] at h; cases h

/-- Chunks match when one of them does. -/
theorem any_isMatch_of_compileChunks? {cs : List (List Fragment)} {ps : List Backtrack.Pattern}
    (h : compileChunks? cs = some ps) {t : Text} :
    ps.any (·.isMatch t) = true ↔
      ∃ c ∈ cs, ∃ p, Backtrack.compile? (chunkText c) = some p ∧ p.isMatch t = true := by
  induction cs generalizing ps with
  | nil =>
    cases h
    simp
  | cons c cs ih =>
    simp only [compileChunks?, Option.bind_eq_some_iff, Option.map_eq_some_iff] at h
    obtain ⟨p, hp, ps, hps, rfl⟩ := h
    simp [hp, ih hps]

/-- The chunks of fragments of some things match when one of the things does, whatever that means for them: it
is enough that each chunk by itself says so. -/
theorem any_isMatch_chunks {α : Type} {f : α → Fragment} {as : List α} {Q : α → Prop} {t : Text}
    (hchunk : ∀ c, c.Sublist as → c ≠ [] → ∀ p, Backtrack.compile? (chunkText (c.map f)) = some p →
      (p.isMatch t = true ↔ ∃ a ∈ c, Q a))
    {ps : List Backtrack.Pattern}
    (h : compileChunks? ((Alternation.chunks chunkSize as).map (List.map f)) = some ps) :
    ps.any (·.isMatch t) = true ↔ ∃ a ∈ as, Q a := by
  rw [any_isMatch_of_compileChunks? h]
  constructor
  · rintro ⟨_, hmem, p, hp, hmatch⟩
    obtain ⟨c, hc, rfl⟩ := List.mem_map.mp hmem
    obtain ⟨hsub, hne⟩ := of_mem_chunks (by decide) hc
    obtain ⟨a, ha, hQ⟩ := (hchunk c hsub hne p hp).mp hmatch
    exact ⟨a, hsub.subset ha, hQ⟩
  · rintro ⟨a, ha, hQ⟩
    -- Every element of the list is in one of the chunks.
    rw [← flatten_chunks (n := chunkSize) (by decide) as] at ha
    obtain ⟨c, hc, hac⟩ := List.mem_flatten.mp ha
    obtain ⟨hsub, hne⟩ := of_mem_chunks (by decide) hc
    obtain ⟨p, hp⟩ := exists_of_compileChunks? h (List.mem_map_of_mem hc)
    exact ⟨_, List.mem_map_of_mem hc, p, hp, (hchunk c hsub hne p hp).mpr ⟨a, hac, hQ⟩⟩

/-! ## What goes into chunks -/

/-- The fragments that may go into chunks: those that ask for backtracking, and those that cannot be a
pattern without memory alone. -/
def chunked (fs : List Fragment) : List Fragment :=
  fs.filter Fragment.backtracks ++ (fs.filter (not ∘ Fragment.backtracks)).filter fun f => (joined? [f]).isNone

/-- Where the fragments cannot be one pattern without memory, those that cannot be one alone are left over. -/
theorem splitLinear_snd (fs : List Fragment) : (splitLinear fs).2 =
    if (joined? fs).isSome then [] else fs.filter fun f => (joined? [f]).isNone := by
  rw [splitLinear]
  cases joined? fs with
  | some r => rfl
  | none => simp [List.partition_eq_filter_filter, Function.comp_def]

/-- What is split off are fragments that are not accepted alone. -/
theorem splitLinear_sublist (fs : List Fragment) :
    (splitLinear fs).2.Sublist (fs.filter fun f => (joined? [f]).isNone) := by
  rw [splitLinear_snd]
  split
  · exact List.nil_sublist _
  · exact List.Sublist.refl _

/-- The fragments that go into chunks: those that ask for backtracking, and those left over. -/
def inChunks (texts : List Text) : List Fragment :=
  let fs := Fragment.listFrom 0 texts
  fs.filter Fragment.backtracks ++ (splitLinear (fs.filter (not ∘ Fragment.backtracks))).2

/-- A matcher is made of the chunks of these fragments, and of one pattern for the others. -/
theorem ofFragments?_eq (texts : List Text) : ofFragments? texts =
    (compileChunks? (Alternation.chunks chunkSize (inChunks texts))).map
      (⟨(splitLinear ((Fragment.listFrom 0 texts).filter (not ∘ Fragment.backtracks))).1, ·⟩) := by
  simp only [ofFragments?, List.partition_eq_filter_filter]
  rfl

/-- Fragments make a matcher when every chunk compiles that their splitting can lead to. -/
theorem exists_ofFragments? {texts : List Text}
    (h : ∀ c ≠ [], c.Sublist (chunked (Fragment.listFrom 0 texts)) → c.length ≤ chunkSize →
      ∃ p, Backtrack.compile? (chunkText c) = some p) : ∃ m, ofFragments? texts = some m := by
  simp only [ofFragments?, List.partition_eq_filter_filter]
  let fs := Fragment.listFrom 0 texts
  have hsub := (splitLinear_sublist (fs.filter (not ∘ Fragment.backtracks))).append_left
    (fs.filter Fragment.backtracks)
  have hchunks := fun c hc =>
    have ⟨hchunk, hne⟩ := of_mem_chunks (n := chunkSize) (by decide) hc
    h c hne (hchunk.trans hsub) (length_le_of_mem_chunks (by decide) hc)
  obtain ⟨ps, hps⟩ := exists_compileChunks? hchunks
  rw [hps]
  exact ⟨_, rfl⟩

end Matcher

end UrlFilter.Alternation
