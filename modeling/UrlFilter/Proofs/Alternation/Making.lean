import UrlFilter.Proofs.Alternation.Expressions
import UrlFilter.Proofs.Backtrack.Branches

/-!
# Making alternations of regular expressions

A regular expression that the reader without memory takes alone never keeps an alternation from being made:
at worst it is lost. The others go into chunks. There each has to close itself, and those of one chunk may not
be too large together; then every chunk compiles, wherever the chunks are cut.
-/

namespace UrlFilter.Alternation

/-- The size of regular expressions as the branches of one pattern. -/
def branchSizes (raws : List Text) : Nat := (raws.map fun raw => 32 + Backtrack.branchSize raw).sum

/-- Some of the branches are no larger than all of them. -/
theorem branchSizes_le_of_subperm {c raws : List Text} (h : c.Subperm raws) : branchSizes c ≤ branchSizes raws := by
  obtain ⟨c', hperm, hsub⟩ := h
  calc branchSizes c = branchSizes c' := (hperm.symm.map _).sum_nat
    _ ≤ branchSizes raws := (hsub.map _).sum_le_sum fun _ _ => Nat.zero_le _

/-- Whichever of the regular expressions with memory stand in a chunk, they are not too large for it. -/
def ChunksFit (raws : List Text) : Prop :=
  ∀ c, c.Subperm (raws.filter fun raw => !isLinear raw) → c.length ≤ chunkSize →
    branchSizes c ≤ Regex.usualLimit

/-- What is not too large all together fits into chunks. -/
theorem chunksFit_of_le {raws : List Text}
    (h : branchSizes (raws.filter fun raw => !isLinear raw) ≤ Regex.usualLimit) : ChunksFit raws :=
  fun _ hc _ => Nat.le_trans (branchSizes_le_of_subperm hc) h

/-- A pattern is linear when its fragment neither backtracks nor is refused alone. -/
theorem isLinear_eq (q : Text × Nat) :
    isLinear q.1 = (!(fragmentOfRaw q).backtracks && (joined? [fragmentOfRaw q]).isSome) := by
  have hjoined := joined?_raws [q]
  rw [List.map_singleton] at hjoined
  rw [isLinear, hjoined]
  rfl

/-- The regular expressions that may go into chunks are those that are not linear. -/
theorem chunked_raws (ps : List (Text × Nat)) :
    ∃ others : List (Text × Nat), Matcher.chunked (ps.map fragmentOfRaw) = others.map fragmentOfRaw ∧
      others.Perm (ps.filter fun q => !isLinear q.1) := by
  let asks (q : Text × Nat) : Bool := (fragmentOfRaw q).backtracks
  refine ⟨ps.filter asks ++ (ps.filter fun q => !asks q).filter fun q => (joined? [fragmentOfRaw q]).isNone,
    ?_, ?_⟩
  · simp only [Matcher.chunked, List.filter_map, List.map_append]
    rfl
  · -- What is not linear asks for memory, or is rejected without it.
    have hasks (q : Text × Nat) : (asks q && !isLinear q.1) = asks q := by
      rw [isLinear_eq]
      simp only [asks]
      cases (fragmentOfRaw q).backtracks <;> rfl
    have hrejected (q : Text × Nat) :
        (!asks q && !isLinear q.1) = ((joined? [fragmentOfRaw q]).isNone && !asks q) := by
      rw [isLinear_eq]
      simp only [asks]
      cases (fragmentOfRaw q).backtracks <;> cases joined? [fragmentOfRaw q] <;> rfl
    have hperm := List.filter_append_perm asks (ps.filter fun q => !isLinear q.1)
    simp only [List.filter_filter, hasks, hrejected] at hperm
    simpa only [List.filter_filter] using hperm

/-- Regular expressions are joined to an alternation when those that are not linear close themselves and fit
into chunks. -/
theorem exists_ofFragments?_raws {raws : List Text}
    (henclosed : ∀ raw ∈ raws, isLinear raw = false → IsEnclosed raw) (hfits : ChunksFit raws) :
    ∃ m, Matcher.ofFragments? (raws.map Glob.rawFragment) = some m := by
  obtain ⟨ps, hfst, hlist⟩ := exists_listFrom_raws 0 raws
  obtain ⟨others, hchunked, hperm⟩ := chunked_raws ps
  have hothers : (others.map Prod.fst).Perm (raws.filter fun raw => !isLinear raw) := by
    rw [← hfst, List.filter_map]
    exact hperm.map _
  refine Matcher.exists_ofFragments? fun c hne hc hlength => ?_
  rw [hlist, hchunked] at hc
  obtain ⟨c, hsub, rfl⟩ := List.sublist_map_iff.mp hc
  have hraws : ∀ raw ∈ c.map Prod.fst, IsEnclosed raw := by
    intro raw hraw
    obtain ⟨hmem, hlinear⟩ := List.mem_filter.mp (hothers.subset ((hsub.map _).subset hraw))
    exact henclosed raw hmem (by simpa using hlinear)
  have hsize : branchSizes (c.map Prod.fst) ≤ Regex.usualLimit :=
    hfits _ ((hsub.map _).subperm.trans hothers.subperm) (by simpa using hlength)
  obtain ⟨ss, hss⟩ := exists_readings hraws
  rw [chunkText, chunkTexts_raws fun q hq => hraws q.1 (List.mem_map_of_mem hq)]
  exact Backtrack.exists_compile?_joined hss (fun raw hraw => (hraws raw hraw).compiles) (by simpa using hne)
    hsize

end UrlFilter.Alternation
