import UrlFilter.Proofs.Backtrack.Separate
import Mathlib.Algebra.Order.BigOperators.Group.List
import Mathlib.Algebra.Order.Group.Nat

/-!
# Regular expressions that fit into one pattern

A regular expression that needs no memory is handed over whole when it stands alone. Joined with others it is
handed over together with them, or, when one of them needs memory, compiled part by part. What stands alone
can be joined, as long as its parts and all of them together are within the limit on what is handed over.

The limit is on the size of what is handed over, and the parts of a pattern may be larger than the whole: a
pattern that is repeated zero times has no size, but it is compiled. So the parts are bounded by `grossSize`,
which counts each repetition once at least, and never by the size of the whole.
-/

namespace UrlFilter

/-! ## Sizes -/

namespace Regex

/-- The size of a pattern, every repetition counted once at least. -/
def grossSize : Regex → Nat
  | empty => 0
  | one s => s.size
  | look _ => 32
  | seq a b => grossSize a + grossSize b
  | alt a b => 32 + grossSize a + grossSize b
  | turns r lo hi _ => 32 + (match hi with | none => max lo 1 | some h => max h 1) * grossSize r

/-- The gross size is an upper bound for the size. -/
theorem size_le_grossSize (r : Regex) : r.size ≤ r.grossSize := by
  induction r with
  | empty | one | look => exact Nat.le_refl _
  | seq a b ha hb => exact Nat.add_le_add ha hb
  | alt a b ha hb =>
    simp only [size, grossSize]
    omega
  | turns r lo hi greedy ih =>
    cases hi with
    | none => exact Nat.add_le_add_left (Nat.mul_le_mul_left _ ih) 32
    | some h => exact Nat.add_le_add_left (Nat.mul_le_mul (Nat.le_max_left h 1) ih) 32

/-- A repetition is no smaller than what it repeats. -/
theorem grossSize_le_turns (r : Regex) (lo : Nat) (hi : Option Nat) (greedy : Bool) :
    r.grossSize ≤ (turns r lo hi greedy).grossSize := by
  have hcopies : 1 ≤ (match hi with | none => max lo 1 | some h => max h 1) := by
    cases hi with
    | none => exact Nat.le_max_right lo 1
    | some h => exact Nat.le_max_right h 1
  calc r.grossSize = 1 * r.grossSize := (Nat.one_mul _).symm
    _ ≤ _ * r.grossSize := Nat.mul_le_mul_right _ hcopies
    _ ≤ (turns r lo hi greedy).grossSize := Nat.le_add_left _ 32

/-- The parts of a pattern that is folded from them are no larger. -/
theorem grossSize_le_foldl {op : Regex → Regex → Regex}
    (hop : ∀ a b, a.grossSize ≤ (op a b).grossSize ∧ b.grossSize ≤ (op a b).grossSize) {r : Regex}
    {rs : List Regex} : ∀ r' ∈ r :: rs, r'.grossSize ≤ (rs.foldl op r).grossSize := by
  induction rs generalizing r with
  | nil => simp
  | cons r₁ rs ih =>
    intro r' hr'
    have hfirst : (op r r₁).grossSize ≤ ((r₁ :: rs).foldl op r).grossSize := ih (op r r₁) (by simp)
    rcases List.mem_cons.mp hr' with rfl | hr'
    · exact Nat.le_trans (hop r' r₁).1 hfirst
    · rcases List.mem_cons.mp hr' with rfl | hr'
      · exact Nat.le_trans (hop r r').2 hfirst
      · exact ih r' (List.mem_cons_of_mem _ hr')

/-- The parts of a sequence make up its size. -/
theorem grossSize_seqAll (rs : List Regex) : (seqAll rs).grossSize = (rs.map grossSize).sum := by
  cases rs with
  | nil => rfl
  | cons r rs =>
    have hfold (rs : List Regex) (r : Regex) : (rs.foldl seq r).grossSize = r.grossSize + (rs.map grossSize).sum := by
      induction rs generalizing r with
      | nil => simp
      | cons r' rs ih =>
        rw [List.foldl_cons, ih, grossSize, List.map_cons, List.sum_cons]
        omega
    rw [seqAll, hfold, List.map_cons, List.sum_cons]

/-- A choice is no smaller than any of its branches. -/
theorem grossSize_le_altAll {rs : List Regex} : ∀ r ∈ rs, r.grossSize ≤ (altAll rs).grossSize := by
  cases rs with
  | nil => simp
  | cons r rs =>
    refine grossSize_le_foldl fun a b => ?_
    simp only [grossSize]
    omega

end Regex

namespace Backtrack

namespace Expr

/-- Behind an empty branch, what is left of a choice are the branches that are not empty. -/
theorem eq_empty_or_mem_others {empties : List Bool} {rs : List Regex}
    (h : List.Forall₂ (fun b r => b = true → r = .empty) empties rs) {r : Regex} (hr : r ∈ rs) :
    r = .empty ∨ r ∈ ((empties.zip rs).filter (!·.1)).map Prod.snd := by
  induction h with
  | nil => simp at hr
  | @cons b r' bs rs hb _ ih =>
    rcases List.mem_cons.mp hr with rfl | hr
    · cases b with
      | true => exact .inl (hb rfl)
      | false => exact .inr (by simp)
    · refine (ih hr).imp_right fun hmem => ?_
      cases b with
      | true => exact hmem
      | false => exact List.mem_cons_of_mem _ hmem

/-- What is chosen from behind an empty branch is among the branches. -/
theorem others_sublist (empties : List Bool) (rs : List Regex) :
    (((empties.zip rs).filter (!·.1)).map Prod.snd).Sublist rs := by
  induction empties generalizing rs with
  | nil => simp
  | cons b bs ih =>
    cases rs with
    | nil => simp
    | cons r rs =>
      cases b with
      | true => exact (ih rs).cons r
      | false => exact (ih rs).cons_cons r

/-- The branches of a choice are no larger than the choice; an empty one may be left out of it. -/
theorem grossSize_le_choice {empties : List Bool} {rs : List Regex}
    (h : List.Forall₂ (fun b r => b = true → r = .empty) empties rs) :
    ∀ r ∈ rs, r.grossSize ≤ (choice empties rs).grossSize := by
  intro r hr
  by_cases hany : empties.any id = true
  · rcases eq_empty_or_mem_others h hr with rfl | hmem
    · exact Nat.zero_le _
    · have hothers : (((empties.zip rs).filter (!·.1)).map Prod.snd).isEmpty = false := by
        rw [List.isEmpty_eq_false_iff]
        exact List.ne_nil_of_mem hmem
      simp only [choice, hany, if_true, hothers, Bool.false_eq_true, if_false]
      exact Nat.le_trans (Regex.grossSize_le_altAll r hmem) (Regex.grossSize_le_turns _ _ _ _)
  · rw [choice, if_neg hany]
    exact Regex.grossSize_le_altAll r hr

/-- A choice is no larger than its branches with the signs between them. -/
theorem size_choice_le (empties : List Bool) {rs : List Regex} (hne : rs ≠ []) :
    (choice empties rs).size ≤ (rs.map fun r => 32 + r.size).sum := by
  by_cases hany : empties.any id = true
  · -- With an empty branch the choice is optional, over the branches that are left.
    have hsum := ((others_sublist empties rs).map fun r => 32 + r.size).sum_le_sum fun _ _ => Nat.zero_le _
    rw [choice, if_pos hany, Regex.size, Nat.one_mul]
    cases hothers : ((empties.zip rs).filter (!·.1)).map Prod.snd with
    | nil =>
      obtain ⟨r, rs, rfl⟩ := List.exists_cons_of_ne_nil hne
      simp only [List.isEmpty_nil, if_true, Regex.size, List.map_cons, List.sum_cons]
      omega
    | cons r others =>
      rw [hothers] at hsum
      rw [if_neg (by simp), Regex.size_altAll_add (by simp)]
      exact hsum
  · rw [choice, if_neg hany]
    have := Regex.size_altAll_add hne
    omega

/-! ## Compiling part by part -/

/-- The expression can be compiled part by part when it is small enough. -/
def CompilesSmall (refs : List Nat) (e : Expr) : Prop :=
  ∀ r, e.toRegex? = some r → r.grossSize ≤ Regex.usualLimit → ∃ p, e.compile refs true = some p

/-- A sequence that is small enough is handed over whole. -/
theorem exists_handOver?_concat {es : List Expr} {rs : List Regex} (hrs : toRegexes? es = some rs)
    (hsize : (rs.map Regex.grossSize).sum ≤ Regex.usualLimit) : ∃ p, handOver? (concat es) = some p := by
  have hr : (concat es).toRegex? = some (Regex.seqAll rs) := by rw [toRegex?, hrs, Option.map_some]
  have hle := (Regex.seqAll rs).size_le_grossSize
  rw [Regex.grossSize_seqAll] at hle
  exact ⟨_, handOver?_of_size_le hr (Nat.le_trans hle hsize)⟩

/-- A sequence that is small enough is compiled behind its front. -/
theorem exists_compileSeq {refs : List Nat} {es : List Expr} (heach : ∀ e ∈ es, CompilesSmall refs e)
    {rs : List Regex} (hrs : toRegexes? es = some rs) (hsize : (rs.map Regex.grossSize).sum ≤ Regex.usualLimit) :
    ∃ p, compileSeq refs true false es = some p := by
  induction es generalizing rs with
  | nil => exact ⟨.empty, rfl⟩
  | cons e es ih =>
    obtain ⟨whole, hwhole⟩ := exists_handOver?_concat hrs hsize
    simp only [toRegexes?, Option.bind_eq_some_iff, Option.map_eq_some_iff] at hrs
    obtain ⟨r, hr, rs, hrs, rfl⟩ := hrs
    rw [List.map_cons, List.sum_cons] at hsize
    obtain ⟨p, hp⟩ := heach e (by simp) r hr (by omega)
    obtain ⟨p', hp'⟩ := ih (fun e' he' => heach e' (by simp [he'])) hrs (by omega)
    rw [compileSeq, Bool.false_and, if_neg Bool.false_ne_true]
    split
    · exact ⟨_, by rw [hwhole]; rfl⟩
    · exact ⟨_, by rw [hp, hp']; rfl⟩

/-- Branches each of which is small enough are compiled. -/
theorem exists_compileBranches {refs : List Nat} {es : List Expr} (heach : ∀ e ∈ es, CompilesSmall refs e)
    {rs : List Regex} (hrs : toRegexes? es = some rs) (hsize : ∀ r ∈ rs, r.grossSize ≤ Regex.usualLimit) :
    ∃ ps, compileBranches refs true es = some ps := by
  induction es generalizing rs with
  | nil => exact ⟨[], rfl⟩
  | cons e es ih =>
    simp only [toRegexes?, Option.bind_eq_some_iff, Option.map_eq_some_iff] at hrs
    obtain ⟨r, hr, rs, hrs, rfl⟩ := hrs
    obtain ⟨p, hp⟩ := heach e (by simp) r hr (hsize r (by simp))
    obtain ⟨ps, hps⟩ := ih (fun e' he' => heach e' (by simp [he'])) hrs fun r' hr' => hsize r' (by simp [hr'])
    exact ⟨p :: ps, by simp [compileBranches, hp, hps]⟩

mutual

/-- An expression that needs no memory is compiled part by part when it is small enough. -/
theorem exists_compile {refs : List Nat} {e : Expr} {r : Regex} (hhard : (e.info refs).hard = false)
    (hr : e.toRegex? = some r) (hsize : r.grossSize ≤ Regex.usualLimit) :
    ∃ p, e.compile refs true = some p := by
  rw [compile_true]
  match e with
  | .empty => exact ⟨.empty, rfl⟩
  | .any _ | .look _ | .literal _ _ | .set _ _ =>
    exact ⟨.plain r, handOver?_of_size_le hr (Nat.le_trans r.size_le_grossSize hsize)⟩
  | .concat es =>
    rw [hard_concat] at hhard
    rw [toRegex?, Option.map_eq_some_iff] at hr
    obtain ⟨rs, hrs, rfl⟩ := hr
    have heach : ∀ e ∈ es, CompilesSmall refs e := compilesSmall_all (by simpa using hhard)
    rw [Regex.grossSize_seqAll] at hsize
    -- The front and what is behind it are no larger than the sequence.
    rw [← List.takeWhile_append_dropWhile (p := isWhole refs true) (l := es)] at hrs
    obtain ⟨as, bs, has, hbs, rfl⟩ := of_toRegexes?_append hrs
    rw [List.map_append, List.sum_append] at hsize
    obtain ⟨p, hp⟩ := exists_handOver?_concat has (by omega)
    obtain ⟨p', hp'⟩ := exists_compileSeq
      (fun e he => heach e ((List.dropWhile_sublist _).subset he)) hbs (by omega)
    exact ⟨.seq p p', by rw [compileParts_concat, hp, hp']; rfl⟩
  | .alt es =>
    rw [hard_alt] at hhard
    rw [toRegex?, Option.map_eq_some_iff] at hr
    obtain ⟨rs, hrs, rfl⟩ := hr
    have heach : ∀ e ∈ es, CompilesSmall refs e := compilesSmall_all (by simpa using hhard)
    obtain ⟨ps, hps⟩ := exists_compileBranches heach hrs fun r hr =>
      Nat.le_trans (grossSize_le_choice (forall₂_isEmpty hrs) r hr) hsize
    exact ⟨Pattern.altAll ps, by simp [compileParts, hps]⟩
  | .group k e =>
    rw [info, Bool.or_eq_false_iff] at hhard
    rw [toRegex?] at hr
    obtain ⟨p, hp⟩ := exists_compile hhard.1 hr hsize
    exact ⟨if refs.contains k then .capture k p else p, by simp [compileParts, hp]⟩
  | .turns e lo hi greedy =>
    rw [info] at hhard
    rw [toRegex?, Option.ite_none_right_eq_some, Option.map_eq_some_iff] at hr
    obtain ⟨-, r, hr, rfl⟩ := hr
    obtain ⟨p, hp⟩ := exists_compile hhard hr (Nat.le_trans (Regex.grossSize_le_turns _ _ _ _) hsize)
    exact ⟨.turns p lo hi greedy, by simp [compileParts, hp]⟩
  | .around _ _ | .reference _ | .atomic _ | .keepOut | .searchStart | .captured _
  | .conditional _ _ _ => simp [toRegex?] at hr

/-- So is each expression of a list that needs no memory. -/
theorem compilesSmall_all {refs : List Nat} {es : List Expr} (hhard : ∀ e ∈ es, (e.info refs).hard = false) :
    ∀ e ∈ es, CompilesSmall refs e := by
  match es with
  | [] => simp
  | e :: es =>
    rw [List.forall_mem_cons] at hhard ⊢
    exact ⟨fun _ hr hsize => exists_compile hhard.1 hr hsize, compilesSmall_all hhard.2⟩

end

end Expr

/-- A choice of branches without memory is one without memory, no larger than they are with the signs between
them. -/
theorem exists_toRegex?_choiceOf {es : List Expr} (hne : es ≠ []) {rs : List Regex}
    (h : Expr.toRegexes? es = some rs) :
    ∃ r, (choiceOf es).toRegex? = some r ∧ r.size ≤ (rs.map fun r => 32 + r.size).sum := by
  match es with
  | [] => exact absurd rfl hne
  | [e] =>
    simp only [Expr.toRegexes?, Option.bind_eq_some_iff, Option.map_some, Option.some.injEq] at h
    obtain ⟨r, hr, rfl⟩ := h
    exact ⟨r, hr, by simp⟩
  | e :: e' :: es =>
    have hrs : rs ≠ [] := by
      rintro rfl
      simp only [Expr.toRegexes?, Option.bind_eq_some_iff, Option.map_eq_some_iff, reduceCtorEq,
        and_false, exists_false] at h
    refine ⟨Expr.choice ((e :: e' :: es).map Expr.isEmpty) rs, ?_, Expr.size_choice_le _ hrs⟩
    rw [choiceOf, Expr.toRegex?, h]
    · rfl
    · simp

/-! ## Regular expressions as branches -/

/-- The size of an expression that needs no memory. One that needs memory is compiled part by part wherever it
stands. -/
def Expr.handedSize (refs : List Nat) (e : Expr) : Nat :=
  if (e.info refs).hard then 0 else (e.toRegex?.map Regex.grossSize).getD 0

/-- Other numbers for the groups leave the size as it is. -/
theorem Expr.handedSize_rename {f : Nat → Nat} {refs refs' : List Nat} {e : Expr}
    (h : Follows f refs refs' e.captures) : (e.rename f).handedSize refs' = e.handedSize refs := by
  simp only [handedSize, info_rename h, toRegex?_rename]

/-- The size of a regular expression as a branch. -/
def branchSize (raw : Text) : Nat :=
  ((parse? (Alternation.join [Glob.rawFragment raw])).map fun (e, refs) => e.handedSize refs).getD 0

namespace ClosesWith

variable {raw : Text} {s : Reading}

/-- The size of a regular expression as a branch is that of what is read of it. -/
theorem branchSize_eq (h : ClosesWith raw s) : branchSize raw = s.expr.handedSize s.refs := by
  have hfollows : Expr.Follows (shift 0) s.refs (refsFrom 0 [] [s]) s.expr.captures :=
    follows_refsFrom (by simpa using h.counts) (by simp) h.finish
  have hparse := parse?_raws (.cons h .nil) (List.cons_ne_nil raw [])
  simp only [List.map_cons, List.map_nil] at hparse
  rw [branchSize, hparse, Option.map_some, Option.getD_some]
  exact Expr.handedSize_rename hfollows

/-- What needs no memory and compiles alone is one pattern without memory. -/
theorem exists_toRegex? (h : ClosesWith raw s)
    (halone : (compile? (Alternation.join [Glob.rawFragment raw])).isSome)
    (hhard : (s.expr.info s.refs).hard = false) :
    ∃ r, s.expr.toRegex? = some r ∧ branchSize raw = r.grossSize := by
  obtain ⟨p, hp⟩ := Option.isSome_iff_exists.mp halone
  have hcompiled := h.compile?_alone hp
  rw [if_neg (by simp [hhard])] at hcompiled
  obtain ⟨r, hr, -⟩ := hcompiled
  exact ⟨r, hr, by simp [h.branchSize_eq, Expr.handedSize, hhard, hr]⟩

/-- What compiles alone compiles as a branch, when it is small enough. -/
theorem exists_compile (h : ClosesWith raw s)
    (halone : (compile? (Alternation.join [Glob.rawFragment raw])).isSome)
    (hsize : branchSize raw ≤ Regex.usualLimit) : ∃ p, s.expr.compile s.refs true = some p := by
  cases hhard : (s.expr.info s.refs).hard with
  | true =>
    obtain ⟨p, hp⟩ := Option.isSome_iff_exists.mp halone
    have hcompiled := h.compile?_alone hp
    rw [if_pos hhard] at hcompiled
    obtain ⟨q, hq, -⟩ := hcompiled
    exact ⟨q, hq⟩
  | false =>
    obtain ⟨r, hr, hgross⟩ := h.exists_toRegex? halone hhard
    exact Expr.exists_compile hhard hr (hgross ▸ hsize)

end ClosesWith

section

variable {raws : List Text} {ss : List Reading} (h : List.Forall₂ ClosesWith raws ss)
  (halone : ∀ raw ∈ raws, (compile? (Alternation.join [Glob.rawFragment raw])).isSome)

include h halone

/-- Branches that are small enough each are compiled one by one, whatever groups stand in front of them. -/
theorem exists_compileBranches_exprsFrom (hsize : ∀ raw ∈ raws, branchSize raw ≤ Regex.usualLimit) {d : Nat}
    {early : List Nat} (hearly : ∀ k ∈ early, k ≤ d) :
    ∃ ps, Expr.compileBranches (refsFrom d early ss) true (exprsFrom d ss) = some ps := by
  have hcounts := counts_of_closes h
  induction h generalizing d early with
  | nil => exact ⟨[], rfl⟩
  | @cons raw s raws ss hraw _ ih =>
    have hfollows := follows_refsFrom hcounts hearly hraw.finish
    obtain ⟨p, hp⟩ := hraw.exists_compile (halone raw (by simp)) (hsize raw (by simp))
    obtain ⟨ps, hps⟩ := ih (fun raw' hraw' => halone raw' (by simp [hraw']))
      (fun raw' hraw' => hsize raw' (by simp [hraw'])) (early_append hraw.counts hearly)
      fun s' hs' => hcounts s' (by simp [hs'])
    rw [exprsFrom, Expr.compileBranches, Expr.compile_rename hfollows, hp, refsFrom, hps]
    exact ⟨_, rfl⟩

/-- Branches that need no memory are patterns without it, and together no larger than their sizes say. -/
theorem exists_toRegexes_exprsFrom (hhard : ∀ s ∈ ss, (s.expr.info s.refs).hard = false) (d : Nat) :
    ∃ rs, Expr.toRegexes? (exprsFrom d ss) = some rs ∧
      (rs.map fun r => 32 + r.size).sum ≤ (raws.map fun raw => 32 + branchSize raw).sum := by
  induction h generalizing d with
  | nil => exact ⟨[], rfl, Nat.le_refl _⟩
  | @cons raw s raws ss hraw _ ih =>
    obtain ⟨r, hr, hgross⟩ := hraw.exists_toRegex? (halone raw (by simp)) (hhard s (by simp))
    obtain ⟨rs, hrs, hsum⟩ := ih (fun raw' hraw' => halone raw' (by simp [hraw']))
      (fun s' hs' => hhard s' (by simp [hs'])) (d + s.groups)
    have hle := r.size_le_grossSize
    refine ⟨r :: rs, by simp [exprsFrom, Expr.toRegexes?, Expr.toRegex?_rename, hr, hrs], ?_⟩
    simp only [List.map_cons, List.sum_cons]
    omega

/-- Regular expressions that close themselves and compile alone compile together, as long as they are not too
large. -/
theorem exists_compile?_joined (hne : raws ≠ [])
    (hsize : (raws.map fun raw => 32 + branchSize raw).sum ≤ Regex.usualLimit) :
    ∃ p, compile? (Alternation.join (raws.map Glob.rawFragment)) = some p := by
  have hearly : ∀ k ∈ ([] : List Nat), k ≤ 0 := by simp
  have hexprs : exprsFrom 0 ss ≠ [] := by
    cases h with
    | nil => exact absurd rfl hne
    | cons => simp [exprsFrom]
  have heach : ∀ raw ∈ raws, branchSize raw ≤ Regex.usualLimit := by
    intro raw hraw
    have hle := List.single_le_sum (fun _ _ => Nat.zero_le _) _
      (List.mem_map_of_mem (f := fun raw => 32 + branchSize raw) hraw)
    omega
  simp only [compile?, parse?_raws h hne, Option.bind_some, hard_choiceOf, hard_exprsFrom h hearly]
  split
  · -- One of them needs memory, so every branch is compiled part by part, those without memory as well.
    obtain ⟨ps, hps⟩ := exists_compileBranches_exprsFrom h halone heach hearly
    exact ⟨_, by rw [compile_choiceOf _ hexprs, hps]; rfl⟩
  · next hplain =>
    obtain ⟨rs, hrs, hsum⟩ := exists_toRegexes_exprsFrom h halone (by simpa using hplain) 0
    obtain ⟨r, hr, hle⟩ := exists_toRegex?_choiceOf hexprs hrs
    exact ⟨.plain r, by rw [Expr.whole?_eq hr, if_pos (by omega)]⟩

end

end Backtrack

end UrlFilter
