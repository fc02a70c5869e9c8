import UrlFilter.Alternation.Basic
import UrlFilter.Proofs.Alternation.Splitting
import UrlFilter.Proofs.Backtrack.Separate
import UrlFilter.Proofs.Except
import UrlFilter.Proofs.Regex.Separate
import UrlFilter.Rule.Admission

/-!
# Alternations of regular expressions

The regular expressions of a bucket go into one pattern without memory and into chunks with memory, by what
each of them asks for. Where every one closes itself, the alternation matches when one of them alone does,
but for those that are lost: when the reader without memory takes them one by one and not together, they are
in no part of the alternation.
-/

namespace UrlFilter.Alternation

/-! ## References -/

/-- Only behind a backslash does a reference begin. -/
theorem hasReference_cons {c : Char} (h : c ≠ '\\') (t : Text) :
    hasReference (c :: t) = hasReference t := by
  rw [hasReference]
  exact fun _ _ hc _ => h hc

/-- A closing bracket at the end adds no reference. -/
theorem hasReference_append_close (t : Text) : hasReference (t ++ [')']) = hasReference t := by
  fun_induction hasReference t with
  | case1 c t ih => simp [hasReference, ih]
  | case2 c t hback ih =>
    by_cases hc : c = '\\'
    · cases t with
      | nil =>
        subst hc
        rfl
      | cons d t => exact absurd rfl (hback d t hc)
    · rw [List.cons_append, hasReference_cons hc, ih]
  | case3 => rfl

/-- The group around a raw pattern adds no reference. -/
theorem hasReference_rawFragment (raw : Text) : hasReference (Glob.rawFragment raw) = hasReference raw := by
  rw [← List.append_nil (Glob.rawFragment raw), Glob.rawFragment_append, hasReference_cons (by decide),
    hasReference_cons (by decide), hasReference_cons (by decide), hasReference_append_close]

/-- A reference among the marks is one that the text shows. -/
theorem hasReference_of_mem_marks {inClass : Bool} {t digits : Text}
    (h : .reference digits ∈ Mark.ofText inClass t) : hasReference t = true := by
  have hbracket (t : Text) : hasReference ('[' :: t) = hasReference t := hasReference_cons (by decide) t
  have hcaret (t : Text) : hasReference ('^' :: t) = hasReference t := hasReference_cons (by decide) t
  have hclose (t : Text) : hasReference (']' :: t) = hasReference t := hasReference_cons (by decide) t
  -- The reader of marks takes the backslashes in the same pairs; it only knows classes besides.
  fun_induction Mark.ofText inClass t
  case case1 => simp at h
  case case2 => simp at h
  case case3 c t ih => simp_all [hasReference]
  case case4 inClass c t hclass ih =>
    simp only [hasReference]
    by_cases hdigit : (c.isDigit && c != '0') = true
    · simp [hdigit]
    · simp_all [Mark.escape]
  case case11 c t hend hback _ _ _ hbracket ih =>
    have hc : c ≠ '\\' := fun hc => by cases t <;> simp_all
    rw [hasReference_cons hc]
    exact ih (by simpa using h)
  case case15 inClass c t hend hback _ _ _ hbracket hclass hopen hclose hbar ih =>
    have hc : c ≠ '\\' := fun hc => by cases t <;> simp_all
    rw [hasReference_cons hc]
    exact ih (by simpa using h)
  case case12 inClass t hclass _ _ _ _ _ _ ih =>
    rw [hasReference_cons (by decide)]
    exact ih (by simpa using h)
  case case13 inClass t hclass _ _ _ _ _ _ _ ih =>
    rw [hasReference_cons (by decide)]
    exact ih (by simpa using h)
  case case14 inClass t hclass _ _ _ _ _ _ _ _ ih =>
    rw [hasReference_cons (by decide)]
    exact ih (by simpa using h)
  all_goals simp_all

/-- A regular expression without references stays as it is in every chunk. -/
theorem lowerReferences_rawFragment {raw : Text} (h : hasReference raw = false) (n : Nat) :
    lowerReferences n (Glob.rawFragment raw) = Glob.rawFragment raw := by
  refine lowerReferences_eq_self (fun digits hmem => ?_) n
  have hshown := hasReference_of_mem_marks hmem
  rw [hasReference_rawFragment, h] at hshown
  exact absurd hshown (by decide)

/-! ## Expressions that are rules -/

/-- A regular expression that is a rule and closes itself for the reader with memory. -/
structure IsEnclosed (raw : Text) : Prop where
  noFlaw : rawFlaw? raw = none
  closes : Backtrack.Closes raw

namespace IsEnclosed

variable {raw : Text}

/-- An enclosed pattern has no reference. -/
theorem noReference (h : IsEnclosed raw) : hasReference raw = false := by
  have hflaw := h.noFlaw
  unfold rawFlaw? at hflaw
  by_contra href
  rw [if_pos (by simpa using href)] at hflaw
  cases hflaw

/-- With memory it compiles alone. -/
theorem compiles (h : IsEnclosed raw) :
    (Backtrack.compile? (join [Glob.rawFragment raw])).isSome = true := by
  have hflaw := h.noFlaw
  rw [rawFlaw?, h.noReference] at hflaw
  obtain ⟨s, hs⟩ := h.closes
  have hsame : Backtrack.compile? (join [Glob.rawFragment raw]) =
      Backtrack.compile? ("(?i)".toList ++ Glob.rawFragment raw) := by
    rw [Backtrack.compile?, Backtrack.compile?, hs.parse?_alone]
  rw [hsame]
  cases hcompiled : Backtrack.compile? ("(?i)".toList ++ Glob.rawFragment raw) with
  | none =>
    rw [hcompiled] at hflaw
    cases hflaw
  | some p => rfl

end IsEnclosed

/-- A regular expression that is a rule and closes itself. -/
structure IsClosed (raw : Text) : Prop where
  noFlaw : rawFlaw? raw = none
  closes : Backtrack.Closes raw
  settled : Regex.Closes raw ∨ Regex.Refuses raw

/-- What closes by itself in all ways is enclosed. -/
theorem IsClosed.enclosed {raw : Text} (h : IsClosed raw) : IsEnclosed raw := ⟨h.noFlaw, h.closes⟩

/-- Enclosed patterns are read one by one. -/
theorem exists_readings {raws : List Text} (h : ∀ raw ∈ raws, IsEnclosed raw) :
    ∃ ss, List.Forall₂ Backtrack.ClosesWith raws ss := by
  induction raws with
  | nil => exact ⟨[], .nil⟩
  | cons raw raws ih =>
    obtain ⟨s, hs⟩ := (h raw (by simp)).closes
    obtain ⟨ss, hss⟩ := ih fun raw' hraw' => h raw' (by simp [hraw'])
    exact ⟨s :: ss, .cons hs hss⟩

/-! ## Chunks -/

/-- The fragment of a regular expression, behind a number of groups. -/
def fragmentOfRaw (q : Text × Nat) : Fragment := ⟨Glob.rawFragment q.1, q.2⟩

/-- Enclosed raw patterns of a chunk stay as they are, for they have no references to be renumbered. -/
theorem chunkTexts_raws {c : List (Text × Nat)} (h : ∀ q ∈ c, IsEnclosed q.1) (groups : Nat) :
    chunkTexts groups (c.map fragmentOfRaw) = (c.map Prod.fst).map Glob.rawFragment := by
  induction c generalizing groups with
  | nil => rfl
  | cons q c ih =>
    have hfirst := lowerReferences_rawFragment (h q (by simp)).noReference (q.2 - groups)
    simp only [List.map_cons, chunkTexts, fragmentOfRaw, hfirst]
    exact congrArg _ (ih (fun q' hq' => h q' (by simp [hq'])) _)

/-- A chunk matches when one of its expressions alone does. There are no references to lower, so it is the
expressions joined. -/
theorem isMatch_chunk_raws {c : List (Text × Nat)} (hne : c ≠ []) (h : ∀ q ∈ c, IsEnclosed q.1)
    {p : Backtrack.Pattern} (hp : Backtrack.compile? (chunkText (c.map fragmentOfRaw)) = some p) (t : Text) :
    p.isMatch t = true ↔ ∃ q ∈ c, Backtrack.MatchesAlone q.1 t := by
  have hraws : ∀ raw ∈ c.map Prod.fst, IsEnclosed raw := by
    intro raw hraw
    obtain ⟨q, hq, rfl⟩ := List.mem_map.mp hraw
    exact h q hq
  obtain ⟨ss, hss⟩ := exists_readings hraws
  rw [chunkText, chunkTexts_raws h] at hp
  rw [Backtrack.isMatch_joined hss (by simpa using hne) (fun raw hraw => (hraws raw hraw).compiles) hp t]
  simp only [List.mem_map, exists_exists_and_eq_and]

/-! ## The part without memory -/

/-- The regular expression does not ask for memory, and the reader without memory takes it by itself. -/
def isLinear (raw : Text) : Bool :=
  !backtracks (Glob.rawFragment raw) &&
    (Regex.compile? true sizeLimit (Glob.rawFragment raw)).isSome

/-- The linear ones of some regular expressions are taken together. -/
def joinsLinear (raws : List Text) : Bool :=
  (Regex.compile? true sizeLimit (Text.join ['|'] ((raws.filter isLinear).map Glob.rawFragment))).isSome

/-- Among others the regular expression is in no part of the alternation. -/
def IsLost (raws : List Text) (raw : Text) : Prop := isLinear raw = true ∧ joinsLinear raws = false

/-- Raw patterns are joined by bars, each in its own group. -/
theorem joined?_raws (ps : List (Text × Nat)) :
    joined? (ps.map fragmentOfRaw) =
      if ps.isEmpty then none
      else Regex.compile? true sizeLimit (Text.join ['|'] ((ps.map Prod.fst).map Glob.rawFragment)) := by
  rw [joined?, List.map_map, List.map_map, List.isEmpty_map]
  rfl

/-- Splitting sends those that are not taken by themselves to the chunks, and tries the others together. -/
theorem splitLinear_raws {ps : List (Text × Nat)} (h : ∀ q ∈ ps, IsClosed q.1)
    (hplain : ∀ q ∈ ps, backtracks (Glob.rawFragment q.1) = false) :
    Matcher.splitLinear (ps.map fragmentOfRaw) =
      (joined? ((ps.filter fun q => isLinear q.1).map fragmentOfRaw),
        (ps.filter fun q => !isLinear q.1).map fragmentOfRaw) := by
  have halone : ∀ q ∈ ps, (joined? [fragmentOfRaw q]).isSome = isLinear q.1 := by
    intro q hq
    have hone := joined?_raws [q]
    rw [List.map_singleton] at hone
    rw [hone, isLinear, hplain q hq]
    rfl
  rw [Matcher.splitLinear]
  cases hjoined : joined? (ps.map fragmentOfRaw) with
  | some r =>
    -- What is taken together is taken one by one, so nothing is sent to the chunks.
    have hlinear : ∀ q ∈ ps, isLinear q.1 = true := by
      intro q hq
      have hr := hjoined
      rw [joined?_raws] at hr
      split at hr
      · simp at hr
      · have hraws : ∀ raw ∈ ps.map Prod.fst, Regex.Closes raw ∨ Regex.Refuses raw := by
          intro raw hraw
          obtain ⟨q', hq', rfl⟩ := List.mem_map.mp hraw
          exact (h q' hq').settled
        have hsome := (Regex.isMatch_joined hraws (by simpa using List.ne_nil_of_mem hq) hr).1 q.1
          (List.mem_map_of_mem hq)
        rw [isLinear, hplain q hq, hsome]
        rfl
    have hall : ps.filter (fun q => isLinear q.1) = ps := List.filter_eq_self.mpr hlinear
    have hnone : ps.filter (fun q => !isLinear q.1) = [] :=
      List.filter_eq_nil_iff.mpr fun q hq => by simp [hlinear q hq]
    simp only [hall, hnone, hjoined, List.map_nil]
  | none =>
    have hfilter : (ps.map fragmentOfRaw).filter (fun f => (joined? [f]).isSome) =
        (ps.filter fun q => isLinear q.1).map fragmentOfRaw := by
      rw [List.filter_map]
      exact congrArg _ (List.filter_congr halone)
    have hfilter' : (ps.map fragmentOfRaw).filter (not ∘ fun f => (joined? [f]).isSome) =
        (ps.filter fun q => !isLinear q.1).map fragmentOfRaw := by
      rw [List.filter_map]
      exact congrArg _ (List.filter_congr fun q hq => congrArg not (halone q hq))
    simp only [List.partition_eq_filter_filter, hfilter, hfilter']

/-! ## The whole alternation -/

/-- The fragments of regular expressions, each behind a number of groups. -/
theorem exists_listFrom_raws (groups : Nat) (raws : List Text) :
    ∃ ps : List (Text × Nat), ps.map Prod.fst = raws ∧
      Fragment.listFrom groups (raws.map Glob.rawFragment) = ps.map fragmentOfRaw := by
  induction raws generalizing groups with
  | nil => exact ⟨[], rfl, rfl⟩
  | cons raw raws ih =>
    obtain ⟨ps, hfst, hlist⟩ := ih (groups + groupCount (Glob.rawFragment raw))
    refine ⟨(raw, groups) :: ps, by rw [List.map_cons, hfst], ?_⟩
    simp only [List.map_cons, Fragment.listFrom, hlist, fragmentOfRaw]

section

variable {raws : List Text} (h : ∀ raw ∈ raws, IsClosed raw)

include h

/-- The part without memory matches when one of the linear ones does, if they are taken together. -/
theorem any_joined?_raws {ps : List (Text × Nat)} (hps : ps.map Prod.fst = raws.filter isLinear)
    (t : Text) : (joined? (ps.map fragmentOfRaw)).any (·.isMatch t) = true ↔
      joinsLinear raws = true ∧ ∃ raw ∈ raws, isLinear raw = true ∧ Regex.MatchesAlone sizeLimit raw t := by
  have hmem (raw : Text) : raw ∈ raws.filter isLinear ↔ raw ∈ raws ∧ isLinear raw = true :=
    List.mem_filter
  rw [joined?_raws, hps]
  split
  · -- No pattern is joined, and then none of them is linear.
    next hempty =>
    have hnil : raws.filter isLinear = [] := by rw [← hps, List.isEmpty_iff.mp hempty, List.map_nil]
    have hnone : ∀ raw ∈ raws, ¬isLinear raw = true := fun raw hraw hlinear => by
      have := (hmem raw).mpr ⟨hraw, hlinear⟩
      simp [hnil] at this
    simp only [Option.any_none, Bool.false_eq_true, false_iff, not_and, not_exists]
    exact fun _ raw hraw hlinear _ => hnone raw hraw hlinear
  · next hempty =>
    have hne : raws.filter isLinear ≠ [] := by
      rw [← hps]
      simpa using hempty
    have hsettled : ∀ raw ∈ raws.filter isLinear, Regex.Closes raw ∨ Regex.Refuses raw :=
      fun raw hraw => (h raw ((hmem raw).mp hraw).1).settled
    rw [joinsLinear]
    cases hr : Regex.compile? true sizeLimit
        (Text.join ['|'] ((raws.filter isLinear).map Glob.rawFragment)) with
    | none => simp
    | some r =>
      simp only [Option.any_some, Option.isSome_some, true_and,
        (Regex.isMatch_joined hsettled hne hr).2 t, hmem, and_assoc]

/-- The matcher of the expressions: the linear ones are tried together, and the others go to the chunks. -/
theorem ofFragments?_raws : ∃ linear others : List (Text × Nat),
    linear.map Prod.fst = raws.filter isLinear ∧
      (others.map Prod.fst).Perm (raws.filter fun raw => !isLinear raw) ∧
      Matcher.ofFragments? (raws.map Glob.rawFragment) =
        (Matcher.compileChunks? ((chunks chunkSize others).map (List.map fragmentOfRaw))).map
          (⟨joined? (linear.map fragmentOfRaw), ·⟩) := by
  obtain ⟨ps, hfst, hlist⟩ := exists_listFrom_raws 0 raws
  let asks (q : Text × Nat) : Bool := backtracks (Glob.rawFragment q.1)
  let plain := ps.filter fun q => !asks q
  have hsplit : Matcher.splitLinear (plain.map fragmentOfRaw) =
      (joined? ((plain.filter fun q => isLinear q.1).map fragmentOfRaw),
        (plain.filter fun q => !isLinear q.1).map fragmentOfRaw) :=
    splitLinear_raws (fun q hq => h q.1 (hfst ▸ List.mem_map_of_mem (List.mem_filter.mp hq).1))
      fun q hq => by simpa [asks] using (List.mem_filter.mp hq).2
  refine ⟨plain.filter fun q => isLinear q.1, ps.filter asks ++ plain.filter fun q => !isLinear q.1,
    ?_, ?_, ?_⟩
  · have himp (q : Text × Nat) : (isLinear q.1 && !asks q) = isLinear q.1 := by
      simp only [isLinear, asks]
      cases backtracks (Glob.rawFragment q.1) <;> simp
    simp only [plain, List.filter_filter, himp, ← hfst, List.filter_map]
    rfl
  · -- The chunks get those that ask for memory first, then those that are not taken without it.
    have hasks (q : Text × Nat) : (asks q && !isLinear q.1) = asks q := by
      simp only [isLinear, asks]
      cases backtracks (Glob.rawFragment q.1) <;> simp
    have hperm := (List.filter_append_perm asks (ps.filter fun q => !isLinear q.1)).map Prod.fst
    simp only [List.filter_filter, hasks, Bool.and_comm (!asks _)] at hperm
    simp only [plain, List.filter_filter, ← hfst, List.filter_map]
    exact hperm
  · rw [Matcher.ofFragments?, hlist, List.partition_eq_filter_filter, List.filter_map, List.filter_map]
    have hplain : (ps.filter ((not ∘ Fragment.backtracks) ∘ fragmentOfRaw)).map fragmentOfRaw =
        plain.map fragmentOfRaw := rfl
    simp only [hplain, hsplit]
    rw [show ps.filter (Fragment.backtracks ∘ fragmentOfRaw) = ps.filter asks from rfl, ← List.map_append,
      chunks_map (by decide)]

/-- An alternation matches by its two parts: the linear ones, if they are taken together, and the others. -/
theorem isMatch_parts {a : Alternation} (ha : ofFragments raws (raws.map Glob.rawFragment) = .ok a)
    (t : Text) : a.isMatch t = true ↔
      (joinsLinear raws = true ∧
        ∃ raw ∈ raws, isLinear raw = true ∧ Regex.MatchesAlone sizeLimit raw t) ∨
      ∃ raw ∈ raws, isLinear raw = false ∧ Backtrack.MatchesAlone raw t := by
  obtain ⟨linear, others, hlinear, hothers, hmatcher⟩ := ofFragments?_raws h
  have hmem (raw : Text) : raw ∈ others.map Prod.fst ↔ raw ∈ raws ∧ isLinear raw = false := by
    rw [hothers.mem_iff, List.mem_filter, Bool.not_eq_true']
  have hclosed : ∀ q ∈ others, IsClosed q.1 := fun q hq => h q.1 ((hmem q.1).mp (List.mem_map_of_mem hq)).1
  by_cases hne : raws = []
  · subst hne
    simp only [ofFragments, List.map_nil, List.isEmpty_nil, if_true, Except.ok.injEq] at ha
    simp [← ha, isMatch, empty]
  · obtain ⟨m, hm, rfl⟩ := (ofFragments_eq_ok_iff (by simpa using hne)).mp ha
    rw [hmatcher] at hm
    obtain ⟨ps, hchunks, rfl⟩ := Option.map_eq_some_iff.mp hm
    have hparts := Matcher.any_isMatch_chunks (fun c hsub hne p hp =>
      isMatch_chunk_raws hne (fun q hq => (hclosed q (hsub.subset hq)).enclosed) hp t) hchunks
    have hback : (∃ q ∈ others, Backtrack.MatchesAlone q.1 t) ↔
        ∃ raw ∈ raws, isLinear raw = false ∧ Backtrack.MatchesAlone raw t := by
      simp only [← and_assoc, ← hmem, List.mem_map, exists_exists_and_eq_and]
    simp only [isMatch, Option.any_some, Matcher.isMatch, Bool.or_eq_true, hparts,
      any_joined?_raws h hlinear, hback]

end

/-! ## One by one -/

variable {raw : Text}

/-- A linear expression is taken together with no others. -/
theorem joinsLinear_alone (h : isLinear raw = true) : joinsLinear [raw] = true := by
  have hsome := (Bool.and_eq_true_iff.mp h).2
  rw [joinsLinear, List.filter_singleton, h]
  exact hsome

/-- An expression that is a rule makes an alternation of its own. -/
theorem IsClosed.exists_ofFragments (h : IsClosed raw) :
    ∃ b, ofFragments [raw] [Glob.rawFragment raw] = .ok b := by
  have hone : ∀ raw' ∈ [raw], IsClosed raw' := by simpa using h
  obtain ⟨linear, others, -, hothers, hmatcher⟩ := ofFragments?_raws hone
  -- Whether it is linear or not, at most one chunk is left, and that one compiles.
  have hchunks : (Matcher.compileChunks? ((chunks chunkSize others).map (List.map fragmentOfRaw))).isSome := by
    have hlength := hothers.length_eq
    have hle := List.length_filter_le (fun raw' => !isLinear raw') [raw]
    rw [List.length_map] at hlength
    cases others with
    | nil =>
      rw [chunks_nil]
      rfl
    | cons q others =>
      have hnil : others = [] := List.length_eq_zero_iff.mp (by simp at hlength hle; omega)
      subst hnil
      have hq : q.1 = raw := by
        have hmem := hothers.mem_iff.mp (List.mem_map_of_mem (List.mem_singleton.mpr rfl))
        exact List.mem_singleton.mp (List.mem_filter.mp hmem).1
      rw [chunks_of_ne_nil (by decide) (List.cons_ne_nil q []), List.map_cons, Matcher.compileChunks?,
        chunkText, List.take_of_length_le (Nat.le_add_left 1 31),
        List.drop_of_length_le (Nat.le_add_left 1 31), chunks_nil, chunkTexts_raws (by simpa [hq] using h.enclosed)]
      obtain ⟨p, hp⟩ := Option.isSome_iff_exists.mp h.enclosed.compiles
      simp [hq, hp, Matcher.compileChunks?]
  obtain ⟨cs, hcs⟩ := Option.isSome_iff_exists.mp hchunks
  rw [hcs] at hmatcher
  exact ⟨_, (ofFragments_eq_ok_iff (List.cons_ne_nil _ [])).mpr ⟨_, hmatcher, rfl⟩⟩

/-- What an expression matches alone: without memory when it is linear, and with memory otherwise. -/
theorem IsClosed.isMatch_alone (h : IsClosed raw) (t : Text) :
    (∃ b, ofFragments [raw] [Glob.rawFragment raw] = .ok b ∧ b.isMatch t = true) ↔
      if isLinear raw then Regex.MatchesAlone sizeLimit raw t else Backtrack.MatchesAlone raw t := by
  have hone : ∀ raw' ∈ [raw], IsClosed raw' := by simpa using h
  obtain ⟨b, hb⟩ := h.exists_ofFragments
  have hparts := isMatch_parts hone hb t
  simp only [hb, Except.ok.injEq, exists_eq_left', hparts, List.mem_singleton, exists_eq_left]
  cases hlinear : isLinear raw with
  | true => simp [joinsLinear_alone hlinear]
  | false => simp

/-- An alternation of expressions that close themselves matches when one of them alone does, but for those
that are lost. -/
theorem isMatch_raws {raws : List Text} (h : ∀ raw ∈ raws, IsClosed raw) {a : Alternation}
    (ha : ofFragments raws (raws.map Glob.rawFragment) = .ok a) (t : Text) :
    a.isMatch t = true ↔ ∃ raw ∈ raws, ¬IsLost raws raw ∧
      ∃ b, ofFragments [raw] [Glob.rawFragment raw] = .ok b ∧ b.isMatch t = true := by
  rw [isMatch_parts h ha]
  constructor
  · -- A pattern is lost only where it is linear and the linear ones do not join.
    rintro (⟨hjoins, raw, hraw, hlinear, hmatch⟩ | ⟨raw, hraw, hlinear, hmatch⟩)
    · refine ⟨raw, hraw, fun hlost => by simp [IsLost, hjoins] at hlost, ?_⟩
      rw [(h raw hraw).isMatch_alone, hlinear]
      exact hmatch
    · refine ⟨raw, hraw, fun hlost => by simp [IsLost, hlinear] at hlost, ?_⟩
      rw [(h raw hraw).isMatch_alone, hlinear]
      exact hmatch
  · rintro ⟨raw, hraw, hlost, halone⟩
    rw [(h raw hraw).isMatch_alone] at halone
    cases hlinear : isLinear raw with
    | true =>
      have hjoins : joinsLinear raws = true := by simpa [IsLost, hlinear] using hlost
      exact Or.inl ⟨hjoins, raw, hraw, hlinear, by simpa [hlinear] using halone⟩
    | false => exact Or.inr ⟨raw, hraw, hlinear, by simpa [hlinear] using halone⟩

/-- A dot is read as any character. -/
theorem next_any (size : Nat) (u : Text) :
    Backtrack.Token.next false true size ('.' :: u) = some (.any, u) := rfl

/-- A letter and a dot close by themselves. -/
theorem isClosed_plain : IsClosed "a.".toList := by
  have htext : "a.".toList = ['a', '.'] := by decide
  have hskip {c : Char} (hc : c ≠ '(') (u : Text) := Backtrack.skip_of_ne hc u
  have hletter (size : Nat) (u : Text) :
      Backtrack.Token.next false false size ('a' :: u) = some (.literal 'a' true, u) := rfl
  have hchar (u : Text) : Regex.Token.next false ('a' :: u) = some (.char 'a', u) := rfl
  have hdot (u : Text) : Regex.Token.next false ('.' :: u) = some (.any, u) := rfl
  rw [htext]
  refine ⟨by decide +kernel, ?_, .inl ?_⟩
  · -- The reading with memory: a letter, then any character.
    let s : Backtrack.Reading :=
      { modes := { ignoreCase := true }
        choice := ⟨[], [.any false, .literal 'a' true]⟩
        afterAtom := true }
    refine ⟨s, rfl, fun size u => ⟨')' :: u, ?_, hskip (by decide) u⟩⟩
    refine .step (hskip (by decide) _) (hletter size _) trivial rfl (by decide) (by simp) ?_
    refine .step (hskip (by decide) _) (next_any size _) trivial rfl (by decide) (by simp) ?_
    exact .refl s _
  · -- The reading without it, sign by sign the same.
    let m : Regex.Modes := { ignoreCase := true }
    let s : Regex.Reading :=
      { modes := m, choice := ⟨[], [.node (.one m.dot) 0, .node (.one (m.literal 'a')) 0]⟩ }
    refine ⟨s, rfl, fun u => ⟨')' :: u, ?_, rfl⟩⟩
    refine .step rfl (hchar _) rfl (by simp) ?_
    refine .step rfl (hdot _) rfl (by simp) ?_
    exact .refl s _

/-- A condition and a dot behind it close by themselves. -/
theorem isClosed_lookahead : IsClosed "(?=b).".toList := by
  have htext : "(?=b).".toList = ['(', '?', '=', 'b', ')', '.'] := by decide
  have hskip {c : Char} (hc : c ≠ '(') (u : Text) := Backtrack.skip_of_ne hc u
  have hahead (size : Nat) (u : Text) :
      Backtrack.Token.next false false size ('(' :: '?' :: '=' :: u) = some (.openAround .ahead, u) := by
    rw [Backtrack.Token.next, Backtrack.Token.group, hskip (by decide)]
    rfl
  have hletter (size : Nat) (u : Text) :
      Backtrack.Token.next false false size ('b' :: u) = some (.literal 'b' true, u) := rfl
  have hclose (size : Nat) (u : Text) :
      Backtrack.Token.next false true size (')' :: u) = some (.close, u) := rfl
  rw [htext]
  refine ⟨by decide +kernel, ?_, .inr ?_⟩
  · let s : Backtrack.Reading :=
      { modes := { ignoreCase := true }
        choice := ⟨[], [.any false, .around .ahead (.literal 'b' true)]⟩
        afterAtom := true }
    refine ⟨s, rfl, fun size u => ⟨')' :: u, ?_, hskip (by decide) u⟩⟩
    refine .step (Backtrack.skip_of_not_comment (by simp)) (hahead size _) trivial rfl (by decide)
      (by simp) ?_
    refine .step (hskip (by decide) _) (hletter size _) trivial rfl (by decide) (by simp) ?_
    refine .step (hskip (by decide) _) (hclose size _) trivial rfl (by decide) (by simp) ?_
    refine .step (hskip (by decide) _) (next_any size _) trivial rfl (by decide) (by simp) ?_
    exact .refl s _
  · -- The reader without memory knows no group that looks ahead.
    refine fun u => ⟨_, _, .refl _ _, by simp [Regex.skip], fun token v hnext => ?_⟩
    cases hnext

/-- An expression without memory, and one that looks ahead. -/
def mixed : List Text := ["a.".toList, "(?=b).".toList]

/-- Each of the patterns with and without conditions closes by itself. -/
theorem isClosed_mixed : ∀ raw ∈ mixed, IsClosed raw := by
  simp only [mixed, List.forall_mem_cons, List.not_mem_nil, false_implies, implies_true, and_true]
  exact ⟨isClosed_plain, isClosed_lookahead⟩

/-- With a part without memory and a chunk, nothing is lost and nothing is added. -/
theorem isMatch_raws_sample :
    (∀ raw ∈ mixed, IsClosed raw) ∧ ∃ a, ofFragments mixed (mixed.map Glob.rawFragment) = .ok a ∧
      ∀ t, a.isMatch t = true ↔ ∃ raw ∈ mixed,
        ∃ b, ofFragments [raw] [Glob.rawFragment raw] = .ok b ∧ b.isMatch t = true := by
  have hrules : (ofFragments mixed (mixed.map Glob.rawFragment)).toOption.map (·.rules) = some mixed := by
    decide +kernel
  have hjoins : joinsLinear mixed = true := by decide +kernel
  obtain ⟨a, ha, -⟩ := exists_of_toOption_map hrules
  refine ⟨isClosed_mixed, a, ha, fun t => ?_⟩
  have hmatch := isMatch_raws isClosed_mixed ha t
  simpa only [IsLost, hjoins, Bool.true_eq_false, and_false, not_false_eq_true, true_and] using hmatch

/-- Two expressions whose groups have the same name. -/
def repeated : List Text := ["(?P<n>a)".toList, "(?P<n>b)".toList]

/-- Both expressions are rules, each of them matches alone, and their alternation compiles. But without
memory a name is taken once: each expression is taken by itself, so that none is sent to the chunks, and
together they are not taken. The alternation is left without parts. -/
theorem repeated_names_are_lost :
    (∀ raw ∈ repeated, rawFlaw? raw = none ∧ IsLost repeated raw ∧
      ∃ b t, ofFragments [raw] [Glob.rawFragment raw] = .ok b ∧ b.isMatch t = true) ∧
      ∃ a, ofFragments repeated (repeated.map Glob.rawFragment) = .ok a ∧ ∀ t, a.isMatch t = false := by
  have halone (raw t : Text)
      (h : (ofFragments [raw] [Glob.rawFragment raw]).toOption.map (·.isMatch t) = some true) :
      ∃ b t, ofFragments [raw] [Glob.rawFragment raw] = .ok b ∧ b.isMatch t = true := by
    obtain ⟨b, hb, hmatch⟩ := exists_of_toOption_map h
    exact ⟨b, t, hb, hmatch⟩
  have hlost : joinsLinear repeated = false := by decide +kernel
  have hparts : (ofFragments repeated (repeated.map Glob.rawFragment)).toOption.map
      (fun a => a.matcher.map fun m => (m.linear.isSome, m.chunks.length)) = some (some (false, 0)) := by
    decide +kernel
  constructor
  · simp only [repeated, List.forall_mem_cons, List.not_mem_nil, false_implies, implies_true, and_true]
    exact ⟨⟨by decide +kernel, ⟨by decide +kernel, hlost⟩, halone _ "a".toList (by decide +kernel)⟩,
      by decide +kernel, ⟨by decide +kernel, hlost⟩, halone _ "b".toList (by decide +kernel)⟩
  · obtain ⟨a, ha, hparts⟩ := exists_of_toOption_map hparts
    refine ⟨a, ha, fun t => ?_⟩
    obtain ⟨m, hm, hnone⟩ := Option.map_eq_some_iff.mp hparts
    obtain ⟨hlinear, hchunks⟩ := Prod.mk.inj hnone
    rw [Option.isSome_eq_false_iff, Option.isNone_iff_eq_none] at hlinear
    rw [isMatch, hm, Option.any_some, Matcher.isMatch, hlinear, List.length_eq_zero_iff.mp hchunks]
    rfl

end UrlFilter.Alternation
