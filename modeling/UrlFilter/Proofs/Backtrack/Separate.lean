import UrlFilter.Proofs.Backtrack.Enclosed
import UrlFilter.Proofs.Backtrack.Joined
import UrlFilter.Proofs.Backtrack.Plain
import UrlFilter.Rule.Glob

/-!
# Regular expressions that close themselves

A regular expression between parentheses closes itself when reading it comes to the closing parenthesis,
whatever follows there. Joined with others it is then a branch of its own, so that the joined pattern matches
when one of them alone does.
-/

namespace UrlFilter.Backtrack

open Reading (Leads Inside)

/-- Between parentheses of its own, wherever they stand, the text is read up to the closing one and comes to
the reading `s`. -/
structure ClosesWith (raw : Text) (s : Reading) : Prop where
  frames : s.frames = []
  inside : ∀ size u, ∃ v, Inside size { modes := { ignoreCase := true } } (raw ++ ')' :: u) s v ∧
    skip s.modes.spaced v = some (')' :: u)

/-- Between parentheses of its own, wherever they stand, the text is read up to the closing one. -/
def Closes (raw : Text) : Prop := ∃ s, ClosesWith raw s

namespace ClosesWith

variable {raw : Text} {s : Reading}

/-- An enclosed pattern refers to no group by its number. -/
theorem numbered (h : ClosesWith raw s) : s.numbered = false := by
  obtain ⟨v, hinside, -⟩ := h.inside 0 []
  exact (hinside.leads (c := ⟨0, [], [], wholeGroup⟩) rfl (by decide)).2

/-- The groups of an enclosed pattern are numbered from one on. -/
theorem counts (h : ClosesWith raw s) : s.Counts := by
  obtain ⟨v, hinside, -⟩ := h.inside 0 []
  refine hinside.counts ⟨?_, ?_, ?_⟩
  all_goals simp [Reading.captures, Choice.captures, Expr.capturesAll]

end ClosesWith

/-! ## Reading them joined -/

/-- What a reading has read. -/
def Reading.expr (s : Reading) : Expr :=
  choiceOf (s.choice.branches.reverse ++ [branchOf s.choice.parts.reverse])

/-- What has been read of an enclosed pattern is its expression. -/
theorem ClosesWith.finish {raw : Text} {s : Reading} (h : ClosesWith raw s) : s.finish = some s.expr :=
  finish_eq_choiceOf (by simp [h.numbered])

/-- What readings one after the other have read, the first one behind `d` groups. -/
def exprsFrom (d : Nat) : List Reading → List Expr
  | [] => []
  | s :: ss => s.expr.rename (shift d) :: exprsFrom (d + s.groups) ss

/-- The groups that readings one after the other refer to, with those in front of them. -/
def refsFrom (d : Nat) (early : List Nat) : List Reading → List Nat
  | [] => early
  | s :: ss => refsFrom (d + s.groups) (s.refs.map (shift d) ++ early) ss

/-- A reading of joined branches, `d` groups behind the start. -/
def joinReading (d : Nat) (names : List (Text × Nat)) (refs : List Nat) (choice : Choice)
    (afterAtom : Bool) : Reading :=
  { joinStart with groups := d, names := names, refs := refs, choice := choice, afterAtom := afterAtom }

variable {size : Nat}

/-- A branch of one part is that part. -/
theorem branchOf_single (e : Expr) : branchOf [e] = e := by
  cases e <;> rfl

/-- A branch that closes itself. -/
theorem leads_rawFragment {raw : Text} {s : Reading} (h : ClosesWith raw s) (d : Nat)
    (names : List (Text × Nat)) (refs : List Nat) (branches : List Expr) (afterAtom : Bool) (u : Text) :
    (joinReading d names refs ⟨branches, []⟩ afterAtom).Leads size (Glob.rawFragment raw ++ u)
      (joinReading (d + s.groups) (s.names.map (fun n => (n.1, shift d n.2)) ++ names)
        (s.refs.map (shift d) ++ refs) ⟨branches, [s.expr.rename (shift d)]⟩ true) u := by
  let c : Surroundings :=
    ⟨d, names, refs, ⟨.modes { ignoreCase := true }, ⟨branches, []⟩⟩ :: wholeGroup⟩
  obtain ⟨v, hinside, hskip⟩ := h.inside size u
  have hopen : (joinReading d names refs ⟨branches, []⟩ afterAtom).Leads size
      ('(' :: '?' :: ':' :: (raw ++ ')' :: u))
      (({ modes := { ignoreCase := true } } : Reading).within c) (raw ++ ')' :: u) := by
    refine .step _ (skip_of_not_comment ?_) (next_openModes _ _ _) rfl (by simp; omega)
    rintro r - hr
    simp at hr
  have hlength := length_skip hskip
  have hfinish : (s.within c).finish = some (s.expr.rename (shift d)) := by
    rw [Reading.finish_within h.numbered, h.finish]
    rfl
  have hclose : (s.within c).Leads size v
      (joinReading (d + s.groups) (s.names.map (fun n => (n.1, shift d n.2)) ++ names)
        (s.refs.map (shift d) ++ refs) ⟨branches, [s.expr.rename (shift d)]⟩ true) u := by
    refine .step .close hskip rfl ?_ (by simp at hlength; omega)
    have hframes : (s.within c).frames = c.frames := by simp [Reading.within, h.frames]
    have hnumbered : (s.within c).numbered = false := h.numbered
    simp only [Reading.feed, Reading.leave, hfinish, hframes, hnumbered, Option.bind_some, c]
    rfl
  have h := hopen.trans ((hinside.leads (c := c) rfl (Nat.le_refl 2)).1.trans hclose)
  rwa [Glob.rawFragment_append]

/-- Branches that close themselves, joined by bars. -/
theorem leads_join {raws : List Text} {ss : List Reading} (h : List.Forall₂ ClosesWith raws ss)
    (hne : raws ≠ []) (d : Nat) (names : List (Text × Nat)) (early : List Nat) (branches : List Expr)
    (afterAtom : Bool) (u : Text) :
    ∃ groups names' choice afterAtom',
      (joinReading d names early ⟨branches, []⟩ afterAtom).Leads size
        (Text.join ['|'] (raws.map Glob.rawFragment) ++ u)
        (joinReading groups names' (refsFrom d early ss) choice afterAtom') u ∧
      choice.branches.reverse ++ [branchOf choice.parts.reverse] = branches.reverse ++ exprsFrom d ss := by
  -- By induction on the branches: each counts its groups, and the references to them, for those behind it.
  induction h generalizing d names early branches afterAtom with
  | nil => exact absurd rfl hne
  | @cons raw s raws ss hraw hraws ih =>
    cases hraws with
    | nil =>
      refine ⟨_, _, _, _, leads_rawFragment hraw d names early branches afterAtom u, ?_⟩
      simp only [List.reverse_singleton, branchOf_single, exprsFrom]
    | @cons raw' s' raws ss hraw' hraws =>
      let rest := Text.join ['|'] ((raw' :: raws).map Glob.rawFragment) ++ u
      have hfirst : (joinReading d names early ⟨branches, []⟩ afterAtom).Leads size
          (Glob.rawFragment raw ++ '|' :: rest) _ ('|' :: rest) :=
        leads_rawFragment hraw d names early branches afterAtom _
      obtain ⟨groups, names', choice, afterAtom', hrest, hchoice⟩ := ih (by simp) (d + s.groups)
        (s.names.map (fun n => (n.1, shift d n.2)) ++ names) (s.refs.map (shift d) ++ early)
        (s.expr.rename (shift d) :: branches) false
      have hbar : (joinReading (d + s.groups) (s.names.map (fun n => (n.1, shift d n.2)) ++ names)
          (s.refs.map (shift d) ++ early) ⟨branches, [s.expr.rename (shift d)]⟩ true).Leads size ('|' :: rest)
          (joinReading (d + s.groups) (s.names.map (fun n => (n.1, shift d n.2)) ++ names)
            (s.refs.map (shift d) ++ early) ⟨s.expr.rename (shift d) :: branches, []⟩ false) rest := by
        refine .step .bar (skip_of_ne (by decide) _) rfl ?_ (by simp)
        simp only [Reading.feed, joinReading, List.reverse_singleton, branchOf_single]
      refine ⟨groups, names', choice, afterAtom', ?_, ?_⟩
      · have h := hfirst.trans (hbar.trans hrest)
        rw [refsFrom]
        simpa [Text.join, rest] using h
      · simpa [exprsFrom] using hchoice

/-- Regular expressions that close themselves, joined and read. -/
theorem parse?_raws {raws : List Text} {ss : List Reading} (h : List.Forall₂ ClosesWith raws ss)
    (hne : raws ≠ []) : parse? (Alternation.join (raws.map Glob.rawFragment)) =
      some (choiceOf (exprsFrom 0 ss), refsFrom 0 [] ss) := by
  obtain ⟨groups, names, choice, afterAtom, hleads, hchoice⟩ :=
    leads_join h hne 0 [] [] [] false [')']
  refine parse?_join hleads (skip_of_ne (by decide) []) rfl rfl ?_
  rw [finish_eq_choiceOf rfl]
  exact congrArg (fun es => some (choiceOf es)) hchoice

/-- A rule's own check reads a regular expression that closes itself as its alternation alone does. -/
theorem ClosesWith.parse?_alone {raw : Text} {s : Reading} (h : ClosesWith raw s) :
    parse? ("(?i)".toList ++ Glob.rawFragment raw) =
      parse? (Alternation.join [Glob.rawFragment raw]) := by
  let c : Surroundings := ⟨0, [], [], wholeGroup⟩
  have htext : "(?i)".toList ++ Glob.rawFragment raw = Alternation.join [raw] := by
    rw [Alternation.join, opening_eq, Glob.rawFragment, show "(?i)".toList = ['(', '?', 'i', ')'] by decide,
      show "(?:".toList = ['(', '?', ':'] by decide]
    simp [Text.join]
  obtain ⟨v, hinside, hskip⟩ := h.inside (Text.byteLength (Alternation.join [raw])) []
  have hleads : joinStart.Leads (Text.byteLength (Alternation.join [raw])) (Text.join ['|'] [raw] ++ [')'])
      (s.within c) v := (hinside.leads (c := c) rfl (by decide)).1
  have hframes : (s.within c).frames = wholeGroup := by simp [Reading.within, h.frames, c]
  have hnumbered : (s.within c).numbered = false := h.numbered
  have hfinish : (s.within c).finish = some (s.expr.rename (shift 0)) := by
    rw [Reading.finish_within h.numbered, h.finish]
    rfl
  have hjoined := parse?_raws (.cons h .nil) (List.cons_ne_nil raw [])
  rw [List.map_cons, List.map_nil] at hjoined
  rw [htext, hjoined, parse?_join hleads hskip hframes (by simp [hnumbered]) hfinish]
  rfl

/-! ## References -/

/-- References to early groups are those in front of all readings. -/
theorem mem_refsFrom {ss : List Reading} (hcounts : ∀ s ∈ ss, s.Counts) {d k : Nat} {early : List Nat}
    (hk : k ≤ d) : k ∈ refsFrom d early ss ↔ k ∈ early := by
  induction ss generalizing d early with
  | nil => exact Iff.rfl
  | cons s ss ih =>
    rw [refsFrom, ih (fun s' hs' => hcounts s' (by simp [hs'])) (by omega), List.mem_append]
    refine or_iff_right fun hmem => ?_
    obtain ⟨j, hj, rfl⟩ := List.mem_map.mp hmem
    have hpos := ((hcounts s (by simp)).refs j hj).1
    rw [shift_of_pos hpos] at hk
    omega

/-- The first of several readings finds its own groups among the references, and no others. -/
theorem follows_refsFrom {s : Reading} {ss : List Reading} (hcounts : ∀ s' ∈ s :: ss, s'.Counts) {d : Nat}
    {early : List Nat} (hearly : ∀ k ∈ early, k ≤ d) (hfinish : s.finish = some s.expr) :
    Expr.Follows (shift d) s.refs (refsFrom d early (s :: ss)) s.expr.captures := by
  intro k hk
  have hs := hcounts s (by simp)
  obtain ⟨hpos, hle⟩ := hs.captures k (List.mem_append_left _ (Reading.captures_finish hfinish hk))
  have hmem : shift d k ∈ refsFrom d early (s :: ss) ↔ k ∈ s.refs := by
    rw [refsFrom, mem_refsFrom (fun s' hs' => hcounts s' (by simp [hs'])) (by rw [shift_of_pos hpos]; omega),
      List.mem_append, List.mem_map_of_injective (shift_injective d)]
    refine or_iff_left fun h => ?_
    have := hearly _ h
    rw [shift_of_pos hpos] at this
    omega
  rw [Bool.eq_iff_iff, List.contains_iff_mem, List.contains_iff_mem, hmem]

/-! ## What they match -/

/-- The regular expression is compiled alone, and matches somewhere in the text. -/
def MatchesAlone (raw t : Text) : Prop :=
  ∃ p, compile? (Alternation.join [Glob.rawFragment raw]) = some p ∧ p.isMatch t = true

namespace ClosesWith

variable {raw : Text} {s : Reading} {p : Pattern}

/-- What a regular expression is compiled to alone: as one with memory, or handed over as one without. -/
theorem compile?_alone (h : ClosesWith raw s)
    (hp : compile? (Alternation.join [Glob.rawFragment raw]) = some p) :
    if (s.expr.info s.refs).hard then
      ∃ q, s.expr.compile s.refs true = some q ∧ p = q.rename (shift 0)
    else ∃ r, s.expr.toRegex? = some r ∧ p = .plain r := by
  have hparse := parse?_raws (.cons h .nil) (List.cons_ne_nil raw [])
  have hfollows : Expr.Follows (shift 0) s.refs (refsFrom 0 [] [s]) s.expr.captures :=
    follows_refsFrom (by simpa using h.counts) (by simp) h.finish
  simp only [List.map_cons, List.map_nil] at hparse
  simp only [compile?, hparse, Option.bind_some, exprsFrom, choiceOf, Expr.info_rename hfollows] at hp
  split
  · next hhard =>
    rw [if_pos hhard, Expr.compile_rename hfollows, Option.map_eq_some_iff] at hp
    obtain ⟨q, hq, rfl⟩ := hp
    exact ⟨q, hq, rfl⟩
  · next hhard =>
    rw [if_neg hhard] at hp
    obtain ⟨r, hr, rfl⟩ := Expr.of_whole?_eq_some hp
    exact ⟨r, Expr.toRegex?_rename s.expr ▸ hr, rfl⟩

/-- Compiled as a branch, a regular expression matches as it does alone. -/
theorem matchesAlone_iff_of_compile (h : ClosesWith raw s)
    (halone : (compile? (Alternation.join [Glob.rawFragment raw])).isSome)
    (hp : s.expr.compile s.refs true = some p) (t : Text) : MatchesAlone raw t ↔ p.isMatch t = true := by
  obtain ⟨p', hp'⟩ := Option.isSome_iff_exists.mp halone
  have hiff : MatchesAlone raw t ↔ p'.isMatch t = true := by
    simp only [MatchesAlone, hp', Option.some.injEq, exists_eq_left']
  have hcompiled := h.compile?_alone hp'
  rw [hiff]
  split at hcompiled
  · obtain ⟨q, hq, rfl⟩ := hcompiled
    rw [Pattern.isMatch_rename (shift_injective 0) (shift_zero 0), Option.some.inj (hq.symm.trans hp)]
  · next hhard =>
    obtain ⟨r, hr, rfl⟩ := hcompiled
    rw [Pattern.isMatch_plain]
    exact ((Expr.agrees_of_compile (by simpa using hhard) hr hp).isMatch_iff t).symm

/-- Handed over as a branch, a regular expression matches as it does alone. -/
theorem matchesAlone_iff_of_toRegex (h : ClosesWith raw s)
    (halone : (compile? (Alternation.join [Glob.rawFragment raw])).isSome)
    (hhard : (s.expr.info s.refs).hard = false) {r : Regex} (hr : s.expr.toRegex? = some r) (t : Text) :
    MatchesAlone raw t ↔ r.isMatch t = true := by
  obtain ⟨p', hp'⟩ := Option.isSome_iff_exists.mp halone
  have hcompiled := h.compile?_alone hp'
  rw [if_neg (by simp [hhard])] at hcompiled
  obtain ⟨r', hr', rfl⟩ := hcompiled
  simp only [MatchesAlone, hp', Option.some.injEq, exists_eq_left', Pattern.isMatch_plain,
    Option.some.inj (hr'.symm.trans hr)]

end ClosesWith

section

variable {raws : List Text} {ss : List Reading}

/-- The groups of enclosed patterns are numbered from one on in each. -/
theorem counts_of_closes (h : List.Forall₂ ClosesWith raws ss) : ∀ s ∈ ss, s.Counts := by
  induction h with
  | nil => simp
  | cons hraw _ ih =>
    intro s hs
    rcases List.mem_cons.mp hs with rfl | hs
    · exact hraw.counts
    · exact ih s hs

/-- The groups that are referred to in front of what follows. -/
theorem early_append {s : Reading} (hs : s.Counts) {d : Nat} {early : List Nat} (hearly : ∀ k ∈ early, k ≤ d) :
    ∀ k ∈ s.refs.map (shift d) ++ early, k ≤ d + s.groups := by
  intro k hk
  rcases List.mem_append.mp hk with hk | hk
  · obtain ⟨j, hj, rfl⟩ := List.mem_map.mp hk
    have := hs.refs j hj
    rw [shift_of_pos this.1]
    omega
  · have := hearly k hk
    omega

/-- A branch asks for memory when it does alone. -/
theorem hard_exprsFrom (h : List.Forall₂ ClosesWith raws ss) {d : Nat} {early : List Nat}
    (hearly : ∀ k ∈ early, k ≤ d) :
    ((exprsFrom d ss).any fun e => (e.info (refsFrom d early ss)).hard) =
      ss.any fun s => (s.expr.info s.refs).hard := by
  have hcounts := counts_of_closes h
  induction h generalizing d early with
  | nil => rfl
  | @cons raw s raws ss hraw _ ih =>
    have hfollows := follows_refsFrom hcounts hearly hraw.finish
    have hrest := ih (early_append hraw.counts hearly) fun s' hs' => hcounts s' (by simp [hs'])
    rw [exprsFrom, List.any_cons, List.any_cons, Expr.info_rename hfollows, ← hrest, refsFrom]

/-- Branches compiled one by one match when one of the regular expressions does. -/
theorem exists_isMatch_compileBranches (h : List.Forall₂ ClosesWith raws ss)
    (halone : ∀ raw ∈ raws, (compile? (Alternation.join [Glob.rawFragment raw])).isSome) {d : Nat}
    {early : List Nat} (hearly : ∀ k ∈ early, k ≤ d) {ps : List Pattern}
    (hps : Expr.compileBranches (refsFrom d early ss) true (exprsFrom d ss) = some ps) (t : Text) :
    (∃ p ∈ ps, p.isMatch t = true) ↔ ∃ raw ∈ raws, MatchesAlone raw t := by
  have hcounts := counts_of_closes h
  induction h generalizing d early ps with
  | nil =>
    simp only [exprsFrom, Expr.compileBranches, Option.some.injEq] at hps
    simp [← hps]
  | @cons raw s raws ss hraw _ ih =>
    have hfollows := follows_refsFrom hcounts hearly hraw.finish
    simp only [exprsFrom, Expr.compileBranches, Expr.compile_rename hfollows, Option.bind_eq_some_iff,
      Option.map_eq_some_iff] at hps
    obtain ⟨_, ⟨p, hp, rfl⟩, ps, hps, rfl⟩ := hps
    have hrest := ih (fun raw' hraw' => halone raw' (by simp [hraw']))
      (early_append hraw.counts hearly) hps fun s' hs' => hcounts s' (by simp [hs'])
    have hfirst := hraw.matchesAlone_iff_of_compile (halone raw (by simp)) hp t
    simp only [List.mem_cons, exists_eq_or_imp, hrest, hfirst,
      Pattern.isMatch_rename (shift_injective d) (shift_zero d)]

/-- Branches handed over match when one of the regular expressions does. -/
theorem exists_isMatch_toRegexes (h : List.Forall₂ ClosesWith raws ss)
    (halone : ∀ raw ∈ raws, (compile? (Alternation.join [Glob.rawFragment raw])).isSome)
    (hhard : ∀ s ∈ ss, (s.expr.info s.refs).hard = false) {d : Nat} {rs : List Regex}
    (hrs : Expr.toRegexes? (exprsFrom d ss) = some rs) (t : Text) :
    (∃ r ∈ rs, r.isMatch t = true) ↔ ∃ raw ∈ raws, MatchesAlone raw t := by
  induction h generalizing d rs with
  | nil =>
    simp only [exprsFrom, Expr.toRegexes?, Option.some.injEq] at hrs
    simp [← hrs]
  | @cons raw s raws ss hraw _ ih =>
    simp only [exprsFrom, Expr.toRegexes?, Expr.toRegex?_rename, Option.bind_eq_some_iff,
      Option.map_eq_some_iff] at hrs
    obtain ⟨r, hr, rs, hrs, rfl⟩ := hrs
    have hrest := ih (fun raw' hraw' => halone raw' (by simp [hraw'])) (fun s' hs' => hhard s' (by simp [hs']))
      hrs
    have hfirst := hraw.matchesAlone_iff_of_toRegex (halone raw (by simp)) (hhard s (by simp)) hr t
    simp only [List.mem_cons, exists_eq_or_imp, hrest, hfirst]

/-- Regular expressions that close themselves, joined, match when one of them alone does. -/
theorem isMatch_joined (h : List.Forall₂ ClosesWith raws ss) (hne : raws ≠ [])
    (halone : ∀ raw ∈ raws, (compile? (Alternation.join [Glob.rawFragment raw])).isSome) {p : Pattern}
    (hp : compile? (Alternation.join (raws.map Glob.rawFragment)) = some p) (t : Text) :
    p.isMatch t = true ↔ ∃ raw ∈ raws, MatchesAlone raw t := by
  have hearly : ∀ k ∈ ([] : List Nat), k ≤ 0 := by simp
  have hexprs : exprsFrom 0 ss ≠ [] := by
    cases h with
    | nil => exact absurd rfl hne
    | cons => simp [exprsFrom]
  -- If a branch asks for memory they are compiled one by one, and if none does they are handed over.
  obtain ⟨ps, hps, hmatch⟩ | ⟨hplain, rs, hrs, hmatch⟩ := of_compile?_choiceOf hexprs (parse?_raws h hne) hp
  · rw [hmatch]
    exact exists_isMatch_compileBranches h halone hearly hps t
  · have hhard : (ss.any fun s => (s.expr.info s.refs).hard) = false := by
      rw [← hard_exprsFrom h hearly, List.any_eq_false]
      exact fun e he => by simp [hplain e he]
    rw [hmatch]
    exact exists_isMatch_toRegexes h halone (by simpa using hhard) hrs t

end

end UrlFilter.Backtrack
