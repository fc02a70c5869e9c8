import UrlFilter.Proofs.Regex.Ends
import UrlFilter.Proofs.Regex.Enclosed
import UrlFilter.Rule.Glob
import Mathlib.Algebra.Order.BigOperators.Group.List
import Mathlib.Algebra.Order.Group.Nat

/-!
# Regular expressions that close themselves, without memory

The reader of patterns without memory settles a regular expression between parentheses when it comes to the
closing one, or to a sign that it refuses, whatever follows there. Joined, such regular expressions are the
choice between them, as long as the joined pattern is accepted.
-/

namespace UrlFilter.Regex

open Reading (Leads Inside)

/-- Between parentheses of its own, wherever they stand, the text is read up to the closing one and comes to
the reading `s`. -/
structure ClosesWith (raw : Text) (s : Reading) : Prop where
  frames : s.frames = []
  inside : ∀ u, ∃ v, Inside { modes := { ignoreCase := true } } (raw ++ ')' :: u) s v ∧
    skip s.modes.spaced v = ')' :: u

/-- Between parentheses of its own, wherever they stand, the text is read up to the closing one. -/
def Closes (raw : Text) : Prop := ∃ s, ClosesWith raw s

/-- Between parentheses of its own, wherever they stand, the text holds a sign that is refused. -/
def Refuses (raw : Text) : Prop :=
  ∀ u, ∃ s v, Inside { modes := { ignoreCase := true } } (raw ++ ')' :: u) s v ∧ s.Stuck v

/-- Skipping leaves no more of a text than there was. -/
theorem length_skip (spaced : Bool) (t : Text) : (skip spaced t).length ≤ t.length := by
  have hspacing (inComment : Bool) : (skipSpacing inComment t).length ≤ t.length := by
    fun_induction skipSpacing inComment t <;> grind
  cases spaced with
  | true => exact hspacing false
  | false => exact Nat.le_refl _

/-! ## Reading them joined -/

/-- A reading of joined branches. -/
def joinReading (names : List Text) (choice : Choice) : Reading :=
  { modes := { ignoreCase := true }, names := names, choice := choice }

/-- What a reading has read, as a branch of another. -/
def Reading.branch (s : Reading) : Regex × Nat := (s.choice.finish.1, s.choice.finish.2 + 1)

variable {raw : Text} {s : Reading}

/-- The group of a raw pattern opens behind the branches that have been read. -/
theorem leads_open (names : List Text) (branches : List (Regex × Nat)) (raw u : Text) :
    (joinReading names ⟨branches, []⟩).Leads (Glob.rawFragment raw ++ u)
      (({ modes := { ignoreCase := true } } : Reading).within ⟨names, [⟨{ ignoreCase := true }, ⟨branches, []⟩⟩]⟩)
      (raw ++ ')' :: u) := by
  rw [Glob.rawFragment_append]
  exact .step rfl rfl rfl (by simp; omega)

/-- A branch that closes itself. -/
theorem leads_rawFragment (h : ClosesWith raw s) (names : List Text) (branches : List (Regex × Nat)) (u : Text) :
    (joinReading names ⟨branches, []⟩).Leads (Glob.rawFragment raw ++ u)
        (joinReading (s.names ++ names) ⟨branches, [.node s.branch.1 s.branch.2]⟩) u ∨
      (joinReading names ⟨branches, []⟩).Fails (Glob.rawFragment raw ++ u) ∧ ∃ n ∈ s.names, n ∈ names := by
  let c : Surroundings := ⟨names, [⟨{ ignoreCase := true }, ⟨branches, []⟩⟩]⟩
  have hopen := leads_open names branches raw u
  obtain ⟨v, hinside, hskip⟩ := h.inside u
  have hlength := length_skip s.modes.spaced v
  have hclose : (s.within c).Leads v
      (joinReading (s.names ++ names) ⟨branches, [.node s.branch.1 s.branch.2]⟩) u := by
    have hnext : Token.next s.modes.spaced (')' :: u) = some (.close, u) := rfl
    refine .step hskip hnext ?_ (by simp [hskip] at hlength; omega)
    have hframes : (s.within c).frames = c.frames := by simp [Reading.within, h.frames]
    simp only [Reading.feed, hframes, c]
    rfl
  rcases hinside.leads (c := c) with hleads | ⟨hfails, hclash⟩
  · exact Or.inl (hopen.trans (hleads.trans hclose))
  · exact Or.inr ⟨hopen.fails hfails, hclash⟩

/-- A branch that is refused. -/
theorem fails_rawFragment (h : Refuses raw) (names : List Text) (branches : List (Regex × Nat)) (u : Text) :
    (joinReading names ⟨branches, []⟩).Fails (Glob.rawFragment raw ++ u) := by
  let c : Surroundings := ⟨names, [⟨{ ignoreCase := true }, ⟨branches, []⟩⟩]⟩
  have hopen := leads_open names branches raw u
  obtain ⟨s, v, hinside, hstuck⟩ := h u
  rcases hinside.leads (c := c) with hleads | ⟨hfails, -⟩
  · exact hopen.fails (hleads.fails hstuck.fails)
  · exact hopen.fails hfails

/-- A branch that is one group is what is in the group. -/
theorem branch_single (s : Reading) (branches : List (Regex × Nat)) :
    (Choice.mk branches [.node s.branch.1 s.branch.2]).branch = s.branch := by
  simp [Choice.branch, seqAll, Part.regex?, Part.depth]

/-- The bar behind a branch. -/
theorem leads_bar (s : Reading) (names : List Text) (branches : List (Regex × Nat)) (u : Text) :
    (joinReading names ⟨branches, [.node s.branch.1 s.branch.2]⟩).Leads ('|' :: u)
      (joinReading names ⟨s.branch :: branches, []⟩) u := by
  refine .step rfl rfl ?_ (by simp)
  simp only [Reading.feed, joinReading, branch_single]

/-- Branches joined by bars: they are all read up to their ends, or the whole is refused. -/
theorem leads_join {raws : List Text} (h : ∀ raw ∈ raws, Closes raw ∨ Refuses raw) (hne : raws ≠ [])
    (names : List Text) (branches : List (Regex × Nat)) (u : Text) :
    (joinReading names ⟨branches, []⟩).Fails (Text.join ['|'] (raws.map Glob.rawFragment) ++ u) ∨
      ∃ ss, List.Forall₂ ClosesWith raws ss ∧ ∃ names' choice,
        (joinReading names ⟨branches, []⟩).Leads (Text.join ['|'] (raws.map Glob.rawFragment) ++ u)
          (joinReading names' choice) u ∧
        (choice.branch :: choice.branches).reverse = branches.reverse ++ ss.map Reading.branch := by
  -- By induction on the branches: one that is refused, or names a group as one in front of it does, fails
  -- the whole.
  induction raws generalizing names branches with
  | nil => exact absurd rfl hne
  | cons raw raws ih =>
    rcases h raw (by simp) with ⟨s, hs⟩ | hrefuses
    · cases raws with
      | nil =>
        rcases leads_rawFragment hs names branches u with hleads | ⟨hfails, -⟩
        · refine Or.inr ⟨[s], .cons hs .nil, _, _, hleads, ?_⟩
          simp only [List.reverse_cons, branch_single, List.map_cons, List.map_nil]
        · exact Or.inl hfails
      | cons raw' raws =>
        let rest := Text.join ['|'] ((raw' :: raws).map Glob.rawFragment) ++ u
        have htext : Text.join ['|'] ((raw :: raw' :: raws).map Glob.rawFragment) ++ u =
            Glob.rawFragment raw ++ '|' :: rest := by
          simp [Text.join, rest]
        rw [htext]
        rcases leads_rawFragment hs names branches ('|' :: rest) with hleads | ⟨hfails, -⟩
        · have hfirst := hleads.trans (leads_bar s (s.names ++ names) branches rest)
          rcases ih (fun raw'' h'' => h raw'' (by simp [h''])) (by simp) (s.names ++ names)
            (s.branch :: branches) with hfails | ⟨ss, hss, names', choice, hrest, hchoice⟩
          · exact Or.inl (hfirst.fails hfails)
          · refine Or.inr ⟨s :: ss, .cons hs hss, names', choice, hfirst.trans hrest, ?_⟩
            simpa using hchoice
        · exact Or.inl hfails
    · refine Or.inl ?_
      cases raws with
      | nil => exact fails_rawFragment hrefuses names branches u
      | cons raw' raws =>
        have hfails := fails_rawFragment hrefuses names branches
          ('|' :: (Text.join ['|'] ((raw' :: raws).map Glob.rawFragment) ++ u))
        simpa [Text.join] using hfails

/-! ## What they match -/

/-- A branch is no larger than the choice. -/
theorem size_le_altAll {rs : List Regex} {r : Regex} (h : r ∈ rs) : r.size ≤ (altAll rs).size := by
  have hsum := size_altAll_add (List.ne_nil_of_mem h)
  have hle : 32 + r.size ≤ (rs.map fun r' => 32 + r'.size).sum :=
    List.le_sum_of_mem (List.mem_map_of_mem h)
  omega

/-- The text of a regular expression is accepted alone, within the limit, and matches somewhere in the other
text. -/
def MatchesAlone (limit : Nat) (raw t : Text) : Prop :=
  ∃ r, compile? true limit (Glob.rawFragment raw) = some r ∧ r.isMatch t = true

/-- A regular expression that closes itself, read alone. -/
theorem ClosesWith.compile?_alone (h : ClosesWith raw s) {limit : Nat} (hdepth : s.branch.2 ≤ maxDepth)
    (hsize : s.branch.1.size ≤ limit) : compile? true limit (Glob.rawFragment raw) = some s.branch.1 := by
  rcases leads_rawFragment h [] [] [] with hleads | ⟨-, n, -, hn⟩
  · rw [List.append_nil] at hleads
    have hrun := hleads.run_eq rfl
    have hfinish : (Choice.mk [] [.node s.branch.1 s.branch.2]).finish = s.branch := branch_single s []
    have hparse : parse? { ignoreCase := true } (Glob.rawFragment raw) = some s.branch.1 := by
      unfold parse?
      rw [show ({ modes := { ignoreCase := true } } : Reading) = joinReading [] ⟨[], []⟩ from rfl, hrun,
        Option.bind_some]
      simp only [joinReading, List.isEmpty_nil, if_true, hfinish, if_pos hdepth]
    simp [compile?, hparse, hsize]
  · simp at hn

/-- Branches that are not too deep and not too large are accepted alone, and match as they do alone. -/
theorem exists_isMatch_branches {raws : List Text} {ss : List Reading} (h : List.Forall₂ ClosesWith raws ss)
    {limit : Nat} (hbounds : ∀ s ∈ ss, s.branch.2 ≤ maxDepth ∧ s.branch.1.size ≤ limit) :
    (∀ raw ∈ raws, (compile? true limit (Glob.rawFragment raw)).isSome = true) ∧
      ∀ t, (∃ r ∈ ss.map fun s => s.branch.1, r.isMatch t = true) ↔
        ∃ raw ∈ raws, MatchesAlone limit raw t := by
  induction h with
  | nil => simp
  | @cons raw s raws ss hs _ ih =>
    obtain ⟨hdepth, hsize⟩ := hbounds s (by simp)
    obtain ⟨haccepted, hmatch⟩ := ih fun s' hs' => hbounds s' (by simp [hs'])
    have halone := hs.compile?_alone hdepth hsize
    refine ⟨fun raw' hraw' => ?_, fun t => ?_⟩
    · rcases List.mem_cons.mp hraw' with rfl | hraw'
      · rw [halone]
        rfl
      · exact haccepted raw' hraw'
    · have hfirst : MatchesAlone limit raw t ↔ s.branch.1.isMatch t = true := by
        simp only [MatchesAlone, halone, Option.some.injEq, exists_eq_left']
      simp only [List.map_cons, List.mem_cons, exists_eq_or_imp, hmatch, hfirst]

/-- When a joined pattern is accepted, each of its branches is accepted alone, and the pattern matches when
one of them does. -/
theorem isMatch_joined {raws : List Text} (h : ∀ raw ∈ raws, Closes raw ∨ Refuses raw) (hne : raws ≠ [])
    {limit : Nat} {r : Regex}
    (hr : compile? true limit (Text.join ['|'] (raws.map Glob.rawFragment)) = some r) :
    (∀ raw ∈ raws, (compile? true limit (Glob.rawFragment raw)).isSome = true) ∧
      ∀ t, r.isMatch t = true ↔ ∃ raw ∈ raws, MatchesAlone limit raw t := by
  obtain ⟨hparse, hlimit⟩ := Option.filter_eq_some_iff.mp hr
  have hstart : ({ modes := { ignoreCase := true } } : Reading) = joinReading [] ⟨[], []⟩ := rfl
  have hjoin := leads_join h hne [] [] []
  rw [List.append_nil] at hjoin
  rw [parse?, hstart] at hparse
  rcases hjoin with hfails | ⟨ss, hss, names, choice, hleads, hchoice⟩
  · rw [hfails _ (Nat.lt_succ_self _)] at hparse
    simp at hparse
  · rw [hleads.run_eq rfl, Option.bind_some] at hparse
    change (if choice.finish.2 ≤ maxDepth then some choice.finish.1 else none) = some r at hparse
    obtain ⟨hdepth, hfinish⟩ := Option.ite_none_right_eq_some.mp hparse
    cases hfinish
    rw [List.reverse_nil, List.nil_append] at hchoice
    have hall : choice.finish.1 = altAll (ss.map fun s => s.branch.1) := by
      rw [Choice.finish_fst, hchoice, List.map_map]
      rfl
    -- No branch is deeper or larger than the whole.
    have hbounds : ∀ s ∈ ss, s.branch.2 ≤ maxDepth ∧ s.branch.1.size ≤ limit := by
      intro s hs
      constructor
      · have hmem : s.branch ∈ choice.branch :: choice.branches := by
          rw [← List.mem_reverse, hchoice]
          exact List.mem_map_of_mem hs
        exact Nat.le_trans (Choice.le_finish_snd choice _ hmem) hdepth
      · have hmem : s.branch.1 ∈ ss.map fun s => s.branch.1 := List.mem_map_of_mem hs
        have hsize := size_le_altAll hmem
        rw [← hall] at hsize
        exact Nat.le_trans hsize (by simpa using hlimit)
    obtain ⟨haccepted, hmatch⟩ := exists_isMatch_branches hss hbounds
    refine ⟨haccepted, fun t => ?_⟩
    rw [hall, isMatch_altAll, hmatch]

end UrlFilter.Regex
