import UrlFilter.Proofs.Backtrack.Parts
import UrlFilter.Proofs.Regex.Ends

/-!
# Expressions that need no memory

An expression that needs no memory may be handed over as one pattern without memory, or be compiled part by
part where another expression around it asks for memory. Both match from the same positions to the same
positions; only the order of preference differs, and an empty branch comes in another place.
-/

namespace UrlFilter.Backtrack

open Regex (Cursor)

namespace Expr

/-- A whole pattern without memory is compiled exactly when it is not too large. -/
theorem whole?_eq {e : Expr} {r : Regex} (h : e.toRegex? = some r) :
    e.whole? = if r.size ≤ Regex.usualLimit then some (.plain r) else none := by
  rw [whole?, h]
  by_cases hsize : r.size ≤ Regex.usualLimit <;> simp [Option.filter, hsize]

/-- A plain part is handed over exactly when it is a text or not too large. -/
theorem handOver?_eq {e : Expr} {r : Regex} (h : e.toRegex? = some r) :
    e.handOver? = if e.isText = true ∨ r.size ≤ Regex.usualLimit then some (.plain r) else none := by
  rw [handOver?, h]
  by_cases htext : e.isText = true
  · simp [Option.filter, htext]
  · by_cases hsize : r.size ≤ Regex.usualLimit <;> simp [Option.filter, htext, hsize]

/-- What is small enough is handed over. -/
theorem handOver?_of_size_le {e : Expr} {r : Regex} (h : e.toRegex? = some r) (hsize : r.size ≤ Regex.usualLimit) :
    e.handOver? = some (.plain r) := by
  rw [handOver?_eq h, if_pos (Or.inr hsize)]

/-- What is compiled whole is the pattern without memory that the expression stands for. -/
theorem of_whole?_eq_some {e : Expr} {p : Pattern} (h : e.whole? = some p) :
    ∃ r, e.toRegex? = some r ∧ p = .plain r := by
  simp only [whole?, Option.map_eq_some_iff, Option.filter_eq_some_iff] at h
  obtain ⟨r, ⟨hr, -⟩, rfl⟩ := h
  exact ⟨r, hr, rfl⟩

/-- What is handed over is the pattern without memory that the expression stands for. -/
theorem of_handOver?_eq_some {e : Expr} {p : Pattern} (h : e.handOver? = some p) :
    ∃ r, e.toRegex? = some r ∧ p = .plain r := by
  simp only [handOver?, Option.map_eq_some_iff, Option.filter_eq_some_iff] at h
  obtain ⟨r, ⟨hr, -⟩, rfl⟩ := h
  exact ⟨r, hr, rfl⟩

/-! ## What asks for memory -/

/-- What is known of the expressions of a list is known of each. -/
theorem infos_eq_map (refs : List Nat) (es : List Expr) : infos refs es = es.map (info refs) := by
  induction es with
  | nil => rfl
  | cons e es ih => rw [infos, ih, List.map_cons]

/-- A sequence asks for memory when one of its parts does. -/
theorem hard_concat (refs : List Nat) (es : List Expr) :
    (info refs (.concat es)).hard = es.any fun e => (e.info refs).hard := by
  have hfold (is : List Info) (i : Info) :
      (is.foldl Info.andThen i).hard = (i.hard || is.any (·.hard)) := by
    induction is generalizing i with
    | nil => simp
    | cons j is ih => simp [ih, Info.andThen, Bool.or_assoc]
  rw [info, hfold, infos_eq_map, Bool.false_or, List.any_map]
  rfl

/-- A choice asks for memory when one of its branches does. -/
theorem hard_alt (refs : List Nat) (es : List Expr) :
    (info refs (.alt es)).hard = es.any fun e => (e.info refs).hard := by
  have hfold (is : List Info) (i : Info) :
      (is.foldl Info.orElse i).hard = (i.hard || is.any (·.hard)) := by
    induction is generalizing i with
    | nil => simp
    | cons j is ih => simp [ih, Info.orElse, Bool.or_assoc]
  rw [info, infos_eq_map]
  cases es with
  | nil => rfl
  | cons e es =>
    simp only [List.map_cons, hfold, List.any_cons, List.any_map]
    rfl

end Expr

/-! ## Patterns that match alike -/

/-- The pattern with memory leads to the positions where the pattern without memory ends, and leaves the
texts of the groups as they are. -/
def Pattern.Agrees (p : Pattern) (r : Regex) : Prop :=
  ∀ s s' : State, s' ∈ p.ways s ↔ ∃ c ∈ r.ends s.cursor, s' = { s with cursor := c }

namespace Pattern

/-- A pattern without memory agrees with itself. -/
theorem agrees_plain (r : Regex) : (plain r).Agrees r := by
  intro s s'
  simp only [ways, List.mem_map, eq_comm]

/-- The empty patterns agree. -/
theorem agrees_empty : empty.Agrees .empty := by
  intro s s'
  simp [ways, Regex.ends]

/-- A pattern without memory matches as it does alone. -/
theorem isMatch_plain (r : Regex) (t : Text) : (plain r).isMatch t = r.isMatch t := by
  simp [isMatch, Regex.isMatch, ways]

/-- Patterns that agree match the same texts. -/
theorem Agrees.isMatch_iff {p : Pattern} {r : Regex} (h : p.Agrees r) (t : Text) :
    p.isMatch t = true ↔ r.isMatch t = true := by
  simp only [isMatch, Regex.isMatch, List.any_eq_true, Bool.not_eq_true',
    List.isEmpty_eq_false_iff_exists_mem, h _ _]
  constructor
  · rintro ⟨c, hc, s', e, he, -⟩
    exact ⟨c, hc, e, he⟩
  · rintro ⟨c, hc, e, he⟩
    exact ⟨c, hc, _, e, he, rfl⟩

/-- Patterns that agree, agree one behind the other. -/
theorem Agrees.seq {p q : Pattern} {r r' : Regex} (hp : p.Agrees r) (hq : q.Agrees r') :
    (Pattern.seq p q).Agrees (.seq r r') := by
  intro s s'
  simp only [ways, Regex.ends, List.mem_eraseDups, List.mem_flatMap, hp _ _, hq _ _]
  constructor
  · rintro ⟨_, ⟨d, hd, rfl⟩, c, hc, rfl⟩
    exact ⟨c, ⟨d, hd, hc⟩, rfl⟩
  · rintro ⟨c, ⟨d, hd, hc⟩, rfl⟩
    exact ⟨_, ⟨d, hd, rfl⟩, c, hc, rfl⟩

/-- Which pattern without memory is agreed with is told by the positions where it ends. -/
theorem Agrees.congr {p : Pattern} {r r' : Regex} (hp : p.Agrees r)
    (h : ∀ c e : Cursor, e ∈ r.ends c ↔ e ∈ r'.ends c) : p.Agrees r' := by
  intro s s'
  simp only [hp s s', h]

/-- The ways of a choice are the ways of its branches. -/
theorem mem_ways_altAll {ps : List Pattern} {s s' : State} :
    s' ∈ (altAll ps).ways s ↔ ∃ p ∈ ps, s' ∈ p.ways s := by
  cases ps with
  | nil => cases h : s.cursor.after <;> simp [altAll, ways, Regex.ends, h]
  | cons p ps =>
    have hfold (ps : List Pattern) (p : Pattern) :
        s' ∈ (ps.foldl alt p).ways s ↔ s' ∈ p.ways s ∨ ∃ q ∈ ps, s' ∈ q.ways s := by
      induction ps generalizing p with
      | nil => simp
      | cons q ps ih => simp [ih, ways, List.mem_eraseDups, or_assoc]
    simp [altAll, hfold]

/-- A choice matches somewhere when one of its branches does. -/
theorem isMatch_altAll {ps : List Pattern} {t : Text} :
    (altAll ps).isMatch t = true ↔ ∃ p ∈ ps, p.isMatch t = true := by
  simp only [isMatch, List.any_eq_true, Bool.not_eq_true', List.isEmpty_eq_false_iff_exists_mem,
    mem_ways_altAll]
  constructor
  · rintro ⟨c, hc, s', p, hp, hs'⟩
    exact ⟨p, hp, c, hc, s', hs'⟩
  · rintro ⟨p, hp, c, hc, s', hs'⟩
    exact ⟨c, hc, s', p, hp, hs'⟩

/-- Choices between patterns that agree do so as well. -/
theorem agrees_altAll {ps : List Pattern} {rs : List Regex} (h : List.Forall₂ Agrees ps rs) :
    (altAll ps).Agrees (Regex.altAll rs) := by
  intro s s'
  rw [mem_ways_altAll]
  simp only [Regex.mem_ends_altAll]
  induction h with
  | nil => simp
  | cons hp _ ih =>
    simp only [List.mem_cons, or_and_right, exists_or, exists_eq_left, hp s s', ih]

/-- Steps of a pattern with memory are those of the one that it agrees with, and leave the texts of the groups. -/
theorem steps_ways {p : Pattern} {r : Regex} (h : p.Agrees r) {n : Nat} {s s' : State} :
    Turns.Steps p.ways n s s' ↔
      ∃ c, Turns.Steps r.ends n s.cursor c ∧ s' = { s with cursor := c } := by
  induction n generalizing s with
  | zero =>
    constructor
    · rintro rfl
      exact ⟨_, rfl, rfl⟩
    · rintro ⟨c, rfl, rfl⟩
      rfl
  | succ n ih =>
    simp only [Turns.Steps, h _ _]
    constructor
    · rintro ⟨_, ⟨d, hd, rfl⟩, hn⟩
      obtain ⟨c, hc, rfl⟩ := ih.mp hn
      exact ⟨c, ⟨d, hd, hc⟩, rfl⟩
    · rintro ⟨c, ⟨d, hd, hc⟩, rfl⟩
      exact ⟨_, ⟨d, hd, rfl⟩, ih.mpr ⟨c, hc, rfl⟩⟩

/-- Repeated patterns that agree, agree: no more states can be reached than there are positions. -/
theorem Agrees.turns {p : Pattern} {r : Regex} (h : p.Agrees r) (lo : Nat) (hi : Option Nat)
    (greedy : Bool) : (turns p lo hi greedy).Agrees (.turns r lo hi greedy) := by
  intro s s'
  let points := s.cursor.onwards.map fun c => ({ s with cursor := c } : State)
  have hclosed : ∀ x ∈ points, p.ways x ⊆ points := by
    intro x hx y hy
    obtain ⟨c, hc, rfl⟩ := List.mem_map.mp hx
    obtain ⟨d, hd, rfl⟩ := (h _ _).mp hy
    exact List.mem_map.mpr ⟨d, Regex.Cursor.onwards_trans hc (Regex.onwards_of_mem_ends hd), rfl⟩
  have hstart : s ∈ points := List.mem_map.mpr ⟨s.cursor, Regex.Cursor.onwards_refl _, rfl⟩
  have hlength : points.length ≤ 2 * s.cursor.after.length + 2 := by
    simp only [points, List.length_map, Regex.length_onwards]
    omega
  rw [ways, Turns.mem_reached hclosed hstart hlength]
  simp only [Regex.mem_ends_turns, steps_ways h]
  constructor
  · rintro ⟨m, hm, c, hc, rfl⟩
    exact ⟨c, ⟨m, hm, hc⟩, rfl⟩
  · rintro ⟨c, ⟨m, hm, hc⟩, rfl⟩
    exact ⟨m, hm, c, hc, rfl⟩

end Pattern

/-! ## Plain expressions -/

namespace Expr

/-- At most one turn: none, or one. -/
theorem mem_ends_optional {r : Regex} {greedy : Bool} {c e : Cursor} :
    e ∈ (Regex.turns r 0 (some 1) greedy).ends c ↔ e = c ∨ e ∈ r.ends c := by
  simp only [Regex.mem_ends_turns, Option.all_some, decide_eq_true_eq, Nat.zero_add]
  constructor
  · rintro ⟨m, hm, hsteps⟩
    obtain rfl | rfl : m = 0 ∨ m = 1 := by omega
    · exact Or.inl hsteps.symm
    · obtain ⟨d, hd, rfl⟩ := hsteps
      exact Or.inr hd
  · rintro (rfl | he)
    · exact ⟨0, by omega, rfl⟩
    · exact ⟨1, by omega, e, he, rfl⟩

/-- An empty branch of a choice may stand anywhere. -/
theorem mem_ends_choice {empties : List Bool} {rs : List Regex}
    (h : List.Forall₂ (fun b r => b = true → r = .empty) empties rs) {c e : Cursor} :
    e ∈ (choice empties rs).ends c ↔ ∃ r ∈ rs, e ∈ r.ends c := by
  have hsplit : (∃ r ∈ rs, e ∈ r.ends c) ↔ (empties.any id = true ∧ e = c) ∨
      ∃ r ∈ ((empties.zip rs).filter (!·.1)).map Prod.snd, e ∈ r.ends c := by
    induction h with
    | nil => simp
    | @cons b r bs rs hb _ ih =>
      simp only [List.mem_cons, exists_eq_or_imp, ih]
      cases b with
      | true =>
        rw [hb rfl]
        simp only [Regex.ends, List.mem_singleton, List.any_cons, id, Bool.true_or, true_and,
          List.zip_cons_cons, Bool.not_true, List.filter_cons, Bool.false_eq_true, if_false]
        constructor
        · rintro (he | ⟨-, he⟩ | he)
          · exact Or.inl he
          · exact Or.inl he
          · exact Or.inr he
        · rintro (he | he)
          · exact Or.inl he
          · exact Or.inr (Or.inr he)
      | false =>
        simp only [List.any_cons, id, Bool.false_or, List.zip_cons_cons, Bool.not_false,
          List.filter_cons, if_true, List.map_cons, List.mem_cons, exists_eq_or_imp]
        exact or_left_comm
  by_cases hany : empties.any id = true
  · rw [hsplit, choice]
    simp only [hany, if_true, true_and, mem_ends_optional]
    cases ((empties.zip rs).filter (!·.1)).map Prod.snd with
    | nil => simp [Regex.ends]
    | cons r others => simp only [List.isEmpty_cons, Bool.false_eq_true, if_false, Regex.mem_ends_altAll]
  · rw [choice, if_neg hany, Regex.mem_ends_altAll]

/-- A choice that knows which branches are empty matches where one of them does. -/
theorem isMatch_choice {empties : List Bool} {rs : List Regex}
    (h : List.Forall₂ (fun b r => b = true → r = .empty) empties rs) (t : Text) :
    (choice empties rs).isMatch t = true ↔ ∃ r ∈ rs, r.isMatch t = true := by
  rw [← Regex.isMatch_altAll]
  simp only [Regex.isMatch, List.any_eq_true, Bool.not_eq_true', List.isEmpty_eq_false_iff_exists_mem,
    mem_ends_choice h, Regex.mem_ends_altAll]

/-- An empty expression is the empty pattern. -/
theorem toRegex?_of_isEmpty {e : Expr} {r : Regex} (he : e.isEmpty = true) (h : e.toRegex? = some r) :
    r = .empty := by
  cases e <;> simp_all [isEmpty, toRegex?]

/-- Of the patterns of expressions, those of empty ones are empty. -/
theorem forall₂_isEmpty {es : List Expr} {rs : List Regex} (h : toRegexes? es = some rs) :
    List.Forall₂ (fun b r => b = true → r = .empty) (es.map isEmpty) rs := by
  induction es generalizing rs with
  | nil =>
    simp only [toRegexes?, Option.some.injEq] at h
    exact h ▸ .nil
  | cons e es ih =>
    simp only [toRegexes?, Option.bind_eq_some_iff, Option.map_eq_some_iff] at h
    obtain ⟨r, hr, rs, hrs, rfl⟩ := h
    exact .cons (fun he => toRegex?_of_isEmpty he hr) (ih hrs)

/-- Lists of expressions are made patterns one behind the other. -/
theorem toRegexes?_append (es es' : List Expr) :
    toRegexes? (es ++ es') = (toRegexes? es).bind fun rs => (toRegexes? es').map (rs ++ ·) := by
  induction es with
  | nil => simp [toRegexes?]
  | cons e es ih =>
    simp only [List.cons_append, toRegexes?, ih]
    cases toRegex? e <;> cases toRegexes? es <;> simp [Function.comp_def]

/-- The patterns of the parts of a sequence in front of some place and behind it. -/
theorem of_toRegexes?_append {es es' : List Expr} {rs : List Regex} (h : toRegexes? (es ++ es') = some rs) :
    ∃ as bs, toRegexes? es = some as ∧ toRegexes? es' = some bs ∧ rs = as ++ bs := by
  simp only [toRegexes?_append, Option.bind_eq_some_iff, Option.map_eq_some_iff] at h
  obtain ⟨as, has, bs, hbs, rfl⟩ := h
  exact ⟨as, bs, has, hbs, rfl⟩

/-- The expression is compiled part by part to a pattern that agrees with what it is handed over as. -/
def CompilesAlike (refs : List Nat) (e : Expr) : Prop :=
  ∀ p r, e.toRegex? = some r → e.compile refs true = some p → p.Agrees r

/-- A sequence is compiled behind its front to a pattern that agrees with the sequence of what its parts are handed
over as. -/
theorem agrees_of_compileSeq {refs : List Nat} {es : List Expr} (heach : ∀ e ∈ es, CompilesAlike refs e)
    {p : Pattern} {rs : List Regex} (hrs : toRegexes? es = some rs) (hp : compileSeq refs true false es = some p) :
    p.Agrees (Regex.seqAll rs) := by
  induction es generalizing p rs with
  | nil =>
    simp only [toRegexes?, compileSeq, Option.some.injEq] at hrs hp
    exact hrs ▸ hp ▸ Pattern.agrees_empty
  | cons e es ih =>
    rw [compileSeq, Bool.false_and, if_neg Bool.false_ne_true] at hp
    split at hp
    · -- The last parts are handed over together.
      simp only [if_true, Option.map_id'] at hp
      obtain ⟨r, hr, rfl⟩ := of_handOver?_eq_some hp
      rw [toRegex?, hrs, Option.map_some, Option.some.injEq] at hr
      exact hr ▸ Pattern.agrees_plain r
    · simp only [toRegexes?, Option.bind_eq_some_iff, Option.map_eq_some_iff] at hrs hp
      obtain ⟨r, hr, rs, hrs, rfl⟩ := hrs
      obtain ⟨p, hp, p', hp', rfl⟩ := hp
      have hfirst : p.Agrees r := heach e (by simp) p r hr hp
      have hrest : p'.Agrees (Regex.seqAll rs) := ih (fun e' he' => heach e' (by simp [he'])) hrs hp'
      refine (hfirst.seq hrest).congr fun c d => ?_
      rw [Regex.mem_ends_seq, Regex.mem_ends_seqAll]

/-- A choice is compiled branch by branch to patterns that agree with what the branches are handed over as. -/
theorem agrees_of_compileBranches {refs : List Nat} {es : List Expr} (heach : ∀ e ∈ es, CompilesAlike refs e)
    {ps : List Pattern} {rs : List Regex} (hrs : toRegexes? es = some rs)
    (hps : compileBranches refs true es = some ps) : List.Forall₂ Pattern.Agrees ps rs := by
  induction es generalizing ps rs with
  | nil =>
    simp only [toRegexes?, compileBranches, Option.some.injEq] at hrs hps
    exact hrs ▸ hps ▸ .nil
  | cons e es ih =>
    simp only [toRegexes?, compileBranches, Option.bind_eq_some_iff, Option.map_eq_some_iff] at hrs hps
    obtain ⟨r, hr, rs, hrs, rfl⟩ := hrs
    obtain ⟨p, hp, ps, hps, rfl⟩ := hps
    exact .cons (heach e (by simp) p r hr hp) (ih (fun e' he' => heach e' (by simp [he'])) hrs hps)

mutual

/-- An expression that needs no memory is compiled to a pattern that agrees with what it is handed over
as. -/
theorem agrees_of_compile {refs : List Nat} {e : Expr} {p : Pattern} {r : Regex}
    (hhard : (e.info refs).hard = false) (hr : e.toRegex? = some r)
    (hp : e.compile refs true = some p) : p.Agrees r := by
  rw [compile_true] at hp
  match e with
  | .empty =>
    simp only [toRegex?, compileParts, Option.some.injEq] at hr hp
    exact hr ▸ hp ▸ Pattern.agrees_empty
  | .any _ | .look _ | .literal _ _ | .set _ _ =>
    simp only [compileParts, handOver?_eq hr, Option.ite_none_right_eq_some, Option.some.injEq] at hp
    exact hp.2 ▸ Pattern.agrees_plain r
  | .concat es =>
    rw [hard_concat] at hhard
    rw [toRegex?, Option.map_eq_some_iff] at hr
    obtain ⟨rs, hrs, rfl⟩ := hr
    have heach : ∀ e ∈ es, CompilesAlike refs e := compilesAlike_all (by simpa using hhard)
    rw [compileParts_concat, Option.bind_eq_some_iff] at hp
    simp only [Option.map_eq_some_iff] at hp
    obtain ⟨p, hp, p', hp', rfl⟩ := hp
    -- The front is handed over, and behind it the parts are compiled.
    rw [← List.takeWhile_append_dropWhile (p := isWhole refs true) (l := es)] at hrs
    obtain ⟨as, bs, has, hbs, rfl⟩ := of_toRegexes?_append hrs
    have hfront : p.Agrees (Regex.seqAll as) := by
      obtain ⟨r, hr, rfl⟩ := of_handOver?_eq_some hp
      rw [toRegex?, has, Option.map_some, Option.some.injEq] at hr
      exact hr ▸ Pattern.agrees_plain r
    have hback : p'.Agrees (Regex.seqAll bs) :=
      agrees_of_compileSeq (fun e he => heach e ((List.dropWhile_sublist _).subset he)) hbs hp'
    refine (hfront.seq hback).congr fun c d => ?_
    rw [Regex.mem_ends_seq, Regex.mem_ends_seqAll_append]
  | .alt es =>
    rw [hard_alt] at hhard
    simp only [toRegex?, compileParts, Option.map_eq_some_iff] at hr hp
    obtain ⟨rs, hrs, rfl⟩ := hr
    obtain ⟨ps, hps, rfl⟩ := hp
    have heach : ∀ e ∈ es, CompilesAlike refs e := compilesAlike_all (by simpa using hhard)
    refine (Pattern.agrees_altAll (agrees_of_compileBranches heach hrs hps)).congr fun c d => ?_
    rw [mem_ends_choice (forall₂_isEmpty hrs), Regex.mem_ends_altAll]
  | .group k e =>
    rw [info, Bool.or_eq_false_iff] at hhard
    rw [toRegex?] at hr
    -- A group that nothing refers to is not remembered.
    simp only [compileParts, hhard.2, Bool.false_eq_true, if_false, Option.map_eq_some_iff] at hp
    obtain ⟨p, hp, rfl⟩ := hp
    exact agrees_of_compile hhard.1 hr hp
  | .turns e lo hi greedy =>
    rw [info] at hhard
    rw [toRegex?, Option.ite_none_right_eq_some, Option.map_eq_some_iff] at hr
    simp only [compileParts, Bool.true_or, Option.map_eq_some_iff] at hp
    obtain ⟨-, r, hr, rfl⟩ := hr
    obtain ⟨p, hp, rfl⟩ := hp
    exact (agrees_of_compile hhard hr hp).turns lo hi greedy
  | .around _ _ | .reference _ | .atomic _ | .keepOut | .searchStart | .captured _
  | .conditional _ _ _ => simp [toRegex?] at hr

/-- Each expression of a list that needs no memory is compiled so. -/
theorem compilesAlike_all {refs : List Nat} {es : List Expr} (hhard : ∀ e ∈ es, (e.info refs).hard = false) :
    ∀ e ∈ es, CompilesAlike refs e := by
  match es with
  | [] => simp
  | e :: es =>
    rw [List.forall_mem_cons] at hhard ⊢
    exact ⟨fun _ _ hr hp => agrees_of_compile hhard.1 hr hp, compilesAlike_all hhard.2⟩

end

end Expr

end UrlFilter.Backtrack
