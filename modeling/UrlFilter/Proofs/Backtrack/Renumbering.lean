import UrlFilter.Proofs.Backtrack.Parts
import UrlFilter.Proofs.Regex.Repetition

/-!
# Other numbers for groups

The numbers of groups are names: an expression whose groups have other numbers compiles to the pattern with
these numbers, and such a pattern matches as before, with the texts of the groups under the new numbers. Zero
is no group and keeps its place.
-/

namespace UrlFilter.Backtrack

variable {f : Nat → Nat}

/-! ## Patterns -/

/-- The texts of the groups under other numbers. -/
def State.rename (f : Nat → Nat) (s : State) : State :=
  { s with groups := s.groups.map fun g => (f g.1, g.2) }

/-- The pattern with other numbers for its groups. -/
def Pattern.rename (f : Nat → Nat) : Pattern → Pattern
  | empty => empty
  | plain r => plain r
  | first p => first (rename f p)
  | seq a b => seq (rename f a) (rename f b)
  | alt a b => alt (rename f a) (rename f b)
  | turns p lo hi greedy => turns (rename f p) lo hi greedy
  | capture k p => capture (f k) (rename f p)
  | reference k => reference (f k)
  | ahead p => ahead (rename f p)
  | notAhead p => notAhead (rename f p)
  | behind n p => behind n (rename f p)
  | notBehind n p => notBehind n (rename f p)
  | captured k => captured (f k)
  | conditional c t e => conditional (rename f c) (rename f t) (rename f e)
  | searchStart => searchStart

namespace State

/-- Other numbers for groups leave the position as it is. -/
@[simp] theorem cursor_rename (s : State) : (s.rename f).cursor = s.cursor := rfl

/-- The position can be changed before or after the numbers. -/
theorem rename_withCursor (s : State) (c : Regex.Cursor) :
    ({ s with cursor := c } : State).rename f = { s.rename f with cursor := c } := rfl

/-- A text is skipped whatever the numbers of groups. -/
theorem skipText?_rename (s : State) (t : Text) :
    (s.rename f).skipText? t = (s.skipText? t).map (State.rename f) := by
  simp only [skipText?, cursor_rename]
  cases Text.after? t s.cursor.after <;> rfl

section

variable (hf : Function.Injective f)

include hf

/-- Texts of groups under other numbers tell what they were under the old ones. -/
theorem rename_injective : Function.Injective (State.rename f) := by
  rintro ⟨c, gs⟩ ⟨c', gs'⟩ h
  simp only [State.rename, State.mk.injEq] at h
  have hpair : Function.Injective fun g : Nat × Text => (f g.1, g.2) := by
    rintro ⟨k, t⟩ ⟨k', t'⟩ hg
    simp only [Prod.mk.injEq] at hg
    rw [hf hg.1, hg.2]
  rw [h.1, List.map_injective_iff.mpr hpair h.2]

/-- A group has its text under its other number. -/
theorem group?_rename (s : State) (k : Nat) : (s.rename f).group? (f k) = s.group? k := by
  obtain ⟨c, gs⟩ := s
  simp only [group?, State.rename]
  induction gs with
  | nil => rfl
  | cons g gs ih =>
    obtain ⟨j, t⟩ := g
    simp only [List.map_cons, List.lookup_cons, ih]
    by_cases hk : k = j
    · simp [hk]
    · rw [beq_eq_false_iff_ne.mpr hk, beq_eq_false_iff_ne.mpr (hf.ne hk)]

/-- A text is remembered under the other number of its group. -/
theorem rename_remember (s : State) (k : Nat) (t : Text) :
    (s.remember k t).rename f = (s.rename f).remember (f k) t := by
  simp only [remember, State.rename, List.map_cons, List.filter_map]
  congr 3
  refine List.filter_congr fun g _ => ?_
  by_cases hk : g.1 = k
  · simp [hk]
  · rw [Function.comp_apply, bne_iff_ne.mpr hk, bne_iff_ne.mpr (hf.ne hk)]

end

end State

namespace Pattern

section

variable (hf : Function.Injective f) (h0 : f 0 = 0)

include hf h0

/-- A pattern with other numbers matches as before, up to these numbers. -/
theorem ways_rename (p : Pattern) (s : State) :
    (p.rename f).ways (s.rename f) = (p.ways s).map (State.rename f) := by
  have hinj := State.rename_injective hf
  -- By induction on the pattern. Captures, references and conditions on groups look at the numbers, which
  -- have to be different for different groups; the other patterns hand their states on.
  induction p generalizing s with
  | empty => rfl
  | plain r => simp [rename, ways, Function.comp_def, State.rename]
  | first p ih => simp [rename, ways, ih]
  | seq a b iha ihb =>
    rw [rename, ways, ways, iha, ← Turns.eraseDups_map hinj, List.flatMap_map, List.map_flatMap]
    simp only [ihb]
  | alt a b iha ihb => rw [rename, ways, ways, iha, ihb, ← List.map_append, Turns.eraseDups_map hinj]
  | turns p lo hi greedy ih => exact Turns.reached_map hinj ih _ lo hi greedy s
  | capture k p ih =>
    simp only [rename, ways, ih, List.map_map, Function.comp_def, State.rename_remember hf]
    rfl
  | reference k =>
    simp only [rename, ways, State.group?_rename hf]
    cases s.group? k with
    | none => rfl
    | some t =>
      simp only [Option.bind_some, State.skipText?_rename]
      cases s.skipText? t <;> rfl
  | ahead p ih =>
    simp only [rename, ways, ih, List.map_map, ← Turns.eraseDups_map hinj]
    rfl
  | notAhead p ih =>
    simp only [rename, ways, ih, List.isEmpty_map]
    split <;> rfl
  | behind n p ih =>
    simp only [rename, ways, State.cursor_rename]
    cases s.cursor.back? n with
    | none => rfl
    | some c =>
      simp only [← State.rename_withCursor, ih, List.map_map, ← Turns.eraseDups_map hinj]
      rfl
  | notBehind n p ih =>
    simp only [rename, ways, State.cursor_rename]
    cases s.cursor.back? n with
    | none => rfl
    | some c =>
      simp only [← State.rename_withCursor, ih, List.isEmpty_map]
      split <;> rfl
  | captured k =>
    have hk : f k = 0 ↔ k = 0 := ⟨fun h => hf (h.trans h0.symm), fun h => h ▸ h0⟩
    simp only [rename, ways, State.group?_rename hf, hk]
    split <;> rfl
  | conditional c t e ihc iht ihe =>
    simp only [rename, ways, ihc]
    cases ways c s with
    | nil => exact ihe s
    | cons s' ss => exact iht s'
  | searchStart =>
    obtain ⟨⟨before, after⟩, gs⟩ := s
    cases before <;> rfl

/-- The numbers of the groups do not matter for what matches. -/
theorem isMatch_rename (p : Pattern) (t : Text) : (p.rename f).isMatch t = p.isMatch t := by
  have hways (c : Regex.Cursor) : (p.rename f).ways ⟨c, []⟩ = (p.ways ⟨c, []⟩).map (State.rename f) :=
    ways_rename hf h0 p ⟨c, []⟩
  simp only [isMatch, hways, List.isEmpty_map]

end

/-- A sequence with other numbers is one of patterns with them. -/
theorem rename_seqAll (ps : List Pattern) : (seqAll ps).rename f = seqAll (ps.map (rename f)) := by
  induction ps with
  | nil => rfl
  | cons p ps ih =>
    simp only [seqAll, List.map_cons, List.foldr_cons, rename] at ih ⊢
    rw [ih]

/-- A choice with other numbers is one of patterns with them. -/
theorem rename_altAll (ps : List Pattern) : (altAll ps).rename f = altAll (ps.map (rename f)) := by
  cases ps with
  | nil => rfl
  | cons p ps =>
    simp only [altAll, List.map_cons]
    induction ps generalizing p with
    | nil => rfl
    | cons q ps ih => rw [List.foldl_cons, ih, List.map_cons, List.foldl_cons, rename]

end Pattern

/-! ## Expressions -/

namespace Expr

mutual

/-- The expression with other numbers for its groups. -/
def rename (f : Nat → Nat) : Expr → Expr
  | empty => empty
  | any lineFeeds => any lineFeeds
  | look l => look l
  | literal c folds => literal c folds
  | set source folds => set source folds
  | concat es => concat (renames f es)
  | alt es => alt (renames f es)
  | group k e => group (f k) (rename f e)
  | around k e => around k (rename f e)
  | turns e lo hi greedy => turns (rename f e) lo hi greedy
  | reference k => reference (f k)
  | atomic e => atomic (rename f e)
  | keepOut => keepOut
  | searchStart => searchStart
  | captured k => captured (f k)
  | conditional c t e => conditional (rename f c) (rename f t) (rename f e)

/-- The expressions of a list with other numbers for their groups. -/
def renames (f : Nat → Nat) : List Expr → List Expr
  | [] => []
  | e :: es => rename f e :: renames f es

end

mutual

/-- The groups that an expression opens. -/
def captures : Expr → List Nat
  | concat es => capturesAll es
  | alt es => capturesAll es
  | group k e => k :: captures e
  | around _ e => captures e
  | turns e _ _ _ => captures e
  | atomic e => captures e
  | conditional c t e => captures c ++ (captures t ++ captures e)
  | _ => []

/-- The groups that the expressions of a list open. -/
def capturesAll : List Expr → List Nat
  | [] => []
  | e :: es => captures e ++ capturesAll es

end

/-- The expressions of a list get other numbers one by one. -/
theorem renames_eq_map (f : Nat → Nat) (es : List Expr) : renames f es = es.map (rename f) := by
  induction es with
  | nil => rfl
  | cons e es ih => rw [renames, ih, List.map_cons]

/-- A group is opened by a list when one of its expressions opens it. -/
theorem mem_capturesAll {k : Nat} {es : List Expr} : k ∈ capturesAll es ↔ ∃ e ∈ es, k ∈ e.captures := by
  induction es with
  | nil => simp [capturesAll]
  | cons e es ih => simp [capturesAll, ih]

/-- An expression is empty whatever the numbers of its groups. -/
@[simp] theorem isEmpty_rename (e : Expr) : (e.rename f).isEmpty = e.isEmpty := by
  cases e <;> rfl

/-- An expression can be repeated whatever the numbers of its groups. -/
@[simp] theorem isRepeatable_rename (e : Expr) : (e.rename f).isRepeatable = e.isRepeatable := by
  cases e <;> rfl

mutual

/-- The pattern without memory does not depend on the numbers of groups. -/
theorem toRegex?_rename (e : Expr) : (e.rename f).toRegex? = e.toRegex? := by
  match e with
  | .empty | .any _ | .look _ | .literal _ _ | .set _ _ | .around _ _ | .reference _ | .atomic _ | .keepOut
  | .searchStart | .captured _ | .conditional _ _ _ => simp [rename, toRegex?]
  | .concat es => rw [rename, toRegex?, toRegex?, toRegexes?_renames es]
  | .alt es =>
    rw [rename, toRegex?, toRegex?, toRegexes?_renames es, renames_eq_map, List.map_map]
    simp only [Function.comp_def, isEmpty_rename]
  | .group k e => rw [rename, toRegex?, toRegex?, toRegex?_rename e]
  | .turns e lo hi greedy => rw [rename, toRegex?, toRegex?, toRegex?_rename e]

/-- The patterns without memory do not depend on the numbers of groups. -/
theorem toRegexes?_renames (es : List Expr) : toRegexes? (renames f es) = toRegexes? es := by
  match es with
  | [] => rfl
  | e :: es => rw [renames, toRegexes?, toRegexes?, toRegex?_rename e, toRegexes?_renames es]

end

mutual

/-- An expression is a text whatever the numbers of its groups. -/
theorem isText_rename (e : Expr) : (e.rename f).isText = e.isText := by
  match e with
  | .concat es => rw [rename, isText, isText, areTexts_renames es]
  | .empty | .any _ | .look _ | .literal _ _ | .set _ _ | .alt _ | .group _ _ | .around _ _ | .turns _ _ _ _
  | .reference _ | .atomic _ | .keepOut | .searchStart | .captured _ | .conditional _ _ _ => simp [rename, isText]

/-- Expressions are texts whatever the numbers of their groups. -/
theorem areTexts_renames (es : List Expr) : areTexts (renames f es) = areTexts es := by
  match es with
  | [] => rfl
  | e :: es => rw [renames, areTexts, areTexts, isText_rename e, areTexts_renames es]

end

/-- What is handed over has no groups, so that their numbers do not show in it. -/
theorem handOver?_rename (e : Expr) : (e.rename f).handOver? = e.handOver?.map (Pattern.rename f) := by
  rw [handOver?, handOver?, toRegex?_rename, isText_rename]
  cases e.toRegex?.filter fun r => e.isText || r.size ≤ Regex.usualLimit <;> rfl

/-- The references to an expression's groups are the ones to its groups under other numbers. -/
def Follows (f : Nat → Nat) (refs refs' captures : List Nat) : Prop :=
  ∀ k ∈ captures, refs'.contains (f k) = refs.contains k

section

variable {refs refs' : List Nat}

mutual

/-- What is known of an expression does not depend on the numbers of its groups. -/
theorem info_rename {e : Expr} (h : Follows f refs refs' e.captures) :
    (e.rename f).info refs' = e.info refs := by
  match e with
  | .empty | .any _ | .look _ | .literal _ _ | .set _ _ | .around _ _ | .reference _ | .keepOut
  | .searchStart | .captured _ => simp [rename, info]
  | .concat es =>
    rw [captures] at h
    rw [rename, info, info, infos_renames h]
  | .alt es =>
    rw [captures] at h
    rw [rename, info, info, infos_renames h]
  | .group k e =>
    rw [captures] at h
    rw [rename, info, info, info_rename fun j hj => h j (List.mem_cons_of_mem _ hj), h k (by simp)]
  | .turns e lo hi greedy =>
    rw [captures] at h
    rw [rename, info, info, info_rename h]
  | .atomic e =>
    rw [captures] at h
    rw [rename, info, info, info_rename h]
  | .conditional c t e =>
    rw [captures] at h
    rw [rename, info, info, info_rename fun j hj => h j (by simp [hj]),
      info_rename fun j hj => h j (by simp [hj]), info_rename fun j hj => h j (by simp [hj])]

/-- What is known of the expressions of a list does not depend on the numbers of their groups. -/
theorem infos_renames {es : List Expr} (h : Follows f refs refs' (capturesAll es)) :
    infos refs' (renames f es) = infos refs es := by
  match es with
  | [] => rfl
  | e :: es =>
    rw [capturesAll] at h
    rw [renames, infos, infos, info_rename fun j hj => h j (by simp [hj]),
      infos_renames fun j hj => h j (by simp [hj])]

end

/-- An expression stays whole under other numbers for its groups. -/
theorem isWhole_rename {retried : Bool} {e : Expr} (h : Follows f refs refs' e.captures) :
    (e.rename f).isWhole refs' retried = e.isWhole refs retried := by
  rw [isWhole, isWhole, info_rename h]

/-- The front of a sequence that is handed over is the same under other numbers. -/
theorem takeWhile_renames {es : List Expr} (h : Follows f refs refs' (capturesAll es)) :
    (renames f es).takeWhile (isWhole refs' true) = renames f (es.takeWhile (isWhole refs true)) := by
  induction es with
  | nil => rfl
  | cons e es ih =>
    rw [capturesAll] at h
    rw [renames, List.takeWhile_cons, List.takeWhile_cons, isWhole_rename fun j hj => h j (List.mem_append_left _ hj),
      ih fun j hj => h j (List.mem_append_right _ hj)]
    split <;> rfl

/-- All expressions of a list stay whole under other numbers for their groups. -/
theorem all_isWhole_renames {retried : Bool} {es : List Expr} (h : Follows f refs refs' (capturesAll es)) :
    (renames f es).all (isWhole refs' retried) = es.all (isWhole refs retried) := by
  induction es with
  | nil => rfl
  | cons e es ih =>
    rw [capturesAll] at h
    rw [renames, List.all_cons, List.all_cons, isWhole_rename fun j hj => h j (List.mem_append_left _ hj),
      ih fun j hj => h j (List.mem_append_right _ hj)]

/-! ## Compiling -/

/-- A look behind with other numbers is one at the pattern with them. -/
theorem lookBehind_rename (negated : Bool) (i : Info) (p : Pattern) :
    lookBehind negated i (p.rename f) = (lookBehind negated i p).map (Pattern.rename f) := by
  cases negated <;> by_cases hi : i.fixed = true <;> simp [lookBehind, hi, Pattern.rename]

/-- A choice comes of choices alone when the numbers change. -/
theorem rename_ne_alt {e : Expr} (he : ∀ es, e ≠ .alt es) (es : List Expr) : e.rename f ≠ .alt es := by
  cases e with
  | alt es => exact absurd rfl (he es)
  | _ => simp [rename]

mutual

/-- An expression with other numbers is compiled to the pattern with these numbers. -/
theorem compile_rename {retried : Bool} {e : Expr} (h : Follows f refs refs' e.captures) :
    (e.rename f).compile refs' retried = (e.compile refs retried).map (Pattern.rename f) := by
  -- Whether it is handed over is told by the information alone, which is the same under other numbers.
  rw [compile_eq, compile_eq, info_rename h]
  split
  · rw [handOver?_rename, Option.map_map, Option.map_map]
    rfl
  · exact compileParts_rename h
termination_by (sizeOf e, 1)

/-- What is compiled part by part has the other numbers. -/
theorem compileParts_rename {retried : Bool} {e : Expr} (h : Follows f refs refs' e.captures) :
    (e.rename f).compileParts refs' retried = (e.compileParts refs retried).map (Pattern.rename f) := by
  have hover := handOver?_rename (f := f) e
  match e with
  | .empty | .reference _ | .keepOut | .searchStart | .captured _ => simp [rename, compileParts, Pattern.rename]
  | .any _ | .look _ | .literal _ _ | .set _ _ => exact hover
  | .concat es =>
    rw [captures] at h
    have hfront := handOver?_rename (f := f) (.concat (es.takeWhile (isWhole refs true)))
    rw [rename] at hfront
    rw [rename, compileParts, compileParts, takeWhile_renames h, hfront, compileSeq_renames h]
    simp only [Option.map_bind, Option.bind_map, Option.map_map, Function.comp_def, Pattern.rename]
  | .alt es =>
    rw [captures] at h
    rw [rename, compileParts, compileParts, compileBranches_renames h]
    simp only [Option.map_map, Function.comp_def, Pattern.rename_altAll]
  | .group k e =>
    rw [captures] at h
    rw [rename, compileParts, compileParts, compile_rename fun j hj => h j (by simp [hj]), h k (by simp)]
    simp only [Option.map_map, Function.comp_def]
    cases refs.contains k <;> rfl
  | .turns e _ _ _ | .atomic e | .around .ahead e | .around .notAhead e =>
    rw [captures] at h
    rw [rename, compileParts, compileParts, compile_rename h]
    simp only [Option.map_map, Function.comp_def, Pattern.rename]
  | .around .behind e | .around .notBehind e =>
    rw [captures] at h
    exact compileLookBehind_rename h
  | .conditional c t e =>
    rw [captures] at h
    rw [rename, compileParts, compileParts, compile_rename fun j hj => h j (by simp [hj]),
      compile_rename fun j hj => h j (by simp [hj]), compile_rename fun j hj => h j (by simp [hj])]
    simp only [Option.map_bind, Option.bind_map, Option.map_map, Function.comp_def, Pattern.rename]
termination_by (sizeOf e, 0)

/-- What is compiled as a look behind has the other numbers. -/
theorem compileLookBehind_rename {negated : Bool} {e : Expr} (h : Follows f refs refs' e.captures) :
    compileLookBehind refs' negated (e.rename f) =
      (compileLookBehind refs negated e).map (Pattern.rename f) := by
  have hinfo := info_rename h
  -- The branches of a choice may be looked at one by one, anything else is looked at as a whole.
  by_cases he : ∃ es, e = .alt es
  · obtain ⟨es, rfl⟩ := he
    rw [captures] at h
    rw [rename] at hinfo ⊢
    rw [compileLookBehind, compileLookBehind, hinfo, compileBranches_renames h, compileBehind_renames h]
    split
    · simp only [Option.map_bind, Option.bind_map, Function.comp_def, Pattern.rename_altAll, ← lookBehind_rename]
    · cases negated <;> simp [Function.comp_def, Pattern.rename_altAll, Pattern.rename_seqAll]
  · have hne : ∀ es, e ≠ .alt es := fun es hes => he ⟨es, hes⟩
    rw [compileLookBehind_of_ne_alt hne, compileLookBehind_of_ne_alt (rename_ne_alt hne), compile_rename h, hinfo]
    simp only [Option.map_bind, Option.bind_map, Function.comp_def, lookBehind_rename]
termination_by (sizeOf e, 2)

/-- What is compiled as a sequence has the other numbers. -/
theorem compileSeq_renames {retried inFront : Bool} {es : List Expr}
    (h : Follows f refs refs' (capturesAll es)) :
    compileSeq refs' retried inFront (renames f es) =
      (compileSeq refs retried inFront es).map (Pattern.rename f) := by
  match es with
  | [] => rfl
  | e :: es =>
    have hall := @all_isWhole_renames f refs refs' retried (e :: es) h
    have hover := handOver?_rename (f := f) (.concat (e :: es))
    rw [rename, renames] at hover
    rw [renames] at hall
    rw [capturesAll] at h
    rw [renames, compileSeq, compileSeq, hall, hover, isWhole_rename fun j hj => h j (by simp [hj]),
      compile_rename fun j hj => h j (by simp [hj]), compileSeq_renames fun j hj => h j (by simp [hj]),
      compileSeq_renames fun j hj => h j (by simp [hj])]
    split
    · rfl
    · split
      · cases retried <;> simp only [Option.map_map, Function.comp_def] <;> rfl
      · simp only [Option.map_bind, Option.bind_map, Option.map_map, Function.comp_def, Pattern.rename]
termination_by (sizeOf es, 0)

/-- Branches that are compiled have the other numbers. -/
theorem compileBranches_renames {retried : Bool} {es : List Expr}
    (h : Follows f refs refs' (capturesAll es)) :
    compileBranches refs' retried (renames f es) =
      (compileBranches refs retried es).map (List.map (Pattern.rename f)) := by
  match es with
  | [] => rfl
  | e :: es =>
    rw [capturesAll] at h
    rw [renames, compileBranches, compileBranches, compile_rename fun j hj => h j (by simp [hj]),
      compileBranches_renames fun j hj => h j (by simp [hj])]
    simp only [Option.map_bind, Option.bind_map, Option.map_map, Function.comp_def, List.map_cons]
termination_by (sizeOf es, 0)

/-- Branches of a look behind that are compiled have the other numbers. -/
theorem compileBehind_renames {negated : Bool} {es : List Expr}
    (h : Follows f refs refs' (capturesAll es)) :
    compileBehind refs' negated (renames f es) =
      (compileBehind refs negated es).map (List.map (Pattern.rename f)) := by
  match es with
  | [] => rfl
  | e :: es =>
    rw [capturesAll] at h
    rw [renames, compileBehind, compileBehind, info_rename fun j hj => h j (by simp [hj]),
      compile_rename fun j hj => h j (by simp [hj]), compileBehind_renames fun j hj => h j (by simp [hj])]
    simp only [Option.map_bind, Option.bind_map, Option.map_map, Function.comp_def, lookBehind_rename,
      List.map_cons]
termination_by (sizeOf es, 0)

end

end

end Expr

end UrlFilter.Backtrack
