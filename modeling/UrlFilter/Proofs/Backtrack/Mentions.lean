import UrlFilter.Proofs.Backtrack.Enclosed
import UrlFilter.Proofs.Backtrack.Plain

/-!
# What an expression mentions

A pattern with memory names groups by their numbers and classes by their texts. What the signs of a pattern mention
is what its expression mentions in the end: neither closing a group nor repeating a part loses any of it. Where the
expression compiles, the texts of its classes can be read.
-/

namespace UrlFilter.Backtrack

/-- A name for something that is not a part of the expression itself. -/
inductive Mention where
  /-- A class, by its text. -/
  | set (source : Text)
  /-- A group, by its number. -/
  | group (k : Nat)
  deriving Repr, DecidableEq

namespace Expr

mutual

/-- What an expression mentions: its classes, and the groups whose text or whose match it asks for. -/
def mentions : Expr → List Mention
  | set source _ => [.set source]
  | reference k => [.group k]
  | captured k => [.group k]
  | concat es => mentionsAll es
  | alt es => mentionsAll es
  | group _ e => mentions e
  | around _ e => mentions e
  | turns e _ _ _ => mentions e
  | atomic e => mentions e
  | conditional c t f => mentions c ++ (mentions t ++ mentions f)
  | _ => []

/-- What the expressions of a list mention. -/
def mentionsAll : List Expr → List Mention
  | [] => []
  | e :: es => mentions e ++ mentionsAll es

end

variable {m : Mention}

/-- The expressions of a list mention what any of them does. -/
theorem mem_mentionsAll {es : List Expr} : m ∈ mentionsAll es ↔ ∃ e ∈ es, m ∈ e.mentions := by
  induction es with
  | nil => simp [mentionsAll]
  | cons e es ih => simp [mentionsAll, ih]

/-- An empty expression mentions nothing. -/
theorem mentions_of_isEmpty {e : Expr} (h : e.isEmpty = true) : e.mentions = [] := by
  cases e <;> simp [isEmpty, mentions] at h ⊢

end Expr

variable {m : Mention}

/-- A branch mentions what its parts do. -/
theorem mem_mentions_branchOf {parts : List Expr} :
    m ∈ (branchOf parts).mentions ↔ m ∈ Expr.mentionsAll parts := by
  -- Parts that are empty are left out, and mention nothing.
  have hfilter : m ∈ Expr.mentionsAll (parts.filter (!·.isEmpty)) ↔ m ∈ Expr.mentionsAll parts := by
    simp only [Expr.mem_mentionsAll, List.mem_filter, Bool.not_eq_true']
    constructor
    · rintro ⟨e, ⟨he, -⟩, hm⟩
      exact ⟨e, he, hm⟩
    · rintro ⟨e, he, hm⟩
      refine ⟨e, ⟨he, ?_⟩, hm⟩
      by_contra hempty
      rw [Expr.mentions_of_isEmpty (by simpa using hempty)] at hm
      cases hm
  rw [← hfilter, branchOf]
  generalize parts.filter (!·.isEmpty) = es
  cases es with
  | nil => rfl
  | cons e es =>
    cases es with
    | nil => simp [Expr.mentionsAll]
    | cons e' es => rfl

/-- What a choice mentions that is being read. -/
def Choice.mentions (c : Choice) : List Mention := Expr.mentionsAll c.branches ++ Expr.mentionsAll c.parts

/-- What the condition mentions that has been read. -/
def Group.mentions : Group → List Mention
  | branches c => c.mentions
  | _ => []

/-- A branch that is read mentions what its parts do, whatever their order. -/
theorem mem_mentions_branch (c : Choice) :
    m ∈ (branchOf c.parts.reverse).mentions ↔ m ∈ Expr.mentionsAll c.parts := by
  simp only [mem_mentions_branchOf, Expr.mem_mentionsAll, List.mem_reverse]

namespace Reading

variable {s s' : Reading}

/-- What has been mentioned, in what is read and in what is still open. -/
def mentions (s : Reading) : List Mention :=
  s.choice.mentions ++ s.frames.flatMap fun x => x.group.mentions ++ x.outer.mentions

/-- What has been read mentions what its choice does. -/
theorem mem_mentions_finish {e : Expr} (h : s.finish = some e) : m ∈ e.mentions ↔ m ∈ s.choice.mentions := by
  cases hbranches : s.choice.branches with
  | nil =>
    simp only [finish, hbranches, Option.ite_none_left_eq_some, Option.some.injEq] at h
    rw [← h.2, mem_mentions_branch, Choice.mentions, hbranches, Expr.mentionsAll, List.nil_append]
  | cons b bs =>
    simp only [finish, hbranches, Option.some.injEq] at h
    have hlast := mem_mentions_branch (m := m) s.choice
    rw [Expr.mem_mentionsAll] at hlast
    simp only [← h, Expr.mentions, Choice.mentions, hbranches, List.mem_append, Expr.mem_mentionsAll,
      List.mem_reverse, List.mem_cons, exists_eq_or_imp, hlast]
    exact or_comm

/-- A condition on an expression mentions what that does. -/
theorem mentions_conditionOf (e : Expr) : (conditionOf e).mentions = e.mentions := by
  cases e <;> rfl

/-- The two sides of a body mention what the body does. -/
theorem mem_mentions_sidesOf (body : Expr) :
    m ∈ body.mentions ↔ m ∈ (sidesOf body).1.mentions ∨ m ∈ (sidesOf body).2.mentions := by
  cases body with
  | alt es =>
    match es with
    | [] | [_] | [_, _] | _ :: _ :: _ :: _ => simp [sidesOf, Expr.mentions, Expr.mentionsAll]
  | _ => simp [sidesOf, Expr.mentions]

/-- A condition mentions what its expression and its body do. -/
theorem mem_mentions_conditionalOf (e body : Expr) :
    m ∈ (conditionalOf e body).mentions ↔ m ∈ e.mentions ∨ m ∈ body.mentions := by
  rw [conditionalOf_eq, mem_mentions_sidesOf body]
  split
  next hempty =>
    -- A side that is left out is empty, and mentions nothing.
    rw [Bool.and_eq_true] at hempty
    simp [mentions_conditionOf, Expr.mentions_of_isEmpty hempty.1, Expr.mentions_of_isEmpty hempty.2]
  next => simp only [Expr.mentions, mentions_conditionOf, List.mem_append]

/-- A part adds what it mentions. -/
theorem mem_mentions_part (s : Reading) (e : Expr) :
    m ∈ (s.part e).mentions ↔ m ∈ e.mentions ∨ m ∈ s.mentions := by
  simp only [mentions, part, Choice.mentions, Expr.mentionsAll, List.mem_append]
  tauto

/-- A group that is entered adds what it mentions. -/
theorem mem_mentions_enter {g : Group} (h : s.enter g = some s') :
    m ∈ s'.mentions ↔ m ∈ g.mentions ∨ m ∈ s.mentions := by
  simp only [enter, Option.ite_none_right_eq_some, Option.some.injEq] at h
  obtain ⟨-, rfl⟩ := h
  simp only [mentions, Choice.mentions, Expr.mentionsAll, List.flatMap_cons, List.mem_append, List.not_mem_nil,
    false_or]
  tauto

/-- A group that is closed mentions what it held and what its condition did. -/
theorem mem_mentions_closed? {e e' : Expr} {g : Group} {modes : Modes}
    (hfinish : s.finish = some e) (h : s.closed? e g = some (e', modes)) :
    m ∈ e'.mentions ↔ m ∈ g.mentions ∨ m ∈ e.mentions := by
  cases g with
  | condition => cases h
  | branches c =>
    simp only [closed?] at h
    split at h
    next hnone =>
      -- Nothing stands behind the condition, so nothing is mentioned there.
      simp only [Option.ite_none_right_eq_some, Option.some.injEq, Prod.mk.injEq] at h
      simp only [Bool.and_eq_true, List.isEmpty_iff] at hnone
      rw [← h.2.1, mentions_conditionOf, mem_mentions_finish hfinish, Choice.mentions, hnone.1, hnone.2]
      simp [Group.mentions, Expr.mentionsAll]
    next =>
      cases h
      exact mem_mentions_conditionalOf c e
  | _ =>
    cases h
    simp [Expr.mentions, Group.mentions]

/-- Closing a group loses nothing that is mentioned in it. -/
theorem mem_mentions_leave (h : s.leave = some s') : m ∈ s'.mentions ↔ m ∈ s.mentions := by
  obtain ⟨e, g, outer, frames, he, hframes, h⟩ := leave_cases h
  have hfinish := mem_mentions_finish (m := m) he
  rcases h with ⟨e', modes, hclosed, rfl⟩ | ⟨rfl, rfl⟩
  · rw [mem_mentions_part, mem_mentions_closed? he hclosed, hfinish]
    simp only [mentions, hframes, List.flatMap_cons, List.mem_append]
    tauto
  · simp only [mentions, hframes, Choice.mentions, Expr.mentionsAll, Group.mentions, List.flatMap_cons,
      List.nil_append, List.mem_append, hfinish]
    tauto

/-- A repetition mentions nothing further. -/
theorem mem_mentions_repeated {lo : Nat} {hi : Option Nat} {isLazy possessive : Bool}
    (h : s.repeated lo hi isLazy possessive = some s') : m ∈ s'.mentions ↔ m ∈ s.mentions := by
  cases hparts : s.choice.parts with
  | nil => simp [repeated, hparts] at h
  | cons e parts =>
    simp only [repeated, hparts, Option.ite_none_right_eq_some, Option.some.injEq] at h
    obtain ⟨-, rfl⟩ := h
    simp only [mentions, Choice.mentions, hparts]
    cases possessive <;> rfl

/-- What a sign mentions. -/
def mentionsOf (s : Reading) : Token → List Mention
  | .set source _ => [.set source]
  | .reference k => [.group k]
  | .openCondition (.number k) => [.group k]
  | .namedReference name => (s.groupOf name).toList.map .group
  | .openCondition (.name name) => (s.groupOf name).toList.map .group
  | _ => []

/-- That a reference is noted mentions nothing; its part does. -/
theorem mentions_refer {k : Nat} (h : s.refer k = some s') : s'.mentions = s.mentions := by
  simp only [refer, Option.ite_none_right_eq_some, Option.some.injEq] at h
  obtain ⟨-, rfl⟩ := h
  rfl

/-- A sign adds what it mentions, and keeps the rest. -/
theorem mem_mentions_feed {token : Token} (h : s.feed token = some s') :
    m ∈ s'.mentions ↔ m ∈ s.mentionsOf token ∨ m ∈ s.mentions := by
  -- Signs that are a part, and signs that open a group; the others are closing, bars and turns.
  have hpart {s₁ : Reading} {e : Expr} (hs₁ : s₁.mentions = s.mentions) (he : e.mentions = s.mentionsOf token) :
      m ∈ (s₁.part e).mentions ↔ m ∈ s.mentionsOf token ∨ m ∈ s.mentions := by
    rw [mem_mentions_part, hs₁, he]
  have henter {s₁ : Reading} {g : Group} (hs₁ : s₁.mentions = s.mentions)
      (hg : g.mentions = s.mentionsOf token) (h : s₁.enter g = some s') :
      m ∈ s'.mentions ↔ m ∈ s.mentionsOf token ∨ m ∈ s.mentions := by
    rw [mem_mentions_enter h, hs₁, hg]
  cases token with
  | literal _ _ | any | look _ | set _ _ | keepOut | searchStart | caret | dollar =>
    simp only [feed, Option.some.injEq] at h
    exact h ▸ hpart rfl rfl
  | setModes changes =>
    simp only [feed, Option.some.injEq] at h
    exact h ▸ hpart rfl rfl
  | reference k =>
    simp only [feed, referByNumber, Option.map_eq_some_iff] at h
    obtain ⟨s₁, h₁, rfl⟩ := h
    have hsame := mentions_refer h₁
    exact hpart hsame rfl
  | namedReference name =>
    simp only [feed, Option.bind_eq_some_iff, Option.map_eq_some_iff] at h
    obtain ⟨k, hk, s₁, h₁, rfl⟩ := h
    exact hpart (mentions_refer h₁) (by simp [mentionsOf, hk, Expr.mentions])
  | openCapture name => exact mem_mentions_enter h
  | openAround k => exact mem_mentions_enter h
  | openAtomic => exact mem_mentions_enter h
  | openModes changes =>
    simp only [feed, Option.map_eq_some_iff] at h
    obtain ⟨s₁, h₁, rfl⟩ := h
    exact mem_mentions_enter h₁
  | openCondition asked =>
    cases asked with
    | number k =>
      simp only [feed, referByNumber, Option.bind_eq_some_iff] at h
      obtain ⟨s₁, h₁, h⟩ := h
      have hsame := mentions_refer h₁
      exact henter hsame rfl h
    | name name =>
      simp only [feed, Option.bind_eq_some_iff] at h
      obtain ⟨k, hk, s₁, h₁, h⟩ := h
      exact henter (mentions_refer h₁) (by simp [mentionsOf, hk, Group.mentions, Expr.mentions]) h
    | expression => exact mem_mentions_enter h
  | close =>
    rw [mem_mentions_leave h]
    simp [mentionsOf]
  | bar =>
    simp only [feed, Option.some.injEq] at h
    subst h
    have hbranch := mem_mentions_branch (m := m) s.choice
    simp only [mentions, Choice.mentions, Expr.mentionsAll, mentionsOf, List.mem_append, List.not_mem_nil, or_false,
      false_or, hbranch]
    tauto
  | turns lo hi isLazy possessive =>
    rw [mem_mentions_repeated h]
    simp [mentionsOf]

/-- What has been mentioned stays so. -/
theorem mentions_subset_run {size n : Nat} {t : Text} (h : run size n s t = some s') : s.mentions ⊆ s'.mentions := by
  induction n generalizing s t with
  | zero => cases h
  | succ n ih =>
    simp only [run, Option.bind_eq_some_iff] at h
    obtain ⟨r, -, h⟩ := h
    split at h
    · cases h
      exact List.Subset.refl _
    · simp only [Option.bind_eq_some_iff] at h
      obtain ⟨⟨token, r'⟩, -, s₁, hfeed, hrest⟩ := h
      exact fun m hm => ih hrest ((mem_mentions_feed hfeed).mpr (.inr hm))

end Reading

/-! ## Classes of what compiles -/

namespace Expr

/-- The texts of the classes can be read. -/
def ReadsSets (e : Expr) : Prop :=
  ∀ source, .set source ∈ e.mentions → ∃ folds, (Regex.parse? { ignoreCase := folds } source).isSome = true

/-- The classes of a sequence are those of its expressions. -/
theorem readsSets_concat {es : List Expr} : (concat es).ReadsSets ↔ ∀ e ∈ es, e.ReadsSets := by
  simp only [ReadsSets, mentions, mem_mentionsAll]
  exact ⟨fun h e he source hsource => h source ⟨e, he, hsource⟩,
    fun h source ⟨e, he, hsource⟩ => h e he source hsource⟩

/-- The classes of a choice are those of its expressions. -/
theorem readsSets_alt {es : List Expr} : (alt es).ReadsSets ↔ ∀ e ∈ es, e.ReadsSets := readsSets_concat

mutual

/-- What is a pattern without memory has classes that can be read. -/
theorem readsSets_of_toRegex? {e : Expr} {r : Regex} (h : e.toRegex? = some r) : e.ReadsSets := by
  match e with
  | .empty | .any _ | .look _ | .literal _ _ =>
    intro source hsource
    cases hsource
  | .set source folds =>
    intro source' hsource
    rw [mentions, List.mem_singleton] at hsource
    cases hsource
    rw [toRegex?] at h
    exact ⟨folds, h ▸ rfl⟩
  | .concat es =>
    rw [toRegex?, Option.map_eq_some_iff] at h
    obtain ⟨rs, hrs, -⟩ := h
    exact readsSets_concat.mpr (readsSets_of_toRegexes? hrs)
  | .alt es =>
    rw [toRegex?, Option.map_eq_some_iff] at h
    obtain ⟨rs, hrs, -⟩ := h
    exact readsSets_alt.mpr (readsSets_of_toRegexes? hrs)
  | .group k e =>
    rw [toRegex?] at h
    exact readsSets_of_toRegex? (e := e) h
  | .turns e lo hi greedy =>
    rw [toRegex?, Option.ite_none_right_eq_some, Option.map_eq_some_iff] at h
    obtain ⟨-, r, hr, -⟩ := h
    exact readsSets_of_toRegex? (e := e) hr
  | .around _ _ | .reference _ | .atomic _ | .keepOut | .searchStart | .captured _
  | .conditional _ _ _ => simp [toRegex?] at h

/-- What are patterns without memory have classes that can be read. -/
theorem readsSets_of_toRegexes? {es : List Expr} {rs : List Regex} (h : toRegexes? es = some rs) :
    ∀ e ∈ es, e.ReadsSets := by
  match es with
  | [] => simp
  | e :: es =>
    simp only [toRegexes?, Option.bind_eq_some_iff, Option.map_eq_some_iff] at h
    obtain ⟨r, hr, rs, hrs, -⟩ := h
    simp only [List.forall_mem_cons]
    exact ⟨readsSets_of_toRegex? hr, readsSets_of_toRegexes? hrs⟩

end

/-- What is handed over whole has classes that can be read. -/
theorem readsSets_of_whole? {e : Expr} {p : Pattern} (h : e.whole? = some p) : e.ReadsSets := by
  obtain ⟨r, hr, -⟩ := of_whole?_eq_some h
  exact readsSets_of_toRegex? hr

/-- What is handed over has classes that can be read. -/
theorem readsSets_of_handOver? {e : Expr} {p : Pattern} (h : e.handOver? = some p) : e.ReadsSets := by
  obtain ⟨r, hr, -⟩ := of_handOver?_eq_some h
  exact readsSets_of_toRegex? hr

mutual

/-- What compiles has classes that can be read, wherever they stand in it. -/
theorem readsSets_of_compile {refs : List Nat} {retried : Bool} {e : Expr} {p : Pattern}
    (h : e.compile refs retried = some p) : e.ReadsSets := by
  rw [compile_eq] at h
  split at h
  · rw [Option.map_eq_some_iff] at h
    obtain ⟨p', hp', -⟩ := h
    exact readsSets_of_handOver? hp'
  · exact readsSets_of_compileParts h
termination_by (sizeOf e, 1)

/-- What is compiled part by part has classes that can be read. -/
theorem readsSets_of_compileParts {refs : List Nat} {retried : Bool} {e : Expr} {p : Pattern}
    (h : e.compileParts refs retried = some p) : e.ReadsSets := by
  match e with
  | .empty | .reference _ | .keepOut | .searchStart | .captured _ =>
    intro source hsource
    simp [mentions] at hsource
  | .any _ | .look _ | .literal _ _ | .set _ _ => exact readsSets_of_handOver? h
  | .concat es =>
    simp only [compileParts, Option.bind_eq_some_iff, Option.map_eq_some_iff] at h
    obtain ⟨p', hp', p'', hp'', -⟩ := h
    exact readsSets_concat.mpr (readsSets_of_compileSeq hp'' fun _ => readsSets_concat.mp (readsSets_of_handOver? hp'))
  | .alt es =>
    rw [compileParts, Option.map_eq_some_iff] at h
    obtain ⟨ps, hps, -⟩ := h
    exact readsSets_alt.mpr (readsSets_of_compileBranches hps)
  | .group k e | .turns e _ _ _ | .atomic e | .around .ahead e | .around .notAhead e =>
    rw [compileParts, Option.map_eq_some_iff] at h
    obtain ⟨p', hp', -⟩ := h
    exact readsSets_of_compile (e := e) hp'
  | .around .behind e | .around .notBehind e => exact readsSets_of_compileLookBehind (e := e) h
  | .conditional c t f =>
    simp only [compileParts, Option.bind_eq_some_iff, Option.map_eq_some_iff] at h
    obtain ⟨c', hc, t', ht, f', hf, -⟩ := h
    intro source hsource
    simp only [mentions, List.mem_append] at hsource
    rcases hsource with hsource | hsource | hsource
    · exact readsSets_of_compile hc source hsource
    · exact readsSets_of_compile ht source hsource
    · exact readsSets_of_compile hf source hsource
termination_by (sizeOf e, 0)

/-- What is compiled as a look behind has classes that can be read. -/
theorem readsSets_of_compileLookBehind {refs : List Nat} {negated : Bool} {e : Expr} {p : Pattern}
    (h : compileLookBehind refs negated e = some p) : e.ReadsSets := by
  -- The branches of a choice may be looked at one by one, anything else is looked at as a whole.
  by_cases he : ∃ es, e = .alt es
  · obtain ⟨es, rfl⟩ := he
    rw [compileLookBehind] at h
    split at h
    · rw [Option.bind_eq_some_iff] at h
      obtain ⟨ps, hps, -⟩ := h
      exact readsSets_alt.mpr (readsSets_of_compileBranches hps)
    · rw [Option.map_eq_some_iff] at h
      obtain ⟨ps, hps, -⟩ := h
      exact readsSets_alt.mpr (readsSets_of_compileBehind hps)
  · rw [compileLookBehind_of_ne_alt fun es hes => he ⟨es, hes⟩, Option.bind_eq_some_iff] at h
    obtain ⟨p', hp', -⟩ := h
    exact readsSets_of_compile hp'
termination_by (sizeOf e, 2)

/-- A sequence that is compiled has classes that can be read, where its front has been handed over already. -/
theorem readsSets_of_compileSeq {refs : List Nat} {retried inFront : Bool} {es : List Expr} {p : Pattern}
    (h : compileSeq refs retried inFront es = some p)
    (hfront : inFront = true → ∀ e ∈ es.takeWhile (isWhole refs true), e.ReadsSets) : ∀ e ∈ es, e.ReadsSets := by
  match es with
  | [] => simp
  | e :: es =>
    rw [compileSeq] at h
    split at h
    · next hwhole =>
      rw [Bool.and_eq_true] at hwhole
      have hfront := hfront hwhole.1
      rw [List.takeWhile_cons_of_pos hwhole.2, List.forall_mem_cons] at hfront
      exact List.forall_mem_cons.mpr ⟨hfront.1, readsSets_of_compileSeq h fun _ => hfront.2⟩
    · split at h
      · rw [Option.map_eq_some_iff] at h
        obtain ⟨p', hp', -⟩ := h
        exact readsSets_concat.mp (readsSets_of_handOver? hp')
      · simp only [Option.bind_eq_some_iff, Option.map_eq_some_iff] at h
        obtain ⟨p, hp, p', hp', -⟩ := h
        exact List.forall_mem_cons.mpr ⟨readsSets_of_compile hp, readsSets_of_compileSeq hp' (by simp)⟩
termination_by (sizeOf es, 0)

/-- Branches that are compiled have classes that can be read. -/
theorem readsSets_of_compileBranches {refs : List Nat} {retried : Bool} {es : List Expr} {ps : List Pattern}
    (h : compileBranches refs retried es = some ps) : ∀ e ∈ es, e.ReadsSets := by
  match es with
  | [] => simp
  | e :: es =>
    simp only [compileBranches, Option.bind_eq_some_iff, Option.map_eq_some_iff] at h
    obtain ⟨p, hp, ps, hps, -⟩ := h
    exact List.forall_mem_cons.mpr ⟨readsSets_of_compile hp, readsSets_of_compileBranches hps⟩
termination_by (sizeOf es, 0)

/-- Branches of a look behind that are compiled have classes that can be read. -/
theorem readsSets_of_compileBehind {refs : List Nat} {negated : Bool} {es : List Expr} {ps : List Pattern}
    (h : compileBehind refs negated es = some ps) : ∀ e ∈ es, e.ReadsSets := by
  match es with
  | [] => simp
  | e :: es =>
    simp only [compileBehind, Option.bind_eq_some_iff, Option.map_eq_some_iff] at h
    obtain ⟨p, hp, p', -, ps, hps, -⟩ := h
    exact List.forall_mem_cons.mpr ⟨readsSets_of_compile hp, readsSets_of_compileBehind hps⟩
termination_by (sizeOf es, 0)

end

end Expr

end UrlFilter.Backtrack
