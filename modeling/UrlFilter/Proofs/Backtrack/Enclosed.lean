import UrlFilter.Proofs.Backtrack.Reading
import UrlFilter.Proofs.Backtrack.Renumbering

/-!
# Reading a pattern in a group

A pattern in a group of its own, read behind others: as long as no sign of it closes the group or asks for a
group of the others, it is read as it is alone, with higher numbers for its groups.
-/

namespace UrlFilter.Backtrack

/-- The number of a group behind `d` others. -/
def shift (d k : Nat) : Nat := if k = 0 then 0 else d + k

/-- The whole match keeps its number. -/
theorem shift_zero (d : Nat) : shift d 0 = 0 := rfl

/-- A group that is none of those in front comes behind them. -/
theorem shift_of_pos {d k : Nat} (h : 0 < k) : shift d k = d + k := if_neg (Nat.ne_of_gt h)

/-- Different groups get different numbers. -/
theorem shift_injective (d : Nat) : Function.Injective (shift d) := by
  intro j k h
  unfold shift at h
  split at h <;> split at h <;> omega

/-! ## What is read -/

namespace Expr

variable {f : Nat → Nat}

/-- Parts with other numbers make the branch with other numbers. -/
theorem rename_branchOf (parts : List Expr) :
    (branchOf parts).rename f = branchOf (parts.map (rename f)) := by
  have hfilter : (parts.map (rename f)).filter (!·.isEmpty) = (parts.filter (!·.isEmpty)).map (rename f) := by
    rw [List.filter_map]
    congr 2
    funext e
    simp
  rw [branchOf, branchOf, hfilter]
  generalize parts.filter (!·.isEmpty) = es
  match es with
  | [] => rfl
  | [e] => rfl
  | e :: e' :: es => simp only [List.map_cons, rename, renames, renames_eq_map]

end Expr

/-- The choice with other numbers for its groups. -/
def Choice.rename (f : Nat → Nat) (c : Choice) : Choice := ⟨c.branches.map (Expr.rename f), c.parts.map (Expr.rename f)⟩

/-- The open group with other numbers. -/
def Group.rename (f : Nat → Nat) : Group → Group
  | capture k => capture (f k)
  | branches c => branches (c.rename f)
  | g => g

/-- The open group and the choice around it, with other numbers. -/
def Frame.rename (f : Nat → Nat) (x : Frame) : Frame := ⟨x.group.rename f, x.outer.rename f⟩

/-- The groups opened in a choice. -/
def Choice.captures (c : Choice) : List Nat := Expr.capturesAll c.branches ++ Expr.capturesAll c.parts

/-- The group that is open, or those of the condition that has been read. -/
def Group.captures : Group → List Nat
  | capture k => [k]
  | branches c => c.captures
  | _ => []

/-- What has been read in front of a pattern, and the groups that are open around it. -/
structure Surroundings where
  groups : Nat
  names : List (Text × Nat)
  refs : List Nat
  frames : List Frame

namespace Reading

/-- The reading of a pattern in other surroundings. -/
def within (s : Reading) (c : Surroundings) : Reading :=
  { s with
    groups := c.groups + s.groups
    names := s.names.map (fun n => (n.1, shift c.groups n.2)) ++ c.names
    refs := s.refs.map (shift c.groups) ++ c.refs
    frames := s.frames.map (Frame.rename (shift c.groups)) ++ c.frames
    choice := s.choice.rename (shift c.groups) }

/-- The sign asks for no group, or for one to which the pattern itself has given a name. -/
def Owns (s : Reading) : Token → Prop
  | .reference _ => False
  | .namedReference name => ∃ n ∈ s.names, n.1 = name
  | .openCondition (.number _) => False
  | .openCondition (.name name) => ∃ n ∈ s.names, n.1 = name
  | _ => True

variable {c : Surroundings} {s s' : Reading}

/-- A part joins the same choice in other surroundings, with its groups behind those in front. -/
theorem part_within (e : Expr) : (s.part e).within c = (s.within c).part (e.rename (shift c.groups)) := rfl

/-- A group is entered in other surroundings as well, where these leave room for its depth. -/
theorem enter_within {g : Group} (h : s.enter g = some s')
    (hdepth : s'.frames.length + c.frames.length < maxDepth) :
    (s.within c).enter (g.rename (shift c.groups)) = some (s'.within c) := by
  simp only [enter, Option.ite_none_right_eq_some, Option.some.injEq] at h
  obtain ⟨-, rfl⟩ := h
  have hlength : (s.within c).frames.length + 1 < maxDepth := by
    simp only [within, List.length_append, List.length_map, List.length_cons] at hdepth ⊢
    omega
  rw [enter, if_pos hlength]
  rfl

/-- A name that was given leads to the number it was given for. -/
theorem groupOf_of_name {name : Text} (hname : ∃ n ∈ s.names, n.1 = name) :
    ∃ n ∈ s.names, s.names.find? (·.1 == name) = some n ∧ s.groupOf name = some n.2 := by
  obtain ⟨m, hm, rfl⟩ := hname
  cases hfind : s.names.find? (·.1 == m.1) with
  | none => exact absurd (List.find?_eq_none.mp hfind m hm) (by simp)
  | some n => exact ⟨n, List.mem_of_find?_eq_some hfind, rfl, by simp only [groupOf, hfind]⟩

/-- A name that the pattern gave leads to the same group in other surroundings. -/
theorem groupOf_within {name : Text} (hname : ∃ n ∈ s.names, n.1 = name) :
    ∃ k, s.groupOf name = some k ∧ (s.within c).groupOf name = some (shift c.groups k) := by
  obtain ⟨n, -, hfind, hgroup⟩ := groupOf_of_name hname
  have hfind' : (s.within c).names.find? (·.1 == name) = some (n.1, shift c.groups n.2) := by
    rw [within, List.find?_append, List.find?_map]
    simp only [Function.comp_def, hfind, Option.map_some, Option.some_or]
  exact ⟨n.2, hgroup, by simp only [groupOf, hfind']⟩

/-- A reference leads to the same group in other surroundings. -/
theorem refer_within {k : Nat} (h : s.refer k = some s') :
    (s.within c).refer (shift c.groups k) = some (s'.within c) := by
  simp only [refer, Option.ite_none_right_eq_some, Option.some.injEq] at h
  obtain ⟨hk, rfl⟩ := h
  have hle : shift c.groups k ≤ (s.within c).groups := by
    simp only [shift, within]
    split <;> omega
  rw [refer, if_pos hle]
  rfl

/-- What has been read is the same in other surroundings, up to the numbers of groups. -/
theorem finish_within (hnumbered : s.numbered = false) :
    (s.within c).finish = s.finish.map (Expr.rename (shift c.groups)) := by
  have hlast : branchOf (s.within c).choice.parts.reverse =
      (branchOf s.choice.parts.reverse).rename (shift c.groups) := by
    rw [Expr.rename_branchOf, List.map_reverse]
    rfl
  have hbranches : (s.within c).choice.branches = s.choice.branches.map (Expr.rename (shift c.groups)) := rfl
  have hsame : (s.within c).numbered = false := hnumbered
  simp only [finish, hlast, hbranches, hnumbered, hsame]
  cases s.choice.branches with
  | nil => rfl
  | cons b bs =>
    simp only [List.map_cons, Option.map_some, Expr.rename, Expr.renames_eq_map, List.map_reverse]

/-- A condition on an expression with other numbers has these numbers. -/
theorem rename_conditionOf {f : Nat → Nat} (e : Expr) :
    (conditionOf e).rename f = conditionOf (e.rename f) := by
  cases e <;> rfl

/-- An expression is a reference whatever its number. -/
theorem isReference_rename {f : Nat → Nat} (e : Expr) : isReference (e.rename f) = isReference e := by
  cases e <;> rfl

/-- What is read when a condition holds, and what is read when it does not. -/
def sidesOf : Expr → Expr × Expr
  | .alt [t, f] => (t, f)
  | .alt (t :: fs) => (t, .alt fs)
  | e => (e, .empty)

/-- A condition is made of its two sides, and of nothing more where both are empty. -/
theorem conditionalOf_eq (e body : Expr) :
    conditionalOf e body =
      if (sidesOf body).1.isEmpty && (sidesOf body).2.isEmpty then conditionOf e
      else .conditional (conditionOf e) (sidesOf body).1 (sidesOf body).2 := rfl

/-- The two sides of a body with other numbers have these numbers. -/
theorem sidesOf_rename {f : Nat → Nat} (body : Expr) :
    sidesOf (body.rename f) = ((sidesOf body).1.rename f, (sidesOf body).2.rename f) := by
  cases body with
  | alt es =>
    match es with
    | [] | [_] | [_, _] | _ :: _ :: _ :: _ => rfl
  | _ => rfl

/-- A condition with other numbers is made of an expression and a body with them. -/
theorem rename_conditionalOf {f : Nat → Nat} (e body : Expr) :
    (conditionalOf e body).rename f = conditionalOf (e.rename f) (body.rename f) := by
  rw [conditionalOf_eq, conditionalOf_eq, sidesOf_rename]
  simp only [Expr.isEmpty_rename, ← rename_conditionOf]
  split <;> rfl

/-- A group in other surroundings becomes what it becomes alone. -/
theorem closed?_within (e : Expr) (g : Group) :
    (s.within c).closed? (e.rename (shift c.groups)) (g.rename (shift c.groups)) =
      (s.closed? e g).map (Prod.map (Expr.rename (shift c.groups)) id) := by
  cases g with
  | branches e' =>
    have hnone : ((s.within c).choice.branches.isEmpty && (s.within c).choice.parts.isEmpty) =
        (s.choice.branches.isEmpty && s.choice.parts.isEmpty) := by
      simp only [within, Choice.rename, List.isEmpty_map]
    simp only [Group.rename, closed?, hnone, isReference_rename, ← rename_conditionOf, ← rename_conditionalOf]
    split
    · split <;> rfl
    · rfl
  | _ => rfl

/-- A group is left in other surroundings as it is alone. -/
theorem leave_within (hnumbered : s.numbered = false) (h : s.leave = some s') :
    (s.within c).leave = some (s'.within c) := by
  obtain ⟨e, g, outer, frames, he, hframes, h⟩ := leave_cases h
  have hfinish : (s.within c).finish = some (e.rename (shift c.groups)) := by
    rw [finish_within hnumbered, he]
    rfl
  have hframes' : (s.within c).frames = ⟨g.rename (shift c.groups), outer.rename (shift c.groups)⟩ ::
      (frames.map (Frame.rename (shift c.groups)) ++ c.frames) := by
    rw [within, hframes]
    rfl
  rcases h with ⟨e', modes, hclosed, rfl⟩ | ⟨rfl, rfl⟩
  · have hne : g.rename (shift c.groups) ≠ .condition := by
      cases g <;> simp_all [Group.rename, closed?]
    rw [leave_of_ne_condition hfinish hframes' hne, closed?_within, hclosed]
    rfl
  · exact leave_of_condition hfinish hframes'

/-- A part is repeated in other surroundings as it is alone. -/
theorem repeated_within {lo : Nat} {hi : Option Nat} {isLazy possessive : Bool}
    (h : s.repeated lo hi isLazy possessive = some s') :
    (s.within c).repeated lo hi isLazy possessive = some (s'.within c) := by
  cases hparts : s.choice.parts with
  | nil => simp [repeated, hparts] at h
  | cons e parts =>
    have hparts' : (s.within c).choice.parts =
        e.rename (shift c.groups) :: parts.map (Expr.rename (shift c.groups)) := by
      simp only [within, Choice.rename, hparts, List.map_cons]
    have hafter : (s.within c).afterAtom = s.afterAtom := rfl
    have hmodes : (s.within c).modes = s.modes := rfl
    simp only [repeated, hparts, Option.ite_none_right_eq_some, Option.some.injEq] at h
    obtain ⟨hcan, rfl⟩ := h
    simp only [repeated, hparts', hafter, hmodes, Expr.isRepeatable_rename, hcan, if_true]
    cases possessive <;> rfl

/-- A sign that asks for no group of others is read in other surroundings as it is alone. -/
theorem feed_within {token : Token} (hnumbered : s.numbered = false) (howns : s.Owns token)
    (h : s.feed token = some s') (hdepth : s'.frames.length + c.frames.length < maxDepth) :
    (s.within c).feed token = some (s'.within c) := by
  have hmodes : (s.within c).modes = s.modes := rfl
  -- Only names look at what stands around, and a name that the group has is found in it first.
  cases token with
  | literal _ _ | any | look _ | set _ _ | keepOut | searchStart | setModes _ =>
    simp only [feed, Option.some.injEq] at h
    exact h ▸ rfl
  | caret | dollar =>
    simp only [feed, Option.some.injEq] at h
    subst h
    simp only [feed, hmodes, part_within]
    split <;> rfl
  | reference k => exact howns.elim
  | namedReference name =>
    obtain ⟨k, hk, hk'⟩ := groupOf_within (c := c) howns
    simp only [feed, hk, Option.bind_some, Option.map_eq_some_iff] at h
    obtain ⟨s₁, h₁, rfl⟩ := h
    simp only [feed, hk', Option.bind_some, refer_within h₁, Option.map_some]
    rfl
  | openCapture name =>
    cases name with
    | none => exact enter_within h hdepth
    | some name => exact enter_within h hdepth
  | openAround k => exact enter_within h hdepth
  | openAtomic => exact enter_within h hdepth
  | openModes changes =>
    simp only [feed, Option.map_eq_some_iff] at h
    obtain ⟨s₁, h₁, rfl⟩ := h
    have henter : (s.within c).enter (.modes s.modes) = some (s₁.within c) := enter_within h₁ hdepth
    simp only [feed, hmodes, henter, Option.map_some]
    rfl
  | openCondition asked =>
    cases asked with
    | number k => exact howns.elim
    | name name =>
      obtain ⟨k, hk, hk'⟩ := groupOf_within (c := c) howns
      simp only [feed, hk, Option.bind_some, Option.bind_eq_some_iff] at h
      obtain ⟨s₁, h₁, h⟩ := h
      simp only [feed, hk', Option.bind_some, refer_within h₁]
      exact enter_within h hdepth
    | expression => exact enter_within h hdepth
  | close => exact leave_within hnumbered h
  | bar =>
    simp only [feed, Option.some.injEq] at h
    subst h
    simp only [feed, within, Choice.rename, List.map_cons, List.map_nil, Expr.rename_branchOf, List.map_reverse]
  | turns lo hi isLazy possessive => exact repeated_within h

/-! ## What a sign changes -/

/-- The groups that have been opened, in what is read and in what is still open. -/
def captures (s : Reading) : List Nat :=
  s.choice.captures ++ s.frames.flatMap fun x => x.group.captures ++ x.outer.captures

/-- What a sign that asks for no group of others may change: it opens groups with new numbers, and refers to
groups with a name. -/
structure Grows (s s' : Reading) : Prop where
  numbered : s'.numbered = s.numbered
  groups : s.groups ≤ s'.groups
  names : ∀ n ∈ s'.names, n ∈ s.names ∨ (s.groups < n.2 ∧ n.2 ≤ s'.groups)
  refs : ∀ k ∈ s'.refs, k ∈ s.refs ∨ ∃ n ∈ s.names, n.2 = k
  captures : ∀ k ∈ s'.captures, k ∈ s.captures ∨ (s.groups < k ∧ k ≤ s'.groups)

/-- Nothing changes where nothing is read. -/
theorem Grows.refl (s : Reading) : Grows s s :=
  ⟨rfl, Nat.le_refl _, fun _ h => Or.inl h, fun _ h => Or.inl h, fun _ h => Or.inl h⟩

/-- Nothing else changes but the choice that is read and the groups around it. -/
theorem Grows.of_captures {s₁ : Reading} (h : Grows s s₁) (hnumbered : s'.numbered = s₁.numbered)
    (hgroups : s'.groups = s₁.groups) (hnames : s'.names = s₁.names) (hrefs : s'.refs = s₁.refs)
    (hcaptures : s'.captures ⊆ s₁.captures) : Grows s s' where
  numbered := hnumbered.trans h.numbered
  groups := hgroups ▸ h.groups
  names n hn := hgroups ▸ h.names n (hnames ▸ hn)
  refs k hk := h.refs k (hrefs ▸ hk)
  captures k hk := hgroups ▸ h.captures k (hcaptures hk)

/-- A branch opens no group that its parts do not open. -/
theorem captures_branchOf (parts : List Expr) : (branchOf parts).captures ⊆ Expr.capturesAll parts := by
  intro k hk
  have hparts : k ∈ Expr.capturesAll (parts.filter (!·.isEmpty)) := by
    rw [branchOf] at hk
    generalize parts.filter (!·.isEmpty) = es at hk ⊢
    match es with
    | [] => simp [Expr.captures] at hk
    | [e] => simpa [Expr.capturesAll] using hk
    | e :: e' :: es => exact hk
  obtain ⟨e, he, hk⟩ := Expr.mem_capturesAll.mp hparts
  exact Expr.mem_capturesAll.mpr ⟨e, (List.mem_filter.mp he).1, hk⟩

/-- A branch that is read opens no group that its choice does not open. -/
theorem captures_branch (c : Choice) : (branchOf c.parts.reverse).captures ⊆ c.captures := by
  intro k hk
  obtain ⟨e, he, hk⟩ := Expr.mem_capturesAll.mp (captures_branchOf _ hk)
  exact List.mem_append_right _ (Expr.mem_capturesAll.mpr ⟨e, List.mem_reverse.mp he, hk⟩)

/-- What has been read opens no group that its choice does not open. -/
theorem captures_finish {e : Expr} (h : s.finish = some e) : e.captures ⊆ s.choice.captures := by
  intro k hk
  cases hbranches : s.choice.branches with
  | nil =>
    simp only [finish, hbranches, Option.ite_none_left_eq_some, Option.some.injEq] at h
    exact captures_branch _ (h.2 ▸ hk)
  | cons b bs =>
    simp only [finish, hbranches, Option.some.injEq] at h
    rw [← h, Expr.captures, Expr.mem_capturesAll] at hk
    obtain ⟨e, he, hk⟩ := hk
    rcases List.mem_cons.mp (List.mem_reverse.mp he) with rfl | he
    · exact captures_branch _ hk
    · exact List.mem_append_left _ (Expr.mem_capturesAll.mpr ⟨e, hbranches ▸ he, hk⟩)

/-- A condition on an expression opens no further group. -/
theorem captures_conditionOf (e : Expr) : (conditionOf e).captures ⊆ e.captures := by
  cases e <;> simp [conditionOf, Expr.captures]

/-- The two sides of a body open no further group. -/
theorem captures_sidesOf (body : Expr) :
    (sidesOf body).1.captures ++ (sidesOf body).2.captures ⊆ body.captures := by
  cases body with
  | alt es =>
    match es with
    | [] | [_] | [_, _] | _ :: _ :: _ :: _ => simp [sidesOf, Expr.captures, Expr.capturesAll]
  | _ => simp [sidesOf, Expr.captures]

/-- A condition and its body open no further group. -/
theorem captures_conditionalOf (e body : Expr) :
    (conditionalOf e body).captures ⊆ e.captures ++ body.captures := by
  intro k hk
  rw [conditionalOf_eq] at hk
  split at hk
  · exact List.mem_append_left _ (captures_conditionOf e hk)
  · rcases List.mem_append.mp hk with hk | hk
    · exact List.mem_append_left _ (captures_conditionOf e hk)
    · exact List.mem_append_right _ (captures_sidesOf body hk)

/-- A part brings its own groups. -/
theorem captures_part (s : Reading) (e : Expr) : (s.part e).captures ⊆ e.captures ++ s.captures := by
  intro k hk
  simp only [captures, part, Choice.captures, Expr.capturesAll, List.mem_append] at hk ⊢
  tauto

/-- A group that is entered brings its own number. -/
theorem captures_enter {g : Group} (h : s.enter g = some s') : s'.captures ⊆ g.captures ++ s.captures := by
  simp only [enter, Option.ite_none_right_eq_some, Option.some.injEq] at h
  obtain ⟨-, rfl⟩ := h
  intro k hk
  simp only [captures, Choice.captures, Expr.capturesAll, List.flatMap_cons, List.mem_append] at hk ⊢
  simp only [List.not_mem_nil, false_or] at hk
  tauto

/-- What a group becomes opens the groups that it has opened, and itself. -/
theorem captures_closed? {e e' : Expr} {g : Group} {modes : Modes} (h : s.closed? e g = some (e', modes)) :
    e'.captures ⊆ g.captures ++ e.captures := by
  cases g with
  | condition => cases h
  | branches c =>
    simp only [closed?] at h
    split at h
    · simp only [Option.ite_none_right_eq_some, Option.some.injEq, Prod.mk.injEq] at h
      exact h.2.1 ▸ List.Subset.trans (captures_conditionOf c) (List.subset_append_left _ _)
    · cases h
      exact captures_conditionalOf c e
  | _ =>
    cases h
    exact List.Subset.refl _

/-- Leaving a group opens none and refers to none. -/
theorem grows_leave (h : s.leave = some s') : Grows s s' := by
  obtain ⟨e, g, outer, frames, he, hframes, h⟩ := leave_cases h
  have hfinish := captures_finish he
  rcases h with ⟨e', modes, hclosed, rfl⟩ | ⟨rfl, rfl⟩
  · refine (Grows.refl s).of_captures rfl rfl rfl rfl fun k hk => ?_
    have hgroup := @captures_closed? _ _ _ _ _ hclosed k
    have hchoice := @hfinish k
    have := captures_part _ _ hk
    simp only [captures, hframes, List.flatMap_cons, List.mem_append] at this hgroup ⊢
    tauto
  · refine (Grows.refl s).of_captures rfl rfl rfl rfl fun k hk => ?_
    have hchoice := @hfinish k
    simp only [captures, hframes, Choice.captures, Expr.capturesAll, Group.captures, List.flatMap_cons,
      List.nil_append, List.mem_append] at hk hchoice ⊢
    tauto

/-- A repetition opens no group and refers to none. -/
theorem grows_repeated {lo : Nat} {hi : Option Nat} {isLazy possessive : Bool}
    (h : s.repeated lo hi isLazy possessive = some s') : Grows s s' := by
  cases hparts : s.choice.parts with
  | nil => simp [repeated, hparts] at h
  | cons e parts =>
    simp only [repeated, hparts, Option.ite_none_right_eq_some, Option.some.injEq] at h
    obtain ⟨-, rfl⟩ := h
    refine (Grows.refl s).of_captures rfl rfl rfl rfl fun k hk => ?_
    simp only [captures, Choice.captures, hparts] at hk ⊢
    cases possessive <;> exact hk

/-- Entering a group without a number leaves what may change as it was. -/
theorem Grows.enter {s₁ : Reading} (h : Grows s s₁) {g : Group} (henter : s₁.enter g = some s')
    (hg : g.captures = []) : Grows s s' := by
  have hcaptures := captures_enter henter
  rw [hg, List.nil_append] at hcaptures
  simp only [Reading.enter, Option.ite_none_right_eq_some, Option.some.injEq] at henter
  obtain ⟨-, rfl⟩ := henter
  exact h.of_captures rfl rfl rfl rfl hcaptures

/-- A part without groups leaves what may change as it was. -/
theorem Grows.part {s₁ : Reading} (h : Grows s s₁) {e : Expr} (he : e.captures = []) :
    Grows s (s₁.part e) := by
  have hcaptures := captures_part s₁ e
  rw [he, List.nil_append] at hcaptures
  exact h.of_captures rfl rfl rfl rfl hcaptures

/-- A reference by a name that was given refers to the group of that name. -/
theorem grows_refer {name : Text} (hname : ∃ n ∈ s.names, n.1 = name) {k : Nat}
    (hk : s.groupOf name = some k) (h : s.refer k = some s') : Grows s s' := by
  obtain ⟨n, hn, -, hgroup⟩ := groupOf_of_name hname
  simp only [refer, Option.ite_none_right_eq_some, Option.some.injEq] at h
  obtain ⟨-, rfl⟩ := h
  refine ⟨rfl, Nat.le_refl _, fun _ h => Or.inl h, fun j hj => ?_, fun _ h => Or.inl h⟩
  rcases List.mem_cons.mp hj with rfl | hj
  · exact Or.inr ⟨n, hn, Option.some.inj (hgroup.symm.trans hk)⟩
  · exact Or.inl hj

/-- What a sign may change. -/
theorem grows_feed {token : Token} (howns : s.Owns token) (h : s.feed token = some s') : Grows s s' := by
  cases token with
  | literal _ _ | any | look _ | set _ _ | keepOut | searchStart | caret | dollar =>
    simp only [feed, Option.some.injEq] at h
    exact h ▸ (Grows.refl s).part rfl
  | setModes changes =>
    simp only [feed, Option.some.injEq] at h
    have hmodes : Grows s { s with modes := changes.foldl Modes.change s.modes } :=
      (Grows.refl s).of_captures rfl rfl rfl rfl (List.Subset.refl _)
    exact h ▸ hmodes.part (e := .empty) rfl
  | reference k => exact howns.elim
  | namedReference name =>
    simp only [feed, Option.bind_eq_some_iff, Option.map_eq_some_iff] at h
    obtain ⟨k, hk, s₁, h₁, rfl⟩ := h
    exact (grows_refer howns hk h₁).part rfl
  | openCapture name =>
    have hcaptures := captures_enter h
    simp only [feed, enter, Option.ite_none_right_eq_some, Option.some.injEq] at h
    obtain ⟨-, rfl⟩ := h
    refine ⟨rfl, Nat.le_succ _, fun n hn => ?_, fun _ hk => Or.inl hk, fun k hk => ?_⟩
    · cases name with
      | none => exact Or.inl hn
      | some name =>
        rcases List.mem_cons.mp hn with rfl | hn
        · exact Or.inr ⟨Nat.lt_succ_self _, Nat.le_refl _⟩
        · exact Or.inl hn
    · rcases List.mem_cons.mp (hcaptures hk) with rfl | hk
      · exact Or.inr ⟨Nat.lt_succ_self _, Nat.le_refl _⟩
      · exact Or.inl hk
  | openAround k => exact (Grows.refl s).enter h rfl
  | openAtomic => exact (Grows.refl s).enter h rfl
  | openModes changes =>
    simp only [feed, Option.map_eq_some_iff] at h
    obtain ⟨s₁, h₁, rfl⟩ := h
    exact ((Grows.refl s).enter h₁ rfl).of_captures rfl rfl rfl rfl (List.Subset.refl _)
  | openCondition asked =>
    cases asked with
    | number k => exact howns.elim
    | name name =>
      simp only [feed, Option.bind_eq_some_iff] at h
      obtain ⟨k, hk, s₁, h₁, h⟩ := h
      exact (grows_refer howns hk h₁).enter h rfl
    | expression => exact (Grows.refl s).enter h rfl
  | close => exact grows_leave h
  | bar =>
    simp only [feed, Option.some.injEq] at h
    subst h
    refine (Grows.refl s).of_captures rfl rfl rfl rfl fun k hk => ?_
    simp only [captures, Choice.captures, Expr.capturesAll, List.mem_append, List.not_mem_nil,
      or_false] at hk ⊢
    have := @captures_branch s.choice k
    simp only [Choice.captures, List.mem_append] at this
    tauto
  | turns lo hi isLazy possessive => exact grows_repeated h

/-! ## Reading on in a group -/

/-- Reading on from a state and a text, inside of a group that is in another, comes to another state and the
rest of the text. No sign asks for a group of others, and each takes some of the text. -/
inductive Inside (size : Nat) : Reading → Text → Reading → Text → Prop where
  | refl (s : Reading) (t : Text) : Inside size s t s t
  | step {s s₁ s' : Reading} {t t₁ u v : Text} {token : Token}
    (skipped : skip s.modes.spaced t = some t₁)
    (next : Token.next s.modes.spaced s.afterAtom size t₁ = some (token, u)) (owns : s.Owns token)
    (feed : s.feed token = some s₁) (depth : s₁.frames.length + 2 < maxDepth)
    (shorter : u.length < t.length) (rest : Inside size s₁ u s' v) : Inside size s t s' v

/-- What is read alone is read in other surroundings in the same way, where two groups at most are open around it. -/
theorem Inside.leads {size : Nat} {t u : Text} (h : Inside size s t s' u) (hnumbered : s.numbered = false)
    (hframes : c.frames.length ≤ 2) : (s.within c).Leads size t (s'.within c) u ∧ s'.numbered = false := by
  induction h with
  | refl s t => exact ⟨.refl _ _, hnumbered⟩
  | step hskip hnext howns hfeed hdepth hlength _ ih =>
    have hfirst := feed_within (c := c) hnumbered howns hfeed (by omega)
    obtain ⟨hrest, hnumbered'⟩ := ih ((grows_feed howns hfeed).numbered.trans hnumbered)
    exact ⟨.trans (.step _ hskip hnext hfirst hlength) hrest, hnumbered'⟩

/-- The numbers of groups that occur are those of groups that have been opened. -/
structure Counts (s : Reading) : Prop where
  names : ∀ n ∈ s.names, 0 < n.2 ∧ n.2 ≤ s.groups
  refs : ∀ k ∈ s.refs, 0 < k ∧ k ≤ s.groups
  captures : ∀ k ∈ s.captures, 0 < k ∧ k ≤ s.groups

/-- The numbers of groups stay within those that have been opened. -/
theorem Grows.counts (h : Grows s s') (hs : s.Counts) : s'.Counts := by
  have hgroups := h.groups
  refine ⟨fun n hn => ?_, fun k hk => ?_, fun k hk => ?_⟩
  · rcases h.names n hn with hn | hn
    · have := hs.names n hn
      omega
    · omega
  · rcases h.refs k hk with hk | ⟨n, hn, rfl⟩
    · have := hs.refs k hk
      omega
    · have := hs.names n hn
      omega
  · rcases h.captures k hk with hk | hk
    · have := hs.captures k hk
      omega
    · omega

/-- Reading on keeps the numbers of groups within those that have been opened. -/
theorem Inside.counts {size : Nat} {t u : Text} (h : Inside size s t s' u) (hs : s.Counts) : s'.Counts := by
  induction h with
  | refl s t => exact hs
  | step _ _ howns hfeed _ _ _ ih => exact ih ((grows_feed howns hfeed).counts hs)

end Reading

end UrlFilter.Backtrack
