import UrlFilter.Policy
import UrlFilter.Proofs.Regex.Separate
import UrlFilter.Proofs.Regex.Signs

/-!
# Entries of a group

Texts joined by bars are the branches of one group, without parentheses of their own. A text that leaves the modes
as it found them is read there as it is alone, behind the branches of the texts in front of it. So the group
matches as one of the texts does alone, and none of them is deeper or larger than the group.
-/

namespace UrlFilter.Regex

open Reading (Leads Inside)

/-! ## Reading behind finished branches -/

/-- The choice with finished branches in front of its own. -/
def Choice.behind (c : Choice) (bs : List (Regex × Nat)) : Choice := { c with branches := c.branches ++ bs }

/-- The open groups, the outermost of them opened behind finished branches. -/
def framesBehind (bs : List (Regex × Nat)) : List Frame → List Frame
  | [] => []
  | [f] => [{ f with outer := f.outer.behind bs }]
  | f :: fs => f :: framesBehind bs fs

namespace Reading

/-- The reading with finished branches in front of its outermost choice. -/
def behind (s : Reading) (bs : List (Regex × Nat)) : Reading :=
  match s.frames with
  | [] => { s with choice := s.choice.behind bs }
  | fs => { s with frames := framesBehind bs fs }

variable {s s' : Reading}

/-- A class joins the choice behind other branches. -/
theorem cls_behind (bs : List (Regex × Nat)) (k : Option CharClass) :
    (s.behind bs).cls k = (s.cls k).map (·.behind bs) := by
  obtain ⟨m, names, frames, choice⟩ := s
  cases frames <;> simp only [cls, behind, Option.map_map] <;> rfl

/-- Branches in front change no modes. -/
@[simp] theorem behind_modes (bs : List (Regex × Nat)) : (s.behind bs).modes = s.modes := by
  obtain ⟨m, names, frames, choice⟩ := s
  cases frames <;> rfl

/-- Branches in front change no names. -/
@[simp] theorem behind_names (bs : List (Regex × Nat)) : (s.behind bs).names = s.names := by
  obtain ⟨m, names, frames, choice⟩ := s
  cases frames <;> rfl

/-- A sign stands behind finished branches when it stands without them. -/
theorem feed_behind (bs : List (Regex × Nat)) (token : Token) :
    (s.behind bs).feed token = (s.feed token).map (·.behind bs) := by
  -- Whether groups are open tells in which choice the branches stand; no sign but the closing one changes that.
  obtain ⟨m, names, frames, choice⟩ := s
  cases token with
  | char _ | caret | dollar | look _ | setModes _ | bar => cases frames <;> rfl
  | any => cases frames <;> exact cls_behind bs _
  | shorthand _ _ => cases frames <;> exact cls_behind bs _
  | bracket e => cases frames <;> exact cls_behind bs _
  | property k negated =>
    simp only [feed, behind_modes]
    split
    · exact cls_behind bs _
    · rfl
  | openModes changes => cases frames <;> rfl
  | openCapture name =>
    cases name with
    | none => cases frames <;> rfl
    | some name =>
      by_cases hmem : name ∈ names
      · rw [feed_name_of_mem (by simpa using hmem), feed_name_of_mem hmem]
        rfl
      · rw [feed_name_of_notMem (by simpa using hmem), feed_name_of_notMem hmem]
        cases frames <;> rfl
  | close =>
    cases frames with
    | nil => rfl
    | cons f frames => cases frames <;> rfl
  | turns lo hi greedy =>
    obtain ⟨branches, parts⟩ := choice
    cases frames <;> (simp only [feed, behind, Choice.behind]; split <;> rfl)

/-- What is read is read in the same way behind other branches. -/
theorem Inside.behind (bs : List (Regex × Nat)) {t u : Text} (h : Inside s t s' u) :
    Inside (s.behind bs) t (s'.behind bs) u := by
  induction h with
  | refl s t => exact .refl _ t
  | step hskip hnext hfeed hshorter _ ih =>
    have hfeed' := (feed_behind bs _).trans (congrArg _ hfeed)
    exact .step (by rw [behind_modes, hskip]) (by rw [behind_modes, hnext]) hfeed' hshorter ih

/-! ## Reading an entry -/

/-- What reads a text to its end goes on behind it in front of the end of a branch, unless a comment is open. -/
theorem Inside.of_run {n : Nat} {t u : Text} (h : run n s t = some s') (hspaced : s'.modes.spaced = false)
    (hu : EndsBranch u) : Inside s (t ++ u) s' u := by
  -- By induction on the steps of the run.
  induction n generalizing s t with
  | zero => simp [run] at h
  | succ n ih =>
    cases hskip : skip s.modes.spaced t with
    | nil =>
      obtain rfl : s = s' := by simpa [run, hskip] using h
      rw [hspaced] at hskip
      obtain rfl : t = [] := hskip
      exact .refl s u
    | cons c rest =>
      simp only [run, hskip] at h
      obtain ⟨⟨token, behind⟩, hnext, h⟩ := Option.bind_eq_some_iff.mp h
      obtain ⟨s₁, hfeed, hrun⟩ := Option.bind_eq_some_iff.mp h
      obtain ⟨hlength, hread⟩ := Token.next_append hnext
      have hlength' : (behind ++ u).length < (t ++ u).length := by
        have := length_skip s.modes.spaced t
        simp only [hskip, List.length_append] at this ⊢
        omega
      rcases hread with hread | ⟨hcomment, hend, htoken⟩
      · refine .step (skip_append hskip u) (hread u hu) hfeed hlength' (ih hrun)
      · -- A comment to the end of the text keeps spacing on to the end.
        have hmodes : s₁.modes = s.modes := by
          rcases htoken with ⟨lo, hi, greedy, rfl⟩ | rfl
          · simp only [feed] at hfeed
            split at hfeed
            · rw [← Option.some.inj hfeed]
            · simp at hfeed
          · rw [← Option.some.inj hfeed]
            rfl
        have hlast : s₁ = s' := by
          subst hend
          cases n with
          | zero => simp [run] at hrun
          | succ n => simpa [run, skip_nil] using hrun
        rw [← hlast, hmodes, hcomment] at hspaced
        simp at hspaced

end Reading

/-- What is read of a text that closes each of its groups. -/
def whole? (m : Modes) (t : Text) : Option Reading :=
  (Reading.run (t.length + 1) { modes := m } t).filter (·.frames.isEmpty)

/-- The text is read to its end in these modes, and leaves them as it found them. -/
def Keeps (m : Modes) (t : Text) : Prop := (whole? m t).map Reading.modes = some m

/-- Whether a text keeps modes is decided by reading it. -/
instance (m : Modes) (t : Text) : Decidable (Keeps m t) := inferInstanceAs (Decidable (_ = _))

/-- A text is parsed when it is read as a whole and is not too deep. -/
theorem parse?_eq (m : Modes) (t : Text) : parse? m t = (whole? m t).bind fun s =>
    if s.choice.finish.2 ≤ maxDepth then some s.choice.finish.1 else none := by
  unfold parse? whole?
  cases hrun : Reading.run (t.length + 1) { modes := m } t with
  | none => rfl
  | some s =>
    cases hframes : s.frames <;> simp [hframes, Option.filter]

/-- What a text is read as that closes each of its groups. -/
def readingOf (m : Modes) (t : Text) : Reading := (whole? m t).getD { modes := m }

namespace Keeps

variable {m : Modes} {t : Text}

/-- A text that keeps modes is read as a whole. -/
theorem whole?_eq (h : Keeps m t) : whole? m t = some (readingOf m t) := by
  obtain ⟨s, hs, -⟩ := Option.map_eq_some_iff.mp h
  rw [readingOf, hs, Option.getD_some]

/-- A text that keeps modes leaves them as they were. -/
theorem modes (h : Keeps m t) : (readingOf m t).modes = m := by
  obtain ⟨s, hs, hm⟩ := Option.map_eq_some_iff.mp h
  rwa [readingOf, hs, Option.getD_some]

/-- A text that keeps modes leaves no group open. -/
theorem frames (h : Keeps m t) : (readingOf m t).frames = [] :=
  List.isEmpty_iff.mp (Option.filter_eq_some_iff.mp h.whole?_eq).2

end Keeps

/-! ## Reading entries joined by bars -/

/-- One sign is read where spacing counts. -/
theorem Reading.Leads.sign {s s' : Reading} {t u : Text} {token : Token} (hspaced : s.modes.spaced = false)
    (hnext : Token.next false t = some (token, u)) (hfeed : s.feed token = some s')
    (hlength : u.length < t.length) : s.Leads t s' u :=
  .step (by rw [hspaced]) (by rwa [hspaced]) hfeed hlength

/-- The branches of a choice, the current one last. -/
def Choice.all (c : Choice) : List (Regex × Nat) := (c.branch :: c.branches).reverse

/-- All branches of a choice behind others are these and its own. -/
theorem Choice.all_behind (c : Choice) (bs : List (Regex × Nat)) : (c.behind bs).all = bs.reverse ++ c.all := by
  have hbranch : (c.behind bs).branch = c.branch := rfl
  have hbranches : (c.behind bs).branches = c.branches ++ bs := rfl
  simp [Choice.all, hbranch, hbranches]

/-- The branches of some choices make a choice. -/
theorem Choice.exists_all_eq {cs : List Choice} (hne : cs ≠ []) : ∃ c : Choice, c.all = cs.flatMap Choice.all := by
  obtain ⟨front, last, rfl⟩ := (List.eq_nil_or_concat' cs).resolve_left hne
  exact ⟨last.behind (front.flatMap Choice.all).reverse, by simp [Choice.all_behind]⟩

section
variable {m : Modes} (hspaced : m.spaced = false) (names : List Text) (frames : List Frame)
include hspaced

/-- An entry in a group: it is read as it is alone, unless it names a group as one in front of it does. -/
theorem leads_entry {e : Text} (h : Keeps m e) (bs : List (Regex × Nat)) (u : Text) (hu : EndsBranch u) :
    (⟨m, names, frames, ⟨bs, []⟩⟩ : Reading).Leads (e ++ u)
          ⟨m, (readingOf m e).names ++ names, frames, (readingOf m e).choice.behind bs⟩ u ∧
        (readingOf m e).names.Disjoint names ∨
      (⟨m, names, frames, ⟨bs, []⟩⟩ : Reading).Fails (e ++ u) ∧ ¬(readingOf m e).names.Disjoint names := by
  -- The entry is read behind the branches and in the group, in this order: the branches are the group's.
  have hrun := (Option.filter_eq_some_iff.mp h.whole?_eq).1
  have hspaced' : (readingOf m e).modes.spaced = false := by rw [h.modes, hspaced]
  have hinside := (Inside.of_run hrun hspaced' hu).behind bs
  have hend (s : Reading) (hmodes : s.modes = m) (hframes : s.frames = []) :
      (s.behind bs).within ⟨names, frames⟩ = ⟨m, s.names ++ names, frames, s.choice.behind bs⟩ := by
    obtain ⟨m', names', frames', choice⟩ := s
    obtain rfl : m' = m := hmodes
    obtain rfl : frames' = [] := hframes
    rfl
  by_cases hdisjoint : (readingOf m e).names.Disjoint names
  · refine .inl ⟨?_, hdisjoint⟩
    rcases hinside.leads (c := ⟨names, frames⟩) with hleads | ⟨-, n, hn, hmem⟩
    · rwa [hend _ h.modes h.frames] at hleads
    · rw [Reading.behind_names] at hn
      exact absurd hmem (hdisjoint hn)
  · refine .inr ⟨?_, hdisjoint⟩
    obtain ⟨n, hn, hmem⟩ : ∃ n ∈ (readingOf m e).names, n ∈ names := by
      simpa [List.Disjoint] using hdisjoint
    exact hinside.fails (c := ⟨names, frames⟩) (by rwa [Reading.behind_names]) (by simp) hmem

/-- No two of the texts give one name to groups. -/
def Apart (m : Modes) (es : List Text) : Prop :=
  es.Pairwise fun e e' => (readingOf m e).names.Disjoint (readingOf m e').names

/-- Entries joined by bars are read as the branches of all of them, unless they give one name twice. -/
theorem leads_entries {es : List Text} (h : ∀ e ∈ es, Keeps m e) (hne : es ≠ []) (bs : List (Regex × Nat))
    (u : Text) :
    (∃ names' choice, (⟨m, names, frames, ⟨bs, []⟩⟩ : Reading).Leads (Text.join ['|'] es ++ ')' :: u)
          ⟨m, names', frames, choice⟩ (')' :: u) ∧
        choice.all = bs.reverse ++ es.flatMap (fun e => (readingOf m e).choice.all) ∧
        Apart m es ∧ ∀ e ∈ es, (readingOf m e).names.Disjoint names) ∨
      (⟨m, names, frames, ⟨bs, []⟩⟩ : Reading).Fails (Text.join ['|'] es ++ ')' :: u) ∧
        ¬(Apart m es ∧ ∀ e ∈ es, (readingOf m e).names.Disjoint names) := by
  -- By induction on the entries: the branches of each one stay in front of those behind it.
  induction es generalizing names bs with
  | nil => exact absurd rfl hne
  | cons e es ih =>
    have hentry := leads_entry hspaced names frames (h e (List.mem_cons_self ..)) bs
    cases es with
    | nil =>
      rcases hentry _ ⟨u, .inr rfl⟩ with ⟨hleads, hdisjoint⟩ | ⟨hfails, hclash⟩
      · exact .inl ⟨_, _, hleads, by simp [Choice.all_behind], List.pairwise_singleton _ _, by simpa using hdisjoint⟩
      · exact .inr ⟨hfails, fun hall => hclash (hall.2 e (List.mem_cons_self ..))⟩
    | cons e' es =>
      have htext : Text.join ['|'] (e :: e' :: es) ++ ')' :: u =
          e ++ '|' :: (Text.join ['|'] (e' :: es) ++ ')' :: u) := by
        simp [Text.join]
      rw [htext]
      rcases hentry _ ⟨Text.join ['|'] (e' :: es) ++ ')' :: u, .inl rfl⟩ with ⟨hleads, hdisjoint⟩ | ⟨hfails, hclash⟩
      · let names' := (readingOf m e).names ++ names
        have hbar : (⟨m, names', frames, (readingOf m e).choice.behind bs⟩ : Reading).Leads
            ('|' :: (Text.join ['|'] (e' :: es) ++ ')' :: u))
            ⟨m, names', frames, ⟨((readingOf m e).choice.behind bs).all.reverse, []⟩⟩
            (Text.join ['|'] (e' :: es) ++ ')' :: u) := by
          refine .sign hspaced rfl ?_ (by simp)
          simp only [Reading.feed, Choice.all, List.reverse_reverse]
        have hfirst := hleads.trans hbar
        have hapart : (Apart m (e :: e' :: es) ∧ ∀ e'' ∈ e :: e' :: es, (readingOf m e'').names.Disjoint names) ↔
            Apart m (e' :: es) ∧ ∀ e'' ∈ e' :: es, (readingOf m e'').names.Disjoint names' := by
          simp only [Apart, names', List.disjoint_append_right, List.pairwise_cons (a := e),
            List.forall_mem_cons (a := e), forall_and, hdisjoint, true_and]
          grind [List.disjoint_comm]
        rw [hapart]
        rcases ih names' (fun e'' he'' => h e'' (List.mem_cons_of_mem e he'')) (List.cons_ne_nil e' es) _ with
          ⟨names'', choice, hrest, hchoice, hrestApart⟩ | ⟨hfails, hclash⟩
        · refine .inl ⟨names'', choice, hfirst.trans hrest, ?_, hrestApart⟩
          simp [hchoice, Choice.all_behind]
        · exact .inr ⟨hfirst.fails hfails, hclash⟩
      · exact .inr ⟨hfails, fun hall => hclash (hall.2 e (List.mem_cons_self ..))⟩

/-- What a group adds to the branch around it. -/
def Choice.group (c : Choice) : Part := .node c.finish.1 (c.finish.2 + 1)

/-- The opening of a choice leads into a group in front of its first entry. -/
theorem leads_choiceStart (c : Choice) (es : List Text) (u : Text) :
    (⟨m, names, frames, c⟩ : Reading).Leads (Policy.choice es ++ u) ⟨m, names, ⟨m, c⟩ :: frames, {}⟩
      (Text.join ['|'] es ++ ')' :: u) := by
  have htext : Policy.choice es ++ u = '(' :: '?' :: ':' :: (Text.join ['|'] es ++ ')' :: u) := by
    simp [Policy.choice]
  rw [htext]
  exact .sign hspaced rfl rfl (by simp; omega)

/-- The closing of a choice makes its group a part of what is around it. -/
theorem leads_choiceEnd (c choice : Choice) (u : Text) :
    (⟨m, names, ⟨m, c⟩ :: frames, choice⟩ : Reading).Leads (')' :: u) ⟨m, names, frames, c.push choice.group⟩ u :=
  .sign hspaced rfl rfl (by simp)

end

/-! ## What a group of entries matches -/

/-- A choice that has been read ends where one of its branches does. -/
theorem Choice.mem_ends_finish {c : Choice} {p q : Cursor} :
    q ∈ ends c.finish.1 p ↔ ∃ b ∈ c.all, q ∈ ends b.1 p := by
  rw [Choice.finish_fst, mem_ends_altAll]
  simp only [List.mem_map, exists_exists_and_eq_and]
  rfl

/-- The depth of a choice is that of its deepest branch, and one more when there are several. -/
theorem Choice.finish_snd (c : Choice) :
    c.finish.2 = (c.all.map Prod.snd).foldl max 0 + (if c.branches = [] then 0 else 1) := by
  cases hbranches : c.branches <;> simp [Choice.finish, Choice.all, hbranches]

/-- A choice whose branches are among those of another is neither deeper nor larger. -/
theorem Choice.finish_le {c d : Choice} (h : c.all.Subperm d.all) :
    c.finish.2 ≤ d.finish.2 ∧ c.finish.1.size ≤ d.finish.1.size := by
  constructor
  · have hmax : (c.all.map Prod.snd).foldl max 0 ≤ (d.all.map Prod.snd).foldl max 0 := by
      refine foldl_max_le.mpr ⟨Nat.zero_le _, fun e he => ?_⟩
      exact (foldl_max_le.mp (Nat.le_refl _)).2 e (List.map_subset _ h.subset he)
    have hone : (if c.branches = [] then 0 else 1) ≤ (if d.branches = [] then 0 else 1) := by
      have hlength := h.length_le
      simp only [Choice.all, List.length_reverse, List.length_cons] at hlength
      cases hc : c.branches <;> cases hd : d.branches <;> simp_all
    rw [Choice.finish_snd, Choice.finish_snd]
    omega
  · have hsize (c : Choice) : 32 + c.finish.1.size = (c.all.map fun b => 32 + b.1.size).sum := by
      rw [Choice.finish_fst, size_altAll_add (by simp), List.map_map]
      rfl
    obtain ⟨bs, hperm, hsub⟩ := h
    have hsum := (hsub.map fun b => 32 + b.1.size).sum_le_sum fun _ _ => Nat.zero_le _
    have hsame := (hperm.map fun b => 32 + b.1.size).sum_eq
    have := hsize c
    have := hsize d
    omega

/-- The branches make the choice. -/
theorem Choice.finish_congr {c d : Choice} (h : c.all = d.all) : c.finish = d.finish := by
  have hfst : c.finish.1 = d.finish.1 := by
    rw [Choice.finish_fst, Choice.finish_fst]
    exact congrArg (fun bs => altAll (bs.map Prod.fst)) h
  have hle := (Choice.finish_le (h ▸ List.Subperm.refl c.all : c.all.Subperm d.all)).1
  have hge := (Choice.finish_le (h ▸ List.Subperm.refl c.all : d.all.Subperm c.all)).1
  exact Prod.ext hfst (Nat.le_antisymm hle hge)

/-- The pattern of a group between other parts of a branch. -/
def Choice.framed (c : Choice) (front behind : List Part) : Regex × Nat :=
  (Choice.mk [] (behind ++ c.group :: front)).finish

/-- A framed choice is a sequence of what is in front, the choice and what is behind. -/
theorem Choice.framed_fst (c : Choice) (front behind : List Part) : (c.framed front behind).1 =
    seqAll (front.reverse.filterMap Part.regex? ++ c.finish.1 :: behind.reverse.filterMap Part.regex?) := by
  simp [Choice.framed, Choice.finish, Choice.branch, Choice.group, Part.regex?]

/-- The deepest of the parts, and one more where there are others. -/
theorem Choice.framed_snd (c : Choice) (front behind : List Part) : (c.framed front behind).2 =
    ((behind ++ c.group :: front).reverse.map Part.depth).foldl max 0 +
      (if (behind ++ front).isEmpty then 0 else 1) := by
  have hframed : (c.framed front behind).2 = (Choice.mk [] (behind ++ c.group :: front)).branch.2 := rfl
  cases behind <;> cases front <;> simp [hframed, Choice.branch]
  omega

/-- Framed choices with the same branches are the same. -/
theorem Choice.framed_congr {c d : Choice} (h : c.all = d.all) (front behind : List Part) :
    c.framed front behind = d.framed front behind := by
  simp only [Choice.framed, Choice.group, Choice.finish_congr h]

/-- A framed choice with some of the branches is neither deeper nor larger. -/
theorem Choice.framed_le {c d : Choice} (h : c.all.Subperm d.all) (front behind : List Part) :
    (c.framed front behind).2 ≤ (d.framed front behind).2 ∧
      (c.framed front behind).1.size ≤ (d.framed front behind).1.size := by
  obtain ⟨hdepth, hsize⟩ := Choice.finish_le h
  constructor
  · have hmax : ((behind ++ c.group :: front).reverse.map Part.depth).foldl max 0 ≤
        ((behind ++ d.group :: front).reverse.map Part.depth).foldl max 0 := by
      have hparts := (foldl_max_le (d := 0)).mp
        (Nat.le_refl (((behind ++ d.group :: front).reverse.map Part.depth).foldl max 0))
      simp only [List.mem_map, List.mem_reverse, List.mem_append, List.mem_cons, forall_exists_index, and_imp,
        forall_apply_eq_imp_iff₂, foldl_max_le] at hparts ⊢
      refine ⟨Nat.zero_le _, fun p hp => ?_⟩
      rcases hp with hp | rfl | hp
      · exact hparts.2 p (.inl hp)
      · have hgroup := hparts.2 d.group (.inr (.inl rfl))
        simp only [Choice.group, Part.depth] at hgroup ⊢
        omega
      · exact hparts.2 p (.inr (.inr hp))
    rw [Choice.framed_snd, Choice.framed_snd]
    omega
  · rw [Choice.framed_fst, Choice.framed_fst, size_seqAll, size_seqAll]
    simp only [List.map_append, List.map_cons, List.sum_append, List.sum_cons]
    omega

/-- A frame makes a choice no less deep. -/
theorem Choice.finish_le_framed (c : Choice) (front behind : List Part) :
    c.finish.2 ≤ (c.framed front behind).2 := by
  have hmax := (foldl_max_le.mp (Nat.le_refl (((behind ++ c.group :: front).reverse.map Part.depth).foldl max 0))).2
    c.group.depth (by simp)
  have hgroup : c.group.depth = c.finish.2 + 1 := rfl
  rw [Choice.framed_snd]
  omega

/-- Between other parts too, a group matches as the groups whose branches it gathers. -/
theorem Choice.isMatch_framed {c : Choice} {cs : List Choice} (h : c.all = cs.flatMap Choice.all)
    (front behind : List Part) (t : Text) :
    (c.framed front behind).1.isMatch t = true ↔ ∃ d ∈ cs, (d.framed front behind).1.isMatch t = true := by
  have hgroup (p q : Cursor) :
      q ∈ ends c.finish.1 p ↔ ∃ r ∈ cs.map fun d => d.finish.1, q ∈ ends r p := by
    simp only [Choice.mem_ends_finish, h, List.mem_flatMap, List.mem_map, exists_exists_and_eq_and]
    constructor
    · rintro ⟨b, ⟨d, hd, hb⟩, hq⟩
      exact ⟨d, hd, b, hb, hq⟩
    · rintro ⟨d, hd, b, hb, hq⟩
      exact ⟨b, ⟨d, hd, hb⟩, hq⟩
  simp only [Choice.framed_fst, isMatch, List.any_eq_true, Bool.not_eq_true',
    List.isEmpty_eq_false_iff_exists_mem, mem_ends_seqAll_of_part hgroup, List.mem_map, exists_exists_and_eq_and]
  constructor
  · rintro ⟨o, ho, q, d, hd, hq⟩
    exact ⟨d, hd, o, ho, q, hq⟩
  · rintro ⟨d, hd, o, ho, q, hq⟩
    exact ⟨o, ho, q, d, hd, hq⟩

/-- The pattern matches where one of the others does, which are all accepted. -/
structure IsUnion (r : Regex) (ps : List (Option Regex)) : Prop where
  accepted : ∀ p ∈ ps, p.isSome = true
  isMatch_iff : ∀ t, r.isMatch t = true ↔ ∃ p ∈ ps, p.any (·.isMatch t) = true

/-- A union of more patterns matches what one of fewer does. -/
theorem IsUnion.mono {r r' : Regex} {ps ps' : List (Option Regex)} (h : r.IsUnion ps) (h' : r'.IsUnion ps')
    (hsub : ps ⊆ ps') {t : Text} (ht : r.isMatch t = true) : r'.isMatch t = true := by
  obtain ⟨p, hp, hmatch⟩ := (h.isMatch_iff t).mp ht
  exact (h'.isMatch_iff t).mpr ⟨p, hsub hp, hmatch⟩

/-- The order of the patterns does not matter to what their union matches. -/
theorem IsUnion.isMatch_eq_of_perm {r r' : Regex} {ps ps' : List (Option Regex)} (h : r.IsUnion ps)
    (h' : r'.IsUnion ps') (hperm : ps'.Perm ps) (t : Text) : r'.isMatch t = r.isMatch t :=
  Bool.eq_iff_iff.mpr ⟨h'.mono h hperm.subset, h.mono h' hperm.symm.subset⟩

/-! ## Patterns around a group -/

/-- Texts around a group: they read as parts of the one branch, and the group is read in the given modes. -/
structure Encloses (before after : Text) (m : Modes) (front behind : List Part) : Prop where
  spaced : m.spaced = false
  opens : ∀ u, ({ modes := {} } : Reading).Leads (before ++ u) ⟨m, [], [], ⟨[], front⟩⟩ u
  closes : ∀ names p, (⟨m, names, [], ⟨[], p :: front⟩⟩ : Reading).Leads after
    ⟨m, names, [], ⟨[], behind ++ p :: front⟩⟩ []

namespace Encloses

variable {before after : Text} {m : Modes} {front behind : List Part} {es : List Text}

/-- A group of entries between other texts is accepted when no name is given twice, and nothing is too deep or too
large. -/
theorem compile?_eq_some_iff (h : Encloses before after m front behind) (hes : ∀ e ∈ es, Keeps m e) (hne : es ≠ [])
    {limit : Nat} {r : Regex} :
    compile? false limit (before ++ (Policy.choice es ++ after)) = some r ↔
      Apart m es ∧ ∃ c : Choice, c.all = (es.map fun e => (readingOf m e).choice).flatMap Choice.all ∧
        (c.framed front behind).2 ≤ maxDepth ∧ (c.framed front behind).1.size ≤ limit ∧
          (c.framed front behind).1 = r := by
  have hstart := (h.opens _).trans (leads_choiceStart h.spaced [] [] ⟨[], front⟩ es after)
  have hcompile : compile? false limit (before ++ (Policy.choice es ++ after)) = some r ↔
      parse? {} (before ++ (Policy.choice es ++ after)) = some r ∧ r.size ≤ limit := by
    simp [compile?, Option.filter_eq_some_iff]
  rw [hcompile]
  rcases leads_entries h.spaced [] [⟨m, ⟨[], front⟩⟩] hes hne [] after with
    ⟨names, c, hleads, hall, hapart, -⟩ | ⟨hfails, hclash⟩
  · have hend := (leads_choiceEnd h.spaced names [] ⟨[], front⟩ c after).trans (h.closes names c.group)
    have hparse : parse? {} (before ++ (Policy.choice es ++ after)) =
        if (c.framed front behind).2 ≤ maxDepth then some (c.framed front behind).1 else none := by
      rw [parse?, ((hstart.trans hleads).trans hend).run_eq h.spaced]
      rfl
    rw [hparse, Option.ite_none_right_eq_some, Option.some.injEq]
    constructor
    -- The choice that has been read has these branches, and any other with them is the same.
    · rintro ⟨⟨hdepth, rfl⟩, hsize⟩
      exact ⟨hapart, c, by simpa [List.flatMap_map] using hall, hdepth, hsize, rfl⟩
    · rintro ⟨-, d, hd, hdepth, hsize, rfl⟩
      have hsame : c.all = d.all := by rw [hd, hall, List.flatMap_map, List.reverse_nil, List.nil_append]
      have hsame' := Choice.framed_congr hsame front behind
      exact ⟨⟨hsame' ▸ hdepth, congrArg Prod.fst hsame'⟩, hsize⟩
  · -- One name is given twice, so the pattern is not accepted.
    have hnone := (hstart.fails hfails) _ (Nat.lt_succ_self _)
    have hparse : parse? {} (before ++ (Policy.choice es ++ after)) = none := by
      rw [parse?, hnone, Option.bind_none]
    simp only [hparse, reduceCtorEq, false_and, false_iff]
    exact fun hall => hclash ⟨hall.1, fun e _ => List.disjoint_nil_right _⟩

/-- One entry between two others compiles to its framed choice, where this is neither too deep nor too large. -/
theorem compile?_single (h : Encloses before after m front behind) {e : Text} (he : Keeps m e) {limit : Nat}
    (hdepth : ((readingOf m e).choice.framed front behind).2 ≤ maxDepth)
    (hsize : ((readingOf m e).choice.framed front behind).1.size ≤ limit) :
    compile? false limit (before ++ (Policy.choice [e] ++ after)) =
      some ((readingOf m e).choice.framed front behind).1 := by
  have hes : ∀ e' ∈ [e], Keeps m e' := by simpa using he
  exact (h.compile?_eq_some_iff hes (List.cons_ne_nil e [])).mpr
    ⟨List.pairwise_singleton _ e, (readingOf m e).choice, by simp, hdepth, hsize, rfl⟩

/-- A group that is accepted matches as its entries do, none of which is deeper or larger. -/
theorem isMatch_iff (h : Encloses before after m front behind) (hes : ∀ e ∈ es, Keeps m e) (hne : es ≠ [])
    {limit : Nat} {r : Regex} (hr : compile? false limit (before ++ (Policy.choice es ++ after)) = some r) :
    (∀ e ∈ es, ((readingOf m e).choice.framed front behind).2 ≤ maxDepth ∧
        ((readingOf m e).choice.framed front behind).1.size ≤ limit) ∧
      ∀ t, r.isMatch t = true ↔ ∃ e ∈ es, ((readingOf m e).choice.framed front behind).1.isMatch t = true := by
  obtain ⟨-, c, hall, hdepth, hsize, rfl⟩ := (h.compile?_eq_some_iff hes hne).mp hr
  refine ⟨fun e he => ?_, fun t => ?_⟩
  · have hsublist : (readingOf m e).choice.all.Sublist c.all := by
      rw [hall]
      exact List.sublist_flatten_of_mem (List.mem_map_of_mem (List.mem_map_of_mem he))
    have hle := Choice.framed_le hsublist.subperm front behind
    exact ⟨hle.1.trans hdepth, hle.2.trans hsize⟩
  · rw [Choice.isMatch_framed hall]
    simp

/-- A group that is accepted matches as its entries do between the same texts. -/
theorem isUnion (h : Encloses before after m front behind) (hes : ∀ e ∈ es, Keeps m e) (hne : es ≠ [])
    {limit : Nat} {r : Regex} (hr : compile? false limit (before ++ (Policy.choice es ++ after)) = some r) :
    r.IsUnion (es.map fun e => compile? false limit (before ++ (Policy.choice [e] ++ after))) := by
  obtain ⟨hbounds, hmatch⟩ := h.isMatch_iff hes hne hr
  have hsingle (e : Text) (he : e ∈ es) : compile? false limit (before ++ (Policy.choice [e] ++ after)) =
      some ((readingOf m e).choice.framed front behind).1 :=
    h.compile?_single (hes e he) (hbounds e he).1 (hbounds e he).2
  rw [List.map_congr_left hsingle]
  exact ⟨by simp, fun t => by simp [hmatch]⟩

/-- Where the texts around it only switch modes, a group that is accepted matches as its entries do alone. -/
theorem isUnion_alone {ignoreCase : Bool} (h : Encloses before after { ignoreCase := ignoreCase } front [])
    (hfront : front.filterMap Part.regex? = []) (hes : ∀ e ∈ es, Keeps { ignoreCase := ignoreCase } e)
    (hne : es ≠ []) {limit : Nat} {r : Regex}
    (hr : compile? false limit (before ++ (Policy.choice es ++ after)) = some r) :
    r.IsUnion (es.map (compile? ignoreCase limit)) := by
  obtain ⟨hbounds, hmatch⟩ := h.isMatch_iff hes hne hr
  have hframed (c : Choice) : (c.framed front []).1 = c.finish.1 := by
    have hnone : front.reverse.filterMap Part.regex? = [] := by rw [List.filterMap_reverse, hfront, List.reverse_nil]
    rw [Choice.framed_fst, hnone]
    rfl
  have halone (e : Text) (he : e ∈ es) :
      compile? ignoreCase limit e = some (readingOf { ignoreCase := ignoreCase } e).choice.finish.1 := by
    obtain ⟨hdepth, hsize⟩ := hbounds e he
    rw [hframed] at hsize
    have hdepth' := (Choice.finish_le_framed _ front []).trans hdepth
    rw [compile?, parse?_eq, (hes e he).whole?_eq, Option.bind_some, if_pos hdepth']
    simpa using hsize
  rw [List.map_congr_left halone]
  exact ⟨by simp, fun t => by simp [hmatch, hframed]⟩

/-- The order of the entries does not matter to whether the group is accepted. -/
theorem isSome_of_perm (h : Encloses before after m front behind) (hes : ∀ e ∈ es, Keeps m e) (hne : es ≠ [])
    {es' : List Text} (hperm : es'.Perm es) {limit : Nat}
    (hsome : (compile? false limit (before ++ (Policy.choice es ++ after))).isSome = true) :
    (compile? false limit (before ++ (Policy.choice es' ++ after))).isSome = true := by
  have hes' : ∀ e ∈ es', Keeps m e := fun e he => hes e (hperm.mem_iff.mp he)
  have hne' : es' ≠ [] := fun hnil => hne (List.nil_perm.mp (hnil ▸ hperm))
  obtain ⟨r, hr⟩ := Option.isSome_iff_exists.mp hsome
  obtain ⟨hapart, c, hall, hdepth, hsize, -⟩ := (h.compile?_eq_some_iff hes hne).mp hr
  obtain ⟨d, hd⟩ : ∃ d : Choice, d.all = (es'.map fun e => (readingOf m e).choice).flatMap Choice.all :=
    Choice.exists_all_eq (by simpa using hne')
  have hsubperm : d.all.Subperm c.all := by
    rw [hd, hall]
    exact ((hperm.map _).flatMap_right _).subperm
  have hle := Choice.framed_le hsubperm front behind
  have hapart' : Apart m es' := (hperm.pairwise_iff fun {_ _} hab => List.disjoint_comm.mp hab).mpr hapart
  rw [(h.compile?_eq_some_iff hes' hne').mpr ⟨hapart', d, hd, hle.1.trans hdepth, hle.2.trans hsize, rfl⟩]
  rfl

end Encloses

end UrlFilter.Regex
