import Mathlib.Data.List.Basic
import UrlFilter.Proofs.Lookup.Case
import UrlFilter.Proofs.Text.Cutting

/-!
# The names of a host

The names under which a host may be listed come from a walk over its labels: from a host to what is behind its first
dot, and so on. The walk ends, for every name is shorter than the one before. What it comes across is the host
without the dots at its end, and what is behind each dot of that (`parents_eq`); so a name is among them exactly when
the host is the name or ends with a dot and the name (`mem_suffixes_iff`).
-/

namespace UrlFilter

namespace Host

variable {h t u e : Text}

/-! ## Hosts without dots at their end -/

/-- What is trimmed of dots ends with none. -/
theorem getLast?_trimDots (h : Text) : (trimDots h).getLast? ≠ some '.' := by
  intro hlast
  have hne : trimDots h ≠ [] := by
    rintro hnil
    rw [hnil] at hlast
    cases hlast
  have hdot := List.rdropWhile_last_not (· == '.') h hne
  rw [List.getLast?_eq_some_getLast hne, Option.some.injEq] at hlast
  exact hdot (beq_iff_eq.mpr hlast)

/-- What ends a host without a dot at its end has none there either. -/
theorem getLast?_ne_of_suffix (hdot : t.getLast? ≠ some '.') (hne : u ≠ []) (hsuffix : u <:+ t) :
    u.getLast? ≠ some '.' := by
  obtain ⟨s, rfl⟩ := hsuffix
  rwa [List.getLast?_append, List.getLast?_eq_some_getLast hne, Option.some_or,
    ← List.getLast?_eq_some_getLast hne] at hdot

/-! ## What is behind the dots -/

/-- A parent is what follows a dot. -/
theorem mem_parents_iff : u ∈ parents t ↔ '.' :: u <:+ t := by
  induction t with
  | nil => simp [parents]
  | cons c t ih =>
    rw [parents, List.suffix_cons_iff, List.cons.injEq]
    split
    · next hc => rw [List.mem_cons, ih, and_iff_right hc.symm]
    · next hc => rw [ih, or_iff_right fun hand => hc hand.1.symm]

/-- The parents are what is behind each dot, in the order of the dots. -/
theorem parents_eq (t : Text) : parents t = (t.idxsOf '.').map fun i => t.drop (i + 1) := by
  induction t with
  | nil => rfl
  | cons c t ih =>
    -- Behind the first character, every dot stands one place further on.
    have hrest : (t.findIdxs (· == '.') 1).map (fun i => (c :: t).drop (i + 1)) = parents t := by
      rw [List.findIdxs_start, List.map_map, ih]
      rfl
    rw [parents, List.idxsOf, List.findIdxs_cons, Nat.zero_add]
    by_cases hc : c = '.'
    · rw [if_pos hc, if_pos (beq_iff_eq.mpr hc), List.map_cons, hrest]
      rfl
    · rw [if_neg hc, if_neg (by simpa using hc), hrest]

/-- Without a dot at the end no parent is empty. -/
theorem ne_nil_of_mem_parents (hdot : t.getLast? ≠ some '.') (hu : u ∈ parents t) : u ≠ [] := by
  rintro rfl
  exact getLast?_ne_of_suffix hdot (List.cons_ne_nil _ _) (mem_parents_iff.mp hu) rfl

/-- Each parent is shorter than those before it. -/
theorem pairwise_parents (t : Text) : (parents t).Pairwise fun s u => u.length < s.length := by
  induction t with
  | nil => exact .nil
  | cons c t ih =>
    rw [parents]
    split
    · exact .cons (fun u hu => length_lt_of_mem_parents hu) ih
    · exact ih

/-! ## The names -/

/-- A host is listed without the dots at its end, and then its parents. -/
theorem suffixes_of_ne_nil (hne : trimDots h ≠ []) : suffixes h = trimDots h :: parents (trimDots h) := by
  rw [suffixes]
  cases htrim : trimDots h with
  | nil => exact absurd htrim hne
  | cons c t => rfl

/-- A host of dots has no names. -/
theorem suffixes_of_nil (hnil : trimDots h = []) : suffixes h = [] := by
  rw [suffixes, hnil]

/-- No name of a host is empty. -/
theorem ne_nil_of_mem_suffixes (hu : u ∈ suffixes h) : u ≠ [] := by
  by_cases hne : trimDots h = []
  · rw [suffixes_of_nil hne] at hu
    cases hu
  · rw [suffixes_of_ne_nil hne] at hu
    rcases List.mem_cons.mp hu with rfl | hu
    · exact hne
    · exact ne_nil_of_mem_parents (getLast?_trimDots h) hu

/-- The names of a host become shorter. -/
theorem pairwise_suffixes (h : Text) : (suffixes h).Pairwise fun s u => u.length < s.length := by
  by_cases hne : trimDots h = []
  · rw [suffixes_of_nil hne]
    exact .nil
  · rw [suffixes_of_ne_nil hne]
    exact .cons (fun u hu => length_lt_of_mem_parents hu) (pairwise_parents _)

/-- A name is one of the host when the host is the name, or ends with a dot and the name. -/
theorem mem_suffixes_iff (he : e ≠ []) : e ∈ suffixes h ↔ e = trimDots h ∨ '.' :: e <:+ trimDots h := by
  by_cases hne : trimDots h = []
  · rw [suffixes_of_nil hne, hne]
    simp [he]
  · rw [suffixes_of_ne_nil hne, List.mem_cons, mem_parents_iff]

/-- A host that has no parents has itself for a name. -/
theorem mem_itself_iff (he : e ≠ []) : e ∈ itself h ↔ e = trimDots h := by
  rw [itself]
  cases trimDots h with
  | nil => simp [he]
  | cons c t => exact List.mem_singleton

/-! ## The walk -/

/-- What is behind the first dot of a host, when there is something. -/
def parent? (t : Text) : Option Text := ((Text.splitFirst '.' t).map Prod.snd).filter (!·.isEmpty)

/-- The walk from a host to its parent, from there to the parent of that, and so on, up to a host that has none. -/
inductive Walk : Text → List Text → Prop
  | last {t : Text} (hparent : parent? t = none) : Walk t [t]
  | step {t u : Text} {names : List Text} (hparent : parent? t = some u) (hrest : Walk u names) : Walk t (t :: names)

/-- The parents of a host are what follows its first dot and the parents of that. -/
theorem parents_of_splitFirst {a b : Text} (hsplit : Text.splitFirst '.' t = some (a, b)) :
    parents t = b :: parents b := by
  induction t generalizing a with
  | nil => cases hsplit
  | cons c t ih =>
    rw [Text.splitFirst] at hsplit
    rw [parents]
    split at hsplit
    · next hc =>
      cases hsplit
      rw [if_pos hc]
    · next hc =>
      obtain ⟨⟨a', b'⟩, hrest, heq⟩ := Option.map_eq_some_iff.mp hsplit
      cases heq
      rw [if_neg hc, ih hrest]

/-- From a host without a dot at its end, the walk comes across the host and its parents. -/
theorem walk_parents (hdot : t.getLast? ≠ some '.') : Walk t (t :: parents t) := by
  -- By induction on the length, for the parent is what is behind the first dot.
  induction hlength : t.length using Nat.strongRecOn generalizing t with
  | _ n ih =>
    cases hsplit : Text.splitFirst '.' t with
    | none =>
      have hnone : parents t = [] := by
        rw [List.eq_nil_iff_forall_not_mem]
        intro u hu
        exact Text.splitFirst_eq_none_iff.mp hsplit ((mem_parents_iff.mp hu).subset List.mem_cons_self)
      rw [hnone]
      exact .last (by rw [parent?, hsplit]; rfl)
    | some ends =>
      obtain ⟨a, b⟩ := ends
      have hparents := parents_of_splitFirst hsplit
      have hmem : b ∈ parents t := hparents ▸ List.mem_cons_self
      have hne := ne_nil_of_mem_parents hdot hmem
      have hsuffix : b <:+ t := (List.suffix_cons '.' b).trans (mem_parents_iff.mp hmem)
      rw [hparents]
      refine .step (u := b) ?_ (ih b.length ?_ (getLast?_ne_of_suffix hdot hne hsuffix) rfl)
      · simpa [parent?, hsplit] using hne
      · exact hlength ▸ length_lt_of_mem_parents hmem

/-- The names of a host are a walk up from it. -/
theorem walk_suffixes (hne : trimDots h ≠ []) : Walk (trimDots h) (suffixes h) := by
  rw [suffixes_of_ne_nil hne]
  exact walk_parents (getLast?_trimDots h)

/-- The names that a walk from a host comes across, the dots at its end aside: the host and what is behind each of its
dots, in order, none of them empty and each shorter than those before it. Where nothing but dots is left, there are
none. -/
structure AreNames (h : Text) (names : List Text) : Prop where
  nil : trimDots h = [] → names = []
  walk : trimDots h ≠ [] → Walk (trimDots h) names
  eq_cons : trimDots h ≠ [] →
    names = trimDots h :: ((trimDots h).idxsOf '.').map fun i => (trimDots h).drop (i + 1)
  ne_nil : ∀ t ∈ names, t ≠ []
  shorter : names.Pairwise fun s t => t.length < s.length

/-- The names of a host are the host and its parents. -/
theorem areNames_suffixes (h : Text) : AreNames h (suffixes h) where
  nil := suffixes_of_nil
  walk := walk_suffixes
  eq_cons hne := by rw [suffixes_of_ne_nil hne, parents_eq]
  ne_nil _ := ne_nil_of_mem_suffixes
  shorter := pairwise_suffixes h

end Host

namespace Lookup

/-- The host as it is given, or as it stands in the URL. -/
def namedHost (l : Lookup) : Text := if l.givenHost.isEmpty then (Address.hostOf? l.url).getD [] else l.givenHost

/-- The host of a lookup is the one that it names, in lower case. -/
theorem host_eq_lower (l : Lookup) : l.host = Text.lower l.namedHost := rfl

/-- The host of a lookup is an IPv4 address when the one that it names is. -/
theorem hostIsIPv4_eq (l : Lookup) : l.hostIsIPv4 = Host.isIPv4 l.namedHost := Host.isIPv4_lower _

end Lookup

end UrlFilter
