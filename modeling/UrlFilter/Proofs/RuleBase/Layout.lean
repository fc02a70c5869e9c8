import UrlFilter.Proofs.RuleBase.Assembly

/-!
# Tables and slots

For fast lookups a set has a table of its entries beside their list, and a rule base a slot for each bucket, at its
number. Both say what the lists say that sets and rule bases are: a table has the entries of its set
(`IndexedSet.represents_ofList`), and the slots are filled with the buckets of a list, or refuse one, as these are put
together one behind the other (`Slots.fill_eq`).
-/

namespace UrlFilter

/-! ## Sets with a table -/

section

-- The hashes of the table are any: they are others in each process.
variable [Hashable Text]

/-- A set whose entries are found by a table. -/
structure IndexedSet where
  entries : List Text := []
  index : Std.HashSet Text := ∅

namespace IndexedSet

/-- The set with one more entry, which comes last unless the table has it already; and whether it was new. -/
def insert (s : IndexedSet) (t : Text) : IndexedSet × Bool :=
  if s.index.contains t then (s, false) else (⟨s.entries ++ [t], s.index.insert t⟩, true)

/-- The set of the texts of a list. -/
def ofList (ts : List Text) : IndexedSet := ts.foldl (fun s t => (s.insert t).1) {}

/-- The set has the entries of another, and so has its table. -/
structure Represents (s : IndexedSet) (e : ExactSet) : Prop where
  entries : s.entries = e.entries
  index : ∀ t, s.index.contains t = e.contains t

/-- An entry is new to a set when the other set does not contain it, and is inserted into both alike. -/
theorem Represents.insert {s : IndexedSet} {e : ExactSet} (h : s.Represents e) (t : Text) :
    (s.insert t).1.Represents (e.insert t) ∧ (s.insert t).2 = !e.contains t := by
  rw [IndexedSet.insert, h.index]
  cases hold : e.contains t with
  | true =>
    have hmem : t ∈ e.entries := ExactSet.contains_iff.mp hold
    have hsame : e.insert t = e := dif_pos hmem
    exact ⟨hsame.symm ▸ h, rfl⟩
  | false =>
    have hmem : t ∉ e.entries := fun hmem => by simp [ExactSet.contains_iff.mpr hmem] at hold
    have hentries := ExactSet.entries_insert_of_notMem hmem
    refine ⟨⟨by simp [hentries, h.entries], fun u => ?_⟩, rfl⟩
    rw [if_neg Bool.false_ne_true, Std.HashSet.contains_insert, h.index, Bool.eq_iff_iff, Bool.or_eq_true, beq_iff_eq,
      ExactSet.contains_iff, ExactSet.contains_iff, hentries, List.mem_append, List.mem_singleton, or_comm, eq_comm]

/-- A set with a table is made of a list as one without: it has its entries, and its table contains just them. -/
theorem represents_ofList (ts : List Text) : (ofList ts).Represents (.ofList ts) := by
  suffices hfold : ∀ (s : IndexedSet) (e : ExactSet), s.Represents e →
      (ts.foldl (fun s t => (s.insert t).1) s).Represents (ts.foldl ExactSet.insert e) from
    hfold {} .empty ⟨rfl, fun t => by simp [ExactSet.empty, ExactSet.contains]⟩
  induction ts with
  | nil => exact fun _ _ h => h
  | cons t ts ih => exact fun s e h => ih _ _ (h.insert t).1

end IndexedSet

end

/-! ## Slots for buckets -/

namespace Bucket

/-- The buckets stand in the order of their numbers. -/
theorem index_eq_iff {b : Bucket} {i : Nat} : b.index = i ↔ all[i]? = some b := by
  have hlist : (all.map index)[i]? = (List.range 14)[i]? := by rw [map_index_all]
  have hself : all[b.index]? = some b := by
    obtain ⟨c, p⟩ := b
    cases p <;> cases c <;> rfl
  constructor
  · rintro rfl
    exact hself
  · intro hi
    rw [List.getElem?_map, hi, Option.map_some] at hlist
    obtain ⟨hrange, hindex⟩ := List.getElem?_eq_some_iff.mp hlist.symm
    rw [← hindex, List.getElem_range]

/-- What is listed for all buckets is found by their numbers. -/
theorem getElem?_map_all {α : Type} (f : Bucket → α) (b : Bucket) : (all.map f)[b.index]? = some (f b) := by
  rw [List.getElem?_map, index_eq_iff.mp rfl, Option.map_some]

/-- What is set at the number of a bucket is changed for that bucket alone. -/
theorem set_map_all {α : Type} (f : Bucket → α) (b : Bucket) (a : α) :
    (all.map f).set b.index a = all.map fun b' => if b' = b then a else f b' := by
  refine List.ext_getElem? fun i => ?_
  rw [List.getElem?_set, List.getElem?_map, List.getElem?_map]
  by_cases hi : b.index = i
  · have hb := index_eq_iff.mp hi
    have hlt : b.index < (all.map f).length := by
      rw [List.length_map, hi]
      exact (List.getElem?_eq_some_iff.mp hb).1
    rw [if_pos hi, if_pos hlt, hb, Option.map_some, if_pos rfl]
  · rw [if_neg hi]
    cases hother : all[i]? with
    | none => rfl
    | some b' =>
      have hne : b' ≠ b := fun h => hi (index_eq_iff.mpr (h ▸ hother))
      rw [Option.map_some, Option.map_some, if_neg hne]

end Bucket

/-- A slot for each bucket, at its number, with rules or without. -/
abbrev Slots := List (Option RuleSet)

namespace Slots

/-- The slots of a rule base before it is given any rules. -/
def unfilled : Slots := List.replicate 14 none

/-- Puts rules into the slot of their bucket, which has to be of their kind and without rules. -/
def put (slots : Slots) (b : Bucket) (rules : RuleSet) : Except RuleBase.Failure Slots :=
  if rules.isExact ≠ b.category.isExact then .error (.wrongKind b)
  else if slots[b.index]?.join.isSome then .error (.duplicate b)
  else .ok (slots.set b.index (some rules))

/-- Puts the rules of all buckets of a list into their slots. -/
def fill (slots : Slots) : List (Bucket × RuleSet) → Except RuleBase.Failure Slots
  | [] => .ok slots
  | (b, rules) :: es => (slots.put b rules).bind fun slots => slots.fill es

/-- The rules of all buckets by their numbers; a slot that was left out has none. -/
def ruleSets (slots : Slots) : List RuleSet :=
  (Bucket.all.zip slots).map fun (b, slot) => slot.getD (.emptyFor b.category)

/-- The slots of the buckets that a rule base lists. -/
def ofBase (base : RuleBase) : Slots := Bucket.all.map fun b => base.listed.lookup b

/-- A list has something for a bucket exactly when the bucket is among its own. -/
theorem isSome_lookup_iff {es : List (Bucket × RuleSet)} {b : Bucket} :
    (es.lookup b).isSome = true ↔ b ∈ es.map Prod.fst := by
  rw [Option.isSome_iff_ne_none, Ne, List.lookup_eq_none_iff]
  constructor
  · intro h
    by_contra hlist
    refine h fun e he => bne_iff_ne.mpr ?_
    rintro rfl
    exact hlist (List.mem_map_of_mem he)
  · rintro hlist h
    obtain ⟨e, he, rfl⟩ := List.mem_map.mp hlist
    simpa using h e he

/-- A slot is filled, or refuses the rules, as the bucket is added to a rule base. -/
theorem put_ofBase (base : RuleBase) (b : Bucket) (rules : RuleSet) :
    (ofBase base).put b rules = (base.add b rules).map ofBase := by
  have hslot : (ofBase base)[b.index]?.join = base.listed.lookup b := by
    rw [ofBase, Bucket.getElem?_map_all, Option.join_some]
  have hlisted : (base.listed.lookup b).isSome = true ↔ b ∈ base.listed.map Prod.fst := isSome_lookup_iff
  rw [put, RuleBase.add, hslot]
  by_cases hkind : rules.isExact = b.category.isExact
  · rw [if_neg (not_not.mpr hkind), dif_pos hkind]
    by_cases hlist : b ∈ base.listed.map Prod.fst
    · rw [if_pos (hlisted.mpr hlist), dif_pos hlist]
      rfl
    · rw [if_neg (hlisted.not.mpr hlist), dif_neg hlist, ofBase, Bucket.set_map_all]
      -- The new bucket is listed last, and found only where none was listed before.
      refine congrArg Except.ok (List.map_congr_left fun b' _ => ?_)
      have hnone : base.listed.lookup b = none := Option.not_isSome_iff_eq_none.mp (hlisted.not.mpr hlist)
      rw [List.lookup_append, List.lookup_cons, List.lookup_nil]
      by_cases hb : b' = b
      · subst hb
        rw [if_pos rfl, hnone, Option.none_or, beq_self_eq_true]
      · rw [if_neg hb, beq_false_of_ne hb, Option.or_none]
  · rw [if_pos hkind, dif_neg hkind]
    rfl

/-- To fill the slots of a rule base is to add the buckets to it. -/
theorem fill_ofBase (base : RuleBase) (es : List (Bucket × RuleSet)) :
    (ofBase base).fill es = (base.addAll es).map ofBase := by
  induction es generalizing base with
  | nil => rfl
  | cons e es ih =>
    obtain ⟨b, rules⟩ := e
    rw [fill, RuleBase.addAll, put_ofBase]
    cases base.add b rules with
    | error f => rfl
    | ok base => exact ih base

/-- The slots of the buckets that are listed, with none for the others, hold the rules of all buckets. -/
theorem ruleSets_ofBase (base : RuleBase) : (ofBase base).ruleSets = Bucket.all.map base.bucket := by
  have hzip : Bucket.all.zip (ofBase base) = Bucket.all.map fun b => (b, base.listed.lookup b) := rfl
  rw [ruleSets, hzip, List.map_map]
  rfl

/-- What a lookup finds at the number of a bucket are its rules. -/
theorem getElem?_ruleSets_ofBase (base : RuleBase) (b : Bucket) :
    (ofBase base).ruleSets[b.index]? = some (base.bucket b) := by
  rw [ruleSets_ofBase, Bucket.getElem?_map_all]

/-- The rules are counted slot by slot. -/
theorem sum_size_ruleSets_ofBase (base : RuleBase) :
    ((ofBase base).ruleSets.map RuleSet.size).sum = base.ruleCount := by
  rw [ruleSets_ofBase, List.map_map]
  rfl

/-- Filling the slots with the buckets of a list refuses the list for the same reason as putting them together does,
and otherwise holds the slots of the rule base. -/
theorem fill_eq (es : List (Bucket × RuleSet)) (blockedHosts : ExactSet) :
    unfilled.fill es = (RuleBase.ofBuckets es blockedHosts).map ofBase := by
  have hunfilled : unfilled = ofBase { RuleBase.empty with blockedHosts := blockedHosts } := rfl
  rw [hunfilled, fill_ofBase, RuleBase.ofBuckets]

end Slots

end UrlFilter
