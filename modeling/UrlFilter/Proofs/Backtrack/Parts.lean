import UrlFilter.Backtrack.Compile

/-!
# Compiling from parts

An expression is handed over whole where it asks for no memory and nothing behind it asks for another way. All
else is compiled from the patterns of its parts, in a way that only the outermost sign of the expression decides.
-/

namespace UrlFilter.Backtrack

namespace Expr

/-- The pattern of a look behind. The branches of a choice that do not all match one number of characters are
looked at one by one, anything else is looked at as a whole. -/
def compileLookBehind (refs : List Nat) (negated : Bool) : Expr → Option Pattern
  | alt es =>
    if (info refs (alt es)).fixed then
      (compileBranches refs false es).bind fun ps =>
        lookBehind negated (info refs (alt es)) (Pattern.altAll ps)
    else (compileBehind refs negated es).map (if negated then Pattern.seqAll else Pattern.altAll)
  | e => (compile refs false e).bind (lookBehind negated (info refs e))

/-- What is no choice is compiled as a look behind at once. -/
theorem compileLookBehind_of_ne_alt {refs : List Nat} {negated : Bool} {e : Expr} (he : ∀ es, e ≠ .alt es) :
    compileLookBehind refs negated e = (e.compile refs false).bind (lookBehind negated (e.info refs)) := by
  rw [compileLookBehind]
  exact he

/-- The pattern of an expression that is not handed over whole. -/
def compileParts (refs : List Nat) (retried : Bool) : Expr → Option Pattern
  | empty => some .empty
  | any lineFeeds => handOver? (any lineFeeds)
  | look l => handOver? (look l)
  | literal c folds => handOver? (literal c folds)
  | set source folds => handOver? (set source folds)
  | concat es =>
    (handOver? (concat (es.takeWhile (isWhole refs true)))).bind fun p =>
      (compileSeq refs retried true es).map (.seq p)
  | alt es => (compileBranches refs retried es).map Pattern.altAll
  | group k e => (compile refs retried e).map fun p => if refs.contains k then .capture k p else p
  | turns e lo hi greedy =>
    (compile refs (retried || !(lo == 0 && hi == some 1)) e).map fun p => .turns p lo hi greedy
  | around .ahead e => (compile refs false e).map .ahead
  | around .notAhead e => (compile refs false e).map .notAhead
  | around .behind e => compileLookBehind refs false e
  | around .notBehind e => compileLookBehind refs true e
  | reference k => some (.reference k)
  | atomic e => (compile refs false e).map .first
  | keepOut => some .empty
  | searchStart => some .searchStart
  | captured k => some (.captured k)
  | conditional c t f =>
    (compile refs retried c).bind fun c =>
      (compile refs retried t).bind fun t => (compile refs retried f).map fun f => .conditional c t f

/-- An expression is handed over whole or compiled from its parts. -/
theorem compile_eq (refs : List Nat) (retried : Bool) (e : Expr) :
    e.compile refs retried =
      if !retried && !(e.info refs).hard then e.handOver?.map .first else e.compileParts refs retried := by
  rw [compile.eq_def]
  congr 1
  cases e with
  | around k e =>
    cases k with
    | behind => cases e <;> rfl
    | notBehind => cases e <;> rfl
    | _ => rfl
  | _ => rfl

/-- Where another way may be asked for, everything is compiled from its parts. -/
theorem compile_true (refs : List Nat) (e : Expr) : e.compile refs true = e.compileParts refs true := by
  rw [compile_eq, Bool.not_true, Bool.false_and, if_neg Bool.false_ne_true]

/-! ## Sequences -/

/-- What is compiled behind the parts handed over in front are the parts from the first other one on. -/
theorem compileSeq_inFront (refs : List Nat) (retried : Bool) (es : List Expr) :
    compileSeq refs retried true es = compileSeq refs retried false (es.dropWhile (isWhole refs true)) := by
  induction es with
  | nil => rfl
  | cons e es ih =>
    cases he : isWhole refs true e with
    | true => rw [compileSeq, he, Bool.true_and, if_pos rfl, ih, List.dropWhile_cons_of_pos he]
    | false => rw [List.dropWhile_cons_of_neg (by simp [he]), compileSeq, compileSeq, he]; rfl

/-- Where another way may be asked for and the last part is not whole, nothing is handed over behind the front: the
parts are compiled one by one. -/
theorem compileSeq_of_getLast (refs : List Nat) {es : List Expr}
    (hlast : ∀ e ∈ es.getLast?, isWhole refs true e = false) :
    compileSeq refs true false es = (compileBranches refs true es).map Pattern.seqAll := by
  induction es with
  | nil => rfl
  | cons e es ih =>
    have hall : (e :: es).all (isWhole refs true) = false := by
      have hend := hlast _ (List.getLast?_eq_some_getLast (List.cons_ne_nil e es))
      exact List.all_eq_false.mpr ⟨_, List.getLast_mem (List.cons_ne_nil e es), by simp [hend]⟩
    have hrest := ih fun e' he' => hlast e' (by
      cases es with
      | nil => cases he'
      | cons => exact he')
    rw [compileSeq, Bool.false_and, if_neg Bool.false_ne_true, hall, if_neg Bool.false_ne_true, hrest,
      compileBranches]
    cases compile refs true e <;> cases compileBranches refs true es <;> rfl

/-- A sequence is handed over in front, and compiled behind that. -/
theorem compileParts_concat (refs : List Nat) (retried : Bool) (es : List Expr) :
    compileParts refs retried (concat es) =
      (handOver? (concat (es.takeWhile (isWhole refs true)))).bind fun p =>
        (compileSeq refs retried false (es.dropWhile (isWhole refs true))).map (.seq p) := by
  rw [compileParts, compileSeq_inFront]

end Expr

end UrlFilter.Backtrack
