import UrlFilter.Backtrack.Parser
import UrlFilter.Backtrack.Pattern

/-!
# Compiling patterns with memory

An expression becomes a pattern with its plain parts handed over whole wherever nothing behind them
can ask for another way. In a sequence these are the parts in front that match one number of characters
each, and what comes behind the last part with memory. What a look behind asks for has to match one number
of characters; only its branches may differ.
-/

namespace UrlFilter.Backtrack

open Regex (Look)

/-- A plain expression as a pattern without memory, within the usual limit on its size. -/
def Expr.whole? (e : Expr) : Option Pattern :=
  (e.toRegex?.filter (·.size ≤ Regex.usualLimit)).map .plain

/-- A plain part of a pattern with memory, as a pattern without. The limit is not on texts. -/
def Expr.handOver? (e : Expr) : Option Pattern :=
  (e.toRegex?.filter fun r => e.isText || r.size ≤ Regex.usualLimit).map .plain

/-- Nothing behind the expression can ask it for another way: it needs no memory, and where what follows may
ask, it matches one number of characters. -/
def Expr.isWhole (refs : List Nat) (retried : Bool) (e : Expr) : Bool :=
  !(e.info refs).hard && ((e.info refs).fixed || !retried)

/-- The sequence of the patterns of a list. -/
def Pattern.seqAll (ps : List Pattern) : Pattern := ps.foldr .seq .empty

/-- The choice between the patterns of a list, which is not empty. -/
def Pattern.altAll : List Pattern → Pattern
  | [] => .plain (.one .none)
  | p :: ps => ps.foldl .alt p

/-- A look behind at an expression of a fixed number of characters. -/
def lookBehind (negated : Bool) (i : Expr.Info) (p : Pattern) : Option Pattern :=
  if i.fixed then some (if negated then .notBehind i.least p else .behind i.least p) else none

namespace Expr

mutual

/-- The pattern of an expression. With `retried`, what follows may ask for another way. -/
def compile (refs : List Nat) (retried : Bool) (e : Expr) : Option Pattern :=
  -- Where no other way is asked for, the first one in which the expression matches is as good as all of them.
  if !retried && !(info refs e).hard then (handOver? e).map .first
  else
    match e with
    | empty => some .empty
    | any _ => handOver? e
    | look _ => handOver? e
    | literal _ _ => handOver? e
    | set _ _ => handOver? e
    | concat es =>
      (handOver? (concat (es.takeWhile (isWhole refs true)))).bind fun p =>
        (compileSeq refs retried true es).map (.seq p)
    | alt es => (compileBranches refs retried es).map Pattern.altAll
    | group k e =>
      (compile refs retried e).map fun p => if refs.contains k then .capture k p else p
    | turns e lo hi greedy =>
      -- The next turn may ask this one for another way, and only a question mark rules out that there is a next.
      let retried := retried || !(lo == 0 && hi == some 1)
      (compile refs retried e).map fun p => .turns p lo hi greedy
    | around .ahead e => (compile refs false e).map .ahead
    | around .notAhead e => (compile refs false e).map .notAhead
    -- The branches of a look behind may differ in length, but no branch within one of them may.
    | around .behind (alt es) =>
      if (info refs (alt es)).fixed then
        (compileBranches refs false es).bind fun ps =>
          lookBehind false (info refs (alt es)) (Pattern.altAll ps)
      else (compileBehind refs false es).map Pattern.altAll
    | around .notBehind (alt es) =>
      if (info refs (alt es)).fixed then
        (compileBranches refs false es).bind fun ps =>
          lookBehind true (info refs (alt es)) (Pattern.altAll ps)
      else (compileBehind refs true es).map Pattern.seqAll
    | around .behind e => (compile refs false e).bind (lookBehind false (info refs e))
    | around .notBehind e => (compile refs false e).bind (lookBehind true (info refs e))
    | reference k => some (.reference k)
    | atomic e => (compile refs false e).map .first
    | keepOut => some .empty
    | searchStart => some .searchStart
    | captured k => some (.captured k)
    | conditional c t f =>
      (compile refs retried c).bind fun c =>
        (compile refs retried t).bind fun t =>
          (compile refs retried f).map fun f => .conditional c t f

/-- The pattern of the parts of a sequence; with `inFront`, of those behind the parts that are handed over in
front. The last parts that nothing can ask for another way are handed over together. -/
def compileSeq (refs : List Nat) (retried inFront : Bool) : List Expr → Option Pattern
  | [] => some .empty
  | e :: es =>
    if inFront && isWhole refs true e then compileSeq refs retried true es
    else if (e :: es).all (isWhole refs retried) then
      (handOver? (concat (e :: es))).map fun p => if retried then p else .first p
    else (compile refs true e).bind fun p => (compileSeq refs retried false es).map (.seq p)

/-- The patterns of the branches of a choice. -/
def compileBranches (refs : List Nat) (retried : Bool) : List Expr → Option (List Pattern)
  | [] => some []
  | e :: es =>
    (compile refs retried e).bind fun p => (compileBranches refs retried es).map (p :: ·)

/-- The looks behind at the branches of a choice, each for itself. -/
def compileBehind (refs : List Nat) (negated : Bool) : List Expr → Option (List Pattern)
  | [] => some []
  | e :: es =>
    (compile refs false e).bind fun p =>
      (lookBehind negated (info refs e) p).bind fun p =>
        (compileBehind refs negated es).map (p :: ·)

end

end Expr

/-- The pattern of a text: one without memory when the text asks for none. -/
def compile? (t : Text) : Option Pattern :=
  (parse? t).bind fun (e, refs) =>
    if (e.info refs).hard then e.compile refs true else e.whole?

end UrlFilter.Backtrack
