import UrlFilter.Text

/-!
# JSON values

A value of a JSON document, and how records are taken from it. The fields of an object are kept in the
order in which they stand, repetitions among them. A number is kept as it is written.
-/

namespace UrlFilter

/-- A JSON value. -/
inductive Json where
  | null
  | bool (b : Bool)
  | number (digits : Text)
  /-- A string; absent when an escape in it is one half of a surrogate pair, for then it is no text. -/
  | string (t : Option Text)
  | array (es : List Json)
  | object (fields : List (Option Text × Json))

namespace Json

/-- The string of a text. -/
def text (t : Text) : Json := string (some t)

/-- A natural number. -/
def nat (n : Nat) : Json := number (Text.ofNat n)

/-- A list of texts. -/
def texts (ts : List Text) : Json := array (ts.map text)

/-- An object with the fields of a list. -/
def record (fields : List (String × Json)) : Json :=
  object (fields.map fun (k, v) => (some k.toList, v))

/-! ## Taking values apart -/

/-- The text, if the value is one. -/
def text? : Json → Option Text
  | string t => t
  | _ => none

/-- The truth value, if the value is one. -/
def bool? : Json → Option Bool
  | bool b => some b
  | _ => none

/-- The elements, if the value is an array. -/
def list? : Json → Option (List Json)
  | array es => some es
  | _ => none

/-- A natural number below a limit, written without fraction and exponent. -/
def natBelow? (limit : Nat) : Json → Option Nat
  | number digits => (Text.toNat? digits).filter (· < limit)
  | _ => none

/-- A list of texts. -/
def texts? (j : Json) : Option (List Text) := j.list?.bind fun es => es.mapM text?

/-- A value that may be null. -/
def optional? {α : Type} (read : Json → Option α) : Json → Option (Option α)
  | null => some none
  | j => (read j).map some

/-- The first value of a field. -/
def field? (name : String) : Json → Option Json
  | object fields => fields.lookup (some name.toList)
  | _ => none

/-- The values of a key. -/
def valuesOf (fields : List (Option Text × Json)) (name : Text) : List Json :=
  (fields.filter fun (k, _) => k == some name).map Prod.snd

/-- The values of the named fields of a record, absent ones included. A record is an object that has
each of the fields once at most, whatever else it has, or a list of the values in the order of the
names, from which the last ones may be missing. -/
def record? (names : List Text) : Json → Option (List (Option Json))
  | array es =>
    if es.length ≤ names.length then
      some (es.map some ++ List.replicate (names.length - es.length) none)
    else none
  | object fields =>
    if fields.all fun (k, _) => k.isSome then
      names.mapM fun name =>
        match valuesOf fields name with
        | [] => some none
        | [j] => some (some j)
        | _ => none
    else none
  | _ => none

end Json

end UrlFilter
