import UrlFilter.Json.Printer
import UrlFilter.Json.Reader
import UrlFilter.Snapshot.Basic

/-!
# Snapshots as JSON

A snapshot is stored as a JSON document. Reading accepts fields in any order and passes over those it
does not know; a record may also be the list of its values.
-/

namespace UrlFilter.Snapshot

/-- The name of the form of rules. -/
def kindName (isExact : Bool) : Text := (if isExact then "exact" else "pattern").toList

/-- An entry as a JSON value. -/
def Entry.toJson (e : Entry) : Json :=
  let joined := match e.joined with
    | none => []
    | some t => [("regex", Json.text t)]
  .record ([
    ("name", .text e.name),
    ("kind", .text (kindName e.isExact)),
    ("has_rules", .bool e.hasRules),
    ("rules", .texts e.rules)] ++ joined)

/-- A snapshot as a JSON value. -/
def toJson (s : Snapshot) : Json :=
  .record [
    ("version", .nat s.version),
    ("buckets", .array (s.entries.map Entry.toJson)),
    ("good_domain_exceptions", .texts s.blockedHosts)]

/-- The document of a snapshot. -/
def write (s : Snapshot) : Text := s.toJson.pretty

/-- The form of rules that a name stands for. -/
def kindOfName? (t : Text) : Option Bool :=
  if t = kindName true then some true
  else if t = kindName false then some false
  else none

/-- Reads the form of rules: its name, or an object with its name and null. -/
def kind? : Json → Option Bool
  | .string (some t) => kindOfName? t
  | .object [(some t, .null)] => kindOfName? t
  | _ => none

/-- Reads an entry. -/
def Entry.ofJson? (j : Json) : Option Entry :=
  (j.record? (["name", "kind", "has_rules", "rules", "regex"].map String.toList)).bind fun fields =>
    match fields with
    | [some name, some kind, some hasRules, some rules, joined] =>
      name.text?.bind fun name =>
        (kind? kind).bind fun isExact =>
          hasRules.bool?.bind fun hasRules =>
            rules.texts?.bind fun rules =>
              ((joined.getD .null).optional? Json.text?).map fun joined =>
                ⟨name, isExact, hasRules, rules, joined⟩
    | _ => none

/-- The limit on the numbers of versions. -/
def versionLimit : Nat := UInt32.size

/-- Reads a snapshot. -/
def ofJson? (j : Json) : Option Snapshot :=
  (j.record? (["version", "buckets", "good_domain_exceptions"].map String.toList)).bind fun fields =>
    match fields with
    | [some version, some entries, blockedHosts] =>
      (version.natBelow? versionLimit).bind fun version =>
        (entries.list?.bind fun es => es.mapM Entry.ofJson?).bind fun entries =>
          ((blockedHosts.getD (.array [])).texts?).map fun blockedHosts =>
            ⟨version, entries, blockedHosts⟩
    | _ => none

/-- The snapshot of a document. -/
def read? (t : Text) : Option Snapshot := (Json.read? t).bind ofJson?

/-- The rule base of a document. -/
def load (t : Text) : Except Failure RuleBase :=
  match read? t with
  | none => .error .unreadable
  | some s => s.toRuleBase

end UrlFilter.Snapshot
