import FuzzCampaign.Json.Reader

/-!
# Records in JSON

A record is written as an object with its fields in any order, or as a list of its fields in the
order of declaration. A field is read once; fields that the record does not have are passed over.

* `Json.Field`: a field with its reader;
* `Reader.record`: the reader of a record with given fields.
-/

namespace FuzzCampaign

namespace Json

/-- A field of a record of type `α`: reading it puts its value into the record. -/
structure Field (α : Type) where
  name : String
  required : Bool
  read : α → Reader α

/-- A field that must be present. -/
def Field.of {α β : Type} (name : String) (reader : Reader β) (put : β → α → α) : Field α where
  name := name
  required := true
  read a depth cs := (reader depth cs).map fun p => (put p.1 a, p.2)

/-- A field that may be absent. -/
def Field.ofOption {α β : Type} (name : String) (reader : Reader β) (put : Option β → α → α) :
    Field α where
  name := name
  required := false
  read a depth cs := (Reader.option reader depth cs).map fun p => (put p.1 a, p.2)

namespace Reader

/-- What is known of a record while its fields are read: its value so far, and the names read. -/
structure Gathered (α : Type) where
  value : α
  seen : List String

/-- The field of a name: a field of the record, or one that is passed over. -/
def fieldOf {α : Type} (fields : List (Field α)) (refuse : String → Option String)
    (seen : List String) (name : String) : Except String (Option (Field α)) :=
  match fields.find? fun f => f.name = name with
  | some f => if name ∈ seen then .error s!"duplicate field `{name}`" else .ok (some f)
  | none =>
    match refuse name with
    | some message => .error message
    | none => .ok none

/-- Read the value of a field. -/
def fieldValue {α : Type} (p : Gathered α) (field : Option (Field α)) : Reader (Gathered α) :=
  fun depth cs =>
    match field with
    | some f => (f.read p.value depth cs).map fun q => (⟨q.1, f.name :: p.seen⟩, q.2)
    | none => (skip depth cs).map fun q => (p, q.2)

/-- The fields of a record in the order of declaration, as the items of a list. -/
def fieldItems {α : Type} (expected : String) (depth : Nat) :
    Nat → List (Field α) → α → List Char → Except Fault (α × List Char)
  | _, [], a, cs => .ok (a, cs)
  | i, f :: fs, a, cs =>
    match nextItem (i = 0) cs with
    | .error e => .error e
    | .ok (false, rest) =>
      .error (.ofShape s!"invalid length {i}, expected {expected}" rest)
    | .ok (true, rest) =>
      match f.read a depth rest with
      | .error e => .error e
      | .ok (a, rest) => fieldItems expected depth (i + 1) fs a rest

/-- A record called `name`. `blank` has a value for every field, which the fields read replace;
`refuse` gives the message for a field that may not be passed over, and `check` that for a record
whose fields do not fit together. -/
def recordWith {α β : Type} (name shortList : String) (fields : List (Field α)) (blank : α)
    (refuse : String → Option String) (check : α → Except String β) : Reader β := fun depth cs =>
  match dropSpace cs with
  | [] => .error (.before .eofInValue [])
  | '[' :: r =>
    enter depth ('[' :: r) listEnd fun d cs =>
      match fieldItems shortList d 0 fields blank cs with
      | .error e => .error e
      | .ok (a, rest) =>
        match check a with
        | .error message => .error (.ofShape message rest)
        | .ok b => .ok (b, rest)
  | '\x7b' :: r =>
    enter depth ('\x7b' :: r) objectEnd fun d cs =>
      match entries (fun p key => fieldOf fields refuse p.seen key) fieldValue d (cs.length + 1)
        true ⟨blank, []⟩ cs with
      | .error e => .error e
      | .ok (p, rest) =>
        match fields.find? fun f => f.required && !(p.seen.contains f.name) with
        | some f => .error (.ofShape s!"missing field `{f.name}`" rest)
        | none =>
          match check p.value with
          | .error message => .error (.ofShape message rest)
          | .ok b => .ok (b, rest)
  | cs => .error (unexpected s!"struct {name}" cs)

/-- A record called `name`; fields that it does not have are passed over. -/
def record {α : Type} (name : String) (fields : List (Field α)) (blank : α) : Reader α :=
  recordWith name s!"struct {name} with {fields.length} elements" fields blank (fun _ => none) .ok

end Reader

end Json

end FuzzCampaign
