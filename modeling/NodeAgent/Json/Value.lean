import NodeAgent.Json.Reader
/-!
# Reading values of a kind

A reader for each kind of value that a configuration is made of. A value of another kind is unfit,
and the failure says what was found and what was expected. A record is written as an object, whose
unknown fields are skipped and whose known fields come at most once, or as a list of its fields in
order; fields that have a default may be left out.
-/

namespace NodeAgent.Json

/-- The failure of a value of the wrong kind. -/
def invalidType (found expected : String) : Fault :=
  .unfit ("invalid type: " ++ found ++ ", expected " ++ expected)

/-- The failure of a value of the right kind that is not accepted. -/
def invalidValue (found expected : String) : Fault :=
  .unfit ("invalid value: " ++ found ++ ", expected " ++ expected)

/-- How a failure describes a text. -/
def describeText (s : String) : String := "string " ++ Text.quoted s

/-- Fails because of the value that comes next, which is of the wrong kind. A value that is not
well written is found to be so first. -/
def wrongKind {α : Type} (expected : String) : Reader α := do
  match ← peek with
  | none => throw .truncated
  | some 'n' => ofStep (expect "null".toList); throw (invalidType "null" expected)
  | some 't' =>
    ofStep (expect "true".toList)
    throw (invalidType ("boolean " ++ "\x60true\x60") expected)
  | some 'f' =>
    ofStep (expect "false".toList)
    throw (invalidType ("boolean " ++ "\x60" ++ "false\x60") expected)
  | some '"' =>
    take
    let s ← readText
    throw (invalidType (describeText s) expected)
  | some '[' => throw (invalidType "sequence" expected)
  | some '{' => throw (invalidType "map" expected)
  | some c =>
    if c = '-' || c.isDigit then
      let n ← readNumber
      throw (invalidType n.describe expected)
    else throw .malformed

/-- Reads a text. -/
def textValue (expected : String) : Reader String := do
  match ← peek with
  | some '"' => take; readText
  | _ => wrongKind expected

/-- Reads a text that is just a text. -/
def string : Reader String := textValue "a string"

/-- Reads a path. -/
def path : Reader String := textValue "path string"

/-- Reads a truth value. -/
def flag : Reader Bool := do
  match ← peek with
  | some 't' => ofStep (expect "true".toList); return true
  | some 'f' => ofStep (expect "false".toList); return false
  | _ => wrongKind "a boolean"

/-- Reads a natural number below `2 ^ width`. -/
def natural (width : Nat) (expected : String) : Reader Nat := do
  match ← peek with
  | some c =>
    if c = '-' || c.isDigit then
      match ← readNumber with
      | .nat n =>
        if n < Nat.pow 2 width then return n
        else throw (invalidValue (Number.nat n).describe expected)
      | .neg n => throw (invalidValue (Number.neg n).describe expected)
      | .float x => throw (invalidType (Number.float x).describe expected)
    else wrongKind expected
  | none => wrongKind expected

/-- Reads a value unless there is `null`. -/
def optional {α : Type} (r : Reader α) : Reader (Option α) := do
  match ← peek with
  | some 'n' => ofStep (expect "null".toList); return none
  | _ => some <$> r

/-- Takes the end of a list or an object. -/
def takeEnd (close : Char) : Reader Unit := takeChar close

/-- Reads the items that are left of a list. -/
def items {α : Type} (r : Reader α) : (fuel : Nat) → (first : Bool) → Reader (List α)
  | 0, _ => throw .truncated
  | fuel + 1, first => do
    if ← hasItem ']' first then
      let a ← r
      let rest ← items r fuel false
      return a :: rest
    else return []

/-- Reads a list. Every item takes a character. -/
def list {α : Type} (r : Reader α) : Reader (List α) := do
  match ← peek with
  | some '[' =>
    take
    let as ← items r ((← get).length + 1) true
    takeEnd ']'
    return as
  | _ => wrongKind "a sequence"

/-- Reads the key of the next field of an object, if there is one. -/
def key? (first : Bool) : Reader (Option String) := do
  if ← hasItem '}' first then
    takeChar '"'
    some <$> readText
  else return none

/-- An association list, sorted by key, with the value of a key set. -/
def putSorted {α : Type} (k : String) (v : α) : List (String × α) → List (String × α)
  | [] => [(k, v)]
  | (k', v') :: es =>
    if k = k' then (k, v) :: es
    else if k < k' then (k, v) :: (k', v') :: es
    else (k', v') :: putSorted k v es

/-- Reads the fields that are left of an object whose values are all of one kind. -/
def mapFields {α : Type} (r : Reader α) :
    (fuel : Nat) → (first : Bool) → List (String × α) → Reader (List (String × α))
  | 0, _, _ => throw .truncated
  | fuel + 1, first, es => do
    match ← key? first with
    | none => return es
    | some k =>
      takeChar ':'
      let v ← r
      mapFields r fuel false (putSorted k v es)

/-- Reads an object whose values are all of one kind. The last value of a key counts. -/
def map {α : Type} (r : Reader α) : Reader (List (String × α)) := do
  match ← peek with
  | some '{' =>
    take
    let es ← mapFields r ((← get).length + 1) true []
    takeEnd '}'
    return es
  | _ => wrongKind "a map"

/-! ## Records -/

/-- A field of a record of type `ρ`: reading it sets it in a record that is not complete yet. -/
structure Field (ρ : Type) where
  key : String
  /-- Whether the field has no default. -/
  required : Bool
  read : ρ → Reader ρ

namespace Field

variable {ρ α : Type}

/-- A field without a default. -/
def needed (key : String) (r : Reader α) (set : α → ρ → ρ) : Field ρ :=
  ⟨key, true, fun x ↦ do return set (← r) x⟩

/-- A field with a default, which the initial record has. -/
def withDefault (key : String) (r : Reader α) (set : α → ρ → ρ) : Field ρ :=
  ⟨key, false, fun x ↦ do return set (← r) x⟩

end Field

variable {ρ : Type}

/-- Reads the fields that are left of a record written as a list, of which `i` were read. -/
def recordItems (expected : String) (x : ρ) (i : Nat) (first : Bool) :
    List (Field ρ) → Reader ρ
  | [] => return x
  | f :: fs => do
    if ← hasItem ']' first then recordItems expected (← f.read x) (i + 1) false fs
    else if f.required then
      throw (.unfit ("invalid length " ++ toString i ++ ", expected " ++ expected))
    else recordItems expected x (i + 1) first fs

/-- The failure of a required field that was not seen. -/
def missing? (fields : List (Field ρ)) (seen : List String) : Option Fault :=
  (fields.find? fun f ↦ f.required && !seen.contains f.key).map fun f ↦
    .unfit ("missing field " ++ "\x60" ++ f.key ++ "\x60")

/-- Reads the fields that are left of a record written as an object. -/
def recordFields (fields : List (Field ρ)) :
    (fuel : Nat) → (first : Bool) → (seen : List String) → ρ → Reader ρ
  | 0, _, _, _ => throw .truncated
  | fuel + 1, first, seen, x => do
    match ← key? first with
    | none =>
      match missing? fields seen with
      | some fault => throw fault
      | none => return x
    | some k =>
      match fields.find? (·.key == k) with
      | none =>
        takeChar ':'
        skipValue
        recordFields fields fuel false seen x
      | some f =>
        if seen.contains k then
          throw (.unfit ("duplicate field " ++ "\x60" ++ k ++ "\x60"))
        takeChar ':'
        recordFields fields fuel false (k :: seen) (← f.read x)

/-- Reads a record of a name. `init` has the defaults. -/
def record (name : String) (fields : List (Field ρ)) (init : ρ) : Reader ρ := do
  match ← peek with
  | some '{' =>
    take
    let x ← recordFields fields ((← get).length + 1) true [] init
    takeEnd '}'
    return x
  | some '[' =>
    take
    let expected := "struct " ++ name ++ " with " ++ toString fields.length ++ " elements"
    let x ← recordItems expected init 0 true fields
    takeEnd ']'
    return x
  | _ => wrongKind ("struct " ++ name)

/-- The value of a whole text. -/
def parse {α : Type} (r : Reader α) (text : String) : Except Fault α :=
  match r text.toList with
  | .error f => .error f
  | .ok (a, rest) => if rest.all isSpace then .ok a else .error .malformed

end NodeAgent.Json
