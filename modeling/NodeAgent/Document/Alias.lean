import NodeAgent.Document
/-!
# Names for random texts

A document may hold texts that nobody chose: identifiers and secrets that are drawn at random. So
that two documents can be compared, such a text is shown under a name instead, which tells its sort
and its place among the texts of that sort in the order in which they were first shown. Whoever
writes a document uses the same names; a name that was not given out yet stands for itself.

In a document a random text is a *hidden* one, which begins with a character that no other text has.
-/

namespace NodeAgent

/-- What a hidden text begins with. -/
def hiddenMark : Char := '\x01'

/-- The hidden text of a number, of a sort. -/
def hidden (sort : Char) (n : Nat) : String :=
  String.ofList (hiddenMark :: sort :: (toString n).toList)

/-- The hidden texts that were shown, by sort, in the order in which they were. -/
structure Aliases where
  shown : List (Char × List String) := []
deriving Inhabited

namespace Aliases

/-- The texts of a sort that were shown. -/
def «of» (a : Aliases) (sort : Char) : List String := (a.shown.lookup sort).getD []

/-- The sort whose texts all have one name. -/
def nameless : Char := 'u'

/-- The name of all nameless texts. -/
def anyName : String := "$uuid"

/-- The name of a hidden text; one that was not shown yet gets the next number. -/
def named (a : Aliases) (sort : Char) (s : String) : String × Aliases :=
  if sort = nameless then (anyName, a)
  else
    let seen := a.of sort
    let seen := if seen.contains s then seen else seen ++ [s]
    (String.ofList ['$', sort] ++ toString (seen.idxOf s),
      ⟨(sort, seen) :: a.shown.filter (·.1 ≠ sort)⟩)

/-- A text as it is shown. A hidden text at the end of another one is a nameless one. -/
def showText (a : Aliases) (s : String) : String × Aliases :=
  match s.toList.span (· ≠ hiddenMark) with
  | (_, []) | (_, [_]) => (s, a)
  | ([], _ :: sort :: _) => a.named sort s
  | (before, _) => (String.ofList before ++ anyName, a)

mutual

/-- A document as it is shown. -/
def «show» (a : Aliases) : Document → Document × Aliases
  | .text s =>
    let (s, a) := a.showText s
    (.text s, a)
  | .list ds =>
    let (ds, a) := showAll a ds
    (.list ds, a)
  | .fields es =>
    let (es, a) := showFields a es
    (.fields es, a)
  | d => (d, a)

/-- The documents of a list as they are shown. -/
def showAll (a : Aliases) : List Document → List Document × Aliases
  | [] => ([], a)
  | d :: ds =>
    let (d, a) := «show» a d
    let (ds, a) := showAll a ds
    (d :: ds, a)

/-- Fields as they are shown. -/
def showFields (a : Aliases) : List (String × Document) → List (String × Document) × Aliases
  | [] => ([], a)
  | (k, d) :: es =>
    let (d, a) := «show» a d
    let (es, a) := showFields a es
    ((k, d) :: es, a)

end

/-! ## Reading names -/

/-- The text that somebody means by a text. -/
def meant (a : Aliases) (s : String) : String :=
  match s.toList with
  | '$' :: sort :: ds =>
    match (String.ofList ds).toNat? with
    | some i => (a.of sort)[i]?.getD s
    | none => s
  | _ => s

mutual

/-- A document with the texts that are meant by names in fields of some keys. -/
def read (a : Aliases) (keys : List String) : Document → Document
  | .list ds => .list (readAll a keys ds)
  | .fields es => .fields (readFields a keys es)
  | d => d

/-- The documents of a list with the texts that are meant. -/
def readAll (a : Aliases) (keys : List String) : List Document → List Document
  | [] => []
  | d :: ds => read a keys d :: readAll a keys ds

/-- Fields with the texts that are meant. -/
def readFields (a : Aliases) (keys : List String) :
    List (String × Document) → List (String × Document)
  | [] => []
  | (k, .text s) :: es =>
    (k, .text (if keys.contains k then a.meant s else s)) :: readFields a keys es
  | (k, d) :: es => (k, read a keys d) :: readFields a keys es

end

end Aliases

end NodeAgent
