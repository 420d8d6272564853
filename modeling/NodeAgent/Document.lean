/-!
# Documents

A tree of texts, integers, truth values, lists and named fields: the form in which messages are
shown to people and scripts. A document is lenient where it is read, because those who write one by
hand leave out what they do not need: an absent field, and a field that holds `null`, both read as
the empty value of whatever is asked for. Where it is written, fields whose value is empty are
left out in turn (`Document.compact`), with one exception: a present but empty part of a message is
an empty document, which says something else than no part at all.
-/

namespace NodeAgent

/-- A tree of plain values. -/
inductive Document where
  | null
  | bool (b : Bool)
  | int (n : Int)
  | text (s : String)
  | list (items : List Document)
  | fields (entries : List (String × Document))
deriving Inhabited

namespace Document

/-- The value of a field; `none` if it is absent or holds `null`. -/
def get? (d : Document) (key : String) : Option Document :=
  match d with
  | fields entries =>
    match entries.lookup key with
    | some null | none => none
    | some v => some v
  | _ => none

/-- The document in a field. -/
def part (d : Document) (key : String) : Document := (d.get? key).getD null

/-- Whether the document has the field, whatever it holds. -/
def has (d : Document) (key : String) : Bool :=
  match d with
  | fields entries => (entries.lookup key).isSome
  | _ => false

/-- The fields of the document in order. -/
def entries : Document → List (String × Document)
  | fields es => es
  | _ => []

/-- The items of a list. -/
def items : Document → List Document
  | list ds => ds
  | _ => []

/-- The text of a document. -/
def asText : Document → String
  | text s => s
  | _ => ""

/-- The integer of a document. -/
def asInt : Document → Int
  | int n => n
  | _ => 0

/-- The text in a field. -/
def textAt (d : Document) (key : String) : String := ((d.get? key).map asText).getD ""

/-- The integer in a field. -/
def intAt (d : Document) (key : String) : Int := ((d.get? key).map asInt).getD 0

/-- The natural number in a field. -/
def natAt (d : Document) (key : String) : Nat := (d.intAt key).toNat

/-- The natural number in a field; `dflt` if it is absent. -/
def natOr (d : Document) (key : String) (dflt : Nat) : Nat :=
  ((d.get? key).map (·.asInt.toNat)).getD dflt

/-- The truth value in a field. -/
def boolAt (d : Document) (key : String) : Bool :=
  match d.get? key with
  | some (bool b) => b
  | _ => false

/-- The items of the list in a field. -/
def itemsAt (d : Document) (key : String) : List Document := ((d.get? key).map items).getD []

/-- The texts of the list in a field. -/
def textsAt (d : Document) (key : String) : List String := (d.itemsAt key).map asText

/-- The entries of the document in a field. -/
def entriesAt (d : Document) (key : String) : List (String × Document) :=
  ((d.get? key).map entries).getD []

/-- Whether a field with this value is left out of a message. -/
def isEmpty : Document → Bool
  | null => true
  | bool b => !b
  | int n => n == 0
  | text s => s == ""
  | list ds => ds.isEmpty
  | fields _ => false

/-- The fields that say something. -/
def compact (es : List (String × Document)) : Document := fields (es.filter fun e ↦ !e.2.isEmpty)

/-- The document with one more field at the end. -/
def push (d : Document) (key : String) (v : Document) : Document := fields (d.entries ++ [(key, v)])

/-- A list of texts. -/
def texts (ss : List String) : Document := list (ss.map text)

/-- A natural number. -/
def nat (n : Nat) : Document := int n

/-- The document of a value that may be absent. -/
def option {α : Type} (f : α → Document) : Option α → Document
  | none => null
  | some a => f a

end Document

end NodeAgent
