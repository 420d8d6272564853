import NodeAgent.Text.Lines
/-!
# Paths

A path is a text; what it leads to is a location, the names on the way from the root. Different
paths lead to one location: empty names and `.` stay where they are, and `..` goes back up.
-/

namespace NodeAgent

/-- The path of a file or directory. -/
abbrev Path := String

/-- The names on the way from the root to a file or directory. -/
abbrev Location := List String

namespace Path

/-- The location after one more name. -/
def follow (l : Location) (name : String) : Location :=
  if name = "" ∨ name = "." then l else if name = ".." then l.dropLast else l ++ [name]

/-- Where a path leads to. -/
def location (p : Path) : Location :=
  ((Text.splitAtChars (· == '/') p.toList).map String.ofList).foldl follow []

/-- The path `q` seen from `p`; one that starts at the root is the same from everywhere. -/
def join (p q : Path) : Path :=
  if q.toList.head? = some '/' then q
  else if p = "" ∨ p.toList.getLast? = some '/' then p ++ q
  else p ++ "/" ++ q

end Path

end NodeAgent
