/-!
# Lines of a text

A line ends at a line feed, and a carriage return right before the line feed belongs to the line
end. A text that ends with a line feed has no further, empty line after it.
-/

namespace NodeAgent.Text

/-- The pieces of `cs` between the characters that satisfy `sep`. -/
def splitAtChars (sep : Char → Bool) : List Char → List (List Char)
  | [] => [[]]
  | c :: cs =>
    if sep c then [] :: splitAtChars sep cs
    else
      match splitAtChars sep cs with
      | [] => [[c]]
      | w :: ws => (c :: w) :: ws

/-- A line without the carriage return that belongs to its end. -/
def dropReturn (cs : List Char) : List Char :=
  match cs.reverse with
  | '\r' :: r => r.reverse
  | _ => cs

/-- The lines of the text. -/
def lines (s : String) : List (List Char) :=
  let pieces := splitAtChars (· == '\n') s.toList
  let complete := pieces.dropLast.map dropReturn
  match pieces.getLast? with
  | none | some [] => complete
  | some rest => complete ++ [rest]

end NodeAgent.Text
