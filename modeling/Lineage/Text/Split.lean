/-!
# Fields of a line

A line falls into fields at a separator. The number of fields is bounded: the last one takes the
rest of the line, separators included.
-/

namespace Lineage.Text

/-- The fields of a text, at most `limit` of them. -/
def splitAtMost (separator : Char) : (limit : Nat) → (text : List Char) → List (List Char)
  | 0, _ => []
  | 1, text => [text]
  | limit + 2, text =>
    match text.dropWhile (· != separator) with
    -- No separator is left: the text is the last field.
    | [] => [text]
    | _ :: rest => text.takeWhile (· != separator) :: splitAtMost separator (limit + 1) rest

/-- The letters `A` to `Z` in lower case, all else as it is. -/
def lowerAscii (text : String) : String :=
  text.map Char.toLower

end Lineage.Text
