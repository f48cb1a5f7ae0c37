/-!
How a debugging form writes several parts: lists in square brackets, tuples in round ones, and
records as a name with named fields.
-/

namespace MiniLisp.Text

/-- Parts with a comma and a space between neighbours. -/
def commaSeparated (parts : List String) : String :=
  ", ".intercalate parts

/-- A list of parts. -/
def listed (parts : List String) : String :=
  "[" ++ commaSeparated parts ++ "]"

/-- A tuple of parts; a single part is followed by a comma. -/
def tupled : List String → String
  | [] => "()"
  | [part] => "(" ++ part ++ ",)"
  | parts => "(" ++ commaSeparated parts ++ ")"

/-- A record: its name and its fields in order. -/
def record (name : String) (fields : List (String × String)) : String :=
  name ++ "(" ++ commaSeparated (fields.map fun (label, part) => label ++ "=" ++ part) ++ ")"

end MiniLisp.Text
