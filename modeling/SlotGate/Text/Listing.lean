/-!
# Listings

How several texts are written as one: between brackets or braces with commas, as named fields on
one line, and as named fields on lines of their own.
-/
namespace SlotGate.Text

def commaSeparated (items : List String) : String := String.intercalate ", " items

def bracketed (items : List String) : String := "[" ++ commaSeparated items ++ "]"

def braced (items : List String) : String := "\x7b" ++ commaSeparated items ++ "\x7d"

/-- A named value with named fields on one line. An open one ends in two dots, which say that not
every field is shown. -/
def fieldsLine (name : String) (fields : List (String × String)) (isOpen : Bool) : String :=
  let shown := fields.map (fun f => f.1 ++ ": " ++ f.2) ++ (if isOpen then [".."] else [])
  name ++ " \x7b " ++ commaSeparated shown ++ " \x7d"

/-- Every line of a text that spans several, its first apart, moves four columns to the right. -/
def indented (s : String) : String :=
  String.intercalate "\n    " (s.splitOn "\n")

/-- The items between brackets, each on a line of its own with a comma after it. -/
def bracketedLines (items : List String) : String :=
  if items.isEmpty then "[]"
  else "[\n" ++ String.join (items.map fun i => "    " ++ indented i ++ ",\n") ++ "]"

/-- The form of `fieldsLine` with one field a line. -/
def fieldsLines (name : String) (fields : List (String × String)) (isOpen : Bool) : String :=
  name ++ " \x7b\n" ++
    String.join (fields.map fun f => "    " ++ f.1 ++ ": " ++ indented f.2 ++ ",\n") ++
    (if isOpen then "    ..\n" else "") ++ "\x7d"

end SlotGate.Text
