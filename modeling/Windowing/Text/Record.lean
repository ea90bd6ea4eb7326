/-!
# Records in text

One-line descriptions of values, for logs: a name, then the fields in braces with their
values. The texts put in quotes here hold neither quotes nor backslashes, so nothing is
escaped.
-/

namespace Windowing

namespace Text

/-- A record with the given fields. Two dots after the last field say that
there are more. -/
def record (name : String) (fields : List (String × String)) (more : Bool) : String :=
  let shown := fields.map fun (field, value) => field ++ ": " ++ value
  let shown := if more then shown ++ [".."] else shown
  name ++ " \x7b " ++ ", ".intercalate shown ++ " \x7d"

def list (values : List String) : String := "[" ++ ", ".intercalate values ++ "]"

/-- A value with its name around it, such as the kind of an element. -/
def tagged (name value : String) : String := name ++ "(" ++ value ++ ")"

def option : Option String → String
  | none => "None"
  | some value => tagged "Some" value

def quoted (text : String) : String := "\"" ++ text ++ "\""

def flag : Bool → String
  | true => "true"
  | false => "false"

end Text

end Windowing
