/-
JSON text without spaces, members in the order given. Names and strings are
written as they are: they hold nothing that would have to be escaped.
-/

namespace SlotTransport.Json

def string (text : String) : String :=
  "\"" ++ text ++ "\""

/-- An object of members whose values are JSON text. -/
def object (members : List (String × String)) : String :=
  "\x7b" ++ ",".intercalate (members.map fun (name, value) => string name ++ ":" ++ value) ++ "\x7d"

def array (values : List String) : String :=
  "[" ++ ",".intercalate values ++ "]"

end SlotTransport.Json
