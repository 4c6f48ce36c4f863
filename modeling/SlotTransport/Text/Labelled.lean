/-
Labelled values for logs: a name, and in braces what belongs to it.
-/

namespace SlotTransport.Labelled

/-- A name with labelled parts. -/
def render (name : String) (parts : List (String × String)) : String :=
  name ++ " \x7b " ++ ", ".intercalate (parts.map fun (label, part) => label ++ ": " ++ part) ++ " \x7d"

def optional : Option String → String
  | some part => "Some(" ++ part ++ ")"
  | none => "None"

end SlotTransport.Labelled
