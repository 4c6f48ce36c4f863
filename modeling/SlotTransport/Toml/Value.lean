/-
The values that a TOML document holds. Dates and times are recognised but not
kept apart from one another.
-/

namespace SlotTransport.Toml

/-- A value of a document. -/
inductive Value where
  | string (text : String)
  | integer (value : Int)
  | float (value : Float)
  | boolean (value : Bool)
  | datetime
  | array (items : List Value)
  /-- Keys in the order of the document, none of them twice. -/
  | table (entries : List (String × Value))
  deriving Inhabited

/-- The keys of a table and their values. -/
abbrev Table := List (String × Value)

/-- The value of a key. -/
def Table.get? (table : Table) (key : String) : Option Value :=
  List.lookup key table

end SlotTransport.Toml
