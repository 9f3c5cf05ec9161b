namespace SpscQueue

/-- A record as it is shown to a person: a name, some fields with the text of their values, and
whether there are more fields than these. -/
structure RecordText where
  name : String
  fields : List (String × String)
  abridged : Bool
deriving DecidableEq, Repr

namespace RecordText

/-- Writes the name and, in braces, the fields. Two dots stand for the fields that an abridged record
leaves out. -/
def render (r : RecordText) : String :=
  let shown := r.fields.map fun field => field.1 ++ ": " ++ field.2
  let items := if r.abridged then shown ++ [".."] else shown
  if items.isEmpty then r.name
  else r.name ++ " \x7b " ++ ", ".intercalate items ++ " \x7d"

end RecordText

end SpscQueue
