import SiteProfiler.Text

/-!
# Compact JSON

JSON without blanks, built from integers, arrays and objects.  A value is the list of pieces in
which it is written, so that a writer that fails part of the way can be followed piece by piece.
Keys are written as they stand; those used here need no escapes.
-/

namespace SiteProfiler.CompactJson

/-- A JSON value as the pieces in which it is written. -/
abbrev Pieces := List String

def integer (value : Int) : Pieces := [intText value]

/-- Elements one after the other, with a comma between neighbours. -/
def separated : List Pieces → Pieces
  | [] => []
  | first :: rest => first ++ rest.flatMap fun item => "," :: item

def array (items : List Pieces) : Pieces := "[" :: separated items ++ ["]"]

/-- A key in quotes, a colon, and the value. -/
def member (key : String) (value : Pieces) : Pieces := ["\"", key, "\"", ":"] ++ value

def object (members : List (String × Pieces)) : Pieces :=
  "\x7b" :: separated (members.map fun entry => member entry.1 entry.2) ++ ["\x7d"]

/-- The whole text of a value. -/
def text (pieces : Pieces) : String := String.join pieces

end SiteProfiler.CompactJson
