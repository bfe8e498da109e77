/-!
# JSON trees

A number is an integer or a double. The members of an object stand in the order
of their keys, code point by code point, and no key repeats; `Json.object` brings
pairs into that form, the last of several values for a key winning. Two trees
are therefore equal when their texts are.
-/

namespace RecordMapper

inductive Json where
  | null
  | bool (b : Bool)
  | int (i : Int)
  | float (x : Float)
  | str (s : String)
  | arr (items : List Json)
  | obj (members : List (String × Json))
deriving BEq, Inhabited

namespace Json

/-- Puts a member at the place of its key, replacing one that is there. -/
def insertMember (key : String) (value : Json) :
    List (String × Json) → List (String × Json)
  | [] => [(key, value)]
  | m :: rest =>
      if key < m.1 then (key, value) :: m :: rest
      else if key = m.1 then (key, value) :: rest
      else m :: insertMember key value rest

/-- Sorted members out of pairs in any order. -/
def sortMembers (pairs : List (String × Json)) : List (String × Json) :=
  pairs.foldl (fun ms p => insertMember p.1 p.2 ms) []

def object (pairs : List (String × Json)) : Json :=
  .obj (sortMembers pairs)

end Json

end RecordMapper
