/-! # JSON values

Numbers are kept apart as integers and floats, because only integers are accepted where an integer
is due. Members of an object stand in the order in which they are written.
-/

namespace Outbox

/-- A number, by the way it was written. -/
inductive Json.Number
  | integer (n : Int)
  | float (x : Float)

inductive Json
  | null
  | bool (b : Bool)
  | number (n : Json.Number)
  | text (s : String)
  | list (items : List Json)
  | object (members : List (String × Json))

namespace Json

instance : Inhabited Json := ⟨null⟩

def integer (n : Int) : Json := number (.integer n)

def natural (n : Nat) : Json := integer n

def ofOption {α : Type} (f : α → Json) : Option α → Json
  | none => null
  | some a => f a

/-- The value of the first member of that name. -/
def member? (key : String) : Json → Option Json
  | object members => members.lookup key
  | _ => none

/-- Members in the order of their keys, the last of several with one key kept. -/
def sortMembers (members : List (String × Json)) : List (String × Json) :=
  members.foldl insert []
where
  /-- Puts a member where its key belongs, over one of the same key. -/
  insert (sorted : List (String × Json)) (entry : String × Json) : List (String × Json) :=
    match sorted with
    | [] => [entry]
    | first :: rest =>
        if entry.1 < first.1 then entry :: first :: rest
        else if entry.1 = first.1 then entry :: rest
        else first :: insert rest entry

mutual

/-- The value with the members of every object in order. -/
def sorted : Json → Json
  | list items => list (sortedItems items)
  | object members => object (sortMembers (sortedMembers members))
  | j => j

def sortedItems : List Json → List Json
  | [] => []
  | item :: rest => sorted item :: sortedItems rest

def sortedMembers : List (String × Json) → List (String × Json)
  | [] => []
  | (key, value) :: rest => (key, sorted value) :: sortedMembers rest

end

end Json

end Outbox
