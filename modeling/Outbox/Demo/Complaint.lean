/-! # Complaints

A complaint is a chain of texts: what could not be done, then what that comes from, down to the
cause of it all. It is shown with its causes below it, numbered if there are several.
-/

namespace Outbox.Demo

abbrev Complaint := List String

namespace Complaint

/-- The text with every line but the first moved in. -/
def indented (margin : String) (text : String) : String :=
  String.ofList (text.toList.flatMap fun c => if c = '\n' then '\n' :: margin.toList else [c])

/-- A number with blanks before it, five characters wide. -/
def numbered (n : Nat) : String :=
  let digits := toString n
  String.ofList (List.replicate (5 - digits.length) ' ') ++ digits ++ ": "

/-- Causes with numbers from some number on, each on a line of its own. -/
def numberedCauses : Nat → List String → String
  | _, [] => ""
  | n, cause :: rest =>
      "\n" ++ numbered n ++ indented "       " cause ++ numberedCauses (n + 1) rest

/-- What is shown below the first text. -/
def causes : List String → String
  | [] => ""
  | [cause] => "\n\nCaused by:\n    " ++ indented "    " cause
  | several => "\n\nCaused by:" ++ numberedCauses 0 several

/-- The complaint as it is shown. -/
def text : Complaint → String
  | [] => ""
  | top :: rest => "Error: " ++ top ++ causes rest ++ "\n"

end Complaint

end Outbox.Demo
