/-!
# Paths

A path is a text whose names are divided by slashes. Only what the directory of a patch set needs is
here: joining a root and a name, and telling the names of files that are right under a root.
-/

namespace Hotswap.Path

/-- The pieces between the slashes of a text. -/
def split : List Char → List (List Char)
  | [] => [[]]
  | '/' :: rest => [] :: split rest
  | c :: rest =>
    match split rest with
    | [] => [[c]]
    | piece :: pieces => (c :: piece) :: pieces

/-- The pieces between the slashes of a path. -/
def pieces (path : String) : List String := (split path.toList).map String.ofList

/-- The path of a name under a root. A name that starts with a slash stands for itself. -/
def join (root name : String) : String :=
  if root.isEmpty || name.toList.head? = some '/' then name
  else if root.toList.getLast? = some '/' then root ++ name
  else root ++ "/" ++ name

/-- Whether a text is the name of a file right under a root. Slashes and single dots may follow the
name and mean nothing. -/
def isFileName (name : String) : Bool :=
  match pieces name with
  | [] => false
  | first :: rest =>
    !(["", ".", ".."].contains first) && rest.all fun piece => piece == "" || piece == "."

end Hotswap.Path
