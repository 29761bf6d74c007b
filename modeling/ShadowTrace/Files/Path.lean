import ShadowTrace.Text

/-! # Paths

A path is a text of segments with slashes between them. Empty segments and single dots name the
place they stand at. -/

namespace ShadowTrace.Path

def segments (path : String) : List String := Text.split '/' path

def isAbsolute (path : String) : Bool := path.toList.head? = some '/'

/-- The second path seen from the first; an absolute one stands for itself. -/
def join (folder path : String) : String :=
  if isAbsolute path || folder.isEmpty then path
  else if folder.toList.getLast? = some '/' then folder ++ path
  else folder ++ "/" ++ path

/-- A segment that names the place it stands at. -/
def isIdle (segment : String) : Bool := segment = "" || segment = "."

/-- The segments without empty ones at the end. -/
def untrailed (path : String) : List String := ((segments path).reverse.dropWhile (· = "")).reverse

/-- The segments that lead somewhere else. -/
def components (path : String) : List String :=
  (segments path).filter fun segment => !isIdle segment

/-- A list of segments and all that it starts with, the longest first. -/
def ancestors (segments : List String) : List (List String) :=
  (List.range (segments.length + 1)).map fun up => segments.take (segments.length - up)

/-- The name up to its last dot. A dot in front is part of the name. -/
def stem (name : String) : String :=
  let reversed := name.toList.reverse
  match reversed.dropWhile (· ≠ '.') with
  | [] => name
  | [_] => name
  | _ :: before => String.ofList before.reverse

/-- The segments without the idle ones at the end. -/
def named (path : String) : List String := ((segments path).reverse.dropWhile isIdle).reverse

/-- How many characters follow the last dot of the name, if something stands before that dot. -/
def extensionLength (name : String) : Nat := name.length - (stem name).length - 1

/-- Ends the last name of the path with an extension in place of the one it has, with none at all if
that is empty. Idle segments behind the last name are dropped; a path that ends by going up, or
names nothing, stays as it is. -/
def setExtension (path extension : String) : String :=
  match (named path).getLast? with
  | none => path
  | some name =>
    if name = ".." then path
    else
      let ending := if extension.isEmpty then "" else "." ++ extension
      "/".intercalate ((named path).dropLast ++ [stem name ++ ending])

/-- The path with another extension. The one it has is cut from its end first: a name of two dots
and an extension is then a path that goes up. -/
def withExtension (path extension : String) : String :=
  let length := extensionLength ((named path).getLast?.getD "")
  setExtension (String.ofList (path.toList.take (path.length - length))) extension

end ShadowTrace.Path
