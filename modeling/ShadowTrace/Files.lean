import ShadowTrace.Files.Path
import ShadowTrace.Text.Utf8

/-! # A tree of files

The folders and files of a file system, each under the names that lead to it from the root. A path
is seen from some folder, an absolute one from the root, and the root is its own parent. -/

namespace ShadowTrace

inductive Node where
  | folder
  | file (content : ByteArray)

def Node.isFolder : Node → Bool
  | folder => true
  | file _ => false

structure Files where
  nodes : List (List String × Node) := []

/-- Why a path leads nowhere. -/
inductive Obstacle where
  /-- There is nothing of a name on the way. -/
  | missing
  /-- What is there is no folder, or nothing can have the name. -/
  | blocked
deriving DecidableEq

namespace Files

def node? (files : Files) (names : List String) : Option Node :=
  if names = [] then some .folder else files.nodes.lookup names

def replace (names : List String) (node : Node) :
    List (List String × Node) → List (List String × Node)
  | [] => [(names, node)]
  | entry :: rest =>
    if entry.1 = names then (names, node) :: rest else entry :: replace names node rest

def put (files : Files) (names : List String) (node : Node) : Files :=
  ⟨replace names node files.nodes⟩

/-- The names of the entries of a folder. -/
def children (files : Files) (folder : List String) : List String :=
  files.nodes.filterMap fun (names, _) =>
    if names.dropLast = folder then names.getLast? else none

/-- A name that an entry may have. -/
def isName (name : String) : Bool := name.utf8ByteSize ≤ 255

/-- A path that may be looked up at all. -/
def isUsable (path : String) : Bool :=
  path.utf8ByteSize < 4096 && !path.toList.contains '\x00'

/-! ## Paths -/

/-- Goes one segment further from a folder. -/
def descend (files : Files) (here : List String) (segment : String) :
    Except Obstacle (List String) :=
  if Path.isIdle segment then .ok here
  else if segment = ".." then .ok here.dropLast
  else if !isName segment then .error .blocked
  else match files.node? (here ++ [segment]) with
    | some .folder => .ok (here ++ [segment])
    | some (.file _) => .error .blocked
    | none => .error .missing

/-- The folder that the segments lead to. -/
def follow (files : Files) (here : List String) : List String → Except Obstacle (List String)
  | [] => .ok here
  | segment :: rest =>
    match files.descend here segment with
    | .ok next => files.follow next rest
    | .error obstacle => .error obstacle

/-- The folder that a path starts from when it is seen from the given one. -/
def start (folder : List String) (path : String) : List String :=
  if Path.isAbsolute path then [] else folder

/-! ## Making folders and files -/

/-- Makes the folder the segments lead to. All but the last have to lead through folders that are
there. A folder that is there already stays. -/
def makeFolder (files : Files) (here segments : List String) : Except Obstacle Files := do
  let folder ← files.follow here segments.dropLast
  match segments.getLast? with
  | none => return files
  | some name =>
    match files.descend folder name with
    | .ok _ => return files
    | .error .missing => return files.put (folder ++ [name]) .folder
    | .error .blocked => .error .blocked

/-- Makes the first folder of the list. If a folder above it is missing, the rest of the list is
made before. What was made stays even if one of them cannot be made. -/
def makeFirst (files : Files) (here : List String) : List (List String) → Files × Bool
  | [] => (files, true)
  | segments :: above =>
    match files.makeFolder here segments with
    | .ok files => (files, true)
    | .error .blocked => (files, false)
    | .error .missing =>
      match files.makeFirst here above with
      | (files, false) => (files, false)
      | (files, true) =>
        match files.makeFolder here segments with
        | .ok files => (files, true)
        | .error _ => (files, false)

/-- The folder at a path and all above it, which are the components of the path without the last: a
path that ends with a dot has to lead to a folder that is there. -/
def foldersOf (path : String) : List (List String) :=
  Path.untrailed path :: Path.ancestors (Path.components path).dropLast

/-- Makes the folder at a path, as seen from the given one, and all above it. -/
def makeFolders (files : Files) (here : List String) (path : String) : Files × Bool :=
  if isUsable path then files.makeFirst (start here path) (foldersOf path) else (files, false)

/-- Makes the file at a path, or empties it, and gives its names. Its folder has to be there. -/
def makeFile (files : Files) (here : List String) (path : String) :
    Option (Files × List String) :=
  let segments := Path.segments path
  match isUsable path, files.follow (start here path) segments.dropLast, segments.getLast? with
  | true, .ok folder, some name =>
    let names := folder ++ [name]
    if Path.isIdle name || name = ".." || !isName name || (files.node? names).any Node.isFolder then
      none
    else some (files.put names (.file .empty), names)
  | _, _, _ => none

/-- The bytes with others written over them from the offset on. A gap before the offset is filled
with zeros. -/
def overwrite (content : ByteArray) (offset : Nat) (bytes : ByteArray) : ByteArray :=
  content.extract 0 offset ++ ⟨Array.replicate (offset - content.size) 0⟩ ++ bytes ++
    content.extract (offset + bytes.size) content.size

def write (files : Files) (names : List String) (offset : Nat) (bytes : ByteArray) : Files :=
  match files.node? names with
  | some (.file content) => files.put names (.file (overwrite content offset bytes))
  | _ => files

/-! ## Trees as lists -/

/-- Adds an entry and the folders above it, as seen from the given one; without a text the entry is
a folder itself. -/
def add (files : Files) (here : List String) (path : String) (text : Option String) : Files :=
  match text with
  | none => (files.makeFolders here path).1
  | some content =>
    let folder := "/".intercalate (Path.segments path).dropLast
    let prepared := (files.makeFolders here folder).1
    match prepared.makeFile here path with
    | some (made, names) => made.write names 0 (Text.utf8 content)
    | none => prepared

/-- The tree with a folder of the root and, seen from it, the entries. -/
def ofEntries (folder : String) (entries : List (String × Option String)) : Files :=
  entries.foldl (fun files (path, text) => files.add [folder] path text)
    (({} : Files).put [folder] .folder)

/-- Every entry below a folder with its text, in the order of the paths. The path of a folder ends
with a slash. -/
def listing (files : Files) (folder : List String) : List (String × String) :=
  let entries := files.nodes.filterMap fun (names, node) =>
    let path := "/".intercalate (names.drop folder.length)
    if folder.isPrefixOf names && folder ≠ names then
      match node with
      | .folder => some (path ++ "/", "")
      | .file content => some (path, Text.ofUtf8 content)
    else none
  entries.mergeSort fun left right => left.1 ≤ right.1

/-! ## Searching -/

def startsWith (start name : String) : Bool := start.toList.isPrefixOf name.toList

/-- Whether some entry of the folder has a name that starts with the given one. -/
def holds (files : Files) (name : String) (folder : List String) : Bool :=
  (files.children folder).any (startsWith name)

/-- The first of the folders that holds an entry whose name starts with the given one. -/
def nearest? (files : Files) (folders : List (List String)) (name : String) :
    Option (List String) :=
  folders.find? (files.holds name)

/-- The place of the name in the first of the folders that holds something which starts with it. -/
def search (files : Files) (folders : List (List String)) (name : String) : Option (List String) :=
  (files.nearest? folders name).map fun found => found ++ Path.components name

end Files

end ShadowTrace
