import ShadowTrace.Files
import ShadowTrace.Json.Reader
import ShadowTrace.Settings.Convert
import ShadowTrace.Settings.Layers
import ShadowTrace.Toml

/-! # Loading settings

Three sources are laid over one another, in this order: a document in the first folder that holds
something named like one, a document in a variable of the environment, and single variables of the
environment. Folders are searched upwards from the one the program is started in, then upwards from
its executable. -/

namespace ShadowTrace

/-! ## Documents -/

/-- The languages documents are written in. -/
inductive Markup where
  | toml
  | json
  | json5
  | yaml
  | ron
  | ini
deriving DecidableEq

/-- A reader of documents. No table that it gives has a key twice. -/
structure Reader where
  read? : String → Option (List (String × Json))
  keyed : ∀ text entries, read? text = some entries → Keyed Json.Distinct entries

/-- The reader that refuses every document. -/
def Reader.refusing : Reader := ⟨fun _ => none, nofun⟩

/-- How documents are read that are neither TOML nor JSON. -/
structure Readers where
  json5 : Reader := .refusing
  yaml : Reader := .refusing
  ron : Reader := .refusing
  ini : Reader := .refusing

namespace Markup

def all : List Markup := [toml, json, json5, yaml, ron, ini]

/-- What the names of documents end with. -/
def extensions : Markup → List String
  | toml => ["toml"]
  | json => ["json"]
  | json5 => ["json5"]
  | yaml => ["yaml", "yml"]
  | ron => ["ron"]
  | ini => ["ini"]

/-- The entries of a document. -/
def read? (readers : Readers) (text : String) : Markup → Option (List (String × Json))
  | toml => Toml.read? text
  | json =>
    match Json.read? text with
    | some (.object fields) => some fields
    | _ => none
  | json5 => readers.json5.read? text
  | yaml => readers.yaml.read? text
  | ron => readers.ron.read? text
  | ini => readers.ini.read? text

def entries (readers : Readers) (text : String) (markup : Markup) :
    Except LoadError (List (String × Json)) :=
  match markup.read? readers text with
  | some entries => .ok entries
  | none => .error .unreadable

end Markup

/-! ## Surroundings -/

inductive Source where
  | file
  | inline
  | environment
deriving DecidableEq

/-- The orders in which things come that have none: the languages a document is looked for in, and
the entries of each source. -/
structure Arrangement where
  markups : List Markup
  markups_perm : markups.Perm Markup.all
  entries : Source → List (String × Json) → List (String × Json)
  entries_perm : ∀ source all, (entries source all).Perm all

/-- Everything comes as it is listed. -/
def Arrangement.listed : Arrangement := ⟨Markup.all, .refl _, fun _ all => all, fun _ _ => .refl _⟩

/-- Where a program is started: in a folder of a tree of files, in which its executable may be known
to lie, and with some environment. -/
structure Surroundings where
  files : Files := {}
  folder : List String := []
  executable : Option (List String) := none
  environment : List (String × String) := []
  readers : Readers := {}
  arrangement : Arrangement := .listed

/-- The folders that are searched for a document. -/
def Surroundings.searched (here : Surroundings) : List (List String) :=
  Path.ancestors here.folder ++ here.executable.elim [] Path.ancestors

namespace Settings

def fileName : String := "collector_config"

def variablePrefix : String := "COLLECTOR_"

/-- The text without a byte order mark in front. -/
def dropMark (text : String) : String :=
  match text.toList with
  | '\ufeff' :: rest => String.ofList rest
  | _ => text

/-- The document in a folder, in the first markup that has one there. A file of the bare name is of
no known markup and hides the others. -/
def documentIn? (here : Surroundings) (folder : List String) : Option (Markup × String) :=
  match here.files.node? (folder ++ [fileName]) with
  | some (.file _) => none
  | _ => here.arrangement.markups.findSome? fun markup =>
    markup.extensions.findSome? fun extension =>
      match here.files.node? (folder ++ [fileName ++ "." ++ extension]) with
      | some (.file content) => some (markup, dropMark (Text.ofUtf8 content))
      | _ => none

def fileEntries (here : Surroundings) : Except LoadError (List (String × Json)) :=
  match here.files.nearest? here.searched fileName with
  | none => .ok []
  | some folder =>
    match documentIn? here folder with
    | none => .ok []
    | some (markup, text) => markup.entries here.readers text

/-- The document in the environment; a second variable names its markup. -/
def inlineEntries (here : Surroundings) : Except LoadError (List (String × Json)) :=
  match here.environment.lookup (variablePrefix ++ "CONFIG_STR"),
      here.environment.lookup (variablePrefix ++ "CONFIG_STR_FMT") with
  | some text, some name =>
    match Markup.all.find? fun markup => markup.extensions.contains name with
    | some markup => markup.entries here.readers text
    | none => .ok []
  | _, _ => .ok []

/-- Two underscores in the name of a variable stand for a dot. -/
def dotted : List Char → List Char
  | '_' :: '_' :: rest => '.' :: dotted rest
  | c :: rest => c :: dotted rest
  | [] => []

/-- The key a variable sets, `none` if its name does not start as it should. -/
def variableKey? (name : String) : Option String :=
  let start := (Text.lower variablePrefix).toList
  let lowered := (Text.lower name).toList
  if start.isPrefixOf lowered then
    some (String.ofList (dotted (lowered.drop start.length)))
  else none

/-- The single settings of the environment, all of them text. Of two variables for one key the
later holds. -/
def variableEntries (here : Surroundings) : List (String × Json) :=
  here.environment.foldl
    (fun entries (name, text) =>
      match variableKey? name with
      | some key => Json.setField key (.string text) entries
      | none => entries)
    []

def placeBytes : Nat := 96

/-- There has to be room for the places that the keys of a document name. -/
def checkPlaces (entries : List (String × Json)) : Except LoadError Unit :=
  let rooms := entries.flatMap fun (key, _) => (Json.Route.ofKey key).map Json.Selector.room
  match rooms.forM fun room => reserve (UInt64.ofNat room) placeBytes with
  | .ok _ => .ok ()
  | .error error => .error (.unusable error)

/-- Lays a source over what has been read, entry by entry. -/
def laid (here : Surroundings) (source : Source) (below : Json)
    (entries : Except LoadError (List (String × Json))) : Except LoadError Json := do
  let arranged := here.arrangement.entries source (← entries)
  checkPlaces arranged
  return below.overlayEntries arranged

def load (here : Surroundings) : Except LoadError Settings := do
  let fromFile ← laid here .file (.object []) (fileEntries here)
  let withText ← laid here .inline fromFile (inlineEntries here)
  ofJson (← laid here .environment withText (.ok (variableEntries here)))

end Settings

end ShadowTrace
