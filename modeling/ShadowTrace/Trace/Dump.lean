import ShadowTrace.Files
import ShadowTrace.Json.Lines
import ShadowTrace.Record
import ShadowTrace.Setup

/-! # Dumps

A dump writes the records of one thread to a file, one line each, starting at the beginning of an
emptied file. -/

namespace ShadowTrace

namespace DumpFormat

def extension : DumpFormat → String
  | text => "txt"
  | jsonLines => "jsonl"

/-- The line of a record. -/
def line (format : DumpFormat) (record : Record) : String :=
  match format with
  | text => record.text ++ "\n"
  | jsonLines => record.toJson.lines 0

end DumpFormat

namespace DumpSettings

def folder (settings : DumpSettings) : String := settings.directory.getD "."

def extensionOrDefault (settings : DumpSettings) : String :=
  settings.extension.getD settings.format.extension

/-- The file of the thread with the given name. -/
def path (settings : DumpSettings) (thread : String) : String :=
  Path.withExtension (Path.join settings.folder (settings.namePrefix.getD "sym_trace_" ++ thread))
    settings.extensionOrDefault

end DumpSettings

/-- An open dump: the names of its file, how far it has been written, and how many objects are open
at this point of the output. -/
structure Dump where
  file : List String
  format : DumpFormat
  offset : Nat := 0
  depth : Nat := 0
deriving DecidableEq

namespace Dump

/-- Opens the dump of a thread, its path as seen from the given folder. If the folder of the dump or
its file cannot be made there is no dump. -/
def create (settings : DumpSettings) (files : Files) (here : List String) (thread : String) :
    Except SetupError (Option Dump × Files) :=
  match files.makeFolders here settings.folder with
  | (files, false) => .ok (none, files)
  | (files, true) =>
    if settings.extensionOrDefault.toList.contains '/' then
      .error (.separatorInExtension settings.extensionOrDefault)
    else match files.makeFile here (settings.path thread) with
      | none => .ok (none, files)
      | some (files, file) => .ok (some { file, format := settings.format }, files)

/-- The text of a record, and how many objects are open behind it. As JSON it is handed to a writer
that goes on with the count of the dump. -/
def print? (dump : Dump) (record : Record) : Option (String × Nat) :=
  match dump.format with
  | .text => some (record.text ++ "\n", dump.depth)
  | .jsonLines =>
    (record.toJson.tokens.foldlM Json.LineWriter.write? ⟨dump.depth, ""⟩).map fun writer =>
      (writer.text, writer.depth)

def write (dump : Dump) (files : Files) (record : Record) : Dump × Files :=
  match dump.print? record with
  | none => (dump, files)
  | some (text, depth) =>
    let bytes := Text.utf8 text
    ({ dump with offset := dump.offset + bytes.size, depth },
      files.write dump.file dump.offset bytes)

end Dump

end ShadowTrace
