import ShadowTrace.Json

/-! # TOML tables

A table may be defined once, by a header or by dotted keys, and what a header only passes
through may be defined later in either way. Inline values are complete where they stand: nothing
is added to them. -/

namespace ShadowTrace.Toml

inductive Kind where
  /-- Passed through by a header. -/
  | implied
  /-- Made by a dotted key. -/
  | dotted
  /-- Defined by a header. -/
  | declared
deriving DecidableEq

/-- What stands under a key. The latest of several tables comes first. -/
inductive Item where
  | value (value : Json)
  | table (kind : Kind) (entries : List (String × Item))
  | tables (all : List (List (String × Item)))

abbrev Table := List (String × Item)

namespace Table

def set (key : String) (item : Item) : Table → Table
  | [] => [(key, item)]
  | entry :: rest => if entry.1 = key then (key, item) :: rest else entry :: set key item rest

/-- Changes the table a header leads to, through the latest of several tables, making those that
are missing. -/
def within (change : Table → Option Table) : List String → Table → Option Table
  | [], table => change table
  | key :: rest, table =>
    match table.lookup key with
    | none => (within change rest []).map fun inner => table.set key (.table .implied inner)
    | some (.table kind inner) =>
      (within change rest inner).map fun inner => table.set key (.table kind inner)
    | some (.tables (latest :: older)) =>
      (within change rest latest).map fun latest => table.set key (.tables (latest :: older))
    | some _ => none

/-- Defines the table of a header. -/
def declare (key : String) (table : Table) : Option Table :=
  match table.lookup key with
  | none => some (table.set key (.table .declared []))
  | some (.table .implied inner) => some (table.set key (.table .declared inner))
  | some _ => none

/-- Adds one more table under the key. -/
def declareNext (key : String) (table : Table) : Option Table :=
  match table.lookup key with
  | none => some (table.set key (.tables [[]]))
  | some (.tables all) => some (table.set key (.tables ([] :: all)))
  | some _ => none

/-- Adds a value under a dotted key. It may lead through tables that no header defines, and through
the latest of several; the table that gets the value then counts as made by dotted keys. -/
def insert (value : Json) : List String → Table → Option Table
  | [], _ => none
  | [key], table => if (table.lookup key).isSome then none else some (table.set key (.value value))
  | key :: rest, table =>
    match table.lookup key with
    | none => (insert value rest []).map fun inner => table.set key (.table .dotted inner)
    | some (.table .dotted inner) =>
      (insert value rest inner).map fun inner => table.set key (.table .dotted inner)
    | some (.table .implied inner) =>
      let kind := if rest.length ≤ 1 then Kind.dotted else .implied
      (insert value rest inner).map fun inner => table.set key (.table kind inner)
    | some (.tables (latest :: older)) =>
      if rest.length ≤ 1 then none
      else (insert value rest latest).map fun latest => table.set key (.tables (latest :: older))
    | some _ => none

end Table

mutual

def Item.toJson : Item → Json
  | .value value => value
  | .table _ entries => .object (entriesToJson entries)
  | .tables all => .array (tablesToJson all).reverse

def entriesToJson : List (String × Item) → List (String × Json)
  | [] => []
  | (key, item) :: rest => (key, item.toJson) :: entriesToJson rest

def tablesToJson : List (List (String × Item)) → List Json
  | [] => []
  | entries :: rest => .object (entriesToJson entries) :: tablesToJson rest

end

end ShadowTrace.Toml
