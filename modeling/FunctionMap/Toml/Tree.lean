import FunctionMap.Toml.Value

/-!
# Tables under construction

While a file is read, a table remembers how it came about, because that decides what may still be
added to it:

* a table that a header names is defined once;
* a table that a longer header passes through may be named by a header later, and then comes after
  the entries that its parent has by then;
* a table that a key with points passes through grows by such keys alone;
* the last one of an array of tables can be passed through, by headers and by keys with points;
* a value, also an array or a table in braces, is complete.

Every addition that is not allowed has no result.
-/

namespace FunctionMap
namespace Toml

/-- How a table came about. -/
inductive Origin where
  /-- A header names it. -/
  | named
  /-- A longer header passes through it. -/
  | passed
  /-- A key with points passes through it. -/
  | dotted
  deriving DecidableEq, Repr

/-- A value, a table or an array of tables; of the latter the last one is at hand. -/
inductive Item where
  | value (v : Value)
  | table (origin : Origin) (entries : List (String × Item))
  | tables (before : List (List (String × Item))) (last : List (String × Item))

/-- The entries of a table, in the order in which they came. -/
abbrev Entries := List (String × Item)

namespace Entries

/-- The item of a key. -/
def find? (key : String) : Entries → Option Item
  | [] => none
  | (k, item) :: rest => if k = key then some item else find? key rest

/-- Gives an item to a key, in the place of the one it has. -/
def put (key : String) (item : Item) : Entries → Entries
  | [] => [(key, item)]
  | (k, old) :: rest => if k = key then (key, item) :: rest else (k, old) :: put key item rest

/-- Adds a value under a key with points. The tables on the way come about by it, or by such keys
    before it. -/
def addDotted (value : Value) : List String → Entries → Option Entries
  | [], _ => none
  | [key], entries =>
    match find? key entries with
    | none => some (put key (.value value) entries)
    | some _ => none
  | key :: keys, entries =>
    match find? key entries with
    | none => (addDotted value keys []).map fun inner => put key (.table .dotted inner) entries
    | some (.table .dotted inner) =>
      (addDotted value keys inner).map fun inner => put key (.table .dotted inner) entries
    | some (.table .passed inner) =>
      match keys with
      | [_] => none
      | _ => (addDotted value keys inner).map fun inner => put key (.table .passed inner) entries
    | some (.tables before last) =>
      match keys with
      | [_] => none
      | _ => (addDotted value keys last).map fun last => put key (.tables before last) entries
    | some _ => none

/-- Changes the table that a path of headers leads to; tables that are missing come about. -/
def within (change : Entries → Option Entries) : List String → Entries → Option Entries
  | [], entries => change entries
  | key :: keys, entries =>
    match find? key entries with
    | none => (within change keys []).map fun inner => put key (.table .passed inner) entries
    | some (.table origin inner) =>
      (within change keys inner).map fun inner => put key (.table origin inner) entries
    | some (.tables before last) =>
      (within change keys last).map fun last => put key (.tables before last) entries
    | some (.value _) => none

/-- The entries without a key. -/
def erase (key : String) (entries : Entries) : Entries := entries.filter (·.1 ≠ key)

/-- Opens the table that a header names, behind all entries. -/
def openTable (key : String) (entries : Entries) : Option Entries :=
  match find? key entries with
  | none => some (entries ++ [(key, .table .named [])])
  | some (.table .passed inner) => some (erase key entries ++ [(key, .table .named inner)])
  | some _ => none

/-- Opens one more table of the array that a header names. -/
def openElement (key : String) (entries : Entries) : Option Entries :=
  match find? key entries with
  | none => some (put key (.tables [] []) entries)
  | some (.tables before last) => some (put key (.tables (before ++ [last]) []) entries)
  | some _ => none

end Entries

mutual

/-- The value that an item has become. -/
def Item.toValue : Item → Value
  | .value v => v
  | .table _ entries => .table (entriesValues entries)
  | .tables before last => .array (tablesValues before ++ [.table (entriesValues last)])

/-- The values that the entries of a table have become. -/
def entriesValues : List (String × Item) → List (String × Value)
  | [] => []
  | (key, item) :: rest => (key, item.toValue) :: entriesValues rest

/-- The values that some tables have become. -/
def tablesValues : List (List (String × Item)) → List Value
  | [] => []
  | entries :: rest => .table (entriesValues entries) :: tablesValues rest

end

end Toml
end FunctionMap
