import FunctionMap.Text.LowerCase
import FunctionMap.Settings.KeyPath
import FunctionMap.Toml.Value

/-!
# Trees of settings

Settings are held in a tree: tables of keys and lists, with scalars at their ends. Every scalar,
list and table has the file that it came from whole, if it came from one. Keys are alike in upper
and lower case.

A layer is laid over a tree key by key. A scalar or a list takes the place of whatever its key had;
a table is merged into the table that its key had, and takes the place of another value unless it is
empty. A path may also lead to an element of a list: it takes the place of the one before.
-/

namespace FunctionMap
namespace Settings

/-- A scalar, a list or a table of keys; `nothing` fills a list up to an element that is set. -/
inductive Node where
  | nothing
  | scalar (file? : Option String) (value : Toml.Scalar)
  | list (file? : Option String) (elements : List Node)
  | table (file? : Option String) (entries : List (String × Node))
  deriving Repr

namespace Node

/-! ## 1. Tables and lists -/

/-- The tree without settings. -/
def empty : Node := .table none []

/-- A key in lower case. -/
def fold (key : String) : String := LowerCase.ofText key

/-- The entries of a table; other nodes have none. -/
def entries : Node → List (String × Node)
  | .table _ es => es
  | _ => []

/-- The elements of a list; other nodes have none. -/
def elements : Node → List Node
  | .list _ ns => ns
  | _ => []

/-- The file that a node came from whole. -/
def file? : Node → Option String
  | .nothing => none
  | .scalar file? _ | .list file? _ | .table file? _ => file?

/-- The file of a table. -/
def tableFile? : Node → Option String
  | .table file? _ => file?
  | _ => none

/-- The file of a list. -/
def listFile? : Node → Option String
  | .list file? _ => file?
  | _ => none

/-- The node of a key, which is given in lower case. -/
def child? (node : Node) (key : String) : Option Node :=
  (node.entries.find? (·.1 = key)).map (·.2)

/-- Entries in which a key has a node. -/
def put (key : String) (node : Node) : List (String × Node) → List (String × Node)
  | [] => [(key, node)]
  | (k, old) :: rest => if k = key then (key, node) :: rest else (k, old) :: put key node rest

/-- A table in which a key has a node. What was no table becomes one. -/
def withChild (old : Node) (key : String) (node : Node) : Node :=
  .table old.tableFile? (put key node old.entries)

/-- A list in which an element is a node, filled up to it. What was no list becomes one, and an
    index before the first element changes nothing more. -/
def withElement (old : Node) (filler : Node) (index : Int) (node : Node → Node) : Node :=
  let ns := old.elements
  let i := if index < 0 then index + ns.length else index
  .list old.listFile? <|
    if i < 0 then ns
    else (ns ++ List.replicate (i.toNat + 1 - ns.length) filler).modify i.toNat node

/-! ## 2. Layers -/

mutual

/-- What a key has after a node is laid over what it had. -/
def merge (old : Node) : Node → Node
  | .table _ es => mergeEntries old es
  | node => node

/-- A node after some entries are laid over it. -/
def mergeEntries (old : Node) : List (String × Node) → Node
  | [] => old
  | (key, node) :: rest =>
    mergeEntries
      (old.withChild (fold key) (merge ((old.child? (fold key)).getD empty) node)) rest

end

/-- A node after another one is laid over it where a path leads. -/
def mergeAt (node : Node) : KeyPath → Node → Node
  | [], old => old.merge node
  | .key key :: rest, old =>
    old.withChild (fold key) (mergeAt node rest ((old.child? (fold key)).getD empty))
  | [.index i], old => old.withElement nothing i fun _ => node
  | .index i :: rest, old => old.withElement empty i (mergeAt node rest)

mutual

/-- The tree of a value from a file. -/
def ofValue (file? : Option String) : Toml.Value → Node
  | .scalar s => .scalar file? s
  | .array vs => .list file? (ofElements file? vs)
  | .table es => .table file? (ofEntries file? es)

/-- The trees of some elements of a list. -/
def ofElements (file? : Option String) : List Toml.Value → List Node
  | [] => []
  | value :: rest => ofValue file? value :: ofElements file? rest

/-- The trees of some entries of a file. -/
def ofEntries (file? : Option String) : List (String × Toml.Value) → List (String × Node)
  | [] => []
  | (key, value) :: rest => (key, ofValue file? value) :: ofEntries file? rest

end

end Node
end Settings
end FunctionMap
