import FunctionMap.Files.Path
import FunctionMap.Files.Access

/-!
# File trees

A file tree is a directory with files and directories in it, each at a place: the list of names that
leads to it. Places around the tree are named from it by two points, or from the root of all files by
a slash. A path is followed name by name, so every directory on the way has to be there, also where
two points lead back out of it. Writing replaces the content of one file or adds one, and changes
nothing else; a void takes any content and keeps none.

Main statements: a file that has been written holds what was written (`content?_put`), and every other
place holds what it held (`content?_put_of_ne`).
-/

namespace FunctionMap

/-- The names that lead to a file or directory. -/
abbrev Place := List String

/-- Files with their contents, directories, and voids. The root is a directory, and so is every place on
    the way to a file, a directory or a void. -/
structure FileTree where
  files : List (Place × Bytes)
  directories : List Place
  voids : List Place
  deriving DecidableEq, Repr

namespace FileTree

/-! ## 1. Places -/

/-- The content of the file at a place. -/
def content? (t : FileTree) (place : Place) : Option Bytes :=
  (t.files.find? (·.1 = place)).map (·.2)

/-- The root of all files. -/
def top : Place := ["/"]

/-- The name of the directory that a directory is in. -/
def above : String := ".."

/-- The directory that a directory is in. -/
def parent (place : Place) : Place :=
  if place = top then top
  else if place.all (· = above) then above :: place
  else place.dropLast

/-- Whether a place lies in the tree and not around it. -/
def isInside (place : Place) : Bool := place.head? ≠ some above && place.head? ≠ some "/"

/-- Whether a directory is at a place. -/
def isDirectory (t : FileTree) (place : Place) : Bool :=
  place = top || place.all (· = above) || t.directories.any (place.isPrefixOf ·)
    || (t.voids ++ t.files.map (·.1)).any fun p => place.isPrefixOf p && place.length < p.length

/-- Whether a void is at a place. -/
def isVoid (t : FileTree) (place : Place) : Bool := t.voids.contains place

/-- The content at a place in some files, replaced or added. -/
def replace (place : Place) (content : Bytes) : List (Place × Bytes) → List (Place × Bytes)
  | [] => [(place, content)]
  | f :: rest => if f.1 = place then (place, content) :: rest else f :: replace place content rest

/-- A file tree with one file replaced or added. -/
def put (t : FileTree) (place : Place) (content : Bytes) : FileTree :=
  { t with files := replace place content t.files }

theorem find?_replace (place other : Place) (content : Bytes) (files : List (Place × Bytes)) :
    (replace place content files).find? (·.1 = other)
      = if place = other then some (place, content) else files.find? (·.1 = other) := by
  induction files with
  | nil => by_cases h : place = other <;> simp [replace, h]
  | cons f rest ih =>
    unfold replace
    by_cases hf : f.1 = place
    · by_cases h : place = other
      · simp [hf, h]
      · have : ¬ f.1 = other := fun e => h (hf.symm.trans e)
        simp [hf, h]
    · by_cases h : f.1 = other
      · have hp : ¬ place = other := fun e => hf (h.trans e.symm)
        rw [if_neg hf, if_neg hp, List.find?_cons_of_pos (by simpa using h),
          List.find?_cons_of_pos (by simpa using h)]
      · rw [if_neg hf, List.find?_cons_of_neg (by simpa using h), ih,
          List.find?_cons_of_neg (by simpa using h)]

theorem content?_put (t : FileTree) (place : Place) (content : Bytes) :
    (t.put place content).content? place = some content := by
  simp [content?, put, find?_replace]

theorem content?_put_of_ne (t : FileTree) {place other : Place} (h : place ≠ other)
    (content : Bytes) : (t.put place content).content? other = t.content? other := by
  simp [content?, put, find?_replace, h]

/-! ## 2. Following a path -/

/-- The number of bytes that a name can have. -/
def nameLimit : Nat := 255

/-- The number of bytes that a path can have. -/
def pathLimit : Nat := 4095

/-- The place that the parts of a path lead to from a directory. -/
def follow (t : FileTree) (place : Place) : List (List Char) → Except FileError Place
  | [] => .ok place
  | part :: rest =>
    if t.isDirectory place then
      if part = [] ∨ part = ['.'] then t.follow place rest
      else if part = ['.', '.'] then t.follow (parent place) rest
      else if nameLimit < Utf8.size part then .error .nameTooLong
      else t.follow (place ++ [String.ofList part]) rest
    else if (t.content? place).isSome || t.isVoid place then .error .notADirectory
    else .error .notFound

/-- The place that a path leads to. -/
def locate (t : FileTree) (path : String) : Except FileError Place :=
  if '\x00' ∈ path.toList then .error .holdsNul
  else if pathLimit < Utf8.size path.toList then .error .nameTooLong
  else t.follow (if Path.isAbsolute path then top else []) (Path.parts path)

/-! ## 3. Reading and writing -/

/-- The content of the file that a path leads to; a void has none. -/
def read (t : FileTree) (path : String) : Except FileError Bytes :=
  match t.locate path with
  | .error e => .error e
  | .ok place =>
    match t.content? place with
    | some content => .ok content
    | none =>
      if t.isDirectory place then .error .isDirectory
      else if t.isVoid place then .ok []
      else .error .notFound

/-- Whether a path leads to a file. -/
def isFile (t : FileTree) (path : String) : Bool :=
  match t.locate path with
  | .error _ => false
  | .ok place => (t.content? place).isSome

/-- The tree in which the file that a path leads to holds some bytes. A slash at the end of a path
    asks for a directory, which cannot be written to, there or not. -/
def write (t : FileTree) (path : String) (content : Bytes) : Except FileError FileTree :=
  let backwards := path.toList.reverse
  let name := (backwards.dropWhile (· = '/')).reverse
  match t.locate (if name = [] then path else String.ofList name) with
  | .error e => .error e
  | .ok place =>
    if t.isDirectory place then .error .isDirectory
    else if backwards.head? = some '/' then
      .error (if (t.content? place).isSome || t.isVoid place then .notADirectory else .isDirectory)
    else if t.isVoid place then .ok t
    else .ok (t.put place content)

/-- The operations on a file tree that is the state of a run. -/
def access : FileAccess (StateM FileTree) where
  isFile path := do return (← get).isFile path
  read path := do return (← get).read path
  write path content := do
    match (← get).write path content with
    | .ok t =>
      set t
      return .ok ()
    | .error e => return .error e

end FileTree
end FunctionMap
