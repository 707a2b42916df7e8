import FunctionMap.Files.Access

/-!
# The laws of files

Reading and writing are asked of files in any monad. Here the files are the state of a run, and a path
leads to a file or to none, such as a device that keeps nothing. Two paths may lead to one file.

* `FileAccess.content? s path` -- the bytes that a path is read as;
* `FileAccess.StayAs s` -- looking for files and reading them changes nothing;
* `FileAccess.Lawful file?` -- a reading changes nothing, and a writing either fails and changes nothing,
  or replaces the content of the file at its path and nothing else.
-/

namespace FunctionMap

variable {σ ι : Type}

/-- What is done behind a computation is done on the state that it leaves. -/
theorem run_bind_of_run {α β : Type} {x : StateM σ α} {s s' : σ} {a : α} (h : x.run s = (a, s'))
    (f : α → StateM σ β) : (x >>= f).run s = (f a).run s' := by
  rw [StateT.run_bind, h]
  rfl

theorem run_bind_of_stays {α β : Type} {x : StateM σ α} {s : σ} (h : (x.run s).2 = s)
    (f : α → StateM σ β) : (x >>= f).run s = (f (x.run s).1).run s := by
  have hrun : x.run s = ((x.run s).1, (x.run s).2) := rfl
  rw [h] at hrun
  exact run_bind_of_run hrun f

namespace FileAccess

/-- Files that are the same after one was looked for or read. -/
structure StayAs (files : FileAccess (StateM σ)) (s : σ) : Prop where
  isFile : ∀ path, ((files.isFile path).run s).2 = s
  read : ∀ path, ((files.read path).run s).2 = s

/-- The bytes that a path is read as, if it can be read. -/
def content? (files : FileAccess (StateM σ)) (s : σ) (path : String) : Option Bytes :=
  ((files.read path).run s).1.toOption

/-- Two paths that lead to the same file. -/
def SameFile (file? : σ → String → Option ι) (s : σ) (path other : String) : Prop :=
  ∃ i, file? s path = some i ∧ file? s other = some i

/-- Files in which a writing replaces the content of one file or fails, where `file?` tells the file
    that a path leads to. -/
structure Lawful (files : FileAccess (StateM σ)) (file? : σ → String → Option ι) : Prop where
  read_keeps : ∀ {s s' path answer}, (files.read path).run s = (answer, s') → s' = s
  refused_keeps : ∀ {s s' path bytes e}, (files.write path bytes).run s = (.error e, s') → s' = s
  file?_write : ∀ {s s' path bytes}, (files.write path bytes).run s = (.ok (), s') →
    ∀ other, file? s' other = file? s other
  written : ∀ {s s' path bytes}, (files.write path bytes).run s = (.ok (), s') →
    ∀ other, SameFile file? s path other → files.content? s' other = some bytes
  others : ∀ {s s' path bytes}, (files.write path bytes).run s = (.ok (), s') →
    ∀ other, ¬ SameFile file? s path other → files.content? s' other = files.content? s other

end FileAccess
end FunctionMap
