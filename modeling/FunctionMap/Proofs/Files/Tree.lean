import FunctionMap.Files.Tree
import FunctionMap.Proofs.Files.Laws
import FunctionMap.Proofs.Source.Cursor

/-!
# File trees are lawful

A path is followed through directories only, so all directories on the way to a place that a path leads
to are there already. A file that is put there makes no new directory, and every path leads where it led
before. A path that starts in the tree and has no two points does not lead out of it.

* `OnWay t place` -- everything on the way to a place is a directory;
* `FileTree.file? t path` -- the place of the file that a path leads to.

Main statements: `lawful_access`, and that writing under such a path changes nothing around the tree
(`content?_of_write`).
-/

namespace FunctionMap

namespace Path

/-- No part of a path holds a slash. -/
theorem slash_not_mem_of_mem_parts {path : String} : ∀ part ∈ parts path, '/' ∉ part := by
  rw [parts]
  induction path.toList with
  | nil => simp [Excerpt.segments]
  | cons c cs ih =>
    rw [Excerpt.segments]
    split
    · exact List.forall_mem_cons.mpr ⟨List.not_mem_nil, ih⟩
    · rename_i hc
      cases hsegments : Excerpt.segments '/' cs with
      | nil => simpa [Excerpt.consFirst] using Ne.symm hc
      | cons first others =>
        rw [hsegments, List.forall_mem_cons] at ih
        refine List.forall_mem_cons.mpr ⟨fun hmem => ?_, ih.2⟩
        exact (List.mem_cons.mp hmem).elim (fun h => hc h.symm) ih.1

end Path

namespace FileTree

/-! ## 1. Directories -/

/-- Every place on the way to a place, and before it, is a directory. -/
def OnWay (t : FileTree) (place : Place) : Prop :=
  ∀ front, front <+: place → front ≠ place → t.isDirectory front = true

theorem isDirectory_of_all_above {t : FileTree} {place : Place} (h : place.all (· = above) = true) :
    t.isDirectory place = true := by
  rw [isDirectory, h]
  simp only [Bool.or_true, Bool.true_or]

theorem onWay_nil (t : FileTree) : t.OnWay [] := by
  intro front hfront hne
  exact absurd (List.prefix_nil.mp hfront) hne

theorem OnWay.snoc {t : FileTree} {place : Place} (h : t.OnWay place)
    (hplace : t.isDirectory place = true) (name : String) : t.OnWay (place ++ [name]) := by
  intro front hfront hne
  obtain rfl | hfront := List.prefix_concat_iff.mp hfront
  · exact absurd rfl hne
  · by_cases heq : front = place
    · rw [heq, hplace]
    · exact h front hfront heq

theorem onWay_top (t : FileTree) : t.OnWay top :=
  (onWay_nil t).snoc (isDirectory_of_all_above rfl) "/"

theorem OnWay.parent {t : FileTree} {place : Place} (h : t.OnWay place) :
    t.OnWay (parent place) := by
  unfold FileTree.parent
  split
  · exact onWay_top t
  · split
    · rename_i habove
      intro front hfront _
      refine isDirectory_of_all_above ?_
      have hall : (above :: place).all (· = above) = true := by
        rw [List.all_cons, habove]
        rfl
      exact List.all_eq_true.mpr fun name hname =>
        List.all_eq_true.mp hall name (hfront.subset hname)
    · intro front hfront hne
      refine h front (hfront.trans (List.dropLast_prefix place)) fun heq => ?_
      rw [heq] at hfront hne
      exact hne (hfront.eq_of_length_le (by simp))

/-- A place that a path is followed to has directories on its way. -/
theorem onWay_of_follow {t : FileTree} {place reached : Place} {parts : List (List Char)}
    (hplace : t.OnWay place) (h : t.follow place parts = .ok reached) : t.OnWay reached := by
  induction parts generalizing place with
  | nil =>
    cases h
    exact hplace
  | cons part rest ih =>
    unfold follow at h
    split at h
    · rename_i hdirectory
      split at h
      · exact ih hplace h
      · split at h
        · exact ih hplace.parent h
        · split at h
          · cases h
          · exact ih (hplace.snoc hdirectory _) h
    · split at h <;> cases h

theorem onWay_of_locate {t : FileTree} {path : String} {place : Place}
    (h : t.locate path = .ok place) : t.OnWay place := by
  unfold locate at h
  split at h
  · cases h
  · split at h
    · cases h
    · refine onWay_of_follow ?_ h
      split
      · exact onWay_top t
      · exact onWay_nil t

/-! ## 2. A file more -/

theorem mem_replace {place other : Place} {content : Bytes} {files : List (Place × Bytes)} :
    other ∈ (replace place content files).map (·.1) ↔
      other = place ∨ other ∈ files.map (·.1) := by
  induction files with
  | nil => simp [replace]
  | cons f rest ih =>
    unfold replace
    split
    · rename_i hf
      simp [hf]
    · rw [List.map_cons, List.mem_cons, ih, List.map_cons, List.mem_cons, or_left_comm]

/-- **A file that is put where a path leads makes no directory.** -/
theorem isDirectory_put {t : FileTree} {place : Place} (hplace : t.OnWay place) (content : Bytes)
    (other : Place) : (t.put place content).isDirectory other = t.isDirectory other := by
  rw [Bool.eq_iff_iff]
  constructor
  · intro h
    by_cases hother : other <+: place ∧ other ≠ place
    · exact hplace other hother.1 hother.2
    · simp only [isDirectory, put, Bool.or_eq_true, List.any_eq_true, List.mem_append, mem_replace,
        Bool.and_eq_true, List.isPrefixOf_iff_prefix, decide_eq_true_eq] at h ⊢
      refine h.imp_right fun hbehind => ?_
      obtain ⟨p, hp, hfront, hlength⟩ := hbehind
      refine ⟨p, ?_, hfront, hlength⟩
      obtain hvoid | rfl | hfile := hp
      · exact Or.inl hvoid
      · exact absurd ⟨hfront, fun heq => by simp [heq] at hlength⟩ hother
      · exact Or.inr hfile
  · intro h
    simp only [isDirectory, put, Bool.or_eq_true, List.any_eq_true, List.mem_append,
      mem_replace] at h ⊢
    refine h.imp_right fun hbehind => ?_
    obtain ⟨p, hp, hbehind⟩ := hbehind
    exact ⟨p, hp.imp_right Or.inr, hbehind⟩

/-- Trees with the same directories have the same places behind a path. -/
theorem toOption_follow_congr {t t' : FileTree}
    (h : ∀ place, t'.isDirectory place = t.isDirectory place) (place : Place)
    (parts : List (List Char)) :
    (t'.follow place parts).toOption = (t.follow place parts).toOption := by
  induction parts generalizing place with
  | nil => rfl
  | cons part rest ih =>
    rw [follow, follow, h place]
    split
    · split
      · exact ih place
      · split
        · exact ih (FileTree.parent place)
        · split
          · rfl
          · exact ih _
    · -- only the reason may differ
      split <;> split <;> rfl

theorem toOption_locate_congr {t t' : FileTree}
    (h : ∀ place, t'.isDirectory place = t.isDirectory place) (path : String) :
    (t'.locate path).toOption = (t.locate path).toOption := by
  unfold locate
  split
  · rfl
  · split
    · rfl
    · exact toOption_follow_congr h _ _

/-! ## 3. Reading and writing -/

/-- The place of the file that a path leads to, there or not. -/
def file? (t : FileTree) (path : String) : Option Place :=
  (t.locate path).toOption.filter fun place => !t.isDirectory place && !t.isVoid place

theorem toOption_read (t : FileTree) (path : String) :
    (t.read path).toOption = (t.locate path).toOption.bind fun place =>
      (t.content? place).or (if !t.isDirectory place && t.isVoid place then some [] else none) := by
  unfold read
  cases t.locate path with
  | error e => rfl
  | ok place =>
    dsimp only [Except.toOption, Option.bind]
    cases t.content? place with
    | some content => rfl
    | none =>
      cases t.isDirectory place with
      | true => rfl
      | false => cases t.isVoid place <;> rfl

/-- Where a path is written to. -/
theorem write_eq_ok {t t' : FileTree} {path : String} {bytes : Bytes}
    (h : t.write path bytes = .ok t') : ∃ place, t.locate path = .ok place ∧
      t.isDirectory place = false ∧
      if t.isVoid place then t' = t else t' = t.put place bytes := by
  unfold write at h
  dsimp only at h
  by_cases hslash : path.toList.reverse.head? = some '/'
  · split at h
    · cases h
    · rw [if_pos hslash] at h
      split at h <;> cases h
  · have hname : (path.toList.reverse.dropWhile (· = '/')).reverse = path.toList := by
      cases hback : path.toList.reverse with
      | nil => simpa using hback
      | cons c cs =>
        rw [hback] at hslash
        have hc : c ≠ '/' := fun hc => hslash (by rw [hc]; rfl)
        rw [List.dropWhile_cons_of_neg (by simpa using hc), ← hback, List.reverse_reverse]
    rw [hname, String.ofList_toList, ite_self] at h
    cases hlocate : t.locate path with
    | error e =>
      rw [hlocate] at h
      cases h
    | ok place =>
      rw [hlocate] at h
      dsimp only at h
      rw [if_neg hslash] at h
      split at h
      · cases h
      · rename_i hdirectory
        refine ⟨place, rfl, Bool.eq_false_iff.mpr hdirectory, ?_⟩
        split at h
        · rename_i hvoid
          cases h
          rw [if_pos hvoid]
        · rename_i hvoid
          cases h
          rw [if_neg hvoid]

theorem run_write (t : FileTree) (path : String) (bytes : Bytes) :
    (access.write path bytes).run t = match t.write path bytes with
      | .ok t' => (.ok (), t')
      | .error e => (.error e, t) := by
  simp only [access, StateT.run_bind, StateT.run_get]
  cases h : t.write path bytes with
  | ok t' => simp only [pure_bind, h]; rfl
  | error e => simp only [pure_bind, h]; rfl

/-- A writing that succeeds leaves the tree as it was, at a void, or puts one file. -/
theorem put_of_run_write {t t' : FileTree} {path : String} {bytes : Bytes}
    (h : (access.write path bytes).run t = (.ok (), t')) : ∃ place, t.locate path = .ok place ∧
      t.isDirectory place = false ∧
      ((t.isVoid place = true ∧ t' = t) ∨ (t.isVoid place = false ∧ t' = t.put place bytes)) := by
  rw [run_write] at h
  cases hwrite : t.write path bytes with
  | error e =>
    rw [hwrite] at h
    cases h
  | ok t₁ =>
    rw [hwrite] at h
    cases h
    obtain ⟨place, hlocate, hdirectory, hput⟩ := write_eq_ok hwrite
    refine ⟨place, hlocate, hdirectory, ?_⟩
    cases hvoid : t.isVoid place with
    | true => exact Or.inl ⟨rfl, by rwa [if_pos hvoid] at hput⟩
    | false => exact Or.inr ⟨rfl, by rwa [hvoid, if_neg Bool.false_ne_true] at hput⟩

theorem file?_put {t : FileTree} {place : Place} (hplace : t.OnWay place) (bytes : Bytes)
    (path : String) : (t.put place bytes).file? path = t.file? path := by
  have hdirectory := isDirectory_put hplace bytes
  rw [file?, file?, toOption_locate_congr hdirectory]
  simp only [hdirectory]
  rfl

theorem file?_eq_some_iff {t : FileTree} {path : String} {place : Place} :
    t.file? path = some place ↔ t.locate path = .ok place ∧ t.isDirectory place = false ∧
      t.isVoid place = false := by
  rw [file?, Option.filter_eq_some_iff, Bool.and_eq_true, Bool.not_eq_true', Bool.not_eq_true']
  exact and_congr_left fun _ => toOption_eq_some_iff

theorem content?_access (t : FileTree) (path : String) :
    access.content? t path = (t.locate path).toOption.bind fun place =>
      (t.content? place).or
        (if !t.isDirectory place && t.isVoid place then some [] else none) :=
  toOption_read t path

/-- What a path is read as when a file more is there. -/
theorem content?_access_put {t : FileTree} {place : Place} (hplace : t.OnWay place) (bytes : Bytes)
    (path : String) : access.content? (t.put place bytes) path =
      (t.locate path).toOption.bind fun other => ((t.put place bytes).content? other).or
        (if !t.isDirectory other && t.isVoid other then some [] else none) := by
  have hdirectory := isDirectory_put hplace bytes
  rw [content?_access, toOption_locate_congr hdirectory]
  simp only [hdirectory]
  rfl

/-- **A file tree is lawful.** -/
theorem lawful_access : access.Lawful file? where
  read_keeps h := by
    cases h
    rfl
  refused_keeps {t t' path bytes e} h := by
    rw [run_write] at h
    cases hwrite : t.write path bytes with
    | error e =>
      rw [hwrite] at h
      cases h
      rfl
    | ok t₁ =>
      rw [hwrite] at h
      cases h
  file?_write {t t' path bytes} h other := by
    obtain ⟨place, hlocate, -, ⟨-, rfl⟩ | ⟨-, rfl⟩⟩ := put_of_run_write h
    · rfl
    · exact file?_put (onWay_of_locate hlocate) bytes other
  written {t t' path bytes} h other hsame := by
    obtain ⟨place, hlocate, -, hput⟩ := put_of_run_write h
    obtain ⟨place', hpath, hother⟩ := hsame
    obtain ⟨hpath, -, hvoid'⟩ := file?_eq_some_iff.mp hpath
    obtain ⟨hother, -, -⟩ := file?_eq_some_iff.mp hother
    obtain rfl : place = place' := Except.ok.inj (hlocate.symm.trans hpath)
    obtain ⟨hvoid, -⟩ | ⟨-, rfl⟩ := hput
    · rw [hvoid] at hvoid'
      cases hvoid'
    · rw [content?_access_put (onWay_of_locate hlocate), hother]
      dsimp only [Except.toOption, Option.bind]
      rw [content?_put, Option.some_or]
  others {t t' path bytes} h other hsame := by
    obtain ⟨place, hlocate, hdirectory, ⟨-, rfl⟩ | ⟨hvoid, rfl⟩⟩ := put_of_run_write h
    · rfl
    · rw [content?_access_put (onWay_of_locate hlocate), content?_access]
      cases hother : t.locate other with
      | error e => rfl
      | ok place' =>
        have hne : place ≠ place' := by
          rintro rfl
          exact hsame ⟨place, file?_eq_some_iff.mpr ⟨hlocate, hdirectory, hvoid⟩,
            file?_eq_some_iff.mpr ⟨hother, hdirectory, hvoid⟩⟩
        dsimp only [Except.toOption, Option.bind]
        rw [content?_put_of_ne t hne]

/-! ## 4. Around the tree -/

theorem isInside_snoc {place : Place} (hplace : isInside place = true) {name : String}
    (habove : name ≠ above) (htop : name ≠ "/") : isInside (place ++ [name]) = true := by
  cases place with
  | nil => simp [isInside, habove, htop]
  | cons first others => exact hplace

/-- Without two points and slashes a path is never followed out of the tree. -/
theorem isInside_of_follow {t : FileTree} {place reached : Place} {parts : List (List Char)}
    (hplace : isInside place = true) (hparts : ∀ part ∈ parts, part ≠ ['.', '.'] ∧ '/' ∉ part)
    (h : t.follow place parts = .ok reached) : isInside reached = true := by
  induction parts generalizing place with
  | nil =>
    cases h
    exact hplace
  | cons part rest ih =>
    obtain ⟨⟨hpoints, hslash⟩, hrest⟩ := List.forall_mem_cons.mp hparts
    unfold follow at h
    split at h
    · split at h
      · exact ih hplace hrest h
      · split at h
        · cases h
        · refine ih (isInside_snoc hplace ?_ ?_) hrest h
          · exact fun hname => hpoints (String.ofList_injective hname)
          · intro hname
            obtain rfl : part = ['/'] := String.ofList_injective hname
            exact hslash (List.mem_singleton_self _)
    · split at h <;> cases h

theorem isInside_of_locate {t : FileTree} {path : String} {place : Place}
    (hrelative : Path.isAbsolute path = false) (hpoints : ['.', '.'] ∉ Path.parts path)
    (h : t.locate path = .ok place) : isInside place = true := by
  have hparts : ∀ part ∈ Path.parts path, part ≠ ['.', '.'] ∧ '/' ∉ part := fun part hpart =>
    ⟨fun heq => hpoints (heq ▸ hpart), Path.slash_not_mem_of_mem_parts part hpart⟩
  unfold locate at h
  split at h
  · cases h
  · split at h
    · cases h
    · rw [hrelative] at h
      exact isInside_of_follow rfl hparts h

/-- **What is written under a relative path without two points changes nothing around the tree.** -/
theorem content?_of_write {t t' : FileTree} {path : String} {bytes : Bytes}
    (hrelative : Path.isAbsolute path = false) (hpoints : ['.', '.'] ∉ Path.parts path)
    (h : t.write path bytes = .ok t') {place : Place} (hplace : isInside place = false) :
    t'.content? place = t.content? place := by
  obtain ⟨reached, hlocate, -, hput⟩ := write_eq_ok h
  have hne : reached ≠ place := by
    rintro rfl
    rw [isInside_of_locate hrelative hpoints hlocate] at hplace
    cases hplace
  split at hput
  · rw [hput]
  · rw [hput, content?_put_of_ne t hne]

end FileTree
end FunctionMap
