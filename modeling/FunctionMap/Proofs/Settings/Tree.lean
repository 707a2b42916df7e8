import FunctionMap.Settings.Loader

/-!
# Settings in a tree

A file is laid over a tree of settings entry by entry, and its tables are merged into those of the tree.
For one setting it only matters what the file has at the path of this setting, in whatever way it spells
the path: the last value there takes the place of the one in the tree, and without one the setting stays
as it was.

* `Key`, `Key.path`, `Key.accepts` -- the settings, their paths, and the values of their kinds;
* `KeyPath.apart` -- two paths lead to different keys of the same table;
* `filePlaces` -- all values of a file, in tables at any depth, with the paths that lead to them;
* `FitsAt` -- what a file may have at a path if it sets no setting to a value of another kind;
* `Node.setting? K` -- the value of a setting in a tree.

Main statements: a node that is laid where another path leads changes no setting
(`get?_mergeAt_of_apart`), and `setting?_overlay` for a file.
-/

namespace FunctionMap
namespace Settings

/-! ## 1. The settings and their paths -/

/-- The settings by name. -/
inductive Key where
  | format | outputExtension | continueOnError | level
  deriving DecidableEq, Repr

namespace Key

/-- The section of a setting. -/
def home : Key → Section
  | .format | .outputExtension | .continueOnError => .convert
  | .level => .logging

/-- The name of a setting in its section. -/
def name : Key → String
  | .format => "format"
  | .outputExtension => "output_extension"
  | .continueOnError => "continue_on_error"
  | .level => "level"

/-- The path of a setting. -/
def path (K : Key) : KeyPath := [.key K.home.key, .key K.name]

/-- Whether a value is of the kind of a setting. -/
def accepts (K : Key) : Toml.Scalar → Bool
  | .string _ => K ≠ .continueOnError
  | .boolean _ => K = .continueOnError
  | _ => false

/-- All settings. -/
def all : List Key := [.format, .outputExtension, .continueOnError, .level]

theorem mem_all (K : Key) : K ∈ all := by cases K <;> decide

theorem path_injective {K K' : Key} (h : K.path = K'.path) : K = K' := by
  cases K <;> cases K' <;> first | rfl | exact absurd h (by decide)

end Key

/-- The value of a setting. -/
def get (s : Settings) : Key → Toml.Scalar
  | .format => .string s.convert.format
  | .outputExtension => .string s.convert.outputExtension
  | .continueOnError => .boolean s.convert.continueOnError
  | .level => .string s.logging.level

/-- A step with its key in lower case. -/
def Step.folded : Step → Step
  | .key k => .key (Node.fold k)
  | .index i => .index i

namespace KeyPath

/-- A path with its keys in lower case. -/
def folded (p : KeyPath) : KeyPath := p.map Step.folded

/-- Whether two paths part at a table, and lead on to different keys there. -/
def apart : KeyPath → KeyPath → Bool
  | .key a :: p, .key b :: q => if a = b then apart p q else true
  | _, _ => false

theorem apart_self (p : KeyPath) : p.apart p = false := by
  induction p with
  | nil => rfl
  | cons step p ih =>
    cases step with
    | key a => rw [apart, if_pos rfl, ih]
    | index i => rfl

theorem apart_append {p q : KeyPath} (h : p.apart q = true) (more : KeyPath) :
    apart (p ++ more) q = true := by
  fun_induction apart p q with
  | case1 a p q ih => rw [List.cons_append, apart, if_pos rfl, ih h]
  | case2 a p b q hab => rw [List.cons_append, apart, if_neg hab]
  | case3 => cases h

/-- Only a key can part from another one. -/
theorem exists_of_apart {p q : KeyPath} (h : p.apart q = true) : ∃ k rest, q = .key k :: rest := by
  unfold apart at h
  split at h
  · exact ⟨_, _, rfl⟩
  · cases h

theorem exists_of_apart_cons {step : Step} {p q : KeyPath}
    (h : (folded (step :: p)).apart q = true) : ∃ a b rest, step = .key a ∧ q = .key b :: rest ∧
      (Node.fold a = b → p.folded.apart rest = true) := by
  obtain ⟨b, rest, rfl⟩ := exists_of_apart h
  cases step with
  | key a =>
    refine ⟨a, b, rest, rfl, rfl, fun hab => ?_⟩
    have h : (if Node.fold a = b then p.folded.apart rest else true) = true := h
    rwa [if_pos hab] at h
  | index i => exact absurd h Bool.false_ne_true

theorem exists_of_folded_eq_cons {p q : KeyPath} {x : String} (h : p.folded = .key x :: q) :
    ∃ a rest, p = .key a :: rest ∧ Node.fold a = x ∧ folded rest = q := by
  obtain ⟨step, rest, rfl, hstep, hrest⟩ := List.map_eq_cons_iff.mp h
  cases step with
  | key a => exact ⟨a, rest, rfl, Step.key.inj (show Step.key (Node.fold a) = _ from hstep), hrest⟩
  | index i => cases hstep

end KeyPath

theorem Key.apart_path {K K' : Key} (h : K ≠ K') : K.path.apart K'.path = true := by
  cases K <;> cases K' <;> first | rfl | exact absurd rfl h

/-! ## 2. Looking up a path -/

namespace Node

/-- The node that a path of keys in lower case leads to. -/
def get? : KeyPath → Node → Option Node
  | [], node => some node
  | .key key :: p, node => (node.child? key).bind (get? p)
  | .index _ :: _, _ => none

/-- The value of a scalar. -/
def scalar? : Node → Option Toml.Scalar
  | .scalar _ s => some s
  | _ => none

/-- The value of a setting in a tree. -/
def setting? (K : Key) (root : Node) : Option Toml.Scalar := (root.get? K.path).bind scalar?

theorem find?_put (key other : String) (node : Node) (es : List (String × Node)) :
    (put key node es).find? (·.1 = other) =
      if key = other then some (key, node) else es.find? (·.1 = other) := by
  induction es with
  | nil => by_cases h : key = other <;> simp [put, h]
  | cons e es ih =>
    obtain ⟨k, old⟩ := e
    rw [put]
    by_cases hk : k = key
    · subst hk
      by_cases h : k = other <;> simp [h]
    · by_cases h : k = other
      · subst h
        simp [hk, Ne.symm hk]
      · simp [hk, h, ih]

theorem put_put (key : String) (node node' : Node) (es : List (String × Node)) :
    put key node' (put key node es) = put key node' es := by
  induction es with
  | nil => simp [put]
  | cons e es ih =>
    obtain ⟨k, old⟩ := e
    by_cases hk : k = key <;> simp [put, hk, ih]

theorem child?_withChild (old : Node) (key other : String) (node : Node) :
    (old.withChild key node).child? other = if key = other then some node else old.child? other := by
  show ((put key node old.entries).find? (·.1 = other)).map (·.2) = _
  rw [find?_put]
  by_cases h : key = other
  · rw [if_pos h, if_pos h]
    rfl
  · rw [if_neg h, if_neg h]
    rfl

theorem withChild_withChild (old : Node) (key : String) (node node' : Node) :
    (old.withChild key node).withChild key node' = old.withChild key node' := by
  show Node.table old.tableFile? (put key node' (put key node old.entries)) = _
  rw [put_put]
  rfl

/-- A key leads to nothing in the empty tree. -/
theorem get?_empty (key : String) (q : KeyPath) : get? (.key key :: q) empty = none := rfl

/-- What a path leads to below a child that was changed. -/
theorem get?_withChild_same (old : Node) (key : String) (q : KeyPath) (node : Node) :
    (old.withChild key node).get? (.key key :: q) = node.get? q := by
  rw [get?, child?_withChild, if_pos rfl]
  rfl

theorem get?_withChild_of_ne (old : Node) {key other : String} (h : key ≠ other) (q : KeyPath)
    (node : Node) : (old.withChild key node).get? (.key other :: q) = old.get? (.key other :: q) := by
  rw [get?, child?_withChild, if_neg h, get?]

/-- The child of a key that is given to be changed leads where the key led. -/
theorem get?_getD_child? (old : Node) (key k : String) (q : KeyPath) :
    ((old.child? key).getD empty).get? (.key k :: q) = old.get? (.key key :: .key k :: q) := by
  show _ = (old.child? key).bind (get? (.key k :: q))
  cases old.child? key with
  | none => exact get?_empty k q
  | some node => rfl

/-- **A node that is laid where another path leads changes nothing.** -/
theorem get?_mergeAt_of_apart (node : Node) {p q : KeyPath} (h : p.folded.apart q = true)
    (old : Node) : (mergeAt node p old).get? q = old.get? q := by
  induction p generalizing q old with
  | nil => exact absurd h Bool.false_ne_true
  | cons step p ih =>
    obtain ⟨a, b, q, rfl, rfl, hsame⟩ := KeyPath.exists_of_apart_cons h
    rw [mergeAt]
    by_cases hab : Node.fold a = b
    · subst hab
      obtain ⟨k, q, rfl⟩ := KeyPath.exists_of_apart (hsame rfl)
      rw [get?_withChild_same, ih (hsame rfl), get?_getD_child?]
    · rw [get?_withChild_of_ne _ hab]

/-- A scalar that is laid where a setting is, is its value. -/
theorem setting?_mergeAt_self {p : KeyPath} {K : Key} (h : p.folded = K.path)
    (file? : Option String) (s : Toml.Scalar) (old : Node) :
    (mergeAt (.scalar file? s) p old).setting? K = some s := by
  obtain ⟨a, p, rfl, ha, h⟩ := KeyPath.exists_of_folded_eq_cons h
  obtain ⟨b, p, rfl, hb, h⟩ := KeyPath.exists_of_folded_eq_cons h
  obtain rfl : p = [] := List.map_eq_nil_iff.mp h
  rw [setting?, Key.path, mergeAt, ha, get?_withChild_same, mergeAt, hb, get?_withChild_same]
  rfl

theorem setting?_mergeAt_of_apart (node : Node) {p : KeyPath} {K : Key}
    (h : p.folded.apart K.path = true) (old : Node) :
    (mergeAt node p old).setting? K = old.setting? K := by
  rw [setting?, get?_mergeAt_of_apart node h, setting?]

/-- A table is laid over a tree entry by entry. -/
theorem mergeAt_table_cons (file? : Option String) (k : String) (node : Node)
    (es : List (String × Node)) (a : String) (old : Node) :
    mergeAt (.table file? ((k, node) :: es)) [.key a] old =
      mergeAt (.table file? es) [.key a] (mergeAt node [.key a, .key k] old) := by
  simp only [mergeAt, merge, mergeEntries, child?_withChild, if_true, Option.getD_some,
    withChild_withChild]

/-- An empty table leaves what its key had. -/
theorem setting?_mergeAt_table_nil (file? : Option String) (a : String) (K : Key) (old : Node) :
    (mergeAt (.table file? []) [.key a] old).setting? K = old.setting? K := by
  rw [mergeAt, mergeAt, merge, mergeEntries, setting?, setting?, Key.path]
  by_cases ha : fold a = K.home.key
  · rw [ha, get?_withChild_same, get?_getD_child?]
  · rw [get?_withChild_of_ne _ ha]

end Node

/-! ## 3. The values of a file -/

/-- The last of the values that some things have. -/
def lastOf {α β : Type} (f : α → Option β) (l : List α) : Option β := l.reverse.findSome? f

section LastOf

variable {α β : Type} {f : α → Option β}

theorem lastOf_append (l l' : List α) : lastOf f (l ++ l') = (lastOf f l').or (lastOf f l) := by
  rw [lastOf, List.reverse_append, List.findSome?_append]
  rfl

theorem lastOf_singleton (a : α) : lastOf f [a] = f a := by
  rw [lastOf, List.reverse_singleton, List.findSome?_singleton]

theorem lastOf_cons (a : α) (l : List α) : lastOf f (a :: l) = (lastOf f l).or (f a) := by
  rw [← List.singleton_append, lastOf_append, lastOf_singleton]

theorem lastOf_skip {a : α} (ha : f a = none) (l l' : List α) :
    lastOf f (l ++ a :: l') = lastOf f (l ++ l') := by
  rw [lastOf_append, lastOf_append, lastOf_cons, ha, Option.or_none]

theorem lastOf_filterMap {γ : Type} (g : γ → Option α) (l : List γ) :
    lastOf f (l.filterMap g) = lastOf (fun c => (g c).bind f) l := by
  induction l with
  | nil => rfl
  | cons c l ih =>
    rw [List.filterMap_cons, lastOf_cons, ← ih]
    cases g c with
    | none => exact (Option.or_none).symm
    | some a => exact lastOf_cons a _

theorem lastOf_eq_none {l : List α} (h : ∀ a ∈ l, f a = none) : lastOf f l = none :=
  List.findSome?_eq_none_iff.mpr fun a ha => h a (List.mem_reverse.mp ha)

theorem exists_of_lastOf {l : List α} {b : β} (h : lastOf f l = some b) : ∃ a ∈ l, f a = some b := by
  obtain ⟨a, ha, hb⟩ := List.exists_of_findSome?_eq_some h
  exact ⟨a, List.mem_reverse.mp ha, hb⟩

end LastOf

mutual

/-- A value and all values in its tables, with the paths that lead to them. -/
def places (path : KeyPath) : Toml.Value → List (KeyPath × Toml.Value)
  | .scalar s => [(path, .scalar s)]
  | .array vs => [(path, .array vs)]
  | .table es => (path, .table es) :: entryPlaces path es

/-- All values in some entries of the table at a path. -/
def entryPlaces (path : KeyPath) : List (String × Toml.Value) → List (KeyPath × Toml.Value)
  | [] => []
  | (key, value) :: rest => places (path ++ [.key (Node.fold key)]) value ++ entryPlaces path rest

end

/-- All values of a file. A key of the file may be a path of its own. -/
def filePlaces : List (String × Toml.Value) → List (KeyPath × Toml.Value)
  | [] => []
  | (key, value) :: rest =>
    places ((KeyPath.ofText? key).getD [.key key]).folded value ++ filePlaces rest

/-- The value that a setting has from a place of a file. -/
def settingAt (K : Key) : KeyPath × Toml.Value → Option Toml.Scalar
  | (path, .scalar s) => if path = K.path then some s else none
  | _ => none

/-- The value that a file sets a setting to. -/
def settingOf (K : Key) (entries : List (String × Toml.Value)) : Option Toml.Scalar :=
  lastOf (settingAt K) (filePlaces entries)

/-- What a file may have at a path if it sets settings to values of their own kinds only: such a value
    at the path of a setting, a table at that of a section, and anything where the path parts from all of
    these. -/
inductive FitsAt (path : KeyPath) (v : Toml.Value) : Prop where
  | setting (K : Key) (s : Toml.Scalar) (hpath : path = K.path) (hvalue : v = .scalar s)
      (hkind : K.accepts s = true)
  | home (K : Key) (es : List (String × Toml.Value)) (hpath : path = [.key K.home.key])
      (hvalue : v = .table es)
  | elsewhere (h : ∀ K : Key, path.apart K.path = true)

/-- Whether a setting or a section is at a path, and the value is one for it. -/
def fitsHere (path : KeyPath) : Toml.Value → Bool
  | .scalar s => Key.all.any fun K => path = K.path && K.accepts s
  | .table _ => Key.all.any fun K => path = [.key K.home.key]
  | .array _ => false

theorem fitsAt_iff {path : KeyPath} {v : Toml.Value} :
    fitsHere path v = true ∨ (∀ K ∈ Key.all, path.apart K.path = true) ↔ FitsAt path v := by
  constructor
  · intro h
    obtain hhere | hothers := h
    · cases v with
      | scalar s =>
        obtain ⟨K, -, hK⟩ := List.any_eq_true.mp hhere
        obtain ⟨hpath, hkind⟩ := (Bool.and_eq_true _ _).mp hK
        exact .setting K s (of_decide_eq_true hpath) rfl hkind
      | table es =>
        obtain ⟨K, -, hpath⟩ := List.any_eq_true.mp hhere
        exact .home K es (of_decide_eq_true hpath) rfl
      | array vs => cases hhere
    · exact .elsewhere fun K => hothers K K.mem_all
  · intro h
    cases h with
    | setting K s hpath hvalue hkind =>
      subst hvalue
      refine Or.inl (List.any_eq_true.mpr ⟨K, K.mem_all, ?_⟩)
      rw [decide_eq_true hpath, hkind]
      rfl
    | home K es hpath hvalue =>
      subst hvalue
      exact Or.inl (List.any_eq_true.mpr ⟨K, K.mem_all, decide_eq_true hpath⟩)
    | elsewhere hothers => exact Or.inr fun K _ => hothers K

instance (path : KeyPath) (v : Toml.Value) : Decidable (FitsAt path v) := decidable_of_iff _ fitsAt_iff

/-- A file that sets settings to values of their own kinds only. -/
def Fits (entries : List (String × Toml.Value)) : Prop :=
  ∀ place ∈ filePlaces entries, FitsAt place.1 place.2

instance (entries : List (String × Toml.Value)) : Decidable (Fits entries) :=
  inferInstanceAs (Decidable (∀ place ∈ filePlaces entries, FitsAt place.1 place.2))

theorem mem_places_self (path : KeyPath) (v : Toml.Value) : (path, v) ∈ places path v := by
  cases v with
  | scalar s => exact List.mem_singleton_self _
  | array vs => exact List.mem_singleton_self _
  | table es => exact List.mem_cons_self

mutual

theorem prefix_of_mem_places {path : KeyPath} : ∀ (v : Toml.Value), ∀ place ∈ places path v,
    path <+: place.1
  | .scalar s, place, h => by
    obtain rfl := List.mem_singleton.mp h
    exact List.prefix_rfl
  | .array vs, place, h => by
    obtain rfl := List.mem_singleton.mp h
    exact List.prefix_rfl
  | .table es, place, h => by
    obtain rfl | h := List.mem_cons.mp h
    · exact List.prefix_rfl
    · exact prefix_of_mem_entryPlaces es place h

theorem prefix_of_mem_entryPlaces {path : KeyPath} : ∀ (es : List (String × Toml.Value)),
    ∀ place ∈ entryPlaces path es, path <+: place.1
  | [], place, h => absurd h List.not_mem_nil
  | (key, value) :: rest, place, h => by
    obtain h | h := List.mem_append.mp h
    · exact (List.prefix_append path _).trans (prefix_of_mem_places value place h)
    · exact prefix_of_mem_entryPlaces rest place h

end

theorem settingAt_eq_some_iff {K : Key} {place : KeyPath × Toml.Value} {s : Toml.Scalar} :
    settingAt K place = some s ↔ place = (K.path, .scalar s) := by
  obtain ⟨path, v⟩ := place
  cases v with
  | scalar s' => simp [settingAt]
  | array vs => simp [settingAt]
  | table es => simp [settingAt]

/-- Where a path parts from that of a setting, no value is one of the setting. -/
theorem lastOf_settingAt_of_apart {path : KeyPath} {K : Key} (h : path.apart K.path = true)
    (v : Toml.Value) : lastOf (settingAt K) (places path v) = none := by
  refine lastOf_eq_none fun place hplace => ?_
  obtain ⟨more, hmore⟩ := prefix_of_mem_places v place hplace
  refine Option.eq_none_iff_forall_ne_some.mpr fun s hs => ?_
  rw [settingAt_eq_some_iff.mp hs] at hmore
  have happart := KeyPath.apart_append h more
  rw [hmore, KeyPath.apart_self] at happart
  exact Bool.false_ne_true happart

/-- A value that a file sets a setting to is of its kind. -/
theorem accepts_of_settingOf {K : Key} {entries : List (String × Toml.Value)} {s : Toml.Scalar}
    (h : Fits entries) (hs : settingOf K entries = some s) : K.accepts s = true := by
  obtain ⟨place, hplace, hs⟩ := exists_of_lastOf hs
  obtain rfl := settingAt_eq_some_iff.mp hs
  cases h _ hplace with
  | setting K' s' hpath hvalue hkind =>
    rw [Key.path_injective hpath, Toml.Value.scalar.inj hvalue]
    exact hkind
  | home K' es hpath hvalue => cases hvalue
  | elsewhere hothers =>
    have happart := hothers K
    rw [KeyPath.apart_self] at happart
    exact absurd happart Bool.false_ne_true

/-! ## 4. A file over a tree -/

variable {file? : Option String} {p : KeyPath} {K : Key}

/-- A value over a tree, at the path of a setting. -/
theorem setting?_mergeAt_setting {K' : Key} (h : p.folded = K'.path) (s : Toml.Scalar) (old : Node) :
    (Node.mergeAt (.scalar file? s) p old).setting? K =
      (settingAt K (p.folded, .scalar s)).or (old.setting? K) := by
  by_cases hK : K' = K
  · subst hK
    rw [Node.setting?_mergeAt_self h, settingAt_eq_some_iff.mpr (by rw [h]), Option.some_or]
  · have hpath : p.folded ≠ K.path := fun heq => hK (Key.path_injective (h.symm.trans heq))
    rw [Node.setting?_mergeAt_of_apart _ (by rw [h]; exact Key.apart_path hK), settingAt,
      if_neg hpath, Option.none_or]

/-- A value over a tree, away from all settings. -/
theorem setting?_mergeAt_elsewhere (h : ∀ K : Key, p.folded.apart K.path = true) (v : Toml.Value)
    (old : Node) : (Node.mergeAt (.ofValue file? v) p old).setting? K =
      (lastOf (settingAt K) (places p.folded v)).or (old.setting? K) := by
  rw [Node.setting?_mergeAt_of_apart _ (h K), lastOf_settingAt_of_apart (h K), Option.none_or]

/-- The entries of a table over a tree, at a key. -/
theorem setting?_mergeAt_entries {a : String} {es : List (String × Toml.Value)}
    (h : ∀ place ∈ entryPlaces [.key (Node.fold a)] es, FitsAt place.1 place.2) (old : Node) :
    (Node.mergeAt (.table file? (Node.ofEntries file? es)) [.key a] old).setting? K =
      (lastOf (settingAt K) (entryPlaces [.key (Node.fold a)] es)).or (old.setting? K) := by
  induction es generalizing old with
  | nil => exact Node.setting?_mergeAt_table_nil file? a K old
  | cons e es ih =>
    obtain ⟨k, v⟩ := e
    rw [entryPlaces, List.forall_mem_append] at h
    obtain ⟨hv, hes⟩ := h
    rw [Node.ofEntries, Node.mergeAt_table_cons, ih hes, entryPlaces, lastOf_append, Option.or_assoc]
    congr 1
    have hpath : KeyPath.folded [.key a, .key k] = [.key (Node.fold a)] ++ [.key (Node.fold k)] := rfl
    rw [← hpath] at hv ⊢
    cases hv _ (mem_places_self _ v) with
    | setting K' s hpath hvalue hkind =>
      subst hvalue
      rw [places, lastOf_singleton]
      exact setting?_mergeAt_setting hpath s old
    | home K' es' hpath hvalue =>
      -- a section is one step from the root, and this path has two
      exact absurd (congrArg List.length hpath) (show ¬ 2 = 1 by decide)
    | elsewhere hothers => exact setting?_mergeAt_elsewhere hothers v old

/-- **A value over a tree sets what it has a value for**, the last one of each setting. -/
theorem setting?_mergeAt_ofValue {v : Toml.Value}
    (h : ∀ place ∈ places p.folded v, FitsAt place.1 place.2) (old : Node) :
    (Node.mergeAt (.ofValue file? v) p old).setting? K =
      (lastOf (settingAt K) (places p.folded v)).or (old.setting? K) := by
  cases h _ (mem_places_self _ v) with
  | setting K' s hpath hvalue hkind =>
    subst hvalue
    rw [places, lastOf_singleton]
    exact setting?_mergeAt_setting hpath s old
  | home K' es hpath hvalue =>
    subst hvalue
    obtain ⟨a, p, rfl, -, hpath⟩ := KeyPath.exists_of_folded_eq_cons hpath
    obtain rfl : p = [] := List.map_eq_nil_iff.mp hpath
    rw [places, List.forall_mem_cons] at h
    rw [Node.ofValue, places, lastOf_cons, show settingAt K (_, .table es) = none from rfl,
      Option.or_none]
    exact setting?_mergeAt_entries h.2 old
  | elsewhere hothers => exact setting?_mergeAt_elsewhere hothers v old

/-- **A file over a tree sets what it has a value for**, the last one of each setting. -/
theorem setting?_overlay {file : String} {entries : List (String × Toml.Value)}
    (h : Fits entries) (root : Node) : (Loader.overlay root file entries).setting? K =
      (settingOf K entries).or (root.setting? K) := by
  induction entries generalizing root with
  | nil => rfl
  | cons e entries ih =>
    obtain ⟨key, v⟩ := e
    rw [Fits, filePlaces, List.forall_mem_append] at h
    obtain ⟨hv, hrest⟩ := h
    rw [Loader.overlay, ih hrest, setting?_mergeAt_ofValue hv, settingOf, settingOf, filePlaces,
      lastOf_append, Option.or_assoc]

end Settings
end FunctionMap
