import FunctionMap.Proofs.Declaration.Table
import Mathlib.Data.List.Basic
import Mathlib.Data.List.Induction
import Mathlib.Data.List.Nodup

/-!
# The history of a table

A table is filled by operations in any order: declarations are inserted, and entries are pushed to the
declaration at an index, also where the one is refused and the other finds nothing. Through all of them
it grows at its ends alone, and each of its two collections for itself.

* `Operation`, `perform`, `madeBy` -- the operations, what they answer and leave, and the table that they
  make of the empty one;
* `Collection` -- the enumerations, or the functions: how one of them is read and changed, and what its
  operations do, so that what follows is said once for both;
* `c.AppendsOnly ops t` -- what holds of a collection of the table `t` that operations make.

Main statement: `madeBy_appendsOnly`, for both collections.
-/

namespace FunctionMap

/-! ## 1. Operations -/

/-- A change to some declarations. -/
inductive Change (α β : Type) where
  /-- A declaration behind the others. -/
  | insert (declaration : α)
  /-- An entry behind those of the declaration at an index. -/
  | push (index : Nat) (entry : β)

/-- The declaration that a change brings. -/
def Change.inserted? {α β : Type} : Change α β → Option α
  | .insert a => some a
  | .push _ _ => none

/-- The entry that a change brings for the declaration at an index. -/
def Change.pushedTo? {α β : Type} (index : Nat) : Change α β → Option β
  | .insert _ => none
  | .push i b => if i = index then some b else none

namespace Table

/-- A change to one of the two collections of a table. -/
inductive Operation where
  | enumerations (change : Change Enumeration EnumValue)
  | functions (change : Change Function Parameter)

/-- What an operation answers. -/
inductive Answer where
  | inserted (index : Nat)
  | refused (e : SourceError)
  | pushed
  /-- There is no declaration at the index. -/
  | absent
  deriving DecidableEq

/-- What an insertion into a table answers and leaves. -/
def answerInsertion (t : Table) : Except SourceError (Table × Nat) → Answer × Table
  | .ok (t', index) => (.inserted index, t')
  | .error e => (.refused e, t)

/-- What a push to a declaration of a table answers and leaves. -/
def answerPush (t : Table) : Option Table → Answer × Table
  | some t' => (.pushed, t')
  | none => (.absent, t)

/-- What an operation on a table answers and leaves. -/
def perform (t : Table) : Operation → Answer × Table
  | .enumerations (.insert e) => answerInsertion t (t.insertEnum e)
  | .enumerations (.push index value) => answerPush t (t.pushValue? index value)
  | .functions (.insert f) => answerInsertion t (t.insertFunction f)
  | .functions (.push index parameter) => answerPush t (t.pushParameter? index parameter)

/-- The table that operations leave. -/
def performAll (t : Table) (ops : List Operation) : Table := ops.foldl (fun t op => (t.perform op).2) t

/-- The table that operations make of the empty one. -/
def madeBy (ops : List Operation) : Table := performAll .empty ops

theorem functions_perform_enumerations (t : Table) (change : Change Enumeration EnumValue) :
    (t.perform (.enumerations change)).2.functions = t.functions := by
  cases change with
  | insert e =>
    by_cases h : e.name ∈ t.enumNames
    · rw [perform, insertEnum_of_mem h]
      rfl
    · rw [perform, insertEnum_of_not_mem h]
      rfl
  | push index value =>
    rw [perform, pushValue?]
    split <;> rfl

theorem enums_perform_functions (t : Table) (change : Change Function Parameter) :
    (t.perform (.functions change)).2.enums = t.enums := by
  cases change with
  | insert f =>
    by_cases h : f.key ∈ t.functionKeys
    · rw [perform, insertFunction_of_mem h]
      rfl
    · rw [perform, insertFunction_of_not_mem h]
      rfl
  | push index parameter =>
    rw [perform, pushParameter?]
    split <;> rfl

/-! ## 2. One of the two collections -/

/-- One of the two collections of a table, with its operations and what each of them does. -/
structure Collection (κ α β : Type) [DecidableEq κ] where
  key : α → κ
  /-- A declaration with entries behind its own. -/
  extend : α → List β → α
  /-- The error of a key that is there already. -/
  duplicate : κ → SourceError
  declarations : Table → List α
  withDeclarations : Table → List α → Table
  find? : Table → κ → Option α
  operation : Change α β → Operation
  /-- The change to this collection that an operation is, if it is one. -/
  change? : Operation → Option (Change α β)
  key_extend : ∀ a bs, key (extend a bs) = key a
  extend_nil : ∀ a, extend a [] = a
  extend_append : ∀ a bs bs', extend a (bs ++ bs') = extend (extend a bs) bs'
  declarations_empty : declarations .empty = []
  declarations_withDeclarations : ∀ t as, declarations (withDeclarations t as) = as
  find?_eq : ∀ t k, find? t k = (declarations t).find? (key · = k)
  change?_operation : ∀ change, change? (operation change) = some change
  declarations_perform_other : ∀ t op, (∀ change, op ≠ operation change) →
    change? op = none ∧ declarations (t.perform op).2 = declarations t
  perform_insert_of_mem : ∀ t a, key a ∈ (declarations t).map key →
    t.perform (operation (.insert a)) = (.refused (duplicate (key a)), t)
  perform_insert_of_not_mem : ∀ t a, key a ∉ (declarations t).map key →
    t.perform (operation (.insert a))
      = (.inserted (declarations t).length, withDeclarations t (declarations t ++ [a]))
  perform_push_of_lt : ∀ t index b, index < (declarations t).length →
    t.perform (operation (.push index b))
      = (.pushed, withDeclarations t ((declarations t).modify index (extend · [b])))
  perform_push_of_le : ∀ t index b, (declarations t).length ≤ index →
    t.perform (operation (.push index b)) = (.absent, t)

namespace Collection

/-- The enumerations, known by their names. -/
def enumerations : Collection String Enumeration EnumValue where
  key := Enumeration.name
  extend e values := { e with values := e.values ++ values }
  duplicate := .duplicate .enumeration
  declarations := Table.enums
  withDeclarations t enums := { t with enums }
  find? := enum?
  operation := .enumerations
  change?
    | .enumerations change => some change
    | .functions _ => none
  key_extend _ _ := rfl
  extend_nil e := by rw [List.append_nil]
  extend_append e bs bs' := by rw [List.append_assoc]
  declarations_empty := rfl
  declarations_withDeclarations _ _ := rfl
  find?_eq _ _ := rfl
  change?_operation _ := rfl
  declarations_perform_other t op h := by
    cases op with
    | enumerations change => exact absurd rfl (h change)
    | functions change => exact ⟨rfl, enums_perform_functions t change⟩
  perform_insert_of_mem t e h := by rw [perform, insertEnum_of_mem h, answerInsertion]
  perform_insert_of_not_mem t e h := by rw [perform, insertEnum_of_not_mem h, answerInsertion, addEnum]
  perform_push_of_lt t index b h := by rw [perform, pushValue?, if_pos h, answerPush]
  perform_push_of_le t index b h := by rw [perform, pushValue?, if_neg (Nat.not_lt.mpr h), answerPush]

/-- The functions, known by their keys. -/
def functions : Collection FunctionKey Function Parameter where
  key := Function.key
  extend f parameters := { f with parameters := f.parameters ++ parameters }
  duplicate key := .duplicate .function key.text
  declarations := Table.functions
  withDeclarations t functions := { t with functions }
  find? := function?
  operation := .functions
  change?
    | .enumerations _ => none
    | .functions change => some change
  key_extend _ _ := rfl
  extend_nil f := by rw [List.append_nil]
  extend_append f bs bs' := by rw [List.append_assoc]
  declarations_empty := rfl
  declarations_withDeclarations _ _ := rfl
  find?_eq _ _ := rfl
  change?_operation _ := rfl
  declarations_perform_other t op h := by
    cases op with
    | enumerations change => exact ⟨rfl, functions_perform_enumerations t change⟩
    | functions change => exact absurd rfl (h change)
  perform_insert_of_mem t f h := by rw [perform, insertFunction_of_mem h, answerInsertion]
  perform_insert_of_not_mem t f h := by
    rw [perform, insertFunction_of_not_mem h, answerInsertion, addFunction]
  perform_push_of_lt t index b h := by rw [perform, pushParameter?, if_pos h, answerPush]
  perform_push_of_le t index b h := by
    rw [perform, pushParameter?, if_neg (Nat.not_lt.mpr h), answerPush]

variable {κ α β : Type} [DecidableEq κ] (c : Collection κ α β)

/-- The keys, in the order of the declarations. -/
def keys (t : Table) : List κ := (c.declarations t).map c.key

/-- The keys that operations bring to a collection, those of refused insertions as well. -/
def keysIn (ops : List Operation) : List κ :=
  ((ops.filterMap c.change?).filterMap Change.inserted?).map c.key

/-- The entries that operations push to the declaration at an index. -/
def pushedTo (index : Nat) (ops : List Operation) : List β :=
  (ops.filterMap c.change?).filterMap (Change.pushedTo? index)

/-- The operations of a collection among others. -/
def own (ops : List Operation) : List Operation := ops.filter fun op => (c.change? op).isSome

/-- **A collection grows at its ends alone**, in the table `t` that operations make. Its keys are those
    that insertions brought, each one where it came first. An insertion is refused exactly for a key
    that is there, and changes nothing then; otherwise it tells how many declarations there were, and at
    this index stands, after all that comes later, the declaration with the entries pushed to it, in
    their order. A push goes to the end of the one declaration at its index, and otherwise nowhere. A key
    finds the declaration at its index. And the operations of the other collection make no
    difference. -/
structure AppendsOnly (c : Collection κ α β) (ops : List Operation) (t : Table) : Prop where
  keys_eq : c.keys t = (c.keysIn ops).eraseDups
  nodup : (c.keys t).Nodup
  insert_old : ∀ a, c.key a ∈ c.keys t →
    t.perform (c.operation (.insert a)) = (.refused (c.duplicate (c.key a)), t)
  insert_new : ∀ a, c.key a ∉ c.keys t →
    t.perform (c.operation (.insert a))
      = (.inserted (c.keys t).length, c.withDeclarations t (c.declarations t ++ [a]))
  index_stays : ∀ a later index t', c.key a ∉ c.keys t → index = (c.keys t).length →
    t' = madeBy (ops ++ c.operation (.insert a) :: later) →
      (c.keys t')[index]? = some (c.key a) ∧
        (c.declarations t')[index]? = some (c.extend a (c.pushedTo index later)) ∧
        c.find? t' (c.key a) = some (c.extend a (c.pushedTo index later))
  push_inside : ∀ front a back b, c.declarations t = front ++ a :: back →
    t.perform (c.operation (.push front.length b))
      = (.pushed, c.withDeclarations t (front ++ c.extend a [b] :: back))
  push_outside : ∀ index b, (c.keys t).length ≤ index →
    t.perform (c.operation (.push index b)) = (.absent, t)
  find?_eq : ∀ k, c.find? t k = (c.declarations t)[(c.keys t).idxOf k]?
  own_eq : c.declarations t = c.declarations (madeBy (c.own ops))
  answer_eq : ∀ change, (t.perform (c.operation change)).1
    = ((madeBy (c.own ops)).perform (c.operation change)).1

/-! ## 3. What operations bring -/

section Brought

theorem change?_eq_none_or_eq_operation (op : Operation) :
    c.change? op = none ∨ ∃ change, op = c.operation change := by
  by_cases h : ∃ change, op = c.operation change
  · exact .inr h
  · exact .inl (c.declarations_perform_other .empty op (not_exists.mp h)).1

theorem keysIn_append (ops ops' : List Operation) :
    c.keysIn (ops ++ ops') = c.keysIn ops ++ c.keysIn ops' := by
  simp only [keysIn, List.filterMap_append, List.map_append]

theorem pushedTo_append (index : Nat) (ops ops' : List Operation) :
    c.pushedTo index (ops ++ ops') = c.pushedTo index ops ++ c.pushedTo index ops' := by
  simp only [pushedTo, List.filterMap_append]

variable {c}

theorem keysIn_of_none {op : Operation} (h : c.change? op = none) : c.keysIn [op] = [] := by
  rw [keysIn, List.filterMap_cons_none h]
  rfl

theorem pushedTo_of_none {op : Operation} (h : c.change? op = none) (index : Nat) :
    c.pushedTo index [op] = [] := by
  rw [pushedTo, List.filterMap_cons_none h]
  rfl

variable (c)

theorem keysIn_insert (a : α) : c.keysIn [c.operation (.insert a)] = [c.key a] := by
  rw [keysIn, List.filterMap_cons_some (c.change?_operation _)]
  rfl

theorem keysIn_push (index : Nat) (b : β) : c.keysIn [c.operation (.push index b)] = [] := by
  rw [keysIn, List.filterMap_cons_some (c.change?_operation _)]
  rfl

theorem pushedTo_operation (index : Nat) (change : Change α β) :
    c.pushedTo index [c.operation change] = (change.pushedTo? index).toList := by
  rw [pushedTo, List.filterMap_cons_some (c.change?_operation _), List.filterMap_nil]
  cases h : change.pushedTo? index with
  | none => exact List.filterMap_cons_none h
  | some b => exact List.filterMap_cons_some h

end Brought

/-! ## 4. One operation -/

section Step

theorem length_keys (t : Table) : (c.keys t).length = (c.declarations t).length := List.length_map _

variable {c}

theorem declarations_perform_of_none {op : Operation} (h : c.change? op = none) (t : Table) :
    c.declarations (t.perform op).2 = c.declarations t := by
  refine (c.declarations_perform_other t op fun change heq => ?_).2
  rw [heq, c.change?_operation] at h
  cases h

variable (c)

theorem declarations_perform_insert (t : Table) (a : α) :
    c.declarations (t.perform (c.operation (.insert a))).2
      = if c.key a ∈ c.keys t then c.declarations t else c.declarations t ++ [a] := by
  by_cases h : c.key a ∈ c.keys t
  · rw [c.perform_insert_of_mem t a h, if_pos h]
  · rw [c.perform_insert_of_not_mem t a h, c.declarations_withDeclarations, if_neg h]

theorem declarations_perform_push (t : Table) (index : Nat) (b : β) :
    c.declarations (t.perform (c.operation (.push index b))).2
      = (c.declarations t).modify index (c.extend · [b]) := by
  by_cases h : index < (c.declarations t).length
  · rw [c.perform_push_of_lt t index b h, c.declarations_withDeclarations]
  · rw [c.perform_push_of_le t index b (Nat.not_lt.mp h), List.modify_eq_self (Nat.not_lt.mp h)]

theorem keys_perform_push (t : Table) (index : Nat) (b : β) :
    c.keys (t.perform (c.operation (.push index b))).2 = c.keys t := by
  refine List.ext_getElem? fun i => ?_
  rw [keys, keys, declarations_perform_push, List.getElem?_map, List.getElem?_map, List.getElem?_modify]
  cases (c.declarations t)[i]? with
  | none => rfl
  | some a =>
    dsimp only [Option.map_eq_map, Option.map_some]
    split
    · rw [c.key_extend]
    · rfl

theorem keys_perform_insert (t : Table) (a : α) :
    c.keys (t.perform (c.operation (.insert a))).2
      = if c.key a ∈ c.keys t then c.keys t else c.keys t ++ [c.key a] := by
  rw [keys, declarations_perform_insert]
  split
  · rfl
  · rw [List.map_append]
    rfl

variable {c}

/-- **A declaration keeps its index**, and gets the entry that an operation pushes to it. -/
theorem getElem?_perform {t : Table} {index : Nat} {a : α} (h : (c.declarations t)[index]? = some a)
    (op : Operation) :
    (c.declarations (t.perform op).2)[index]? = some (c.extend a (c.pushedTo index [op])) := by
  rcases c.change?_eq_none_or_eq_operation op with hnone | ⟨change, rfl⟩
  · rw [declarations_perform_of_none hnone, pushedTo_of_none hnone, c.extend_nil, h]
  · rw [pushedTo_operation]
    cases change with
    | insert a' =>
      rw [declarations_perform_insert, Change.pushedTo?, Option.toList_none, c.extend_nil]
      split
      · exact h
      · rw [List.getElem?_append_left (List.getElem?_eq_some_iff.mp h).1, h]
    | push i b =>
      rw [declarations_perform_push, List.getElem?_modify, h, Change.pushedTo?]
      dsimp only [Option.map_eq_map, Option.map_some]
      split
      · rw [Option.toList_some]
      · rw [Option.toList_none, c.extend_nil]

/-- What an operation answers, and the declarations it leaves, depend on the declarations of its own
    collection alone. -/
theorem perform_congr {t u : Table} (h : c.declarations t = c.declarations u) (change : Change α β) :
    (t.perform (c.operation change)).1 = (u.perform (c.operation change)).1 ∧
      c.declarations (t.perform (c.operation change)).2
        = c.declarations (u.perform (c.operation change)).2 := by
  have hkeys : c.keys t = c.keys u := congrArg (List.map c.key) h
  cases change with
  | insert a =>
    refine ⟨?_, by rw [declarations_perform_insert, declarations_perform_insert, hkeys, h]⟩
    by_cases hmem : c.key a ∈ (c.declarations t).map c.key
    · rw [c.perform_insert_of_mem t a hmem, c.perform_insert_of_mem u a (h ▸ hmem)]
    · rw [c.perform_insert_of_not_mem t a hmem, c.perform_insert_of_not_mem u a (h ▸ hmem), h]
  | push index b =>
    refine ⟨?_, by rw [declarations_perform_push, declarations_perform_push, h]⟩
    by_cases hlt : index < (c.declarations t).length
    · rw [c.perform_push_of_lt t index b hlt, c.perform_push_of_lt u index b (h ▸ hlt)]
    · have hle := Nat.not_lt.mp hlt
      rw [c.perform_push_of_le t index b hle, c.perform_push_of_le u index b (h ▸ hle)]

end Step

/-! ## 5. All operations -/

section Run

theorem performAll_append (t : Table) (ops ops' : List Operation) :
    t.performAll (ops ++ ops') = (t.performAll ops).performAll ops' := List.foldl_append

theorem madeBy_concat (ops : List Operation) (op : Operation) :
    madeBy (ops ++ [op]) = ((madeBy ops).perform op).2 := performAll_append _ _ _

theorem eraseDups_concat (xs : List κ) (x : κ) :
    (xs ++ [x]).eraseDups = if x ∈ xs.eraseDups then xs.eraseDups else xs.eraseDups ++ [x] := by
  rw [List.eraseDups_append, List.removeAll, List.filter_singleton]
  by_cases h : x ∈ xs
  · rw [if_pos (List.mem_eraseDups.mpr h), List.elem_eq_true_of_mem h]
    exact List.append_nil _
  · have helem : List.elem x xs = false := by simpa using h
    rw [if_neg (mt List.mem_eraseDups.mp h), helem]
    rfl

theorem nodup_eraseDups (xs : List κ) : xs.eraseDups.Nodup := by
  induction xs using List.reverseRecOn with
  | nil => exact List.nodup_nil
  | append_singleton xs x ih =>
    rw [eraseDups_concat]
    split
    · exact ih
    · rename_i h
      rw [← List.concat_eq_append]
      exact ih.concat h

/-- **The keys are those that insertions brought**, each one where it came first. -/
theorem keys_madeBy (ops : List Operation) : c.keys (madeBy ops) = (c.keysIn ops).eraseDups := by
  -- from the end, since an insertion asks for the keys of all operations before it
  induction ops using List.reverseRecOn with
  | nil =>
    rw [keys, madeBy, performAll, List.foldl_nil, c.declarations_empty]
    rfl
  | append_singleton ops op ih =>
    rw [madeBy_concat, keysIn_append]
    rcases c.change?_eq_none_or_eq_operation op with hnone | ⟨change, rfl⟩
    · rw [keys, declarations_perform_of_none hnone, keysIn_of_none hnone, List.append_nil]
      exact ih
    · cases change with
      | insert a => rw [keys_perform_insert, keysIn_insert, eraseDups_concat, ih]
      | push index b => rw [keys_perform_push, keysIn_push, List.append_nil, ih]

variable {c}

/-- **A declaration keeps its index**, and gets the entries that operations push to it, in their
    order. -/
theorem getElem?_performAll {t : Table} {index : Nat} {a : α} (h : (c.declarations t)[index]? = some a)
    (ops : List Operation) :
    (c.declarations (t.performAll ops))[index]? = some (c.extend a (c.pushedTo index ops)) := by
  induction ops generalizing t a with
  | nil => exact (c.extend_nil a).symm ▸ h
  | cons op ops ih =>
    rw [← List.singleton_append, pushedTo_append, c.extend_append]
    exact ih (getElem?_perform h op)

variable (c)

/-- A key finds the declaration at its index. -/
theorem find?_eq_getElem? (t : Table) (k : κ) :
    c.find? t k = (c.declarations t)[(c.keys t).idxOf k]? := by
  rw [c.find?_eq, List.find?_eq_getElem?_findIdx, keys, List.idxOf, List.findIdx_map]
  rfl

/-- **The operations of the other collection make no difference.** -/
theorem declarations_madeBy_own (ops : List Operation) :
    c.declarations (madeBy ops) = c.declarations (madeBy (c.own ops)) := by
  induction ops using List.reverseRecOn with
  | nil => rfl
  | append_singleton ops op ih =>
    rw [madeBy_concat, own, List.filter_append]
    -- an operation of the other collection is filtered out, and leaves these declarations alone
    rcases c.change?_eq_none_or_eq_operation op with hnone | ⟨change, rfl⟩
    · rw [List.filter_singleton, hnone, declarations_perform_of_none hnone, ih]
      exact congrArg _ (congrArg _ (List.append_nil _).symm)
    · rw [List.filter_singleton, c.change?_operation]
      exact (perform_congr ih change).2.trans (congrArg _ (madeBy_concat _ _).symm)

/-- A key that is new stands at its index, and finds the declaration there, after all that comes
    later. -/
theorem index_stays {ops later : List Operation} {a : α} (h : c.key a ∉ c.keys (madeBy ops))
    {index : Nat} (hindex : index = (c.keys (madeBy ops)).length) {t' : Table}
    (ht' : t' = madeBy (ops ++ c.operation (.insert a) :: later)) :
    (c.keys t')[index]? = some (c.key a) ∧
      (c.declarations t')[index]? = some (c.extend a (c.pushedTo index later)) ∧
      c.find? t' (c.key a) = some (c.extend a (c.pushedTo index later)) := by
  have hinserted :
      (c.declarations ((madeBy ops).perform (c.operation (.insert a))).2)[index]? = some a := by
    rw [declarations_perform_insert, if_neg h, hindex, length_keys, List.getElem?_concat_length]
  have hdeclaration :
      (c.declarations t')[index]? = some (c.extend a (c.pushedTo index later)) := by
    rw [ht', madeBy, performAll_append]
    exact getElem?_performAll hinserted later
  have hkey : (c.keys t')[index]? = some (c.key a) := by
    rw [keys, List.getElem?_map, hdeclaration, Option.map_some, c.key_extend]
  have hnodup : (c.keys t').Nodup := by
    rw [ht', keys_madeBy]
    exact nodup_eraseDups _
  refine ⟨hkey, hdeclaration, ?_⟩
  obtain ⟨hlt, hget⟩ := List.getElem?_eq_some_iff.mp hkey
  rw [find?_eq_getElem?, ← hget, hnodup.idxOf_getElem, hdeclaration]

end Run

/-- **A collection grows at its ends alone.** -/
theorem appendsOnly (ops : List Operation) : c.AppendsOnly ops (madeBy ops) where
  keys_eq := c.keys_madeBy ops
  nodup := by
    rw [keys_madeBy]
    exact nodup_eraseDups _
  insert_old a h := c.perform_insert_of_mem _ a h
  insert_new a h := by rw [c.perform_insert_of_not_mem _ a h, length_keys]
  index_stays _ _ _ _ h hindex ht' := c.index_stays h hindex ht'
  push_inside front a back b h := by
    have hlt : front.length < (c.declarations (madeBy ops)).length := by
      rw [h, List.length_append, List.length_cons]
      omega
    rw [c.perform_push_of_lt _ _ b hlt, h, List.modify_eq_take_cons_drop (h ▸ hlt)]
    simp
  push_outside index b h := c.perform_push_of_le _ index b (c.length_keys _ ▸ h)
  find?_eq := c.find?_eq_getElem? (madeBy ops)
  own_eq := c.declarations_madeBy_own ops
  answer_eq change := (perform_congr (c.declarations_madeBy_own ops) change).1

end Collection

/-- **Each collection of a table grows at its ends alone**, whatever operations make the table, in which
    order, and whether or not they are refused or find nothing. -/
theorem madeBy_appendsOnly (ops : List Operation) :
    Collection.enumerations.AppendsOnly ops (madeBy ops) ∧
      Collection.functions.AppendsOnly ops (madeBy ops) :=
  ⟨Collection.enumerations.appendsOnly ops, Collection.functions.appendsOnly ops⟩

/-- A refused enumeration leaves no trace, and the values keep the order of their pushes. -/
example : madeBy [.enumerations (.insert ⟨"Kind", "int", []⟩), .enumerations (.push 0 ⟨3, "Three"⟩),
    .enumerations (.insert ⟨"Kind", "u8", []⟩), .functions (.push 0 ⟨"Kind", "kind"⟩),
    .enumerations (.push 0 ⟨1, "One"⟩)]
      = ⟨[⟨"Kind", "int", [⟨3, "Three"⟩, ⟨1, "One"⟩]⟩], []⟩ := by
  decide

end Table
end FunctionMap
