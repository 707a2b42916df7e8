import FunctionMap.Json.Dump
import FunctionMap.Text.Decimal
import FunctionMap.Proofs.Declaration.Key
import FunctionMap.Proofs.Output.Formatter

/-!
# The JSON dump loses nothing

Every part of the dump can be made out in front of any text, `Legible`: a string ends at the first
quote without a backslash, an item at the comma or the line feed behind it, and a collection at its
bracket. A number is followed by one of these.

Main statement: `legible_dump`. Names are any strings, and keys may repeat.
-/

namespace FunctionMap
namespace Json

/-! ## 1. Strings -/

/-- The character that a letter behind a backslash stands for. -/
def named? (letter : Char) : Option Char :=
  if letter = '"' then some '"'
  else if letter = '\\' then some '\\'
  else if letter = 'b' then some '\x08'
  else if letter = 'f' then some '\x0C'
  else if letter = 'n' then some '\n'
  else if letter = 'r' then some '\r'
  else if letter = 't' then some '\t'
  else none

/-- The first character inside a string, and what is behind its text. -/
def unescape : List Char → Option (Char × List Char)
  | '\\' :: 'u' :: a :: b :: c :: d :: rest =>
    (digits? 16 [a, b, c, d]).map fun n => (Char.ofNat n, rest)
  | '\\' :: letter :: rest => (named? letter).map fun c => (c, rest)
  | c :: rest => some (c, rest)
  | [] => none

theorem digits?_hexDigit :
    ∀ n < 0x20, digits? 16 ['0', '0', hexDigit (n / 16), hexDigit (n % 16)] = some n := by
  decide

theorem unescape_escape (c : Char) (rest : List Char) :
    unescape (escape c ++ rest) = some (c, rest) := by
  unfold escape
  -- the characters that have a letter
  iterate 7
    split
    · subst_vars
      rfl
  split
  · rename_i hcontrol
    show ((digits? 16 _).map fun n => (Char.ofNat n, rest)) = _
    rw [digits?_hexDigit c.toNat hcontrol, Option.map_some, Char.ofNat_toNat]
  · rename_i hbackslash _ _ _ _ _ _
    rw [List.singleton_append, unescape]
    · exact fun _ _ _ _ _ hc => absurd hc hbackslash
    · exact fun _ _ hc => absurd hc hbackslash

/-- **A string is legible in front of anything.** -/
theorem legible_string : Legible string id Any Any :=
  .quoted unescape_escape (fun _ => rfl) fun _ _ h => by cases h

/-! ## 2. Collections -/

/-- An object of two members with fixed names: what stands in front of the first value, between the
    values, and behind the second one. -/
theorem object_fields (level : Nat) (name₁ name₂ value₁ value₂ : List Char) :
    object level [member name₁ value₁, member name₂ value₂]
      = ('\x7b' :: '\n' :: indentation (level + 1) ++ string name₁ ++ [':', ' '])
        ++ (value₁ ++ ((',' :: '\n' :: indentation (level + 1) ++ string name₂ ++ [':', ' '])
          ++ (value₂ ++ ('\n' :: indentation level ++ ['\x7d'])))) := by
  simp [object, collection, items, member]

section Collections

variable {α β γ : Type} {write : α → List Char} {view : α → β} {F : List Char → Prop}

/-- **Two legible fields are a legible object.** -/
theorem legible_fields {write' : α → List Char} {view' : α → γ} {F' : List Char → Prop}
    (h : Legible write view Any F) (h' : Legible write' view' Any F')
    (hF : ∀ r, F (',' :: r)) (hF' : ∀ r, F' ('\n' :: r)) (level : Nat) (name₁ name₂ : List Char) :
    Legible (fun a => object level [member name₁ (write a), member name₂ (write' a)])
      (fun a => (view a, view' a)) Any Any := by
  have hsecond := (h'.followed ('\n' :: indentation level ++ ['\x7d']) (G := Any)
    fun r _ => hF' _).prepend (',' :: '\n' :: indentation (level + 1) ++ string name₂ ++ [':', ' '])
  have hboth := (h.append hsecond fun _ r _ _ => hF _).prepend
    ('\x7b' :: '\n' :: indentation (level + 1) ++ string name₁ ++ [':', ' '])
  simpa only [object_fields] using hboth

/-- Items in lines: a comma and a line feed stand in front of every item but the first one. -/
theorem items_cons (level : Nat) (item : List Char) (rest : List (List Char)) :
    items level (item :: rest) = indentation level ++ (item
      ++ (rest.flatMap (fun next => ',' :: '\n' :: indentation level ++ next) ++ ['\n'])) := by
  induction rest generalizing item with
  | nil => rw [items, List.append_assoc, List.flatMap_nil, List.nil_append]
  | cons next rest ih =>
    rw [items, ih, List.flatMap_cons]
    · simp
    · exact List.cons_ne_nil next rest

/-- Items in lines are legible: a line feed stands behind the last one, and a comma behind the
    others. -/
theorem legible_items (h : Legible write view Any Any) (level : Nat) :
    Legible (fun p : α × List α => items level ((p.1 :: p.2).map write))
      (fun p => (p.1 :: p.2).map view) Any Any := by
  have hrest := ((h.prepend (',' :: '\n' :: indentation level)).flatMap
    (E := fun r => ∃ s, r = '\n' :: s) (fun _ _ _ => any _) (fun _ _ => any _)
    (by rintro x r s - ⟨s, rfl⟩ heq; cases heq)).followed ['\n'] (G := Any) fun r _ => ⟨r, rfl⟩
  have hfirst := h.comp_any fun p : α × List α => p.1
  have hrest := hrest.comp (fun p : α × List α => p.2) (Q := Any) fun _ _ x _ => any x
  refine (((hfirst.append hrest fun _ _ _ _ => any _).prepend (indentation level)).of_view
    ?_).congr ?_
  · intro p q hpq
    obtain ⟨hfirst, hrest⟩ := Prod.mk.inj hpq
    rw [List.map_cons, List.map_cons, hfirst, hrest]
  · intro p _
    rw [List.map_cons, items_cons, List.flatMap_map]

/-- **A collection of legible items is legible**, the empty one by its bracket. -/
theorem legible_collection (h : Legible write view Any Any) {left right : Char}
    (hright : right ≠ '\n') (level : Nat) :
    Legible (fun xs => collection left right level (xs.map write)) (List.map view) Any Any := by
  refine .of_cons (fun x xs r s _ heq => ?_) ?_
  · injection heq with _ heq
    injection heq with hbreak _
    exact hright hbreak.symm
  · exact ((legible_items h (level + 1)).followed (indentation level ++ [right]) (G := Any)
      fun _ _ => any _).prepend [left, '\n'] |>.congr fun p _ => by simp [collection]

/-- A member is legible with its name. -/
theorem legible_member (h : Legible write view Any Any) (name : α → List Char) :
    Legible (fun a => member (name a) (write a)) (fun a => (name a, view a)) Any Any :=
  (legible_string.comp_any name).append (h.prepend [':', ' ']) fun _ _ _ _ => any _

theorem legible_array (h : Legible write id Any Any) (level : Nat) :
    Legible (fun xs : List α => array level (xs.map write)) id Any Any :=
  (legible_collection h (by decide) level).of_map_id

theorem legible_object (h : Legible write id Any Any) (level : Nat) :
    Legible (fun xs : List α => object level (xs.map write)) id Any Any :=
  (legible_collection h (by decide) level).of_map_id

end Collections

/-! ## 3. Tables -/

/-- A text that is shown as a string. -/
theorem legible_text {α : Type} (text : α → String) :
    Legible (fun a => string (text a).toList) text Any Any :=
  (legible_string.comp_any (fun a => (text a).toList)).of_view
    fun _ _ hab => String.toList_inj.mp hab

theorem legible_value : Legible value id Any Any := by
  have hkey := Numeral.legible_write.comp_any (fun v : EnumValue => v.key.toInt)
  refine (legible_fields hkey (legible_text EnumValue.name) (by simp [Numeral.isFigure])
    (fun _ => any _) 4 _ _).of_view fun v w hvw => ?_
  obtain ⟨hkey, hname⟩ := Prod.mk.inj hvw
  cases v
  cases w
  cases Int64.toInt_inj.mp hkey
  cases hname
  rfl

theorem legible_parameter : Legible parameter id Any Any := by
  refine (legible_fields (legible_text Parameter.typeName) (legible_text Parameter.name)
    (fun _ => any _) (fun _ => any _) 4 _ _).of_view fun p q hpq => ?_
  cases p
  cases q
  cases hpq
  rfl

theorem legible_enumMember : Legible enumMember id Any Any := by
  have hvalues := (legible_array legible_value 3).comp_any Enumeration.values
  refine (legible_member (legible_fields (legible_text Enumeration.elementType) hvalues
    (fun _ => any _) (fun _ => any _) 2 _ _) fun e => e.name.toList).of_view fun e e' hee => ?_
  obtain ⟨hname, hbody⟩ := Prod.mk.inj hee
  cases e
  cases e'
  cases String.toList_inj.mp hname
  cases hbody
  rfl

theorem legible_functionMember : Legible functionMember id Any Any := by
  have hparameters := (legible_array legible_parameter 3).comp_any Function.parameters
  refine (legible_member (legible_fields (legible_text Function.name) hparameters
    (fun _ => any _) (fun _ => any _) 2 _ _) fun f => f.key.chars).of_view fun f f' hff => ?_
  obtain ⟨hkey, hbody⟩ := Prod.mk.inj hff
  have hkey := FunctionKey.legible_chars.view_eq (any _) (any _) (any _) hkey
  cases f
  cases f'
  cases hkey
  cases hbody
  rfl

/-- **The dump shows the whole table.** -/
theorem legible_dump : Legible dump id Any Any := by
  have henums := (legible_object legible_enumMember 1).comp_any Table.enums
  have hfunctions := (legible_object legible_functionMember 1).comp_any Table.functions
  refine (legible_fields henums hfunctions (fun _ => any _) (fun _ => any _) 0 _ _).of_view
    fun t u htu => ?_
  cases t
  cases u
  cases htu
  rfl

end Json

/-- **The JSON format loses nothing**: it writes every table, and the same bytes for no two tables. -/
theorem json_loses_nothing (t u : Table) :
    (∃ bytes, Registry.builtin.format t "json" = .ok bytes) ∧
      (Registry.builtin.format t "json" = Registry.builtin.format u "json" ↔ t = u) := by
  refine ⟨⟨_, Registry.format_json t⟩, fun h => ?_, fun h => by rw [h]⟩
  rw [Registry.format_json, Registry.format_json] at h
  have hdump := List.append_cancel_right (Utf8.encode_injective (Except.ok.inj h))
  exact Json.legible_dump.view_eq (any _) (any _) (any _) hdump

end FunctionMap
