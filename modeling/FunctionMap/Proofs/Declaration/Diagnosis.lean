import FunctionMap.Proofs.Declaration.Reader
import FunctionMap.Proofs.Declaration.OpenDeclaration

/-!
# What an error says of a source is so

The rules of `Truthful source` say, for every kind of error that a source can have, what has to be
found in the source: the character at the offset, the end at the offset, the token at the offset and
why it is no integer, two headers with the same key, or bytes that are no text from the offset on. No
rule speaks of a stray entry.

Two facts about runs are used. The cursor of every state stands in the text, so a refusal points into
it; and the keys of the table are those of the headers read before (`keys_of_visited`), so a key that
is refused has a header of its own further up.

Main statement: `diagnosis_truthful`.
-/

namespace FunctionMap
namespace Parser

open Numeral (Width Spells)

/-! ## 1. Headers in a source -/

/-- The enumeration name that a header declares, if it declares one. -/
def Header.enumName? : Header → Option String
  | .enumeration name _ => some name
  | .function _ _ => none

/-- The function key that a header declares, if it declares one. -/
def Header.functionKey? : Header → Option FunctionKey
  | .enumeration _ _ => none
  | .function key _ => some key

/-- The header stands at the start of a text, by the grammar. -/
def Header.Stands : Header → List Char → Prop
  | .enumeration name elementType, text => ∃ rest, Grammar.EnumHeader text name elementType rest
  | .function key name, text => ∃ rest, Grammar.FunctionHeader text key name rest

/-- The parser reads a header at an offset of a source, and it stands there. -/
structure HeaderAt (source : Bytes) (offset : Nat) (h : Header) : Prop where
  read : ∃ s ∈ statesOf source, s.header? = some h ∧ s.cursor.offset = offset
  stands : ∃ before text, source = Utf8.encode before ++ Utf8.encode text ∧
    offset = (Utf8.encode before).length ∧ h.Stands text

/-- What an error says of a source is so. -/
inductive Truthful (source : Bytes) : SourceError → Prop where
  | unexpectedCharacter {before after : List Char} {x : Char} {offset : Nat}
      (hsource : source = Utf8.encode before ++ Utf8.encode (x :: after))
      (hoffset : offset = (Utf8.encode before).length) (hlt : offset < source.length) :
      Truthful source (.unexpectedCharacter x offset)
  | unexpectedEnd {expected : String} {offset : Nat} (hvalid : Utf8.Valid source)
      (hoffset : offset = source.length) : Truthful source (.unexpectedEnd expected offset)
  | notAnInteger {before after : List Char} {token : String} {offset : Nat} {fault : Numeral.Fault}
      {s : State} {w : Width}
      (hsource : source =
        Utf8.encode before ++ Utf8.encode token.toList ++ Utf8.encode after)
      (hoffset : offset = (Utf8.encode before).length)
      (hplain : ∀ c ∈ token.toList, Symbol.isDelimiter c = false)
      (hmaximal : ∀ c ∈ after.head?, Symbol.isDelimiter c = true)
      (hlast : (statesOf source).getLast? = some s) (hdue : s.phase.dueWidth = some w)
      (hnot : ∀ v, Spells token.toList v → ¬ w.Holds v)
      (hfault : Numeral.read w token.toList = .error fault) :
      Truthful source (.notAnInteger token offset fault)
  | duplicateEnum {name t₁ t₂ : String} {n₁ n₂ : Nat} (hlt : n₁ < n₂)
      (h₁ : HeaderAt source n₁ (.enumeration name t₁))
      (h₂ : HeaderAt source n₂ (.enumeration name t₂)) :
      Truthful source (.duplicate .enumeration name)
  | duplicateFunction {key : FunctionKey} {name₁ name₂ : String} {n₁ n₂ : Nat} (hlt : n₁ < n₂)
      (h₁ : HeaderAt source n₁ (.function key name₁))
      (h₂ : HeaderAt source n₂ (.function key name₂)) :
      Truthful source (.duplicate .function key.text)
  | notUtf8 {offset : Nat} (hinvalid : ¬ Utf8.Valid source) (hoffset : Utf8.ValidUpTo source offset) :
      Truthful source (.notUtf8 offset)

/-! ## 2. What headers declare -/

/-- A part of a table that headers declare and entries leave as it is: `part t` lists it, and `of?` is
    what one header adds to it. -/
structure Declared {γ : Type} (part : Table → List γ) (of? : Header → Option γ) : Prop where
  empty : part .empty = []
  enumeration : ∀ t name elementType, part (t.addEnum ⟨name, elementType, []⟩)
    = part t ++ (of? (.enumeration name elementType)).toList
  function : ∀ t key name, part (t.addFunction ⟨key, name, []⟩)
    = part t ++ (of? (.function key name)).toList
  value : ∀ es e fs value, part ⟨es ++ [{ e with values := e.values ++ [value] }], fs⟩
    = part ⟨es ++ [e], fs⟩
  parameter : ∀ es fs f parameter,
    part ⟨es, fs ++ [{ f with parameters := f.parameters ++ [parameter] }]⟩ = part ⟨es, fs ++ [f]⟩

section Declared

variable {γ : Type} {part : Table → List γ} {of? : Header → Option γ}

/-- **A step adds what the header that it reads declares, and nothing else.** -/
theorem Transition.declared {s s' : State} (h : Transition s s') (hs : s.Consistent)
    (hpart : Declared part of?) :
    part s'.table = part s.table ++ (s.header?.bind of?).toList := by
  cases h with
  | turn resume p hphase hnext =>
    rw [header?_eq_none (within_self hphase)]
    exact (List.append_nil _).symm
  | uncomment resume hphase =>
    rw [header?_eq_none (Or.inr hphase)]
    exact (List.append_nil _).symm
  | enumHeader name elementType c hphase hread hnew =>
    have hheader : s.header? = some (.enumeration name elementType) := by
      simp only [State.header?, hphase, hread]
    rw [hheader]
    exact hpart.enumeration s.table name elementType
  | functionHeader key name c hphase hread hnew =>
    have hheader : s.header? = some (.function key name) := by
      simp only [State.header?, hphase, hread]
    rw [hheader]
    exact hpart.function s.table key name
  | value value c table hphase hentry hread hpush =>
    have hw : s.phase.Within .values := within_self hphase
    obtain ⟨es, e, he, -, rfl⟩ := hs.value_pushed hw hpush
    have htable : s.table = ⟨es ++ [e], s.table.functions⟩ := by rw [← he]
    rw [header?_eq_none hw, htable]
    exact (hpart.value es e _ value).trans (List.append_nil _).symm
  | parameter parameter c table hphase hentry hread hpush =>
    have hw : s.phase.Within .parameters := within_self hphase
    obtain ⟨fs, f, hf, -, rfl⟩ := hs.parameter_pushed hw hpush
    have htable : s.table = ⟨s.table.enums, fs ++ [f]⟩ := by rw [← hf]
    rw [header?_eq_none hw, htable]
    exact (hpart.parameter _ fs f parameter).trans (List.append_nil _).symm

/-- **What is declared in a table is what the headers read before declare.** -/
theorem declared_of_visited (hpart : Declared part of?) {c : Cursor} {before after : List State}
    {s : State} (h : visited (State.start c) = before ++ s :: after) :
    part s.table = before.filterMap fun s => s.header?.bind of? := by
  have hstep : ∀ before s s',
      s.Consistent ∧ part s.table = before.filterMap (fun s => s.header?.bind of?) →
      s.cursor.rest ≠ [] → Transition s s' →
      s'.Consistent ∧ part s'.table = (before ++ [s]).filterMap fun s => s.header?.bind of? := by
    intro before s s' hs _ ht
    refine ⟨ht.consistent hs.1, ?_⟩
    rw [ht.declared hs.1 hpart, hs.2, List.filterMap_append, List.filterMap_cons]
    cases s.header?.bind of? <;> rfl
  have hstart : (State.start c).Consistent ∧ part (State.start c).table
      = ([] : List State).filterMap (fun s => s.header?.bind of?) :=
    ⟨consistent_start c, hpart.empty⟩
  exact (visited_induction (P := fun before s => s.Consistent ∧
    part s.table = before.filterMap fun s => s.header?.bind of?) hstep hstart h).2

end Declared

theorem declared_enumNames : Declared Table.enumNames Header.enumName? where
  empty := rfl
  enumeration t name elementType := by simp [Table.enumNames, Table.addEnum, Header.enumName?]
  function t key name := by simp [Table.enumNames, Table.addFunction, Header.enumName?]
  value es e fs value := by simp [Table.enumNames]
  parameter es fs f parameter := rfl

theorem declared_functionKeys : Declared Table.functionKeys Header.functionKey? where
  empty := rfl
  enumeration t name elementType := by simp [Table.functionKeys, Table.addEnum, Header.functionKey?]
  function t key name := by simp [Table.functionKeys, Table.addFunction, Header.functionKey?]
  value es e fs value := rfl
  parameter es fs f parameter := by simp [Table.functionKeys]

/-- The keys of the table of `s` are those of the headers that the states `before` read. -/
structure KeysOf (before : List State) (s : State) : Prop where
  enumNames : s.table.enumNames = before.filterMap fun s => s.header?.bind Header.enumName?
  functionKeys : s.table.functionKeys = before.filterMap fun s => s.header?.bind Header.functionKey?

/-- **The keys of the table are those of the headers read before.** -/
theorem keys_of_visited {c : Cursor} {before after : List State} {s : State}
    (h : visited (State.start c) = before ++ s :: after) : KeysOf before s :=
  ⟨declared_of_visited declared_enumNames h, declared_of_visited declared_functionKeys h⟩

/-! ## 3. States of a run in a text -/

theorem Header.Stands.ne_nil {h : Header} {text : List Char} (hstands : h.Stands text) : text ≠ [] := by
  cases h with
  | enumeration name elementType =>
    obtain ⟨rest, hstands⟩ := hstands
    exact hstands.ne_nil
  | function key name =>
    obtain ⟨rest, hstands⟩ := hstands
    exact hstands.ne_nil

/-- Where a header is read, it stands by the grammar, and reading it moves the cursor on. -/
theorem State.stands_of_header? {s : State} {h : Header} (hs : s.header? = some h) :
    h.Stands s.cursor.rest ∧ s.weight = 2 * s.cursor.rest.length := by
  unfold State.header? at hs
  split at hs
  · rename_i hphase
    split at hs
    · rename_i hread
      cases hs
      obtain ⟨rest, hheader, -⟩ := readEnumHeader_eq_ok_iff.mp hread
      exact ⟨⟨rest, hheader⟩, by rw [State.weight, hphase]; rfl⟩
    · cases hs
  · rename_i hphase
    split at hs
    · rename_i hread
      cases hs
      obtain ⟨rest, hheader, -⟩ := readFunctionHeader_eq_ok_iff.mp hread
      exact ⟨⟨rest, hheader⟩, by rw [State.weight, hphase]; rfl⟩
    · cases hs
  · cases hs

/-- **What is declared in the table that a text gives is what the headers read in it declare.** -/
theorem mem_declared_iff_header {γ : Type} {part : Table → List γ} {of? : Header → Option γ}
    (hpart : Declared part of?) {text : List Char} {t : Table}
    (h : parse (Utf8.encode text) = .ok t) {x : γ} :
    x ∈ part t ↔ ∃ s ∈ statesOf (Utf8.encode text), ∃ header, s.header? = some header ∧
      of? header = some x := by
  obtain ⟨hparse, hstates⟩ := parse_eq_run (Cursor.ofBytes_encode text)
  rw [hparse] at h
  obtain ⟨last, hlast, hend, rfl⟩ := getLast?_visited_of_run_ok h
  obtain ⟨before, hvisited⟩ := List.getLast?_eq_some_iff.mp hlast
  rw [declared_of_visited hpart hvisited, hstates, hvisited, List.mem_filterMap]
  constructor
  · intro h
    obtain ⟨s, hs, hx⟩ := h
    exact ⟨s, List.mem_append_left _ hs, Option.bind_eq_some_iff.mp hx⟩
  · intro h
    obtain ⟨s, hs, header, hheader, hx⟩ := h
    -- nothing is left to read in the last state, so it reads no header
    rcases List.mem_append.mp hs with hs | hs
    · exact ⟨s, hs, Option.bind_eq_some_iff.mpr ⟨header, hheader, hx⟩⟩
    · obtain rfl := List.mem_singleton.mp hs
      exact absurd hend (State.stands_of_header? hheader).1.ne_nil

theorem headerAt_of_visited {text : List Char} {s : State} {h : Header}
    (hs : s ∈ statesOf (Utf8.encode text)) (hheader : s.header? = some h) :
    HeaderAt (Utf8.encode text) s.cursor.offset h where
  read := ⟨s, hs, hheader, rfl⟩
  stands := by
    rw [(parse_eq_run (Cursor.ofBytes_encode text)).2] at hs
    obtain ⟨before, htext, hoffset⟩ := cursor_in_of_mem_visited hs
    refine ⟨before, s.cursor.rest, ?_, ?_, (State.stands_of_header? hheader).1⟩
    · rw [← Utf8.encode_append, ← htext]
    · rw [hoffset, Utf8.length_encode]

/-- Headers that are read one behind the other stand one behind the other. -/
theorem offset_lt_of_headers {text : List Char} {before after : List State} {s₁ s₂ : State}
    {h₁ h₂ : Header} (hvisited : statesOf (Utf8.encode text) = before ++ s₂ :: after)
    (hs₁ : s₁ ∈ before) (hheader₁ : s₁.header? = some h₁) (hheader₂ : s₂.header? = some h₂) :
    s₁.cursor.offset < s₂.cursor.offset := by
  rw [(parse_eq_run (Cursor.ofBytes_encode text)).2] at hvisited
  have hweight := weight_lt_of_visited hvisited s₁ hs₁
  rw [(State.stands_of_header? hheader₁).2, (State.stands_of_header? hheader₂).2] at hweight
  have hin₁ : s₁.cursor.In text :=
    cursor_in_of_mem_visited (hvisited ▸ List.mem_append_left _ hs₁)
  have hin₂ : s₂.cursor.In text :=
    cursor_in_of_mem_visited (hvisited ▸ List.mem_append_right _ List.mem_cons_self)
  exact hin₁.offset_lt hin₂ (by omega)

/-! ## 4. Every error is truthful -/

theorem truthful_of_pointsInto {text : List Char} {e : SourceError} {s : State}
    (hlast : (statesOf (Utf8.encode text)).getLast? = some s)
    (h : e.PointsInto text s.phase.dueWidth) : Truthful (Utf8.encode text) e := by
  cases h with
  | @unexpectedCharacter x offset after h =>
    obtain ⟨before, htext, hoffset⟩ := h
    have hsource : Utf8.encode text = Utf8.encode before ++ Utf8.encode (x :: after) := by
      rw [← Utf8.encode_append, htext]
    rw [← Utf8.length_encode] at hoffset
    refine .unexpectedCharacter hsource hoffset ?_
    have hpos : 0 < (Utf8.encode (x :: after)).length := by
      rw [Utf8.length_encode, Utf8.size_cons]
      exact Nat.add_pos_left x.utf8Size_pos _
    have hlen := congrArg List.length hsource
    rw [List.length_append] at hlen
    dsimp only at hoffset
    omega
  | unexpectedEnd h =>
    obtain ⟨before, rfl, hoffset⟩ := h
    refine .unexpectedEnd ⟨_, rfl⟩ ?_
    rw [Utf8.length_encode, List.append_nil]
    exact hoffset
  | notAnInteger h hdue hread =>
    obtain ⟨⟨before, after, rfl, hoffset, hmaximal⟩, hplain⟩ := h
    rw [← Utf8.length_encode] at hoffset
    refine .notAnInteger ?_ hoffset hplain hmaximal hlast hdue (fun v hv hw => ?_) hread
    · rw [Utf8.encode_append, Utf8.encode_append]
    · rw [Numeral.read_eq_ok_iff.mpr ⟨hv, hw⟩] at hread
      cases hread

/-- A key that is in the table has a header further up. -/
theorem exists_header_of_key {α : Type} {key? : Header → Option α} {before : List State} {k : α}
    (h : k ∈ before.filterMap fun s => s.header?.bind key?) :
    ∃ s ∈ before, ∃ x, s.header? = some x ∧ key? x = some k := by
  obtain ⟨s, hs, hk⟩ := List.mem_filterMap.mp h
  obtain ⟨x, hx, hk⟩ := Option.bind_eq_some_iff.mp hk
  exact ⟨s, hs, x, hx, hk⟩

theorem truthful_of_repeats {text : List Char} {before : List State} {s : State} {e : SourceError}
    (hvisited : statesOf (Utf8.encode text) = before ++ [s]) (h : Repeats s e) :
    Truthful (Utf8.encode text) e := by
  have hat : ∀ s' ∈ before ++ [s], ∀ x, s'.header? = some x →
      HeaderAt (Utf8.encode text) s'.cursor.offset x :=
    fun s' hs' x hx => headerAt_of_visited (hvisited ▸ hs') hx
  have hkeys : KeysOf before s := by
    rw [(parse_eq_run (Cursor.ofBytes_encode text)).2] at hvisited
    exact keys_of_visited hvisited
  cases h with
  | enumeration name elementType hheader hold =>
    rw [hkeys.enumNames] at hold
    obtain ⟨s₁, hs₁, x, hx, hname⟩ := exists_header_of_key hold
    cases x with
    | enumeration name₁ elementType₁ =>
      cases hname
      exact .duplicateEnum (offset_lt_of_headers hvisited hs₁ hx hheader)
        (hat s₁ (List.mem_append_left _ hs₁) _ hx) (hat s List.mem_concat_self _ hheader)
    | function key₁ name₁ => cases hname
  | function key name hheader hold =>
    rw [hkeys.functionKeys] at hold
    obtain ⟨s₁, hs₁, x, hx, hkey⟩ := exists_header_of_key hold
    cases x with
    | enumeration name₁ elementType₁ => cases hkey
    | function key₁ name₁ =>
      cases hkey
      exact .duplicateFunction (offset_lt_of_headers hvisited hs₁ hx hheader)
        (hat s₁ (List.mem_append_left _ hs₁) _ hx) (hat s List.mem_concat_self _ hheader)

/-- The errors of a text are truthful, and none of them says that it is no text. -/
theorem truthful_of_parse_encode {text : List Char} {e : SourceError}
    (h : parse (Utf8.encode text) = .error e) :
    (∀ offset, e ≠ .notUtf8 offset) ∧ Truthful (Utf8.encode text) e := by
  obtain ⟨hparse, hstates⟩ := parse_eq_run (Cursor.ofBytes_encode text)
  rw [hparse] at h
  obtain ⟨s, hlast, -, href⟩ := getLast?_visited_of_run_error h
  have hs : s ∈ visited (.start (.ofText text)) := List.mem_of_getLast? hlast
  rw [← hstates] at hlast
  rcases href.pointsInto_or_repeats (consistent_of_mem_visited hs) (cursor_in_of_mem_visited hs)
    with he | he
  · refine ⟨fun offset heq => ?_, truthful_of_pointsInto hlast he⟩
    subst heq
    cases he
  · obtain ⟨before, hvisited⟩ := List.getLast?_eq_some_iff.mp hlast
    refine ⟨fun offset heq => ?_, truthful_of_repeats hvisited he⟩
    subst heq
    cases he

/-- **Every diagnosis is truthful.** A source that is no text is refused for that and for nothing
    else, at the end of its longest start that is one; and whatever a text is refused for is found in
    it where the error says. -/
theorem diagnosis_truthful {source : Bytes} {e : SourceError} (h : parse source = .error e) :
    ((∃ offset, e = .notUtf8 offset) ↔ ¬ Utf8.Valid source) ∧ Truthful source e := by
  cases hc : Cursor.ofBytes source with
  | error e' =>
    obtain ⟨offset, hdecode, rfl⟩ := Cursor.ofBytes_eq_error_iff.mp hc
    rw [(parse_of_notUtf8 hc).1] at h
    cases h
    obtain ⟨hinvalid, hoffset⟩ := Utf8.decode_eq_error_iff.mp hdecode
    exact ⟨⟨fun _ => hinvalid, fun _ => ⟨offset, rfl⟩⟩, .notUtf8 hinvalid hoffset⟩
  | ok c =>
    obtain ⟨text, rfl, -⟩ := Cursor.ofBytes_eq_ok_iff.mp hc
    obtain ⟨hne, htruthful⟩ := truthful_of_parse_encode h
    refine ⟨⟨fun ⟨offset, he⟩ => absurd he (hne offset), fun hinvalid => ?_⟩, htruthful⟩
    exact absurd ⟨text, rfl⟩ hinvalid

/-- The second number of the header has too many digits; the `é` before it has two bytes. -/
theorem diagnosis_of_number_too_large :
    let source := Utf8.encode "map é T [1, 99999999999] f".toList
    let e := SourceError.notAnInteger "99999999999" 13 .tooLarge
    parse source = .error e ∧
      ((∃ offset, e = .notUtf8 offset) ↔ ¬ Utf8.Valid source) ∧ Truthful source e := by
  intro source e
  have h : parse source = .error e := eq_error_of_error? (by decide +kernel)
  exact ⟨h, diagnosis_truthful h⟩

end Parser
end FunctionMap
