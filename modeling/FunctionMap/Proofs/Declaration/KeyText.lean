import FunctionMap.Proofs.Declaration.Derivation
import FunctionMap.Proofs.Declaration.Diagnosis
import FunctionMap.Proofs.Declaration.Key
import FunctionMap.Proofs.Declaration.Printer

/-!
# The key in a header, and the text of a key

There are two readers of `[group, type]`. The parser takes it from a source piece by piece; the other
one has a text of its own, takes the marks at both ends away, divides what is left at the first comma
and trims both halves. They agree.

* `Bracketed text a b` -- the text is `[`, the part `a`, a comma, the part `b` and `]`, with blanks
  around the parts;
* `ClosedAt source offset text` -- the text stands in the source from the offset to the first `]`.

On a text with two parts both readers come down to one question, whether both parts are integers of
32 bits (`ofChars?_of_bracketed`, `readFunctionHeader_of_bracketed`). And what the parser reads as the
key in a header is always such a text (`FunctionHeader.bracketed`).

Main statement: `header_key_eq_text_key`.
-/

namespace FunctionMap

open Blank (isBlank)

/-! ## 1. Two parts in brackets -/

/-- One or more characters of which none is white space or a mark. -/
structure KeyPart (part : List Char) : Prop where
  ne_nil : part ≠ []
  plain : ∀ c ∈ part, c ≠ '#' ∧ c ≠ ',' ∧ c ≠ ']' ∧ isBlank c = false

/-- White space that may stand around the marks of a header. -/
def BlankRun (run : List Char) : Prop := ∀ c ∈ run, Symbol.isWhitespace c = true

/-- A character that is neither white space nor a mark. -/
def isKeyCharacter (c : Char) : Bool := c ≠ '#' && c ≠ ',' && c ≠ ']' && !isBlank c

theorem keyPart_iff {part : List Char} :
    KeyPart part ↔ part ≠ [] ∧ part.all isKeyCharacter = true := by
  have hplain : part.all isKeyCharacter = true ↔
      ∀ c ∈ part, c ≠ '#' ∧ c ≠ ',' ∧ c ≠ ']' ∧ isBlank c = false := by
    simp [isKeyCharacter, and_assoc]
  rw [hplain]
  exact ⟨fun h => ⟨h.ne_nil, h.plain⟩, fun h => ⟨h.1, h.2⟩⟩

instance (part : List Char) : Decidable (KeyPart part) := decidable_of_iff' _ keyPart_iff

instance (run : List Char) : Decidable (BlankRun run) :=
  decidable_of_iff (run.all Symbol.isWhitespace = true) List.all_eq_true

/-- A part with blanks around it. -/
inductive Padded : List Char → List Char → Prop where
  | mk {front part back : List Char} (hfront : BlankRun front) (hpart : KeyPart part)
      (hback : BlankRun back) : Padded (front ++ part ++ back) part

/-- `[`, a part, a comma, a part, `]`, with blanks around the parts. -/
inductive Bracketed : List Char → List Char → List Char → Prop where
  | mk {left right a b : List Char} (ha : Padded left a) (hb : Padded right b) :
      Bracketed ('[' :: left ++ ',' :: right ++ [']']) a b

theorem isBlank_of_isWhitespace {c : Char} (h : Symbol.isWhitespace c = true) : isBlank c = true := by
  simp only [Symbol.isWhitespace, Bool.or_eq_true, decide_eq_true_eq] at h
  rcases h with ((rfl | rfl) | rfl) | rfl <;> decide

theorem KeyPart.isDelimiter_eq_false {part : List Char} (h : KeyPart part) :
    ∀ c ∈ part, Symbol.isDelimiter c = false := by
  intro c hc
  obtain ⟨hhash, hcomma, hbracket, hblank⟩ := h.plain c hc
  have hspace : Symbol.isWhitespace c = false := by
    rw [← Bool.not_eq_true]
    intro hspace
    rw [isBlank_of_isWhitespace hspace] at hblank
    cases hblank
  simp [Symbol.isDelimiter, hspace, hhash, hcomma, hbracket]

/-- What stands around a part has no mark. -/
theorem Padded.mark_not_mem {text part : List Char} (h : Padded text part) :
    ',' ∉ text ∧ ']' ∉ text := by
  obtain ⟨hfront, hpart, hback⟩ := h
  have hrun : ∀ {run : List Char}, BlankRun run → ',' ∉ run ∧ ']' ∉ run := fun h =>
    ⟨fun hc => absurd (h _ hc) (by decide), fun hc => absurd (h _ hc) (by decide)⟩
  have hplain : ',' ∉ _ ∧ ']' ∉ _ :=
    ⟨fun hc => (hpart.plain _ hc).2.1 rfl, fun hc => (hpart.plain _ hc).2.2.1 rfl⟩
  simp [hrun hfront, hrun hback, hplain]

/-- **Trimming takes the blanks around a part away.** -/
theorem Padded.trim_eq {text part : List Char} (h : Padded text part) : Blank.trim text = part := by
  obtain ⟨hfront, hpart, hback⟩ := h
  exact Blank.trimBy_append (fun c hc => isBlank_of_isWhitespace (hfront c hc))
    (Blank.trimmed_of_none fun c hc => (hpart.plain c hc).2.2.2)
    (fun c hc => isBlank_of_isWhitespace (hback c hc))

/-! ## 2. The reader of key texts -/

/-- **Of two parts in brackets the reader of key texts asks whether both are integers.** -/
theorem FunctionKey.ofChars?_of_bracketed {text a b : List Char} (h : Bracketed text a b) :
    FunctionKey.ofChars? text = (do
      let group ← (Numeral.readInt32 a).toOption
      let typeId ← (Numeral.readInt32 b).toOption
      return ⟨group, typeId⟩) := by
  obtain ⟨ha, hb⟩ := h
  rename_i left right
  have htrim : Blank.trim ('[' :: (left ++ ',' :: right) ++ [']']) = _ :=
    Blank.trimBy_eq_iff.mpr (FunctionKey.trimmed_marks _).trims
  have hinner := FunctionKey.between?_eq_some_iff.mpr htrim
  have hsplit := FunctionKey.splitAtComma?_eq_some_iff.mpr
    ⟨(rfl : left ++ ',' :: right = left ++ ',' :: right), ha.mark_not_mem.1⟩
  have htext : '[' :: left ++ ',' :: right ++ [']'] = '[' :: (left ++ ',' :: right) ++ [']'] := rfl
  rw [htext, FunctionKey.ofChars?, hinner, Option.bind_eq_bind, Option.bind_some, hsplit]
  simp only [Option.bind_eq_bind, Option.bind_some, ha.trim_eq, hb.trim_eq]

/-! ## 3. The reader of headers -/

namespace Parser

open Grammar

/-- A part is read as a token, and the mark behind it is found. -/
theorem readToken_of_padded {c : Cursor} {text part rest : List Char} {mark : Char}
    (h : Padded text part) (hrest : c.rest = text ++ mark :: rest)
    (hmark : Symbol.isDelimiter mark = true ∧ Symbol.isWhitespace mark = false)
    (description : String) :
    ∃ offset c₁ c₂, c.skipWhitespace.readToken = .ok (⟨String.ofList part, offset⟩, c₁) ∧
      c₁.skipWhitespace.expect mark description = .ok c₂ ∧ c₂.rest = rest := by
  obtain ⟨hfront, hpart, hback⟩ := h
  rename_i front back
  rw [List.append_assoc, List.append_assoc] at hrest
  have hblanks : Blanks c.rest (part ++ (back ++ mark :: rest)) := hrest ▸ blanks_append hfront _
  have hends : ∀ x ∈ (back ++ mark :: rest).head?, Symbol.isDelimiter x = true := by
    cases back with
    | nil =>
      intro x hx
      cases hx
      exact hmark.1
    | cons y back =>
      intro x hx
      cases hx
      rw [Symbol.isDelimiter, hback y List.mem_cons_self]
      rfl
  have hword : Word (part ++ (back ++ mark :: rest)) part (back ++ mark :: rest) :=
    ⟨rfl, hpart.ne_nil, hpart.isDelimiter_eq_false, hends⟩
  refine ⟨_, c.upTo (back ++ mark :: rest), (c.upTo (back ++ mark :: rest)).upTo rest,
    Cursor.readToken_skipWhitespace_eq_ok_iff.mpr ⟨_, _, _, hblanks, .word hword, rfl, rfl⟩, ?_, rfl⟩
  exact (Cursor.expect_skipWhitespace_eq_ok_iff hmark.2).mpr ⟨rest, blanks_append hback _, rfl⟩

/-- **Of two parts in brackets the reader of headers asks whether both are integers.** -/
theorem readFunctionHeader_of_bracketed {c : Cursor} {text a b rest tail : List Char} {name : String}
    (h : Bracketed text a b) (hrest : c.rest = text ++ rest) (hname : Name rest name tail) :
    ∃ m n c', c'.rest = tail ∧ readFunctionHeader c = (do
      let group ← (⟨String.ofList a, m⟩ : Token).int32
      let typeId ← (⟨String.ofList b, n⟩ : Token).int32
      return (⟨group, typeId⟩, name, c')) := by
  obtain ⟨ha, hb⟩ := h
  rename_i left right
  rw [List.append_assoc] at hrest
  have hopen : c.expect '[' "'['" = .ok (c.upTo (left ++ ',' :: (right ++ ']' :: rest))) :=
    Cursor.expect_eq_ok_iff.mpr ⟨_, by simp [hrest], rfl⟩
  obtain ⟨m, c₁, c₂, htoken₁, hcomma, hrest₂⟩ :=
    readToken_of_padded (c := c.upTo (left ++ ',' :: (right ++ ']' :: rest))) ha rfl
      (by decide) "','"
  obtain ⟨n, c₃, c₄, htoken₂, hbracket, hrest₄⟩ :=
    readToken_of_padded hb hrest₂ (by decide) "']'"
  obtain ⟨t, htoken₃, rfl⟩ := readToken_of_name (c := c₄) (List.suffix_refl _) (hrest₄ ▸ hname)
  rw [Cursor.upTo_self] at htoken₃
  refine ⟨m, n, c₄.upTo tail, rfl, ?_⟩
  -- every mark is found, so nothing but the two integers can fail
  rw [readFunctionHeader]
  simp only [hopen, htoken₁, hcomma, htoken₂, hbracket, htoken₃, ok_bind]

/-- Where a source starts with a header, the table is that of the header, or its error. -/
theorem run_of_first_header {c : Cursor} {text : List Char} (hopen : c.rest = '[' :: text) :
    (∀ e, readFunctionHeader c = .error e → run (.start c) = .error e) ∧
      ∀ key name c', readFunctionHeader c = .ok (key, name, c') → c'.rest = [] →
        run (.start c) = .ok ⟨[], [⟨key, name, []⟩]⟩ := by
  have hne : c.rest ≠ [] := hopen ▸ List.cons_ne_nil _ _
  have hblank : NoBlank c.rest := hopen ▸ noBlank_cons (by decide)
  have hnext : nextPhase? .top c = some .functionHeader := by
    rw [nextPhase?, hopen]
    rfl
  have hturn := run_of_turn (s := .start c) (r := .top) rfl hblank hne hnext
  rw [← hturn]
  constructor
  · intro e hread
    refine run_of_refusal hne ?_
    simp only [State.step, State.stepFunctionHeader, State.start, hread]
  · intro key name c' hread hend
    have hstep : Transition { State.start c with phase := .functionHeader } _ :=
      .functionHeader key name c' rfl hread List.not_mem_nil
    rw [hstep.run_eq hne, run_of_end hend]
    rfl

/-- **A source of two parts in brackets and a name declares a function, or a part is no integer.** -/
theorem parse_of_bracketed {text a b : List Char} (h : Bracketed text a b) :
    ∃ m n, parse (Utf8.encode (text ++ [' ', 'f'])) = (do
      let group ← (⟨String.ofList a, m⟩ : Token).int32
      let typeId ← (⟨String.ofList b, n⟩ : Token).int32
      return ⟨[], [⟨⟨group, typeId⟩, "f", []⟩]⟩) := by
  have hplain : ∀ x ∈ ['f'], Symbol.isDelimiter x = false := by
    intro x hx
    rw [List.mem_singleton.mp hx]
    rfl
  have hword : Word ['f'] ['f'] [] := ⟨rfl, List.cons_ne_nil _ _, hplain, fun _ hx => nomatch hx⟩
  have hname : Name [' ', 'f'] "f" [] := .mk (.more ' ' (by decide) (.none _)) (.word hword)
  obtain ⟨m, n, c', hend, hread⟩ := readFunctionHeader_of_bracketed
    (c := .ofText (text ++ [' ', 'f'])) h rfl hname
  have hopen : ∃ inner, (Cursor.ofText (text ++ [' ', 'f'])).rest = '[' :: inner := by
    cases h
    exact ⟨_, rfl⟩
  obtain ⟨inner, hopen⟩ := hopen
  obtain ⟨hrefused, hdeclared⟩ := run_of_first_header hopen
  refine ⟨m, n, ?_⟩
  rw [(parse_eq_run (Cursor.ofBytes_encode _)).1]
  cases hgroup : (⟨String.ofList a, m⟩ : Token).int32 with
  | error e => exact hrefused e (by rw [hread, hgroup]; rfl)
  | ok group =>
    cases htype : (⟨String.ofList b, n⟩ : Token).int32 with
    | error e => exact hrefused e (by rw [hread, hgroup, ok_bind, htype]; rfl)
    | ok typeId => exact hdeclared _ _ c' (by rw [hread, hgroup, ok_bind, htype]; rfl) hend

/-! ## 4. The key in a header -/

/-- What a header has for an integer is a part that spells it, up to the mark behind it. -/
theorem padded_of_integer {text rest behind : List Char} {k : Int32} {mark : Char}
    (h : Integer text k rest) (hmark : Blanks rest (mark :: behind)) :
    ∃ padded part, text = padded ++ mark :: behind ∧ Padded padded part ∧
      Numeral.Spells part k.toInt := by
  obtain ⟨hblanks, hword, hspells⟩ := h
  rename_i mid part
  obtain ⟨front, rfl, hfront⟩ := hblanks.exists_run
  obtain ⟨back, rfl, hback⟩ := hmark.exists_run
  have hpart : KeyPart part := by
    refine ⟨hword.ne_nil, fun c hc => ?_⟩
    have hinside := hword.inside c hc
    simp only [Symbol.isDelimiter, Bool.or_eq_false_iff, decide_eq_false_iff_not] at hinside
    exact ⟨hinside.1.1.2, hinside.1.2, hinside.2, FunctionKey.isBlank_eq_false_of_spells hspells c hc⟩
  refine ⟨_, part, ?_, .mk hfront hpart hback, hspells⟩
  rw [hword.text_eq]
  simp only [List.append_assoc]

/-- **What the parser reads as a key is two parts in brackets that spell its numbers.** -/
theorem bracketed_of_functionHeader {text rest : List Char} {key : FunctionKey} {name : String}
    (h : FunctionHeader text key name rest) : ∃ keyText behind a b, text = keyText ++ behind ∧
      Bracketed keyText a b ∧ Numeral.Spells a key.group.toInt ∧
      Numeral.Spells b key.typeId.toInt := by
  obtain ⟨hgroup, hcomma, htype, hbracket, -⟩ := h
  rename_i behind group typeId
  obtain ⟨left, a, rfl, ha, hspells⟩ := padded_of_integer hgroup hcomma
  obtain ⟨right, b, rfl, hb, hspells'⟩ := padded_of_integer htype hbracket
  refine ⟨_, behind, a, b, ?_, .mk ha hb, hspells, hspells'⟩
  simp

/-- A text stands in a source from an offset on, up to the first `]`. -/
structure ClosedAt (source : Bytes) (offset : Nat) (text : String) : Prop where
  stands : ∃ before inner after, source = Utf8.encode (before ++ '[' :: inner ++ ']' :: after) ∧
    offset = (Utf8.encode before).length ∧ ']' ∉ inner ∧ text = String.ofList ('[' :: inner ++ [']'])

/-- **The text of a header up to the first `]` is read as its key.** -/
theorem closedAt_of_headerAt {source : Bytes} {offset : Nat} {key : FunctionKey} {name : String}
    (h : HeaderAt source offset (.function key name)) :
    ∃ text, ClosedAt source offset text ∧ FunctionKey.ofText text = .ok key := by
  obtain ⟨before, text, rfl, rfl, rest, hheader⟩ := h.stands
  obtain ⟨keyText, behind, a, b, rfl, hkey, ha, hb⟩ := bracketed_of_functionHeader hheader
  have hchars : FunctionKey.ofChars? keyText = some key := by
    rw [FunctionKey.ofChars?_of_bracketed hkey, Numeral.readInt32, Numeral.readInt32,
      Numeral.represented_int32.readAs_eq_ok_iff.mpr ha,
      Numeral.represented_int32.readAs_eq_ok_iff.mpr hb]
    rfl
  refine ⟨String.ofList keyText, ⟨?_⟩, ?_⟩
  · obtain ⟨hleft, hright⟩ := hkey
    rename_i left right
    refine ⟨before, left ++ ',' :: right, behind, ?_, rfl, ?_, rfl⟩
    · rw [← Utf8.encode_append]
      simp
    · simp [hleft.mark_not_mem, hright.mark_not_mem]
  · rw [FunctionKey.ofText, String.toList_ofList, hchars]

/-- The functions of a table, without their parameters. -/
def functionHeads (t : Table) : List (FunctionKey × String) := t.functions.map fun f => (f.key, f.name)

/-- The key and the name that a header declares, if it declares a function. -/
def Header.function? : Header → Option (FunctionKey × String)
  | .enumeration _ _ => none
  | .function key name => some (key, name)

theorem declared_functionHeads : Declared functionHeads Header.function? where
  empty := rfl
  enumeration t name elementType := by simp [functionHeads, Table.addEnum, Header.function?]
  function t key name := by simp [functionHeads, Table.addFunction, Header.function?]
  value es e fs value := rfl
  parameter es fs f parameter := by simp [functionHeads]

/-- Every function of a table that a source declares has its header in the source. -/
theorem exists_headerAt_of_mem {source : Bytes} {t : Table} (h : parse source = .ok t) {f : Function}
    (hf : f ∈ t.functions) : ∃ offset, HeaderAt source offset (.function f.key f.name) := by
  cases hc : Cursor.ofBytes source with
  | error e =>
    rw [(parse_of_notUtf8 hc).1] at h
    cases h
  | ok c =>
    obtain ⟨text, rfl, -⟩ := Cursor.ofBytes_eq_ok_iff.mp hc
    have hhead : (f.key, f.name) ∈ functionHeads t := List.mem_map_of_mem hf
    obtain ⟨s, hs, header, hheader, hx⟩ := (mem_declared_iff_header declared_functionHeads h).mp hhead
    cases header with
    | enumeration name elementType => cases hx
    | function key name =>
      cases hx
      exact ⟨_, headerAt_of_visited hs hheader⟩

/-! ## 5. The readers agree -/

/-- A token of a part is an integer if the part is one, and otherwise the error names the part. -/
theorem int32_of_part (part : List Char) (offset : Nat) :
    (⟨String.ofList part, offset⟩ : Token).int32
      = (Numeral.readInt32 part).mapError (.notAnInteger (String.ofList part) offset) := by
  rw [Token.int32, Token.integer, String.toList_ofList]

/-- **The key in a header is the key of its text.** Every function of a source has a header, and the
    text of the header up to the first `]` is read as the key of the function. And of a text with two
    parts in brackets, the one that is read as a key is a header of a function with that key, and the one
    that is not is refused as a header for a part that is no integer. -/
theorem header_key_eq_text_key :
    (∀ source t, parse source = .ok t → ∀ f ∈ t.functions,
      (∃ offset, HeaderAt source offset (.function f.key f.name)) ∧
      ∀ offset name, HeaderAt source offset (.function f.key name) →
        ∃ text, ClosedAt source offset text ∧ FunctionKey.ofText text = .ok f.key) ∧
    ∀ (text : String) (a b : List Char), Bracketed text.toList a b →
      (∀ k, FunctionKey.ofText text = .ok k →
        parse (Utf8.encode (text ++ " f").toList) = .ok ⟨[], [⟨k, "f", []⟩]⟩) ∧
      ∀ e, FunctionKey.ofText text = .error e → ∃ part ∈ [a, b], ∃ offset fault,
        parse (Utf8.encode (text ++ " f").toList)
          = .error (.notAnInteger (String.ofList part) offset fault) := by
  refine ⟨fun source t h f hf => ⟨exists_headerAt_of_mem h hf, fun _ _ => closedAt_of_headerAt⟩, ?_⟩
  intro text a b h
  have hsource : (text ++ " f").toList = text.toList ++ [' ', 'f'] := String.toList_append
  obtain ⟨m, n, hparse⟩ := parse_of_bracketed h
  rw [hsource, hparse, FunctionKey.ofText, FunctionKey.ofChars?_of_bracketed h, int32_of_part,
    int32_of_part]
  cases hgroup : Numeral.readInt32 a with
  | error fault =>
    exact ⟨fun k hk => (nomatch hk), fun e _ => ⟨a, List.mem_cons_self, m, fault, rfl⟩⟩
  | ok group =>
    cases htype : Numeral.readInt32 b with
    | error fault =>
      exact ⟨fun k hk => (nomatch hk),
        fun e _ => ⟨b, List.mem_cons_of_mem _ List.mem_cons_self, n, fault, rfl⟩⟩
    | ok typeId =>
      refine ⟨fun k hk => ?_, fun e he => (nomatch he)⟩
      cases hk
      rfl

/-- A sign, zeros in front and a tab make no difference; a number that is too large does. -/
theorem header_key_eq_text_key_of_numbers :
    let source := Utf8.encode ("[ +007,\t-1]" ++ " f").toList
    let wide := Utf8.encode ("[1,2147483648]" ++ " f").toList
    FunctionKey.ofText "[ +007,\t-1]" = .ok ⟨7, -1⟩ ∧
      parse source = .ok ⟨[], [⟨⟨7, -1⟩, "f", []⟩]⟩ ∧
      (∃ offset, HeaderAt source offset (.function ⟨7, -1⟩ "f")) ∧
      ∃ part ∈ [['1'], "2147483648".toList], ∃ offset fault,
        parse wide = .error (.notAnInteger (String.ofList part) offset fault) := by
  intro source wide
  obtain ⟨hheader, hagree⟩ := header_key_eq_text_key
  have hnarrow : Bracketed "[ +007,\t-1]".toList "+007".toList "-1".toList :=
    .mk (@Padded.mk [' '] "+007".toList [] (by decide) (by decide) (by decide))
      (@Padded.mk ['\t'] "-1".toList [] (by decide) (by decide) (by decide))
  have hwide : Bracketed "[1,2147483648]".toList ['1'] "2147483648".toList :=
    .mk (@Padded.mk [] ['1'] [] (by decide) (by decide) (by decide))
      (@Padded.mk [] "2147483648".toList [] (by decide) (by decide) (by decide))
  have hkey : FunctionKey.ofText "[ +007,\t-1]" = .ok ⟨7, -1⟩ :=
    eq_ok_of_toOption (by decide +kernel)
  have hnone : FunctionKey.ofText "[1,2147483648]" = .error ⟨"[1,2147483648]"⟩ :=
    eq_error_of_error? (by decide +kernel)
  have hparse := (hagree _ _ _ hnarrow).1 _ hkey
  exact ⟨hkey, hparse, (hheader source _ hparse _ List.mem_cons_self).1,
    (hagree _ _ _ hwide).2 _ hnone⟩

end Parser
end FunctionMap
