import FunctionMap.Proofs.Declaration.Diagnosis

/-!
# Words that open enumerations

The keyword is read letter by letter, and nothing has to end it. So an enumeration is opened by a word
that starts with the keyword: by the keyword itself, or by a longer word, which is then taken apart, and
what stands behind the keyword in it is the name.

* `Cursor.Between` -- no word goes on over the cursor: what stands before it ends in white space, or
  what remains starts with a character that ends a word. Every state of a run is at such a place.
* `WordAt` -- a whole word of a source, from its first character to its last.

Main statement: `enumerations_open_at_words`, with `parameter_type_opens_enumeration` for a word that is
taken apart.
-/

namespace FunctionMap

open Grammar

/-! ## 1. The words of headers and entries -/

namespace Grammar

theorem OptWord.maximal {text word rest : List Char} (h : OptWord text word rest) :
    ∀ c ∈ rest.head?, Symbol.isDelimiter c = true := by
  cases h with
  | word h => exact h.maximal
  | atComment rest =>
    intro c hc
    cases hc
    rfl
  | atEnd => exact fun c hc => nomatch hc

theorem Name.maximal {text rest : List Char} {name : String} (h : Name text name rest) :
    ∀ c ∈ rest.head?, Symbol.isDelimiter c = true := by
  obtain ⟨-, hword⟩ := h
  exact hword.maximal

/-- Where a word goes on, a name is the rest of that word. -/
theorem Name.word_of_goesOn {text rest : List Char} {name : String} (h : Name text name rest)
    (hgoesOn : ¬ ∀ c ∈ text.head?, Symbol.isDelimiter c = true) : Word text name.toList rest := by
  obtain ⟨hblanks, hword⟩ := h
  have hblank : NoBlank text := by
    intro c hc
    refine isWhitespace_of_isDelimiter (Bool.eq_false_iff.mpr fun hd => hgoesOn fun d hd' => ?_)
    rwa [Option.mem_unique hd' hc]
  obtain rfl := hblanks.eq_of_noBlank hblank
  rw [String.toList_ofList]
  cases hword with
  | word hword => exact hword
  | atComment rest =>
    refine absurd (fun c hc => ?_) hgoesOn
    cases hc
    rfl
  | atEnd => exact absurd (fun c hc => nomatch hc) hgoesOn

theorem Word.prepend {front text word rest : List Char}
    (hfront : ∀ c ∈ front, Symbol.isDelimiter c = false) (h : Word text word rest) :
    Word (front ++ text) (front ++ word) rest where
  text_eq := by rw [h.text_eq, List.append_assoc]
  ne_nil := List.append_ne_nil_of_right_ne_nil front h.ne_nil
  inside c hc := (List.mem_append.mp hc).elim (hfront c) (h.inside c)
  maximal := h.maximal

/-- No two words start at one place. -/
theorem Word.unique {text word word' rest rest' : List Char} (h : Word text word rest)
    (h' : Word text word' rest') : word = word' := by
  have htake : ∀ {word rest : List Char}, Word text word rest →
      text.takeWhile (!Symbol.isDelimiter ·) = word := by
    intro word rest h
    rw [h.text_eq]
    refine takeWhile_of_maximal (fun c hc => ?_) (fun c hc => ?_)
    · rw [h.inside c hc]
      rfl
    · rw [h.maximal c hc]
      rfl
  rw [← htake h, htake h']

/-- A word that opens an enumeration: the keyword, or the keyword and the name in one. -/
def OpeningWord (word : List Char) (name : String) : Prop :=
  word = Symbol.mapKeyword ∨ name ≠ "" ∧ word = Symbol.mapKeyword ++ name.toList

theorem EnumHeader.word {text rest : List Char} {name elementType : String}
    (h : EnumHeader text name elementType rest) :
    ∃ word behind, Word text word behind ∧ OpeningWord word name := by
  have hkeyword : ∀ c ∈ Symbol.mapKeyword, Symbol.isDelimiter c = false := by
    simp [Symbol.mapKeyword, Symbol.isDelimiter, Symbol.isWhitespace]
  cases h with
  | @mk behind mid _ _ _ hname _ =>
    by_cases hends : ∀ c ∈ behind.head?, Symbol.isDelimiter c = true
    · exact ⟨Symbol.mapKeyword, behind, ⟨rfl, by decide, hkeyword, hends⟩, Or.inl rfl⟩
    · have hword := hname.word_of_goesOn hends
      refine ⟨_, mid, hword.prepend hkeyword, Or.inr ⟨?_, rfl⟩⟩
      rintro rfl
      exact hword.ne_nil rfl

theorem EnumHeader.maximal {text rest : List Char} {name elementType : String}
    (h : EnumHeader text name elementType rest) :
    ∀ c ∈ rest.head?, Symbol.isDelimiter c = true := by
  obtain ⟨-, htype⟩ := h
  exact htype.maximal

theorem Value.maximal {text rest : List Char} {value : EnumValue} (h : Value text value rest) :
    ∀ c ∈ rest.head?, Symbol.isDelimiter c = true := by
  obtain ⟨-, -, -, hname⟩ := h
  exact hname.maximal

theorem FunctionHeader.maximal {text rest : List Char} {key : FunctionKey} {name : String}
    (h : FunctionHeader text key name rest) : ∀ c ∈ rest.head?, Symbol.isDelimiter c = true := by
  obtain ⟨-, -, -, -, hname⟩ := h
  exact hname.maximal

theorem ParameterEntry.maximal {text rest : List Char} {parameter : Parameter}
    (h : ParameterEntry text parameter rest) : ∀ c ∈ rest.head?, Symbol.isDelimiter c = true := by
  obtain ⟨-, -, -, hname⟩ := h
  exact hname.maximal

end Grammar

/-! ## 2. Between words -/

/-- No word of the text goes on over the cursor. -/
def Cursor.Between (c : Cursor) (text : List Char) : Prop :=
  (∀ x ∈ c.rest.head?, Symbol.isDelimiter x = true) ∨
    ∃ before, text = before ++ c.rest ∧ ∀ x ∈ before.getLast?, Symbol.isWhitespace x = true

theorem Cursor.Between.skipWhitespace {c : Cursor} {text : List Char} (h : c.Between text)
    (htext : c.In text) : c.skipWhitespace.Between text := by
  obtain ⟨before, htext, -⟩ := htext
  have hsplit : c.rest = c.rest.takeWhile Symbol.isWhitespace ++ c.skipWhitespace.rest :=
    List.takeWhile_append_dropWhile.symm
  cases hblanks : c.rest.takeWhile Symbol.isWhitespace with
  | nil =>
    rw [hblanks, List.nil_append] at hsplit
    rwa [Between, ← hsplit]
  | cons x xs =>
    refine Or.inr ⟨before ++ c.rest.takeWhile Symbol.isWhitespace, ?_, fun y hy => ?_⟩
    · rw [List.append_assoc, ← hsplit, htext]
    · rw [hblanks, List.getLast?_append, List.getLast?_cons, Option.some_or, ← List.getLast?_cons,
        ← hblanks] at hy
      exact mem_takeWhile (List.mem_of_getLast? hy)

namespace Parser

/-- **No word goes on from one step to the next.** -/
theorem Transition.between {s s' : State} (h : Transition s s') {text : List Char}
    (hs : s.cursor.Between text) (htext : s.cursor.In text) : s'.cursor.Between text := by
  cases h with
  | turn resume p hphase hnext => exact hs.skipWhitespace htext
  | uncomment resume hphase =>
    refine Or.inl fun x hx => ?_
    have hx : x = '\n' := by simpa using head?_dropWhile s.cursor.rest x hx
    rw [hx]
    rfl
  | enumHeader name elementType c hphase hread hnew =>
    obtain ⟨rest, hheader, rfl⟩ := readEnumHeader_eq_ok_iff.mp hread
    exact Or.inl hheader.maximal
  | value value c table hphase hentry hread hpush =>
    have hentry := nextPhase?_eq_none_iff.mp hentry
    obtain ⟨rest, hvalue, rfl⟩ := (readValue_eq_ok_iff hentry).mp hread
    exact Or.inl hvalue.maximal
  | functionHeader key name c hphase hread hnew =>
    obtain ⟨rest, hheader, rfl⟩ := readFunctionHeader_eq_ok_iff.mp hread
    exact Or.inl hheader.maximal
  | parameter parameter c table hphase hentry hread hpush =>
    have hentry := nextPhase?_eq_none_iff.mp hentry
    obtain ⟨rest, hparameter, rfl⟩ := (readParameter_eq_ok_iff hentry).mp hread
    exact Or.inl hparameter.maximal

theorem between_of_mem_visited {text : List Char} {s : State}
    (h : s ∈ visited (State.start (.ofText text))) : s.cursor.Between text := by
  have hstart : (Cursor.ofText text).Between text ∧ (Cursor.ofText text).In text :=
    ⟨Or.inr ⟨[], rfl, fun x hx => nomatch hx⟩, Cursor.in_ofText text⟩
  have hboth := forall_mem_visited (P := fun s => s.cursor.Between text ∧ s.cursor.In text)
    (fun s s' hs _ ht => ⟨ht.between hs.1 hs.2, ht.cursor_in hs.2⟩) hstart h
  exact hboth.1

/-! ## 3. Enumerations and headers -/

/-- The name and the element type that a header declares, if it declares an enumeration. -/
def Header.enum? : Header → Option (String × String)
  | .enumeration name elementType => some (name, elementType)
  | .function _ _ => none

/-- The names and the element types of the enumerations of a table. -/
def enumHeads (t : Table) : List (String × String) := t.enums.map fun e => (e.name, e.elementType)

theorem declared_enumHeads : Declared enumHeads Header.enum? where
  empty := rfl
  enumeration t name elementType := by simp [enumHeads, Table.addEnum, Header.enum?]
  function t key name := by simp [enumHeads, Table.addFunction, Header.enum?]
  value es e fs value := by simp [enumHeads]
  parameter es fs f parameter := rfl

theorem visited_subset {s s' : State} (h : s' ∈ visited s) : visited s' ⊆ visited s := by
  refine forall_mem_visited (P := fun s' => visited s' ⊆ visited s) ?_ (List.Subset.refl _) h
  intro s₁ s₂ hs hne ht x hx
  rw [visited_of_step hne ht.step] at hs
  exact hs (List.mem_cons_of_mem _ hx)

theorem mem_visited_self (s : State) : s ∈ visited s := by
  rw [visited]
  exact List.mem_cons_self

/-- **The enumerations of the table that a text declares are those of the headers read in it.** -/
theorem mem_enums_iff_header {text : List Char} {t : Table} (h : parse (Utf8.encode text) = .ok t)
    {name elementType : String} :
    (∃ e ∈ t.enums, e.name = name ∧ e.elementType = elementType) ↔
      ∃ s ∈ statesOf (Utf8.encode text), s.header? = some (.enumeration name elementType) := by
  have hmem : (∃ e ∈ t.enums, e.name = name ∧ e.elementType = elementType) ↔
      (name, elementType) ∈ enumHeads t := by
    simp [enumHeads]
  rw [hmem, mem_declared_iff_header declared_enumHeads h]
  refine exists_congr fun s => and_congr_right fun _ => ?_
  constructor
  · intro h
    obtain ⟨header, hheader, hhead⟩ := h
    cases header with
    | enumeration name elementType =>
      cases hhead
      exact hheader
    | function key name => cases hhead
  · intro hheader
    exact ⟨_, hheader, rfl⟩

/-! ## 4. Words that open enumerations -/

/-- A whole word of a source: white space or nothing stands before it, and it is as long as
    possible. -/
structure WordAt (source : Bytes) (offset : Nat) (word : List Char) : Prop where
  stands : ∃ before text rest, source = Utf8.encode (before ++ text) ∧
    offset = (Utf8.encode before).length ∧ Word text word rest ∧
    ∀ c ∈ before.getLast?, Symbol.isWhitespace c = true

/-- An enumeration is opened by a word of a source: its header is read where the word starts. -/
structure OpensAt (source : Bytes) (offset : Nat) (word : List Char) (e : Enumeration) : Prop where
  header : HeaderAt source offset (.enumeration e.name e.elementType)
  stands : WordAt source offset word
  opening : OpeningWord word e.name

theorem wordAt_of_between {text word rest : List Char} {c : Cursor} (hbetween : c.Between text)
    (htext : c.In text) (h : Word c.rest word rest) :
    WordAt (Utf8.encode text) c.offset word where
  stands := by
    obtain ⟨x, xs, -, hrest, hx⟩ := h.exists_cons
    obtain ⟨before, rfl, hoffset⟩ := htext
    have hblank : ∀ y ∈ before.getLast?, Symbol.isWhitespace y = true := by
      rcases hbetween with hdelimiter | ⟨before', hsplit, hblank⟩
      · rw [hdelimiter x (by rw [hrest]; rfl)] at hx
        cases hx
      · rwa [List.append_cancel_right hsplit]
    exact ⟨before, c.rest, rest, rfl, by rw [hoffset, Utf8.length_encode], h, hblank⟩

theorem opensAt_of_header {text : List Char} {s : State} (hs : s ∈ statesOf (Utf8.encode text))
    {e : Enumeration} (hheader : s.header? = some (.enumeration e.name e.elementType)) :
    ∃ word behind, Word s.cursor.rest word behind ∧
      OpensAt (Utf8.encode text) s.cursor.offset word e := by
  obtain ⟨rest, hstands⟩ := (State.stands_of_header? hheader).1
  obtain ⟨word, behind, hword, hopening⟩ := hstands.word
  refine ⟨word, behind, hword, headerAt_of_visited hs hheader, ?_, hopening⟩
  rw [(parse_eq_run (Cursor.ofBytes_encode text)).2] at hs
  exact wordAt_of_between (between_of_mem_visited hs) (cursor_in_of_mem_visited hs) hword

/-- A word with the first letter of the keyword is read as a header, if the source can be read. -/
theorem exists_header_of_word {text : List Char} {t : Table}
    (h : parse (Utf8.encode text) = .ok t) {s : State} (hs : s ∈ statesOf (Utf8.encode text))
    {r : Resume} (hphase : s.phase = r.phase) {rest : List Char}
    (hrest : s.cursor.skipWhitespace.rest = 'm' :: rest) :
    ∃ s' ∈ statesOf (Utf8.encode text), ∃ name elementType,
      s'.header? = some (.enumeration name elementType) ∧ s'.cursor = s.cursor.skipWhitespace := by
  obtain ⟨hparse, hstates⟩ := parse_eq_run (Cursor.ofBytes_encode text)
  rw [hparse] at h
  rw [hstates] at hs ⊢
  have hne : s.cursor.rest ≠ [] := by
    intro hnil
    rw [Cursor.skipWhitespace, Cursor.skipWhile, hnil] at hrest
    cases hrest
  have hnext : nextPhase? r s.cursor.skipWhitespace = some .enumHeader := by
    rw [nextPhase?, hrest]
    rfl
  have hturn := Transition.turn r .enumHeader hphase hnext
  generalize hs' : ({ s with phase := .enumHeader, cursor := s.cursor.skipWhitespace } : State) = s'
    at hturn
  have hmem : s' ∈ visited (.start (.ofText text)) := by
    refine visited_subset hs ?_
    rw [visited_of_step hne hturn.step]
    exact List.mem_cons_of_mem _ (mem_visited_self s')
  have hrest' : s'.cursor.rest ≠ [] := by
    rw [← hs', hrest]
    exact List.cons_ne_nil _ _
  rw [run_of_mem_visited hmem] at h
  cases hread : readEnumHeader s'.cursor with
  | error e =>
    have hstep : s'.step = .error e := by
      rw [← hs'] at hread ⊢
      simp only [State.step, State.stepEnumHeader, hread]
    rw [run_of_refusal hrest' hstep] at h
    cases h
  | ok result =>
    obtain ⟨name, elementType, c⟩ := result
    refine ⟨s', hmem, name, elementType, ?_, by rw [← hs']⟩
    rw [← hs'] at hread ⊢
    simp only [State.header?, hread]

/-- **Enumerations are opened by words that start with the keyword.** Every enumeration of a source is
    opened by a whole word: the keyword, or the keyword and the name in one. And a word with the first
    letter of the keyword, where a declaration or an entry is due, opens an enumeration in this way;
    so where it does not go on as the keyword, the source is refused. -/
theorem enumerations_open_at_words {source : Bytes} {t : Table} (h : parse source = .ok t) :
    (∀ e ∈ t.enums, ∃ offset word, OpensAt source offset word e) ∧
    ∀ s ∈ statesOf source, ∀ r : Resume, s.phase = r.phase → ∀ word rest : List Char,
      Word s.cursor.skipWhitespace.rest ('m' :: word) rest →
      ∃ e ∈ t.enums, OpensAt source s.cursor.skipWhitespace.offset ('m' :: word) e := by
  cases hc : Cursor.ofBytes source with
  | error e =>
    rw [(parse_of_notUtf8 hc).1] at h
    cases h
  | ok c =>
    obtain ⟨text, rfl, -⟩ := Cursor.ofBytes_eq_ok_iff.mp hc
    refine ⟨fun e he => ?_, fun s hs r hphase word rest hword => ?_⟩
    · obtain ⟨s, hs, hheader⟩ := (mem_enums_iff_header h).mp ⟨e, he, rfl, rfl⟩
      obtain ⟨word, -, -, hopens⟩ := opensAt_of_header hs hheader
      exact ⟨_, word, hopens⟩
    · obtain ⟨s', hs', name, elementType, hheader, hcursor⟩ :=
        exists_header_of_word h hs hphase hword.text_eq
      obtain ⟨e, he, rfl, rfl⟩ := (mem_enums_iff_header h).mpr ⟨s', hs', hheader⟩
      obtain ⟨word', behind, hword', hopens⟩ := opensAt_of_header hs' hheader
      rw [hcursor] at hword' hopens
      rw [← hword.unique hword'] at hopens
      exact ⟨e, he, hopens⟩

/-- The enumeration `K` is opened by the keyword, `Kind` by the word `mapKind`. -/
theorem enumerations_open_at_map_and_mapKind :
    let source := Utf8.encode "map K T\n[1, 2] f mapKind k\n".toList
    let t : Table := ⟨[⟨"K", "T", []⟩, ⟨"Kind", "k", []⟩], [⟨⟨1, 2⟩, "f", []⟩]⟩
    let s : State := ⟨.parameters, ⟨16, " mapKind k\n".toList⟩,
      ⟨[⟨"K", "T", []⟩], [⟨⟨1, 2⟩, "f", []⟩]⟩, none, some 0⟩
    parse source = .ok t ∧ (∃ offset word, OpensAt source offset word ⟨"K", "T", []⟩) ∧
      s ∈ statesOf source ∧ s.phase = Resume.parameters.phase ∧
      Word s.cursor.skipWhitespace.rest "mapKind".toList " k\n".toList ∧
      ∃ e ∈ t.enums, OpensAt source 17 "mapKind".toList e := by
  intro source t s
  have h : parse source = .ok t := eq_ok_of_toOption (by decide +kernel)
  have hs : s ∈ statesOf source := by decide +kernel
  have hplain : "mapKind".toList.any Symbol.isDelimiter = false := by decide
  have hword : Word s.cursor.skipWhitespace.rest "mapKind".toList " k\n".toList :=
    ⟨by decide, by decide, fun c hc => Bool.eq_false_iff.mpr (List.any_eq_false.mp hplain c hc),
      fun c hc => by cases hc; rfl⟩
  obtain ⟨hopened, hopens⟩ := enumerations_open_at_words h
  exact ⟨h, hopened _ List.mem_cons_self, hs, rfl, hword, hopens s hs .parameters rfl _ _ hword⟩

/-- A parameter type that starts with the keyword opens an enumeration, although no word is the
    keyword: nowhere do the three letters stand in front of a delimiter or at the end. -/
theorem parameter_type_opens_enumeration :
    let text := "[1, 2] f mapKind k\n".toList
    let t : Table := ⟨[⟨"Kind", "k", []⟩], [⟨⟨1, 2⟩, "f", []⟩]⟩
    parse (Utf8.encode text) = .ok t ∧
      ¬ ∃ before behind, text = before ++ Symbol.mapKeyword ++ behind ∧
        ∀ c ∈ behind.head?, Symbol.isDelimiter c = true := by
  intro text t
  have h : parse (Utf8.encode text) = .ok t := eq_ok_of_toOption (by decide +kernel)
  refine ⟨h, ?_⟩
  rintro ⟨before, behind, htext, hends⟩
  have hnone : ∀ n ≤ text.length, (text.drop n).take 3 = Symbol.mapKeyword →
      (text.drop (n + 3)).head?.all Symbol.isDelimiter = false := by decide +kernel
  have hdrop : text.drop (before.length + 3) = behind := by
    rw [htext]
    exact List.drop_left' (by simp [Symbol.mapKeyword])
  have hopen := hnone before.length ?_ ?_
  · rw [hdrop] at hopen
    cases behind with
    | nil => cases hopen
    | cons c cs =>
      rw [List.head?_cons, Option.all_some, hends c rfl] at hopen
      cases hopen
  · rw [htext]
    simp
  · rw [htext, List.append_assoc, List.drop_left]
    rfl

end Parser
end FunctionMap
