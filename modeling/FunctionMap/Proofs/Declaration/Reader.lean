import FunctionMap.Proofs.Source.Cursor
import FunctionMap.Proofs.Declaration.Grammar
import FunctionMap.Declaration.State

/-!
# The readers of the parser read the rules of the grammar

One statement for each reader: it succeeds exactly where its rule applies, with what the rule says,
and leaves the cursor where the rule ends (`readEnumHeader_eq_ok_iff`, `readValue_eq_ok_iff`,
`readFunctionHeader_eq_ok_iff`, `readParameter_eq_ok_iff`). The readers of entries are only asked
where an entry can start, `EntryAt text`.

The parts of a rule are read one behind the other by cursors that all come from the one at its
start: `c.upTo mid` is where the next part is read.
-/

namespace FunctionMap
namespace Parser

open Grammar

/-! ## 1. The parts of the rules -/

section Parts

variable {c c' : Cursor} {mid rest : List Char}

theorem readToken_of_name {name : String} (hmid : mid <:+ c.rest) (h : Name mid name rest) :
    ∃ t, (c.upTo mid).skipWhitespace.readToken = .ok (t, c.upTo rest) ∧ t.text = name := by
  rw [← Cursor.upTo_upTo hmid h.suffix]
  obtain ⟨hblanks, hword⟩ := h
  exact ⟨_, Cursor.readToken_skipWhitespace_eq_ok_iff.mpr ⟨_, _, _, hblanks, hword, rfl, rfl⟩, rfl⟩

theorem name_of_readToken {t : Token} (hmid : mid <:+ c.rest)
    (h : (c.upTo mid).skipWhitespace.readToken = .ok (t, c')) :
    ∃ rest, Name mid t.text rest ∧ c' = c.upTo rest := by
  obtain ⟨start, word, rest, hblanks, hword, rfl, rfl⟩ :=
    Cursor.readToken_skipWhitespace_eq_ok_iff.mp h
  have hname : Name mid (String.ofList word) rest := .mk hblanks hword
  exact ⟨rest, hname, Cursor.upTo_upTo hmid hname.suffix⟩

/-- A text that spells an integer is not empty, so an optional word that does is a word. -/
theorem word_of_spells {text word : List Char} {v : Int} (h : OptWord text word rest)
    (hv : Numeral.Spells word v) : Word text word rest := by
  cases h with
  | word h => exact h
  | atComment rest => exact absurd rfl hv.isDigit_or_sign.1
  | atEnd => exact absurd rfl hv.isDigit_or_sign.1

theorem readToken_of_integer {k : Int32} (hmid : mid <:+ c.rest) (h : Integer mid k rest) :
    ∃ t, (c.upTo mid).skipWhitespace.readToken = .ok (t, c.upTo rest) ∧ t.int32 = .ok k := by
  rw [← Cursor.upTo_upTo hmid h.suffix]
  obtain ⟨hblanks, hword, hspells⟩ := h
  refine ⟨_, Cursor.readToken_skipWhitespace_eq_ok_iff.mpr
    ⟨_, _, _, hblanks, .word hword, rfl, rfl⟩, ?_⟩
  rw [Token.integer_eq_ok_iff Numeral.represented_int32, String.toList_ofList]
  exact hspells

theorem integer_of_readToken {t : Token} {k : Int32} (hmid : mid <:+ c.rest)
    (h : (c.upTo mid).skipWhitespace.readToken = .ok (t, c')) (hk : t.int32 = .ok k) :
    ∃ rest, Integer mid k rest ∧ c' = c.upTo rest := by
  obtain ⟨start, word, rest, hblanks, hword, rfl, rfl⟩ :=
    Cursor.readToken_skipWhitespace_eq_ok_iff.mp h
  rw [Token.integer_eq_ok_iff Numeral.represented_int32, String.toList_ofList] at hk
  have hinteger : Integer mid k rest := .mk hblanks (word_of_spells hword hk) hk
  exact ⟨rest, hinteger, Cursor.upTo_upTo hmid hinteger.suffix⟩

theorem expect_upTo_iff {due : Char} {description : String} (hmid : mid <:+ c.rest)
    (hdue : Symbol.isWhitespace due = false) :
    (c.upTo mid).skipWhitespace.expect due description = .ok c' ↔
      ∃ rest, Blanks mid (due :: rest) ∧ c' = c.upTo rest := by
  rw [Cursor.expect_skipWhitespace_eq_ok_iff hdue]
  constructor
  · intro h
    obtain ⟨rest, hblanks, rfl⟩ := h
    exact ⟨rest, hblanks, Cursor.upTo_upTo hmid ((List.suffix_cons due rest).trans hblanks.suffix)⟩
  · intro h
    obtain ⟨rest, hblanks, rfl⟩ := h
    refine ⟨rest, hblanks, (Cursor.upTo_upTo hmid ?_).symm⟩
    exact (List.suffix_cons due rest).trans hblanks.suffix

end Parts

/-! ## 2. Headers -/

/-- **The reader of enumeration headers reads `map name type`.** -/
theorem readEnumHeader_eq_ok_iff {c c' : Cursor} {name elementType : String} :
    readEnumHeader c = .ok (name, elementType, c') ↔
      ∃ rest, EnumHeader c.rest name elementType rest ∧ c' = c.upTo rest := by
  constructor
  · intro h
    unfold readEnumHeader at h
    split at h
    · cases h
    · rename_i hword
      obtain ⟨text, htext, rfl⟩ := Cursor.expectWord_eq_ok_iff.mp hword
      have hkeyword : text <:+ c.rest := ⟨_, htext.symm⟩
      obtain ⟨⟨t, c₂⟩, ht, h⟩ := bind_eq_ok_iff.mp h
      obtain ⟨mid, hname, rfl⟩ := name_of_readToken hkeyword ht
      obtain ⟨⟨u, c₃⟩, hu, h⟩ := bind_eq_ok_iff.mp h
      obtain ⟨rest, htype, rfl⟩ := name_of_readToken (hname.suffix.trans hkeyword) hu
      cases h
      rw [htext]
      exact ⟨rest, .mk hname htype, rfl⟩
  · intro h
    obtain ⟨rest, h, rfl⟩ := h
    generalize htext : c.rest = text at h
    obtain ⟨hname, htype⟩ := h
    have hkeyword : _ <:+ c.rest := ⟨Symbol.mapKeyword, htext.symm⟩
    have hword : c.expectWord Symbol.mapKeywordText Symbol.mapKeyword = (.ok (), c.upTo _) :=
      Cursor.expectWord_eq_ok_iff.mpr ⟨_, htext, rfl⟩
    obtain ⟨t, ht, rfl⟩ := readToken_of_name hkeyword hname
    obtain ⟨u, hu, rfl⟩ := readToken_of_name (hname.suffix.trans hkeyword) htype
    rw [readEnumHeader, hword]
    exact bind_eq_ok_iff.mpr ⟨_, ht, bind_eq_ok_iff.mpr ⟨_, hu, rfl⟩⟩

/-- **The reader of function headers reads `[group, type] name`.** -/
theorem readFunctionHeader_eq_ok_iff {c c' : Cursor} {key : FunctionKey} {name : String} :
    readFunctionHeader c = .ok (key, name, c') ↔
      ∃ rest, FunctionHeader c.rest key name rest ∧ c' = c.upTo rest := by
  constructor
  · intro h
    obtain ⟨c₁, hopen, h⟩ := bind_eq_ok_iff.mp h
    obtain ⟨text, htext, rfl⟩ := Cursor.expect_eq_ok_iff.mp hopen
    have hs : text <:+ c.rest := ⟨['['], htext.symm⟩
    obtain ⟨⟨t, c₂⟩, ht, h⟩ := bind_eq_ok_iff.mp h
    obtain ⟨group, hk, h⟩ := bind_eq_ok_iff.mp h
    obtain ⟨a, hgroup, rfl⟩ := integer_of_readToken hs ht hk
    have hs := hgroup.suffix.trans hs
    obtain ⟨c₃, hc, h⟩ := bind_eq_ok_iff.mp h
    obtain ⟨b, hcomma, rfl⟩ := (expect_upTo_iff hs (by decide)).mp hc
    have hs := ((List.suffix_cons ',' b).trans hcomma.suffix).trans hs
    obtain ⟨⟨u, c₄⟩, hu, h⟩ := bind_eq_ok_iff.mp h
    obtain ⟨typeId, hk, h⟩ := bind_eq_ok_iff.mp h
    obtain ⟨d, htype, rfl⟩ := integer_of_readToken hs hu hk
    have hs := htype.suffix.trans hs
    obtain ⟨c₅, hb, h⟩ := bind_eq_ok_iff.mp h
    obtain ⟨e, hbracket, rfl⟩ := (expect_upTo_iff hs (by decide)).mp hb
    have hs := ((List.suffix_cons ']' e).trans hbracket.suffix).trans hs
    obtain ⟨⟨v, c₆⟩, hv, h⟩ := bind_eq_ok_iff.mp h
    obtain ⟨rest, hname, rfl⟩ := name_of_readToken hs hv
    cases h
    rw [htext]
    exact ⟨rest, .mk hgroup hcomma htype hbracket hname, rfl⟩
  · intro h
    obtain ⟨rest, h, rfl⟩ := h
    generalize htext : c.rest = text at h
    obtain ⟨hgroup, hcomma, htype, hbracket, hname⟩ := h
    have hs : _ <:+ c.rest := ⟨['['], htext.symm⟩
    have hopen : c.expect '[' "'['" = .ok (c.upTo _) := Cursor.expect_eq_ok_iff.mpr ⟨_, htext, rfl⟩
    obtain ⟨t, ht, hk⟩ := readToken_of_integer hs hgroup
    have hs := hgroup.suffix.trans hs
    have hc : (c.upTo _).skipWhitespace.expect ',' "','" = .ok (c.upTo _) :=
      (expect_upTo_iff hs (by decide)).mpr ⟨_, hcomma, rfl⟩
    have hs := ((List.suffix_cons ',' _).trans hcomma.suffix).trans hs
    obtain ⟨u, hu, hk'⟩ := readToken_of_integer hs htype
    have hs := htype.suffix.trans hs
    have hb : (c.upTo _).skipWhitespace.expect ']' "']'" = .ok (c.upTo _) :=
      (expect_upTo_iff hs (by decide)).mpr ⟨_, hbracket, rfl⟩
    have hs := ((List.suffix_cons ']' _).trans hbracket.suffix).trans hs
    obtain ⟨v, hv, rfl⟩ := readToken_of_name hs hname
    refine bind_eq_ok_iff.mpr ⟨_, hopen, bind_eq_ok_iff.mpr ⟨_, ht, bind_eq_ok_iff.mpr ⟨_, hk, ?_⟩⟩⟩
    refine bind_eq_ok_iff.mpr ⟨_, hc, bind_eq_ok_iff.mpr ⟨_, hu, bind_eq_ok_iff.mpr ⟨_, hk', ?_⟩⟩⟩
    exact bind_eq_ok_iff.mpr ⟨_, hb, bind_eq_ok_iff.mpr ⟨_, hv, rfl⟩⟩

/-! ## 3. Entries -/

theorem nextPhase?_eq_none_iff {r : Resume} {c : Cursor} :
    nextPhase? r c.skipWhitespace = none ↔ EntryAt c.skipWhitespace.rest := by
  unfold nextPhase? EntryAt
  have hblank := Cursor.noBlank_skipWhitespace c
  cases htext : c.skipWhitespace.rest with
  | nil => simp
  | cons x xs =>
    have hx : Symbol.isWhitespace x = false := hblank x (by rw [htext]; rfl)
    by_cases h₁ : x = '#'
    · simp [h₁]
    by_cases h₂ : x = 'm'
    · simp [h₂]
    by_cases h₃ : x = '['
    · simp [h₃]
    simp [h₁, h₂, h₃, hx]

/-- **The reader of values reads `key name`.** -/
theorem readValue_eq_ok_iff {c c' : Cursor} (he : EntryAt c.rest) {value : EnumValue} :
    readValue c = .ok (value, c') ↔ ∃ rest, Value c.rest value rest ∧ c' = c.upTo rest := by
  constructor
  · intro h
    obtain ⟨⟨t, c₁⟩, ht, h⟩ := bind_eq_ok_iff.mp h
    obtain ⟨key, hk, h⟩ := bind_eq_ok_iff.mp h
    obtain ⟨⟨u, c₂⟩, hu, h⟩ := bind_eq_ok_iff.mp h
    obtain ⟨word, mid, hword, rfl, rfl⟩ := (Cursor.readToken_eq_ok_iff he.noBlank).mp ht
    obtain ⟨rest, hname, rfl⟩ := name_of_readToken hword.suffix hu
    cases h
    rw [Token.integer_eq_ok_iff Numeral.represented_int64, String.toList_ofList] at hk
    obtain ⟨hword, hopens⟩ := he.word hword
    exact ⟨rest, .mk hword hopens hk hname, rfl⟩
  · intro h
    obtain ⟨rest, h, rfl⟩ := h
    obtain ⟨hword, -, hkey, hname⟩ := h
    obtain ⟨u, hu, rfl⟩ := readToken_of_name hword.suffix hname
    refine bind_eq_ok_iff.mpr ⟨_, Cursor.readToken_of_word hword, ?_⟩
    refine bind_eq_ok_iff.mpr ⟨_, (Token.integer_eq_ok_iff Numeral.represented_int64).mpr ?_,
      bind_eq_ok_iff.mpr ⟨_, hu, rfl⟩⟩
    rw [String.toList_ofList]
    exact hkey

/-- A type that is read is its word without the braces around it. -/
theorem stripBraces_eq_iff {word : List Char} {typeName : String} :
    stripBraces (String.ofList word) = typeName ↔
      Blank.Trims (fun c => c = '\x7b' || c = '\x7d') word typeName.toList := by
  rw [stripBraces, String.toList_ofList, ← String.toList_inj, String.toList_ofList]
  exact Blank.trimBy_eq_iff

/-- **The reader of parameters reads `type name`.** -/
theorem readParameter_eq_ok_iff {c c' : Cursor} (he : EntryAt c.rest) {parameter : Parameter} :
    readParameter c = .ok (parameter, c') ↔
      ∃ rest, ParameterEntry c.rest parameter rest ∧ c' = c.upTo rest := by
  constructor
  · intro h
    obtain ⟨⟨t, c₁⟩, ht, h⟩ := bind_eq_ok_iff.mp h
    obtain ⟨⟨u, c₂⟩, hu, h⟩ := bind_eq_ok_iff.mp h
    obtain ⟨word, mid, hword, rfl, rfl⟩ := (Cursor.readToken_eq_ok_iff he.noBlank).mp ht
    obtain ⟨rest, hname, rfl⟩ := name_of_readToken hword.suffix hu
    cases h
    obtain ⟨hword, hopens⟩ := he.word hword
    exact ⟨rest, .mk hword hopens (stripBraces_eq_iff.mp rfl) hname, rfl⟩
  · intro h
    obtain ⟨rest, h, rfl⟩ := h
    obtain ⟨hword, -, hbraces, hname⟩ := h
    obtain ⟨u, hu, rfl⟩ := readToken_of_name hword.suffix hname
    rw [← stripBraces_eq_iff.mpr hbraces]
    exact bind_eq_ok_iff.mpr
      ⟨_, Cursor.readToken_of_word hword, bind_eq_ok_iff.mpr ⟨_, hu, rfl⟩⟩

end Parser
end FunctionMap
