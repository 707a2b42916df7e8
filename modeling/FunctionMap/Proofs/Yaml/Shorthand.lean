import FunctionMap.Proofs.Yaml.Separation
import Mathlib.Data.List.Forall2

/-!
# Tags as a reader takes them

In the lines of the second document stand nodes, one for every function and every parameter, and a
node that starts with an exclamation mark has a tag, up to the next gap. A reader takes the tag for a
shorthand, where it accepts some of the visible characters, `isShorthand`, and escapes.

Names of two kinds do not come back. A name with a NUL is cut there, and a name with an opening bracket
is written with it although no shorthand holds one. All other names come back: the marks `,` and `]`
are not escaped either, but they end a token of a source, so they are in no name.

Main statement: `yaml_tags_read_back_iff`.
-/

namespace FunctionMap

/-- The names that the nodes of a function stand for: its own one and the types of its parameters. -/
def Function.nodeNames (f : Function) : List String :=
  f.name :: f.parameters.map Parameter.typeName

namespace Yaml

open Scalar (isGap isBreak Compact)

namespace Tag

/-! ## 1. Reading a shorthand -/

/-- The characters that a tag shorthand holds as they are. -/
def isShorthand (c : Char) : Bool := c.isAlphanum || c ∈ "-_;/?:@&=+$.~*'()".toList

/-- The marks of flow collections. They are written as they are although no shorthand holds them. -/
def flowMarks : List Char := [',', '[', ']']

/-- The bytes that a text stands for, if each of its characters belongs to an escape or to a class. -/
def percentDecode? (p : Char → Bool) : List Char → Option Bytes
  | '%' :: a :: b :: rest =>
    (digits? 16 [a, b]).bind fun n => (percentDecode? p rest).map (UInt8.ofNat n :: ·)
  | c :: rest => if p c then (percentDecode? p rest).map (UInt8.ofNat c.toNat :: ·) else none
  | [] => some []

/-- A tag is a shorthand that reads as a name. -/
def ReadsBack (tag name : List Char) : Prop :=
  ∃ body, tag = '!' :: body ∧ body ≠ [] ∧ percentDecode? isShorthand body = some (Utf8.encode name)

/-- The bytes that are written as they are, as characters outside a class. -/
def isRaw (p : Char → Bool) (b : UInt8) : Bool := isPlain b && !p (Char.ofNat b.toNat)

theorem percentDecode?_writeByte_append (p : Char → Bool) (b : UInt8) (rest : List Char) :
    percentDecode? p (writeByte b ++ rest)
      = if isRaw p b then none else (percentDecode? p rest).map (b :: ·) := by
  unfold writeByte isRaw
  cases hb : isPlain b with
  | true =>
    obtain ⟨hvalue, hpercent, -⟩ := plain_of_isPlain hb
    rw [if_pos rfl, List.singleton_append, percentDecode?, hvalue, UInt8.ofNat_toNat]
    · cases p (Char.ofNat b.toNat) <;> rfl
    · exact fun _ _ _ h => absurd h hpercent
  | false =>
    have hdigits : digits? 16 (Scalar.hex 2 b.toNat) = some b.toNat :=
      Scalar.digits?_hex (by decide) b.toNat_lt
    obtain ⟨x, y, hxy⟩ := List.length_eq_two.mp (Scalar.length_hex 2 b.toNat)
    rw [hxy] at hdigits ⊢
    rw [if_neg (by decide), List.cons_append, List.cons_append, List.cons_append, List.nil_append,
      percentDecode?, hdigits, Option.bind_some, UInt8.ofNat_toNat]
    rfl

/-- **Bytes read back exactly if none of them is written as it is and outside the class.** -/
theorem percentDecode?_flatMap_writeByte (p : Char → Bool) (bytes : Bytes) :
    percentDecode? p (bytes.flatMap writeByte) = if bytes.any (isRaw p) then none else some bytes := by
  induction bytes with
  | nil => rfl
  | cons b bytes ih =>
    rw [List.flatMap_cons, percentDecode?_writeByte_append, ih, List.any_cons]
    cases isRaw p b <;> cases bytes.any (isRaw p) <;> rfl

/-! ## 2. Names that come back -/

theorem isRaw_byte : ∀ n < 256, isRaw isShorthand (UInt8.ofNat n) = true →
    n < 128 ∧ Char.ofNat n ∈ flowMarks := by
  decide +kernel

theorem mem_flowMarks_of_isRaw {b : UInt8} (h : isRaw isShorthand b = true) :
    b < 0x80 ∧ Char.ofNat b.toNat ∈ flowMarks := by
  obtain ⟨hascii, hmark⟩ := isRaw_byte b.toNat b.toNat_lt (by rwa [UInt8.ofNat_toNat])
  exact ⟨UInt8.lt_iff_toNat_lt.mpr hascii, hmark⟩

theorem isRaw_of_mem_flowMarks : ∀ c ∈ flowMarks,
    c.val.toNat ≤ 0x7F ∧ isRaw isShorthand (UInt8.ofNat c.val.toNat) = true := by
  simp only [flowMarks, List.forall_mem_cons]
  exact ⟨by decide, by decide, by decide, List.forall_mem_nil _⟩

theorem any_isRaw_encode {name : List Char} :
    (Utf8.encode name).any (isRaw isShorthand) = true ↔ ∃ c ∈ flowMarks, c ∈ name := by
  rw [List.any_eq_true]
  constructor
  · rintro ⟨b, hb, hraw⟩
    obtain ⟨hascii, hmark⟩ := mem_flowMarks_of_isRaw hraw
    exact ⟨_, hmark, Utf8.ofNat_mem_of_mem_encode hascii hb⟩
  · rintro ⟨c, hc, hmem⟩
    obtain ⟨hascii, hraw⟩ := isRaw_of_mem_flowMarks c hc
    exact ⟨_, Utf8.mem_encode_of_ascii hascii hmem, hraw⟩

/-- Every byte that is written as it is is a mark or in a shorthand. -/
theorem isRaw_shorthand_or_mark (b : UInt8) :
    isRaw (fun c => isShorthand c || c ∈ flowMarks) b = false := by
  cases hraw : isRaw isShorthand b with
  | true => simp [isRaw, (mem_flowMarks_of_isRaw hraw).2]
  | false =>
    rw [isRaw, Bool.and_eq_false_imp] at hraw ⊢
    intro hb
    have hshorthand : isShorthand (Char.ofNat b.toNat) = true := by simpa using hraw hb
    simp [hshorthand]

theorem write_of_shown {name : List Char} (h : shown name ≠ []) :
    write name = '!' :: (Utf8.encode (shown name)).flatMap writeByte := by
  unfold write
  rw [body_eq]
  split
  · rename_i hnil
    exact absurd (Utf8.encode_injective (hnil.trans Utf8.encode_nil.symm)) h
  · rfl

theorem flatMap_writeByte_ne_nil {name : List Char} (h : name ≠ []) :
    (Utf8.encode name).flatMap writeByte ≠ [] := by
  intro hnil
  have hempty : Utf8.encode name = [] := flatMap_writeByte_injective (b := []) hnil
  exact h (Utf8.encode_injective hempty)

theorem shown_eq_self_iff {name : List Char} : shown name = name ↔ '\x00' ∉ name := by
  refine ⟨fun h hmem => ?_, shown_eq_self⟩
  rw [← h] at hmem
  exact absurd (mem_takeWhile hmem) (by decide)

/-- **A tag reads back as its name exactly if the name holds neither a NUL nor a mark of flow
    collections.** -/
theorem readsBack_write_iff {name : List Char} (hname : name ≠ []) :
    ReadsBack (write name) name ↔ '\x00' ∉ name ∧ ∀ c ∈ flowMarks, c ∉ name := by
  by_cases hshown : shown name = []
  · -- the name starts with a NUL, and its tag is no shorthand
    have hwrite : write name = ['!', '<', '%', '2', '1', '>'] := by
      rw [write, body_eq, hshown]
      rfl
    rw [hwrite, ← shown_eq_self_iff, hshown]
    refine iff_of_false ?_ fun h => hname h.1.symm
    rintro ⟨body, hbody, -, hdecode⟩
    cases hbody
    cases hdecode
  · have hread : ReadsBack (write name) name ↔
        (¬ ∃ c ∈ flowMarks, c ∈ shown name) ∧ shown name = name := by
      rw [← any_isRaw_encode, ReadsBack, write_of_shown hshown]
      constructor
      · rintro ⟨body, hbody, -, hdecode⟩
        cases hbody
        rw [percentDecode?_flatMap_writeByte] at hdecode
        split at hdecode
        · cases hdecode
        · rename_i hraw
          exact ⟨hraw, Utf8.encode_injective (Option.some.inj hdecode)⟩
      · rintro ⟨hraw, hself⟩
        refine ⟨_, rfl, flatMap_writeByte_ne_nil hshown, ?_⟩
        rw [percentDecode?_flatMap_writeByte, if_neg hraw, hself]
    rw [hread, shown_eq_self_iff, and_comm]
    refine and_congr_right fun hnul => ?_
    rw [shown_eq_self hnul]
    simp only [not_exists, not_and]

/-- What every tag shows if the marks are taken as they are: its name up to the first NUL. -/
theorem percentDecode?_write {name : List Char} (hname : shown name ≠ []) :
    ∃ body, write name = '!' :: body ∧
      percentDecode? (fun c => isShorthand c || c ∈ flowMarks) body
        = some (Utf8.encode (shown name)) := by
  refine ⟨_, write_of_shown hname, ?_⟩
  rw [percentDecode?_flatMap_writeByte, if_neg]
  rw [List.any_eq_true]
  rintro ⟨b, -, hraw⟩
  rw [isRaw_shorthand_or_mark] at hraw
  cases hraw

/-! ## 3. Nodes -/

/-- The tag of a node, if it has one. -/
def ofNode? (node : List Char) : Option (List Char) :=
  if node.head? = some '!' then some (node.takeWhile fun c => !isGap c) else none

/-- The tag of a node that stands for a name, if it has one. -/
def ofName? (name : String) : Option (List Char) :=
  if Allowed name.toList then some (write name.toList) else none

theorem exists_write_eq (name : List Char) : ∃ rest, write name = '!' :: rest := by
  unfold write
  split <;> exact ⟨_, rfl⟩

theorem ofNode?_write_append (name : List Char) {behind : List Char}
    (hbehind : ∀ c ∈ behind.head?, isGap c = true) :
    ofNode? (write name ++ behind) = some (write name) := by
  have hhead : (write name ++ behind).head? = some '!' := by
    obtain ⟨rest, hrest⟩ := exists_write_eq name
    rw [hrest]
    rfl
  rw [ofNode?, if_pos hhead, takeWhile_of_maximal]
  · intro c hc
    rw [isGap_write hc]
    rfl
  · intro c hc
    rw [hbehind c hc]
    rfl

/-- A scalar is not taken for a tag. -/
theorem ofNode?_scalar (indent : Nat) (s : List Char) : ofNode? (Scalar.write indent s) = none := by
  refine if_neg ?_
  rw [Scalar.write]
  cases hstyle : Scalar.style s with
  | plain =>
    obtain ⟨c, cs, rfl, hc⟩ := Scalar.exists_cons_of_plain hstyle
    rintro ⟨⟩
    exact hc (by decide)
  | single => rintro ⟨⟩
  | double => rintro ⟨⟩
  | literal => rintro ⟨⟩

theorem ofNode?_tagged (indent : Nat) (name : String) (s : List Char) :
    ofNode? (tagged name.toList ++ Scalar.write indent s) = ofName? name := by
  unfold tagged ofName?
  split
  · rw [List.append_assoc]
    exact ofNode?_write_append _ fun c hc => by cases hc; rfl
  · exact ofNode?_scalar indent s

end Tag

/-! ## 4. The lines of the second document -/

/-- The node in a line of the second document: behind the dash of a parameter, or behind the colon of
    the key of a function. -/
def node? : List Char → Option (List Char)
  | '-' :: ' ' :: node => some node
  | '\'' :: key => some (((key.dropWhile (· ≠ ':')).drop 1).dropWhile (· = ' '))
  | _ => none

/-- The tags of the nodes in the lines of a document, in their order. -/
def tags (document : List Char) : List (Option (List Char)) :=
  ((document.splitOn '\n').filterMap node?).map Tag.ofNode?

theorem lineFeed_not_mem_tag (name : List Char) : '\n' ∉ Tag.write name :=
  fun hmem => by cases Tag.isGap_write hmem

theorem tags_line {line : List Char} (h : '\n' ∉ line) (rest : List Char) :
    tags (line ++ '\n' :: rest) = ((node? line).map Tag.ofNode?).toList ++ tags rest := by
  rw [tags, List.splitOn_append_cons_self_of_not_mem h, List.filterMap_cons]
  cases node? line <;> rfl

theorem lineFeed_not_mem_writeSingle (indent : Nat) {s : List Char} (hs : '\n' ∉ s)
    (afterBreak : Bool) : '\n' ∉ Scalar.writeSingle indent afterBreak s := by
  have hlead : ∀ afterBreak, '\n' ∉ Scalar.lead indent afterBreak := by
    intro afterBreak
    cases afterBreak with
    | false => exact List.not_mem_nil
    | true => exact fun hmem => absurd (List.eq_of_mem_replicate hmem) (by decide)
  induction s generalizing afterBreak with
  | nil => exact hlead afterBreak
  | cons c cs ih =>
    obtain ⟨hc, hcs⟩ : '\n' ≠ c ∧ '\n' ∉ cs := by simpa using hs
    cases hbreak : isBreak c with
    | true =>
      rw [Scalar.writeSingle_of_break hbreak, List.mem_cons, not_or]
      exact ⟨hc, ih hcs true⟩
    | false =>
      rw [Scalar.writeSingle_of_not_break hbreak, List.mem_append, List.mem_append, not_or, not_or]
      refine ⟨hlead afterBreak, ?_, ih hcs false⟩
      unfold Scalar.doubled
      split
      · decide
      · exact fun hmem => hc (List.mem_singleton.mp hmem)

/-- A scalar that is no block stays in its line. -/
theorem lineFeed_not_mem_write (indent : Nat) {s : List Char} (hs : Compact s) :
    '\n' ∉ Scalar.write indent s := by
  rw [Scalar.write]
  cases hstyle : Scalar.style s with
  | plain => exact hs.noLineFeed
  | single =>
    have hinside := lineFeed_not_mem_writeSingle indent hs.noLineFeed false
    simpa using hinside
  | double =>
    have hinside : '\n' ∉ s.flatMap Scalar.escape := by
      intro hmem
      obtain ⟨c, -, hc⟩ := List.mem_flatMap.mp hmem
      cases isBreak_escape hc
    simpa using hinside
  | literal => exact absurd hstyle hs.style_ne_literal

theorem tags_parameterEntry {p : Parameter} (hp : p.WellFormed) (rest : List Char) :
    tags (parameterEntry p ++ rest) = Tag.ofName? p.typeName :: tags rest := by
  have hname := compact_of_isPlain hp.name
  have htag : '\n' ∉ tagged p.typeName.toList := by
    unfold tagged
    split
    · intro hmem
      rcases List.mem_append.mp hmem with hmem | hmem
      · exact lineFeed_not_mem_tag _ hmem
      · exact absurd hmem (by decide)
    · exact List.not_mem_nil
  have hline : '\n' ∉ '-' :: ' ' :: (tagged p.typeName.toList ++ Scalar.write 2 p.name.toList) := by
    simpa using ⟨htag, lineFeed_not_mem_write 2 hname⟩
  have hentry : parameterEntry p ++ rest = ('-' :: ' ' :: (tagged p.typeName.toList
      ++ Scalar.write 2 p.name.toList)) ++ '\n' :: rest := by
    rw [parameterEntry, writeLine_of_compact hname]
    simp
  rw [hentry, tags_line hline, node?, Option.map_some, Tag.ofNode?_tagged]
  rfl

theorem tags_parameters {ps : List Parameter} (hps : ∀ p ∈ ps, p.WellFormed) (rest : List Char) :
    tags (ps.flatMap parameterEntry ++ rest)
      = ps.map (fun p => Tag.ofName? p.typeName) ++ tags rest := by
  induction ps with
  | nil => rfl
  | cons p ps ih =>
    obtain ⟨hp, hps⟩ := List.forall_mem_cons.mp hps
    rw [List.flatMap_cons, List.append_assoc, tags_parameterEntry hp, ih hps]
    rfl

/-- The characters of a key's text show ink, a space apart, and none is a quote or a colon. -/
theorem mem_chars {k : FunctionKey} {c : Char} (h : c ∈ k.chars) :
    (Tag.isGraphic c = true ∨ c = ' ') ∧ c ≠ '\'' ∧ c ≠ ':' := by
  have hfigure : Numeral.isFigure c = true → (Tag.isGraphic c = true ∨ c = ' ') ∧
      c ≠ '\'' ∧ c ≠ ':' := by
    intro hc
    refine ⟨Or.inl ?_, (by rintro rfl; cases hc), (by rintro rfl; cases hc)⟩
    simp only [Numeral.isFigure, Bool.or_eq_true, decide_eq_true_eq] at hc
    rcases hc with (hdigit | rfl) | rfl
    · simp only [Char.isDigit, Bool.and_eq_true, decide_eq_true_eq] at hdigit
      simp only [Tag.isGraphic, Bool.and_eq_true, decide_eq_true_eq]
      exact ⟨Char.le_trans (by decide : '!' ≤ '0') hdigit.1,
        Char.le_trans hdigit.2 (by decide : '9' ≤ '~')⟩
    · rfl
    · rfl
  simp only [FunctionKey.chars, List.cons_append, List.mem_cons, List.mem_append,
    List.not_mem_nil, or_false] at h
  rcases h with rfl | (h | rfl | rfl | h) | rfl
  · decide
  · exact hfigure (Numeral.isFigure_of_mem_write h)
  · decide
  · decide
  · exact hfigure (Numeral.isFigure_of_mem_write h)
  · decide

theorem exists_of_adjacent {p q : Char → Bool} {s : List Char} (h : Scalar.adjacent p q s = true) :
    (∃ c ∈ s, p c = true) ∧ ∃ c ∈ s, q c = true := by
  match s with
  | [] => cases h
  | [_] => cases h
  | a :: b :: rest =>
    rw [Scalar.adjacent, Bool.or_eq_true, Bool.and_eq_true] at h
    rcases h with ⟨hp, hq⟩ | h
    · exact ⟨⟨a, by simp, hp⟩, ⟨b, by simp, hq⟩⟩
    · obtain ⟨⟨c, hc, hp⟩, ⟨d, hd, hq⟩⟩ := exists_of_adjacent h
      exact ⟨⟨c, List.mem_cons_of_mem a hc, hp⟩, ⟨d, List.mem_cons_of_mem a hd, hq⟩⟩

theorem isBreak_of_mem_chars {k : FunctionKey} {c : Char} (h : c ∈ k.chars) : isBreak c = false := by
  rcases (mem_chars h).1 with hgraphic | rfl
  · exact Tag.isBreak_of_isGraphic hgraphic
  · rfl

theorem singleAllowed_chars (k : FunctionKey) : Scalar.singleAllowed k.chars = true := by
  have hspecial : Scalar.special k.chars = false := by
    refine List.any_eq_false.mpr fun c hc => ?_
    rcases (mem_chars hc).1 with hgraphic | rfl
    · simp only [Tag.isGraphic, Bool.and_eq_true, decide_eq_true_eq] at hgraphic
      have hspace : ' ' ≤ c := Char.le_trans (by decide : ' ' ≤ '!') hgraphic.1
      simp [Scalar.isPrintable, hspace, hgraphic.2]
    · decide
  have hbreak : ¬ ∃ c ∈ k.chars, isBreak c = true := by
    rintro ⟨c, hc, hbreak⟩
    exact absurd hbreak (by rw [isBreak_of_mem_chars hc]; decide)
  have hspaceBreak : Scalar.spaceBreak k.chars = false :=
    Bool.eq_false_iff.mpr fun h => hbreak (exists_of_adjacent h).2
  have hbreakSpace : Scalar.breakSpace k.chars = false :=
    Bool.eq_false_iff.mpr fun h => hbreak (exists_of_adjacent h).1
  rw [Scalar.singleAllowed, hspecial, hspaceBreak, hbreakSpace]
  rfl

theorem writeSingle_eq_self (indent : Nat) {s : List Char}
    (h : ∀ c ∈ s, isBreak c = false ∧ c ≠ '\'') : Scalar.writeSingle indent false s = s := by
  induction s with
  | nil => rfl
  | cons c cs ih =>
    obtain ⟨⟨hbreak, hquote⟩, hcs⟩ := List.forall_mem_cons.mp h
    rw [Scalar.writeSingle_of_not_break hbreak, ih hcs, Scalar.doubled, if_neg hquote]
    rfl

/-- The text of a key stands between single quotes as it is. -/
theorem write_chars (indent : Nat) (k : FunctionKey) :
    Scalar.write indent k.chars = '\'' :: k.chars ++ ['\''] := by
  have hstyle : Scalar.style k.chars = .single := by
    have hplain := style_ne_plain_chars k
    rw [Scalar.style, if_neg (compact_chars k).noLineFeed] at hplain ⊢
    split at hplain
    · exact absurd rfl hplain
    · rename_i hnotPlain
      rw [if_neg hnotPlain, if_pos (singleAllowed_chars k)]
  rw [Scalar.write, hstyle]
  dsimp only
  rw [writeSingle_eq_self]
  exact fun c hc => ⟨isBreak_of_mem_chars hc, (mem_chars hc).2.1⟩

/-- What stands between the colon of a function's key and the end of the line. -/
def behindKey (f : Function) : List Char :=
  (if Tag.Allowed f.name.toList then ' ' :: Tag.write f.name.toList else [])
    ++ if f.parameters = [] then [' ', '[', ']'] else []

theorem functionEntry_eq (f : Function) :
    functionEntry f = '\'' :: (f.key.chars ++ '\'' :: ':' :: behindKey f)
      ++ '\n' :: f.parameters.flatMap parameterEntry := by
  rw [functionEntry, functionNode, write_chars, behindKey]
  cases f.parameters <;> simp

theorem ofNode?_behindKey (f : Function) :
    Tag.ofNode? ((behindKey f).dropWhile (· = ' ')) = Tag.ofName? f.name := by
  rw [behindKey, Tag.ofName?]
  split
  · -- the tag, and a gap where brackets follow
    obtain ⟨rest, hrest⟩ := Tag.exists_write_eq f.name.toList
    have hstart : ∀ behind, (' ' :: (Tag.write f.name.toList ++ behind)).dropWhile (· = ' ')
        = Tag.write f.name.toList ++ behind := by
      intro behind
      rw [hrest]
      rfl
    rw [List.cons_append, hstart]
    refine Tag.ofNode?_write_append _ fun c hc => ?_
    split at hc <;> cases hc
    rfl
  · split <;> rfl

theorem tags_functionEntry {f : Function} (hf : f.WellFormed) (rest : List Char) :
    tags (functionEntry f ++ rest) = f.nodeNames.map Tag.ofName? ++ tags rest := by
  have hbehind : '\n' ∉ behindKey f := by
    unfold behindKey
    intro hmem
    rcases List.mem_append.mp hmem with hmem | hmem
    · split at hmem
      · rcases List.mem_cons.mp hmem with hspace | hmem
        · cases hspace
        · exact lineFeed_not_mem_tag _ hmem
      · cases hmem
    · split at hmem
      · exact absurd hmem (by decide)
      · cases hmem
  have hline : '\n' ∉ '\'' :: (f.key.chars ++ '\'' :: ':' :: behindKey f) := by
    simpa using ⟨(compact_chars f.key).noLineFeed, hbehind⟩
  have hkey : ∀ c ∈ f.key.chars ++ ['\''], decide (c ≠ ':') = true := by
    intro c hc
    rcases List.mem_append.mp hc with hc | hc
    · exact decide_eq_true (mem_chars hc).2.2
    · rw [List.mem_singleton.mp hc]
      rfl
  have hnode : node? ('\'' :: (f.key.chars ++ '\'' :: ':' :: behindKey f))
      = some ((behindKey f).dropWhile (· = ' ')) := by
    rw [node?, List.append_cons, dropWhile_of_maximal hkey (fun c hc => by cases hc; rfl)]
    rfl
  have hentry : functionEntry f ++ rest = '\'' :: (f.key.chars ++ '\'' :: ':' :: behindKey f)
      ++ '\n' :: (f.parameters.flatMap parameterEntry ++ rest) := by
    rw [functionEntry_eq, List.append_assoc]
    rfl
  rw [hentry, tags_line hline, hnode, Option.map_some, ofNode?_behindKey,
    tags_parameters hf.parameters]
  simp [Function.nodeNames]

/-- **The tags of the second document are those of the names that its nodes stand for.** -/
theorem tags_functionDocument {t : Table} (ht : t.WellFormed) :
    tags (functionDocument t) = (t.functions.flatMap Function.nodeNames).map Tag.ofName? := by
  have hentries : ∀ fs : List Function, (∀ f ∈ fs, f.WellFormed) →
      tags (fs.flatMap functionEntry) = (fs.flatMap Function.nodeNames).map Tag.ofName? := by
    intro fs hfs
    induction fs with
    | nil => rfl
    | cons f fs ih =>
      obtain ⟨hf, hfs⟩ := List.forall_mem_cons.mp hfs
      rw [List.flatMap_cons, tags_functionEntry hf, ih hfs, List.flatMap_cons, List.map_append]
  rw [← hentries t.functions ht.functions, functionDocument]
  cases t.functions with
  | nil => rfl
  | cons f fs => rw [mapping_cons, List.flatMap_cons]

/-! ## 5. Names of a source -/

/-- A node has the tag of a name, as far as a reader can tell: the name can stand as a tag, and the
    tag reads back as the name, or shows the part of it that is written. -/
structure Tag.StandsFor (tag? : Option (List Char)) (name : String) : Prop where
  present_iff : tag?.isSome = true ↔ name ≠ "" ∧ name.toList.head? ≠ some '!'
  readsBack_iff : ∀ tag ∈ tag?, ReadsBack tag name.toList ↔ '\x00' ∉ name.toList ∧ '[' ∉ name.toList
  shows : ∀ tag ∈ tag?, name.toList.head? ≠ some '\x00' → ∃ body, tag = '!' :: body ∧
    percentDecode? (fun c => isShorthand c || c ∈ flowMarks) body
      = some (Utf8.encode (shown name.toList))

theorem Tag.standsFor_ofName? {name : String} (hplain : IsPlain name) :
    StandsFor (ofName? name) name := by
  have hmark : (∀ c ∈ flowMarks, c ∉ name.toList) ↔ '[' ∉ name.toList := by
    refine ⟨fun h => h '[' (by decide), fun h c hc hmem => ?_⟩
    have hdelimiter := hplain c hmem
    simp only [flowMarks, List.mem_cons, List.not_mem_nil, or_false] at hc
    rcases hc with rfl | rfl | rfl
    · cases hdelimiter
    · exact h hmem
    · cases hdelimiter
  have hempty : name.toList ≠ [] ↔ name ≠ "" := by
    rw [ne_eq, ne_eq, ← String.toList_inj]
    rfl
  unfold ofName?
  by_cases hallowed : Allowed name.toList
  · rw [if_pos hallowed]
    refine ⟨iff_of_true rfl ⟨hempty.mp hallowed.1, hallowed.2⟩, ?_, ?_⟩
    · rintro _ ⟨⟩
      rw [readsBack_write_iff hallowed.1, hmark]
    · rintro _ ⟨⟩ hnul
      refine percentDecode?_write fun hshown => ?_
      cases hname : name.toList with
      | nil => exact hallowed.1 hname
      | cons c cs =>
        rw [hname] at hshown hnul
        have hc : c ≠ '\x00' := fun h => hnul (congrArg some h)
        simp [shown, hc] at hshown
  · rw [if_neg hallowed]
    refine ⟨iff_of_false (by decide) fun h => hallowed ⟨hempty.mpr h.1, h.2⟩, ?_, ?_⟩
    · rintro _ ⟨⟩
    · rintro _ ⟨⟩

end Yaml

/-- **A tag of the YAML format reads back as its name exactly if the name holds neither a NUL nor an
    opening bracket.** The nodes of the second document are those of the functions and parameters, in
    their order, and a node has a tag exactly if its name is not empty and does not start with an
    exclamation mark. Every tag shows its name up to the first NUL, where there is something to show,
    if the reader takes brackets as they are. -/
theorem yaml_tags_read_back_iff {source bytes : Bytes}
    (h : (Converter.ofFormat "yaml").output source = .ok bytes) :
    ∃ t d₁ d₂, load source = .ok t ∧ bytes = Utf8.encode (d₁ ++ "---\n".toList ++ d₂) ∧
      Yaml.cut true (d₁ ++ "---\n".toList ++ d₂) = [d₁, d₂] ∧
      List.Forall₂ Yaml.Tag.StandsFor (Yaml.tags d₂) (t.functions.flatMap Function.nodeNames) := by
  obtain ⟨t, ht, rfl⟩ := Converter.yaml_output_eq_ok h
  have hwf := wellFormed_of_load ht
  refine ⟨t, _, _, ht, rfl, Yaml.cut_documents (Yaml.isDocument_enumDocument hwf)
    (Yaml.isDocument_functionDocument hwf), ?_⟩
  rw [Yaml.tags_functionDocument hwf, List.forall₂_map_left_iff, List.forall₂_same]
  intro name hname
  obtain ⟨f, hf, hname⟩ := List.mem_flatMap.mp hname
  have hf := hwf.functions f hf
  rcases List.mem_cons.mp hname with rfl | hname
  · exact Yaml.Tag.standsFor_ofName? hf.name
  · obtain ⟨p, hp, rfl⟩ := List.mem_map.mp hname
    exact Yaml.Tag.standsFor_ofName? (hf.parameters p hp).typeName

/-- Braces, percent signs, inner exclamation marks and other alphabets come back from their escapes; a
    name that starts with an exclamation mark leaves its node without a tag. -/
theorem yaml_tags_read_back_from_escapes :
    let source := Utf8.encode "[1, 2] dö\x7bit% a!b x !t y\n".toList
    let text₂ := "'[1, 2]': !D%C3%B6%7Bit%25\n- !a%21b X\n- Y\n".toList
    let text := "\x7b\x7d\n---\n".toList ++ text₂
    (Converter.ofFormat "yaml").output source = .ok (Utf8.encode text) ∧
      Yaml.cut true text = ["\x7b\x7d\n".toList, text₂] ∧
      Yaml.tags text₂ = [some "!D%C3%B6%7Bit%25".toList, some "!a%21b".toList, none] ∧
      Yaml.Tag.ReadsBack "!D%C3%B6%7Bit%25".toList "Dö\x7bit%".toList ∧
      Yaml.Tag.ReadsBack "!a%21b".toList "a!b".toList := by
  intro source text₂ text
  have houtput : (Converter.ofFormat "yaml").output source = .ok (Utf8.encode text) :=
    eq_ok_of_toOption (by decide +kernel)
  have hload : load source
      = .ok ⟨[], [⟨⟨1, 2⟩, "Dö\x7bit%", [⟨"a!b", "X"⟩, ⟨"!t", "Y"⟩]⟩]⟩ :=
    eq_ok_of_toOption (by decide +kernel)
  have htext : Yaml.cut true text = ["\x7b\x7d\n".toList, text₂] := by decide +kernel
  have htags : Yaml.tags text₂
      = [some "!D%C3%B6%7Bit%25".toList, some "!a%21b".toList, none] := by decide +kernel
  obtain ⟨t, d₁, d₂, ht, hbytes, hcut, hstands⟩ := yaml_tags_read_back_iff houtput
  rw [← Utf8.encode_injective hbytes, htext] at hcut
  simp only [List.cons.injEq, and_true] at hcut
  obtain rfl := Except.ok.inj (hload.symm.trans ht)
  rw [← hcut.2, htags] at hstands
  obtain ⟨hname, hstands⟩ := List.forall₂_cons.mp hstands
  obtain ⟨htype, -⟩ := List.forall₂_cons.mp hstands
  exact ⟨houtput, htext, htags, (hname.readsBack_iff _ rfl).mpr (by decide),
    (htype.readsBack_iff _ rfl).mpr (by decide)⟩

/-- A bracket is written as it is, and a shorthand ends there. -/
theorem yaml_tag_with_bracket_does_not_read_back :
    let source := Utf8.encode "[1, 2] A[b\n".toList
    let text₂ := "'[1, 2]': !A[b []\n".toList
    load source = .ok ⟨[], [⟨⟨1, 2⟩, "A[b", []⟩]⟩ ∧
      (Converter.ofFormat "yaml").output source
        = .ok (Utf8.encode ("\x7b\x7d\n---\n".toList ++ text₂)) ∧
      Yaml.tags text₂ = [some "!A[b".toList] ∧
      ¬ Yaml.Tag.ReadsBack "!A[b".toList "A[b".toList := by
  intro source text₂
  refine ⟨eq_ok_of_toOption (by decide +kernel), eq_ok_of_toOption (by decide +kernel),
    by decide +kernel, ?_⟩
  rintro ⟨body, hbody, -, hdecode⟩
  cases hbody
  cases hdecode

end FunctionMap
