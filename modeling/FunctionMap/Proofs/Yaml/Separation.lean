import FunctionMap.Proofs.Output.Unloadable
import FunctionMap.Proofs.Yaml.Document
import FunctionMap.Source.Excerpt

/-!
# The separator parts the two documents

A reader cuts a stream of documents at its lines `---`, `cut`. It finds the two documents of a table
there if no line of theirs starts with a marker, and a line starts behind every character that YAML
takes for a break, not behind line feeds alone.

* `IsDocument` -- a text that ends its last line and has no line with a marker. Such texts can be put
  in a row, so the lines of a document are looked at one by one.
* `Shielded` -- a text that goes over lines only where a further break or the indentation follows.
  Scalars are shielded, whatever name they hold: a plain or double-quoted one has no break at all,
  and a single-quoted one indents its lines.

Main statement: `yaml_parts_into_two_documents`.
-/

namespace FunctionMap
namespace Yaml

open Scalar (isBreak startsAsMarker adjacent Compact)

/-! ## 1. Lines with a marker -/

/-- A text that ends with its last line, of which no line starts with a marker. -/
structure IsDocument (text : List Char) : Prop where
  ended : text.getLast? = some '\n'
  unmarked : ∀ before line, text = before ++ line → (∀ c ∈ before.getLast?, isBreak c = true) →
    startsAsMarker line = false

/-- Cuts a text at its lines that are the separator. Its first character starts a line or not, as
    `lineStart` tells. -/
def cut : Bool → List Char → List (List Char)
  | true, '-' :: '-' :: '-' :: '\n' :: rest => [] :: cut true rest
  | _, c :: rest => Excerpt.consFirst c (cut (isBreak c) rest)
  | _, [] => [[]]

/-- Whether a marker starts a line of a text, its first character included or not. -/
def hasMarker : Bool → List Char → Bool
  | _, [] => false
  | lineStart, c :: cs => lineStart && startsAsMarker (c :: cs) || hasMarker (isBreak c) cs

theorem hasMarker_eq_false_iff {text : List Char} {lineStart : Bool} :
    hasMarker lineStart text = false ↔
      ∀ before line, text = before ++ line → (before = [] → lineStart = true) →
        (∀ c ∈ before.getLast?, isBreak c = true) → startsAsMarker line = false := by
  induction text generalizing lineStart with
  | nil =>
    refine iff_of_true rfl fun before line h _ _ => ?_
    rw [(List.append_eq_nil_iff.mp h.symm).2]
    rfl
  | cons c cs ih =>
    rw [hasMarker, Bool.or_eq_false_iff, ih]
    constructor
    · rintro ⟨hfirst, hrest⟩ before line heq hstart hlast
      cases before with
      | nil =>
        rw [hstart rfl, Bool.true_and] at hfirst
        rwa [← show c :: cs = line from heq]
      | cons d ds =>
        obtain ⟨rfl, rfl⟩ := List.cons.inj heq
        refine hrest ds line rfl (fun hds => hlast c (by rw [hds]; rfl)) fun e he => hlast e ?_
        cases ds with
        | nil => cases he
        | cons x xs => rwa [List.getLast?_cons_cons]
    · intro h
      refine ⟨?_, fun before line heq hstart hlast => ?_⟩
      · cases lineStart with
        | false => rfl
        | true => exact h [] (c :: cs) rfl (fun _ => rfl) (by simp)
      · refine h (c :: before) line (by rw [heq, List.cons_append]) (by simp) fun e he => ?_
        cases before with
        | nil =>
          cases he
          exact hstart rfl
        | cons x xs => exact hlast e (by rwa [List.getLast?_cons_cons] at he)

theorem isDocument_iff {text : List Char} :
    IsDocument text ↔ text.getLast? = some '\n' ∧ hasMarker true text = false := by
  rw [hasMarker_eq_false_iff]
  exact ⟨fun h => ⟨h.ended, fun before line heq _ => h.unmarked before line heq⟩,
    fun h => ⟨h.1, fun before line heq => h.2 before line heq fun _ => rfl⟩⟩

instance (text : List Char) : Decidable (IsDocument text) :=
  decidable_of_iff _ isDocument_iff.symm

example : ¬ IsDocument "a: b\n---x\n".toList := by decide +kernel

theorem startsAsMarker_append {text : List Char} (h : text.getLast? = some '\n')
    (rest : List Char) : startsAsMarker (text ++ rest) = startsAsMarker text := by
  -- a text that is shorter than a marker has its line feed among the first three characters
  rcases text with _ | ⟨c, _ | ⟨d, _ | ⟨e, cs⟩⟩⟩
  · cases h
  · obtain rfl : c = '\n' := Option.some.inj h
    rfl
  · obtain rfl : d = '\n' := Option.some.inj h
    simp [startsAsMarker, List.isPrefixOf]
  · simp [startsAsMarker, List.isPrefixOf]

theorem hasMarker_append {text : List Char} (h : text.getLast? = some '\n') (lineStart : Bool)
    (rest : List Char) :
    hasMarker lineStart (text ++ rest) = (hasMarker lineStart text || hasMarker true rest) := by
  induction text generalizing lineStart with
  | nil => cases h
  | cons c cs ih =>
    rw [List.cons_append, hasMarker, hasMarker, ← List.cons_append, startsAsMarker_append h]
    cases cs with
    | nil =>
      obtain rfl : c = '\n' := Option.some.inj h
      rw [show isBreak '\n' = true from rfl, List.nil_append, hasMarker, Bool.or_false]
    | cons d ds =>
      rw [List.getLast?_cons_cons] at h
      rw [ih h, Bool.or_assoc]

theorem IsDocument.append {a b : List Char} (ha : IsDocument a) (hb : IsDocument b) :
    IsDocument (a ++ b) := by
  obtain ⟨haend, hamarker⟩ := isDocument_iff.mp ha
  obtain ⟨hbend, hbmarker⟩ := isDocument_iff.mp hb
  refine isDocument_iff.mpr ⟨?_, ?_⟩
  · rw [List.getLast?_append, hbend, Option.some_or]
  · rw [hasMarker_append haend, hamarker, hbmarker, Bool.or_false]

theorem IsDocument.append_flatMap {α : Type} {write : α → List Char} {xs : List α} {a : List Char}
    (ha : IsDocument a) (h : ∀ x ∈ xs, IsDocument (write x)) : IsDocument (a ++ xs.flatMap write) := by
  induction xs generalizing a with
  | nil => rwa [List.flatMap_nil, List.append_nil]
  | cons x xs ih =>
    obtain ⟨hx, hxs⟩ := List.forall_mem_cons.mp h
    rw [List.flatMap_cons, ← List.append_assoc]
    exact ih (ha.append hx) hxs

/-! ## 2. Cutting -/

theorem cut_cons {lineStart : Bool} {c : Char} {cs : List Char}
    (h : (lineStart && startsAsMarker (c :: cs)) = false) :
    cut lineStart (c :: cs) = Excerpt.consFirst c (cut (isBreak c) cs) := by
  rw [cut]
  rintro rest rfl rfl rfl
  cases h

/-- A text in which no line starts with a marker is not cut. -/
theorem cut_of_unmarked {text : List Char} {lineStart : Bool} (h : hasMarker lineStart text = false) :
    cut lineStart text = [text] := by
  induction text generalizing lineStart with
  | nil => cases lineStart <;> rfl
  | cons c cs ih =>
    rw [hasMarker, Bool.or_eq_false_iff] at h
    rw [cut_cons h.1, ih h.2]
    rfl

/-- The first cut is behind the lines that start with no marker. -/
theorem cut_append_separator {text : List Char} {lineStart : Bool}
    (hend : text.getLast? = some '\n') (h : hasMarker lineStart text = false) (rest : List Char) :
    cut lineStart (text ++ (separator ++ rest)) = text :: cut true rest := by
  induction text generalizing lineStart with
  | nil => cases hend
  | cons c cs ih =>
    rw [hasMarker, Bool.or_eq_false_iff] at h
    rw [List.cons_append,
      cut_cons (by rw [← List.cons_append, startsAsMarker_append hend]; exact h.1)]
    cases cs with
    | nil =>
      cases hend
      rfl
    | cons d ds =>
      rw [ih (by rwa [List.getLast?_cons_cons] at hend) h.2]
      rfl

theorem cut_documents {a b : List Char} (ha : IsDocument a) (hb : IsDocument b) :
    cut true (a ++ separator ++ b) = [a, b] := by
  rw [List.append_assoc, cut_append_separator ha.ended (isDocument_iff.mp ha).2,
    cut_of_unmarked (isDocument_iff.mp hb).2]

/-! ## 3. Scalars over lines -/

/-- Whether a break is followed by a character that is part of a line's text. -/
def exposes (text : List Char) : Bool := adjacent isBreak (fun c => !isBreak c && c ≠ ' ') text

/-- Whatever follows a text, its own breaks are followed by breaks and spaces only. -/
def Shielded (text : List Char) : Prop := ∀ rest, exposes (text ++ rest) = exposes rest

theorem exposes_of_not_break {c : Char} (hc : isBreak c = false) (rest : List Char) :
    exposes (c :: rest) = exposes rest := by
  cases rest with
  | nil => rfl
  | cons d ds => simp [exposes, adjacent, hc]

theorem exposes_of_space (c : Char) (rest : List Char) :
    exposes (c :: ' ' :: rest) = exposes (' ' :: rest) := by
  simp [exposes, adjacent]

theorem exposes_of_break {d : Char} (hd : isBreak d = true) (c : Char) (rest : List Char) :
    exposes (c :: d :: rest) = exposes (d :: rest) := by
  simp [exposes, adjacent, hd]

theorem Shielded.append {a b : List Char} (ha : Shielded a) (hb : Shielded b) :
    Shielded (a ++ b) := by
  intro rest
  rw [List.append_assoc, ha, hb]

theorem shielded_cons {c : Char} (hc : isBreak c = false) {text : List Char} (h : Shielded text) :
    Shielded (c :: text) := fun rest => (exposes_of_not_break hc _).trans (h rest)

theorem shielded_of_noBreak {text : List Char} (h : ∀ c ∈ text, isBreak c = false) :
    Shielded text := by
  induction text with
  | nil => exact fun _ => rfl
  | cons c cs ih =>
    obtain ⟨hc, hcs⟩ := List.forall_mem_cons.mp h
    exact shielded_cons hc (ih hcs)

theorem shielded_of_any {text : List Char} (h : text.any isBreak = false) : Shielded text :=
  shielded_of_noBreak fun c hc => Bool.eq_false_iff.mpr (List.any_eq_false.mp h c hc)

/-- Only the first line of a shielded text can start with a marker. -/
theorem hasMarker_of_exposes {text : List Char} (h : exposes text = false) (lineStart : Bool) :
    hasMarker lineStart text = (lineStart && startsAsMarker text) := by
  induction text generalizing lineStart with
  | nil => cases lineStart <;> rfl
  | cons c cs ih =>
    have hcs : exposes cs = false ∧ (isBreak c && startsAsMarker cs) = false := by
      cases cs with
      | nil => exact ⟨rfl, by cases isBreak c <;> rfl⟩
      | cons d ds =>
        simp only [exposes, adjacent, Bool.or_eq_false_iff] at h
        refine ⟨h.2, ?_⟩
        cases hmarker : startsAsMarker (d :: ds) with
        | false => rw [Bool.and_false]
        | true =>
          have hd : d = '-' ∨ d = '.' := by
            simp only [startsAsMarker, List.isPrefixOf, Bool.or_eq_true, Bool.and_eq_true,
              beq_iff_eq] at hmarker
            exact hmarker.imp (fun h => h.1.symm) fun h => h.1.symm
          rcases hd with rfl | rfl <;> simpa [isBreak] using h.1
    rw [hasMarker, ih hcs.1, hcs.2, Bool.or_false]

/-- A line of a document, with the lines that its scalars go over. -/
theorem isDocument_line {line : List Char} (h : Shielded line)
    (hstart : startsAsMarker (line ++ ['\n']) = false) : IsDocument (line ++ ['\n']) := by
  refine isDocument_iff.mpr ⟨List.getLast?_concat, ?_⟩
  rw [hasMarker_of_exposes (h ['\n']), Bool.true_and, hstart]

theorem isBreak_escape {c d : Char} (h : d ∈ Scalar.escape c) : isBreak d = false := by
  by_cases hletter : ∃ p ∈ Scalar.letters, c = p.1
  · obtain ⟨p, hp, rfl⟩ := hletter
    have hbreak : ∀ p ∈ Scalar.letters, isBreak p.2 = false := by decide
    rw [(Scalar.escape_of_mem p hp).1] at h
    simp only [List.mem_cons, List.not_mem_nil, or_false] at h
    rcases h with rfl | rfl
    · rfl
    · exact hbreak p hp
  · have hhex : ∀ width n, ∀ e ∈ Scalar.hex width n, isBreak e = false :=
      Scalar.forall_mem_hex (P := (isBreak · = false)) (by decide)
    have hdigits : ∀ {letter width n}, isBreak letter = false →
        d ∈ '\\' :: letter :: Scalar.hex width n → isBreak d = false := by
      intro letter width n hl hd
      rcases List.mem_cons.mp hd with rfl | hd
      · rfl
      rcases List.mem_cons.mp hd with rfl | hd
      · exact hl
      · exact hhex width n d hd
    rw [Scalar.escape_of_not_mem fun p hp hc => hletter ⟨p, hp, hc⟩] at h
    split at h
    · rename_i hc
      simp only [Bool.and_eq_true, Bool.not_eq_true'] at hc
      rw [List.mem_singleton.mp h, hc.2]
    split at h
    · exact hdigits rfl h
    split at h
    · exact hdigits rfl h
    · exact hdigits rfl h

/-- The indentation shields what is in front of it. -/
theorem exposes_indentation (indent : Nat) (c : Char) (rest : List Char) :
    exposes (c :: (Scalar.indentation (indent + 1) ++ rest)) = exposes rest := by
  have hspaces : Shielded (Scalar.indentation (indent + 1)) :=
    shielded_of_noBreak fun d hd => by rw [List.eq_of_mem_replicate hd]; rfl
  exact (exposes_of_space c _).trans (hspaces rest)

theorem shielded_doubled {c : Char} (hc : isBreak c = false) : Shielded (Scalar.doubled c) := by
  refine shielded_of_noBreak fun d hd => ?_
  unfold Scalar.doubled at hd
  split at hd <;> simp_all

/-- A string between single quotes is shielded, behind a break or not. -/
theorem exposes_writeSingle (indent : Nat) (s rest : List Char) :
    exposes (Scalar.writeSingle (indent + 1) false s ++ '\'' :: rest) = exposes rest ∧
      ∀ d, exposes (d :: (Scalar.writeSingle (indent + 1) true s ++ '\'' :: rest))
        = exposes rest := by
  induction s with
  | nil =>
    refine ⟨exposes_of_not_break rfl rest, fun d => ?_⟩
    rw [Scalar.writeSingle, if_pos rfl, exposes_indentation]
    exact exposes_of_not_break rfl rest
  | cons c cs ih =>
    cases hc : isBreak c with
    | true =>
      rw [Scalar.writeSingle_of_break hc, Scalar.writeSingle_of_break hc]
      refine ⟨ih.2 c, fun d => ?_⟩
      rw [List.cons_append, exposes_of_break hc]
      exact ih.2 c
    | false =>
      have hchar : exposes (Scalar.doubled c ++ Scalar.writeSingle (indent + 1) false cs
          ++ '\'' :: rest) = exposes rest := by
        rw [List.append_assoc, shielded_doubled hc, ih.1]
      rw [Scalar.writeSingle_of_not_break hc, Scalar.writeSingle_of_not_break hc, Scalar.lead,
        Scalar.lead, if_neg (by decide), if_pos rfl, List.nil_append,
        List.append_assoc (Scalar.indentation _)]
      exact ⟨hchar, fun d => (exposes_indentation indent d _).trans hchar⟩

theorem shielded_write (indent : Nat) {s : List Char} (hs : Compact s) :
    Shielded (Scalar.write (indent + 1) s) := by
  rw [Scalar.write]
  cases hstyle : Scalar.style s with
  | plain =>
    have hplain := (Scalar.plainAllowed_of_plain hstyle).2
    simp only [Scalar.plainAllowed, Bool.and_eq_true, Bool.not_eq_true'] at hplain
    exact shielded_of_any hplain.1.2
  | single =>
    intro rest
    dsimp only
    rw [List.append_assoc, List.cons_append, exposes_of_not_break rfl, List.singleton_append,
      (exposes_writeSingle indent s rest).1]
  | double =>
    refine shielded_of_noBreak fun c hc => ?_
    simp only [List.cons_append, List.mem_cons, List.mem_append, List.mem_flatMap,
      List.not_mem_nil, or_false] at hc
    rcases hc with rfl | ⟨d, -, hd⟩ | rfl
    · rfl
    · exact isBreak_escape hd
    · rfl
  | literal => exact absurd hstyle hs.style_ne_literal

theorem startsAsMarker_append_colon {s : List Char} (h : startsAsMarker s = false)
    (rest : List Char) : startsAsMarker (s ++ ':' :: rest) = false := by
  rcases s with _ | ⟨c, _ | ⟨d, _ | ⟨e, cs⟩⟩⟩
  · rfl
  · simp [startsAsMarker, List.isPrefixOf]
  · simp [startsAsMarker, List.isPrefixOf]
  · simpa [startsAsMarker, List.isPrefixOf] using h

/-- A key starts no line with a marker, also where the name that it is does. -/
theorem startsAsMarker_key (indent : Nat) (s rest : List Char) :
    startsAsMarker (Scalar.write indent s ++ ':' :: rest) = false := by
  rw [Scalar.write]
  cases hstyle : Scalar.style s with
  | plain =>
    have hplain := (Scalar.plainAllowed_of_plain hstyle).2
    simp only [Scalar.plainAllowed, Scalar.indicates, Bool.and_eq_true, Bool.not_eq_true',
      Bool.or_eq_false_iff] at hplain
    exact startsAsMarker_append_colon hplain.2.1.1 rest
  | single => rfl
  | double => rfl
  | literal => rfl

/-! ## 4. Entries -/

theorem writeLine_of_compact {s : List Char} (h : Compact s) (indent : Nat) :
    Scalar.writeLine indent s = Scalar.write indent s ++ ['\n'] := by
  rw [Scalar.writeLine, if_neg fun hl => h.style_ne_literal hl.1]

theorem shielded_figures (v : Int) : Shielded (Numeral.write v) := by
  refine shielded_of_noBreak fun c hc => Bool.eq_false_iff.mpr fun hbreak => ?_
  have hfigure := Numeral.isFigure_of_mem_write hc
  simp only [isBreak, Bool.or_eq_true, decide_eq_true_eq] at hbreak
  rcases hbreak with (((rfl | rfl) | rfl) | rfl) | rfl <;> cases hfigure

theorem shielded_tag (name : List Char) : Shielded (Tag.write name) :=
  shielded_of_noBreak fun _ hc => Tag.isBreak_of_isGraphic (Tag.isGraphic_write hc)

/-- A value behind the indentation, or behind the mark of a first value. -/
theorem isDocument_valueEntry {c : Char} (hc : c = ' ' ∨ c = ':') {v : EnumValue}
    (hv : IsPlain v.name) : IsDocument (c :: ' ' :: valueEntry v) := by
  have hname := compact_of_isPlain hv
  have hline : c :: ' ' :: valueEntry v = (c :: ' ' :: (Numeral.write v.key.toInt
      ++ ':' :: ' ' :: Scalar.write 4 v.name.toList)) ++ ['\n'] := by
    rw [valueEntry, writeLine_of_compact hname]
    simp
  have hbreak : isBreak c = false := by rcases hc with rfl | rfl <;> rfl
  rw [hline]
  refine isDocument_line ?_ (by rcases hc with rfl | rfl <;> rfl)
  refine shielded_cons hbreak (shielded_cons rfl ((shielded_figures _).append ?_))
  exact shielded_cons rfl (shielded_cons rfl (shielded_write 3 hname))

/-- The line of a key without a mark. -/
theorem isDocument_key (indent : Nat) {s behind : List Char} (hs : Compact s)
    (hbehind : Shielded behind) :
    IsDocument (Scalar.write (indent + 1) s ++ ':' :: behind ++ ['\n']) := by
  refine isDocument_line ((shielded_write indent hs).append (shielded_cons rfl hbehind)) ?_
  rw [List.append_assoc]
  exact startsAsMarker_key (indent + 1) s (behind ++ ['\n'])

/-- The line of a key that has a mark. -/
theorem isDocument_markedKey (indent : Nat) {s : List Char} (hs : Compact s) :
    IsDocument ('?' :: ' ' :: Scalar.writeLine (indent + 1) s) := by
  rw [writeLine_of_compact hs]
  exact isDocument_line (shielded_cons rfl (shielded_cons rfl (shielded_write indent hs))) rfl

theorem isDocument_enumEntry {e : Enumeration} (he : e.WellFormed) : IsDocument (enumEntry e) := by
  have hname := compact_of_isPlain he.name
  have hrow : ∀ v ∈ e.values, IsDocument (' ' :: ' ' :: valueEntry v) :=
    fun v hv => isDocument_valueEntry (Or.inl rfl) (he.values v hv)
  rw [enumEntry_eq, enumKey]
  cases hsimple : Scalar.isSimpleKey e.name.toList with
  | true =>
    cases hvalues : e.values with
    | nil =>
      -- the braces stand in the line of the key
      have hbraces : Shielded [' ', '\x7b', '\x7d'] := shielded_of_any rfl
      simpa [valueEntries] using isDocument_key 1 hname hbraces
    | cons v vs =>
      rw [hvalues] at hrow
      have hline := isDocument_key 1 hname (shielded_of_noBreak (List.forall_mem_nil _))
      simpa [valueEntries] using hline.append_flatMap hrow
  | false =>
    have hkey := isDocument_markedKey 1 hname
    cases hvalues : e.values with
    | nil =>
      have hbraces : Shielded [':', ' ', '\x7b', '\x7d'] := shielded_of_any rfl
      simpa [valueEntries] using hkey.append (isDocument_line hbraces rfl)
    | cons v vs =>
      -- the first value stands in the line of the colon
      have hfirst : IsDocument (':' :: ' ' :: valueEntry v) :=
        isDocument_valueEntry (Or.inr rfl) (he.values v (hvalues ▸ List.mem_cons_self))
      rw [hvalues] at hrow
      simpa [valueEntries] using
        (hkey.append hfirst).append_flatMap (List.forall_mem_cons.mp hrow).2

theorem isDocument_parameterEntry {p : Parameter} (hp : p.WellFormed) :
    IsDocument (parameterEntry p) := by
  have hname := compact_of_isPlain hp.name
  have htag : Shielded (tagged p.typeName.toList) := by
    unfold tagged
    split
    · exact (shielded_tag _).append (shielded_of_any rfl)
    · exact shielded_of_any rfl
  have hline : IsDocument (('-' :: ' ' :: (tagged p.typeName.toList
      ++ Scalar.write 2 p.name.toList)) ++ ['\n']) :=
    isDocument_line (shielded_cons rfl (shielded_cons rfl (htag.append (shielded_write 1 hname)))) rfl
  rw [parameterEntry, writeLine_of_compact hname]
  simpa using hline

theorem isDocument_functionEntry {f : Function} (hf : f.WellFormed) :
    IsDocument (functionEntry f) := by
  have hkey := compact_chars f.key
  have htag : Shielded (if Tag.Allowed f.name.toList then ' ' :: Tag.write f.name.toList else []) := by
    split
    · exact shielded_cons rfl (shielded_tag _)
    · exact shielded_of_any rfl
  rw [functionEntry, functionNode]
  cases hparameters : f.parameters with
  | nil =>
    have hbrackets : Shielded [' ', '[', ']'] := shielded_of_any rfl
    simpa using isDocument_key 1 hkey (htag.append hbrackets)
  | cons p ps =>
    have hrow : ∀ q ∈ p :: ps, IsDocument (parameterEntry q) :=
      fun q hq => isDocument_parameterEntry (hf.parameters q (hparameters ▸ hq))
    simpa using (isDocument_key 1 hkey htag).append_flatMap hrow

/-! ## 5. Both documents -/

theorem isDocument_mapping {α : Type} {write : α → List Char} {xs : List α}
    (h : ∀ x ∈ xs, IsDocument (write x)) : IsDocument (mapping (xs.map write)) := by
  cases xs with
  | nil => exact isDocument_iff.mpr ⟨rfl, rfl⟩
  | cons x xs =>
    obtain ⟨hx, hxs⟩ := List.forall_mem_cons.mp h
    rw [mapping_cons]
    exact hx.append_flatMap hxs

theorem isDocument_enumDocument {t : Table} (ht : t.WellFormed) : IsDocument (enumDocument t) :=
  isDocument_mapping fun e he => isDocument_enumEntry (ht.enums e he)

theorem isDocument_functionDocument {t : Table} (ht : t.WellFormed) :
    IsDocument (functionDocument t) :=
  isDocument_mapping fun f hf => isDocument_functionEntry (ht.functions f hf)

end Yaml

/-- **The YAML format always writes two documents that its separator parts.** The first one is a
    function of the enumerations alone and the second of the functions alone. Both end their last
    line, and whatever the names are, none of their lines starts with a marker, so a reader that cuts
    at the separator finds these two documents and no others. -/
theorem yaml_parts_into_two_documents :
    ∃ (d₁ : List Enumeration → List Char) (d₂ : List Function → List Char),
      ∀ {source bytes : Bytes}, (Converter.ofFormat "yaml").output source = .ok bytes →
        ∃ t, load source = .ok t ∧
          bytes = Utf8.encode (d₁ t.enums ++ "---\n".toList ++ d₂ t.functions) ∧
          Yaml.IsDocument (d₁ t.enums) ∧ Yaml.IsDocument (d₂ t.functions) ∧
          Yaml.cut true (d₁ t.enums ++ "---\n".toList ++ d₂ t.functions)
            = [d₁ t.enums, d₂ t.functions] := by
  refine ⟨fun es => Yaml.mapping (es.map Yaml.enumEntry),
    fun fs => Yaml.mapping (fs.map Yaml.functionEntry), fun h => ?_⟩
  obtain ⟨t, ht, rfl⟩ := Converter.yaml_output_eq_ok h
  have hwf := wellFormed_of_load ht
  have henums := Yaml.isDocument_enumDocument hwf
  have hfunctions := Yaml.isDocument_functionDocument hwf
  exact ⟨t, ht, rfl, henums, hfunctions, Yaml.cut_documents henums hfunctions⟩

/-- Names that are markers, or have one behind a line separator, are quoted or indented. -/
theorem yaml_parts_documents_of_markers :
    let source := Utf8.encode "map -\u2028--- int\n0 ---\n1 ...\n[1, 2] --- ... ---\n".toList
    let text₁ := "? '-\u2028  ---'\n: 0: '---'\n  1: '...'\n".toList
    let text₂ := "'[1, 2]': !---\n- !... '---'\n".toList
    let text := text₁ ++ "---\n".toList ++ text₂
    (Converter.ofFormat "yaml").output source = .ok (Utf8.encode text) ∧
      Yaml.IsDocument text₁ ∧ Yaml.IsDocument text₂ ∧ Yaml.cut true text = [text₁, text₂] := by
  intro source text₁ text₂ text
  have houtput : (Converter.ofFormat "yaml").output source = .ok (Utf8.encode text) :=
    eq_ok_of_toOption (by decide +kernel)
  obtain ⟨d₁, d₂, hparts⟩ := yaml_parts_into_two_documents
  obtain ⟨t, -, hbytes, henums, hfunctions, hcut⟩ := hparts houtput
  rw [← Utf8.encode_injective hbytes, show Yaml.cut true text = [text₁, text₂] by decide +kernel]
    at hcut
  simp only [List.cons.injEq, and_true] at hcut
  rw [← hcut.1] at henums
  rw [← hcut.2] at hfunctions
  exact ⟨houtput, henums, hfunctions, by decide +kernel⟩

end FunctionMap
