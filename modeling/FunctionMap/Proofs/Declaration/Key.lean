import FunctionMap.Declaration.Key
import FunctionMap.Proofs.Text.Blank
import FunctionMap.Proofs.Text.Legible
import FunctionMap.Proofs.Source.Cursor

/-!
# The text of a function key

The two numbers of a key stand between marks that are no figures, so that the text shows both, in
front of anything (`legible_chars`).

What is read as a key is wider than what is written: white space may stand around the whole and around
both numbers, and a number may have a plus sign or zeros in front. `Spelled text k` says so without a
reader: the text is `[a,b]` with white space around it, where the first part has no comma.

Main statement: `key_texts_delimited`.
-/

namespace FunctionMap
namespace FunctionKey

open Blank (Trims Trimmed isBlank)

/-! ## 1. What a key is written as -/

/-- **The text of a key is legible in front of anything.** -/
theorem legible_chars : Legible chars id Any Any := by
  have htype := ((Numeral.legible_write.comp_any fun k : FunctionKey => k.typeId.toInt).followed
    [']'] (G := Any) (by simp [Numeral.isFigure])).prepend [',', ' ']
  have hkey := ((Numeral.legible_write.comp_any fun k : FunctionKey => k.group.toInt).append
    htype (by simp [Numeral.isFigure])).prepend ['[']
  refine (hkey.of_view fun a b hab => ?_).congr fun k _ => by simp [chars]
  obtain ⟨hgroup, htype⟩ := Prod.mk.inj hab
  cases a
  cases b
  cases Int32.toInt_inj.mp hgroup
  cases Int32.toInt_inj.mp htype
  rfl

/-! ## 2. What is read as a key -/

/-- A text that spells an integer, with white space around it or not. -/
def SpellsWithin (text : List Char) (v : Int) : Prop :=
  ∃ core, Trims isBlank text core ∧ Numeral.Spells core v

/-- A text that spells a key: `[`, a part without a comma, a comma, a part, `]`; the parts spell the two
    numbers, and white space may stand around each of them and around the whole. -/
inductive Spelled : List Char → FunctionKey → Prop where
  | mk {text group typeId : List Char} {k : FunctionKey}
      (htext : Trims isBlank text ('[' :: group ++ ',' :: typeId ++ [']'])) (hcomma : ',' ∉ group)
      (hgroup : SpellsWithin group k.group.toInt) (htype : SpellsWithin typeId k.typeId.toInt) :
      Spelled text k

theorem between?_eq_some_iff {text inner : List Char} :
    between? text = some inner ↔ text = '[' :: inner ++ [']'] := by
  unfold between?
  split
  · rename_i rest
    constructor
    · intro h
      split at h
      · rename_i hlast
        cases h
        obtain ⟨front, rfl⟩ := List.getLast?_eq_some_iff.mp hlast
        rw [List.dropLast_concat]
        rfl
      · cases h
    · intro h
      obtain rfl : rest = inner ++ [']'] := List.tail_eq_of_cons_eq h
      rw [List.getLast?_concat, if_pos rfl, List.dropLast_concat]
  · rename_i hstart
    constructor
    · intro h
      cases h
    · intro h
      exact absurd h (hstart _)

theorem splitAtComma?_eq_some_iff {text front back : List Char} :
    splitAtComma? text = some (front, back) ↔ text = front ++ ',' :: back ∧ ',' ∉ front := by
  unfold splitAtComma?
  constructor
  · intro h
    split at h
    · cases h
    · rename_i c behind hdrop
      cases h
      have hhead := head?_dropWhile (p := (· ≠ ',')) text c (by rw [hdrop]; rfl)
      obtain rfl : c = ',' := by simpa using hhead
      refine ⟨?_, fun hmem => ?_⟩
      · rw [← hdrop, List.takeWhile_append_dropWhile]
      · have := mem_takeWhile hmem
        simp at this
  · rintro ⟨rfl, hcomma⟩
    have hrun : ∀ c ∈ front, decide (c ≠ ',') = true :=
      fun c hc => decide_eq_true fun heq => hcomma (heq ▸ hc)
    have hrest : ∀ c ∈ (',' :: back).head?, decide (c ≠ ',') = false := by simp
    rw [dropWhile_of_maximal hrun hrest, takeWhile_of_maximal hrun hrest]

theorem readInt32_trim_eq_ok_iff {text : List Char} {v : Int32} :
    Numeral.readInt32 (Blank.trim text) = .ok v ↔ SpellsWithin text v.toInt := by
  rw [Numeral.represented_int32.readAs_eq_ok_iff]
  constructor
  · intro h
    exact ⟨_, Blank.trimBy_eq_iff.mp rfl, h⟩
  · rintro ⟨core, htrims, h⟩
    rwa [Blank.trim, Blank.trimBy_eq_iff.mpr htrims]

/-- **Exactly the texts that spell a key are read, and as that key.** -/
theorem ofChars?_eq_some_iff {text : List Char} {k : FunctionKey} :
    ofChars? text = some k ↔ Spelled text k := by
  unfold ofChars?
  simp only [Option.bind_eq_bind, Option.bind_eq_some_iff, Option.pure_def, Option.some.injEq,
    Prod.exists, toOption_eq_some_iff, between?_eq_some_iff, splitAtComma?_eq_some_iff,
    readInt32_trim_eq_ok_iff]
  constructor
  · rintro ⟨_, htext, group, typeId, ⟨rfl, hcomma⟩, g, hgroup, t, htype, rfl⟩
    exact .mk (Blank.trimBy_eq_iff.mp htext) hcomma hgroup htype
  · rintro ⟨htext, hcomma, hgroup, htype⟩
    refine ⟨_, ?_, _, _, ⟨rfl, hcomma⟩, k.group, hgroup, k.typeId, htype, rfl⟩
    rw [Blank.trim, Blank.trimBy_eq_iff.mpr htext]
    simp

/-! ## 3. What is written is read -/

theorem isBlank_eq_false_of_spells {text : List Char} {v : Int} (h : Numeral.Spells text v) :
    ∀ c ∈ text, isBlank c = false := by
  intro c hc
  rcases h.isDigit_or_sign.2 c hc with rfl | rfl | hdigit
  · decide
  · decide
  · have hrange : 48 ≤ c.toNat ∧ c.toNat ≤ 57 := by
      simpa [Char.isDigit, UInt32.le_iff_toNat_le] using hdigit
    simp [isBlank]
    omega

theorem comma_not_mem_of_spells {text : List Char} {v : Int} (h : Numeral.Spells text v) :
    ',' ∉ text := by
  intro hc
  rcases h.isDigit_or_sign.2 _ hc with heq | heq | hdigit
  · exact absurd heq (by decide)
  · exact absurd heq (by decide)
  · exact absurd hdigit (by decide)

/-- No white space stands outside of the two marks. -/
theorem trimmed_marks (inner : List Char) : Trimmed isBlank ('[' :: inner ++ [']']) := by
  constructor
  · intro c hc
    cases hc
    decide
  · intro c hc
    rw [List.getLast?_concat] at hc
    cases hc
    decide

/-- **The text of a key spells it.** -/
theorem spelled_chars (k : FunctionKey) : Spelled k.chars k := by
  have hgroup := Numeral.spells_write k.group.toInt
  have htype := Numeral.spells_write k.typeId.toInt
  have hwithin : ∀ {text : List Char} {v : Int}, Numeral.Spells text v → Trims isBlank text text :=
    fun h => (Blank.trimmed_of_none (isBlank_eq_false_of_spells h)).trims
  have hmarks : Trimmed isBlank ('[' :: Numeral.write k.group.toInt ++
      ',' :: ' ' :: Numeral.write k.typeId.toInt ++ [']']) := trimmed_marks _
  exact .mk hmarks.trims (comma_not_mem_of_spells hgroup) ⟨_, hwithin hgroup, hgroup⟩
    ⟨_, (hwithin htype).cons (by decide), htype⟩

theorem ofText_eq_ok_iff {text : String} {k : FunctionKey} :
    ofText text = .ok k ↔ Spelled text.toList k := by
  rw [← ofChars?_eq_some_iff]
  unfold ofText
  cases ofChars? text.toList with
  | none => exact ⟨fun h => (nomatch h), fun h => (nomatch h)⟩
  | some k' => exact ⟨fun h => congrArg some (Except.ok.inj h), fun h => by cases h; rfl⟩

theorem ofText_eq_error_iff {text : String} {e : Malformed} :
    ofText text = .error e ↔ e = ⟨text⟩ ∧ ∀ k, ¬ Spelled text.toList k := by
  simp only [← ofChars?_eq_some_iff]
  unfold ofText
  cases ofChars? text.toList with
  | none => simp [eq_comm]
  | some k => simp

/-- **A key is read back from its text, and exactly the texts that spell a key are read.** Two keys have
    different texts; any other text is refused, and the error holds that text. -/
theorem key_texts_delimited :
    (∀ k : FunctionKey, ofText k.text = .ok k) ∧ Function.Injective FunctionKey.text ∧
      ∀ text : String, (∀ k, ofText text = .ok k ↔ Spelled text.toList k) ∧
        ∀ e, ofText text = .error e ↔ e = ⟨text⟩ ∧ ∀ k, ¬ Spelled text.toList k := by
  have hread : ∀ k : FunctionKey, ofText k.text = .ok k := fun k => by
    rw [ofText_eq_ok_iff, text, String.toList_ofList]
    exact spelled_chars k
  refine ⟨hread, fun a b hab => ?_, fun text => ⟨fun k => ofText_eq_ok_iff,
    fun e => ofText_eq_error_iff⟩⟩
  have ha := hread a
  rw [hab, hread b] at ha
  exact (Except.ok.inj ha).symm

end FunctionKey
end FunctionMap
