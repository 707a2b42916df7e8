import FunctionMap.Proofs.Output.Delivery
import FunctionMap.Proofs.Output.Formatter
import FunctionMap.Proofs.Yaml.Scalar
import FunctionMap.Proofs.Declaration.Loaded
import FunctionMap.Proofs.Source.Place

/-!
# No output is a source

At the top of a source stands a declaration, a comment or white space. What the built-in formats write
starts with none of these: it starts with a brace, a mark or a quote, or with the first character of a
name that stands without quotes, which is no `m` since names are capitalised.

Main statement: `load_output`.
-/

namespace FunctionMap

/-! ## 1. Texts that are no source -/

/-- The text starts with a character that starts nothing in a source. -/
def StartsNothing (text : List Char) : Prop :=
  ∃ c rest, text = c :: rest ∧ Symbol.isWhitespace c = false ∧ Symbol.isSpecial c = false

theorem StartsNothing.append {text : List Char} (h : StartsNothing text) (rest : List Char) :
    StartsNothing (text ++ rest) := by
  obtain ⟨c, cs, rfl, hc⟩ := h
  exact ⟨c, cs ++ rest, rfl, hc⟩

theorem load_of_startsNothing {text : List Char} (h : StartsNothing text) :
    ∃ e, load (Utf8.encode text) = .error e := by
  obtain ⟨c, rest, rfl, hblank, hspecial⟩ := h
  have hskip : (Cursor.ofText (c :: rest)).skipWhitespace = Cursor.ofText (c :: rest) :=
    Cursor.skipWhitespace_of_noBlank (Grammar.noBlank_cons hblank)
  simp only [Symbol.isSpecial, Bool.or_eq_false_iff, decide_eq_false_iff_not] at hspecial
  obtain ⟨⟨hm, hbracket⟩, hcomment⟩ := hspecial
  have hnext : Parser.nextPhase? .top (Cursor.ofText (c :: rest)) = none := by
    simp [Parser.nextPhase?, Cursor.ofText, hm, hbracket, hcomment]
  have hstep : (Parser.State.start (Cursor.ofText (c :: rest))).step
      = .error (Cursor.ofText (c :: rest)).unexpected := by
    simp only [Parser.State.step, Parser.State.start, Parser.State.stepTop]
    rw [hskip, hnext]
  have hparse : parse (Utf8.encode (c :: rest)) = .error (Cursor.ofText (c :: rest)).unexpected := by
    rw [parse, Cursor.ofBytes_encode]
    exact Parser.run_of_refusal (List.cons_ne_nil c rest) hstep
  exact ⟨_, by rw [load, hparse]; rfl⟩

/-! ## 2. The built-in formats -/

open UpperCase (upper IsCapital upper_eq_or_isCapital)

theorem upper_ne_m (c : Char) : upper c ≠ 'm' := by
  intro hm
  rcases upper_eq_or_isCapital c with hsame | hcapital
  · obtain rfl : c = 'm' := hsame.symm.trans hm
    exact absurd hm (by decide)
  · rw [hm] at hcapital
    exact absurd hcapital (by unfold IsCapital; decide)

/-- A capitalised name that is written as a scalar starts nothing. -/
theorem Yaml.Scalar.startsNothing_write {name : String} (hplain : IsPlain (capitalize name))
    (indent : Nat) : StartsNothing (Scalar.write indent (capitalize name).toList) := by
  rw [write]
  cases hstyle : style (capitalize name).toList with
  | plain =>
    obtain ⟨c, cs, hname, hc⟩ := exists_cons_of_plain hstyle
    have hdelimiter : Symbol.isDelimiter c = false := hplain c (by rw [hname]; exact List.mem_cons_self)
    have hcapital : c ≠ 'm' := by
      rw [toList_capitalize] at hname
      split at hname
      · cases hname
      · cases hname
        exact upper_ne_m _
    refine ⟨c, cs, hname, ?_, ?_⟩
    · simp only [Symbol.isDelimiter, Bool.or_eq_false_iff] at hdelimiter
      exact hdelimiter.1.1.1
    · have hbracket : c ≠ '[' := by
        rintro rfl
        exact hc (by decide)
      have hcomment : c ≠ '#' := by
        rintro rfl
        exact hc (by decide)
      simp [Symbol.isSpecial, hcapital, hbracket, hcomment]
  | single => exact ⟨_, _, rfl, rfl, rfl⟩
  | double => exact ⟨_, _, rfl, rfl, rfl⟩
  | literal => exact ⟨_, _, rfl, rfl, rfl⟩

theorem startsNothing_documents {source : Bytes} {t : Table} (h : load source = .ok t) :
    StartsNothing (Yaml.documents t) := by
  have hwf := wellFormed_of_load h
  obtain ⟨u, rfl⟩ : ∃ u : Table, t = u.renamed := by
    unfold load at h
    obtain ⟨u, -, hu⟩ := bind_eq_ok_iff.mp h
    exact ⟨u, (Table.capitalized_eq_ok_iff.mp hu).2⟩
  refine StartsNothing.append (StartsNothing.append ?_ _) _
  unfold Yaml.enumDocument
  cases henums : u.renamed.enums with
  | nil => exact ⟨_, _, rfl, rfl, rfl⟩
  | cons e es =>
    have he : e ∈ u.renamed.enums := by
      rw [henums]
      exact List.mem_cons_self
    obtain ⟨d, -, rfl⟩ := List.mem_map.mp he
    rw [List.map_cons]
    refine StartsNothing.append ?_ _
    unfold Yaml.enumEntry
    refine StartsNothing.append ?_ _
    split
    · exact Yaml.Scalar.startsNothing_write (hwf.enums _ he).name 2
    · exact ⟨_, _, rfl, rfl, rfl⟩

theorem Registry.builtin_get? {name : String} {f : Formatter} (h : builtin.get? name = some f) :
    (f = .json ∧ name = "json") ∨ (f = .yaml ∧ name = "yaml") := by
  have hname : f.name = name := by
    simpa using List.find?_some (p := fun g : Formatter => g.name = name) h
  have hmem : f ∈ [Formatter.json, Formatter.yaml] := List.mem_of_find?_eq_some h
  rw [List.mem_cons, List.mem_singleton] at hmem
  rcases hmem with rfl | rfl
  · exact Or.inl ⟨rfl, hname.symm⟩
  · exact Or.inr ⟨rfl, hname.symm⟩

namespace Converter

/-- A conversion that succeeds has loaded the source and written its table in a format of the
    registry. -/
theorem exists_format_eq_ok {format : String} {source bytes : Bytes}
    (h : (ofFormat format).output source = .ok bytes) :
    ∃ t f, load source = .ok t ∧ Registry.builtin.get? format = some f ∧
      Registry.builtin.format t format = .ok bytes := by
  have hstaged := staged_output (ofFormat format) source
  rw [h] at hstaged
  cases hstaged with
  | @complete f t s hf ht ho =>
    have hf : Registry.builtin.get? format = some f := hf
    refine ⟨t, f, ht, hf, ?_⟩
    rw [Registry.format, Registry.write, hf]
    dsimp only
    rw [ho]

/-- The bytes that one of the built-in formats makes of a source. -/
theorem ofFormat_output_eq_ok {format : String} {source bytes : Bytes}
    (h : (ofFormat format).output source = .ok bytes) : ∃ t, load source = .ok t ∧
      (bytes = Utf8.encode (Json.dump t ++ ['\n']) ∨ bytes = Utf8.encode (Yaml.documents t)) := by
  obtain ⟨t, f, ht, hf, hformat⟩ := exists_format_eq_ok h
  refine ⟨t, ht, ?_⟩
  rcases Registry.builtin_get? hf with ⟨-, rfl⟩ | ⟨-, rfl⟩
  · rw [Registry.format_json] at hformat
    exact Or.inl (Except.ok.inj hformat).symm
  · rw [Registry.format_yaml] at hformat
    exact Or.inr (Except.ok.inj hformat).symm

/-- The bytes that the YAML format makes of a source. -/
theorem yaml_output_eq_ok {source bytes : Bytes}
    (h : (ofFormat "yaml").output source = .ok bytes) :
    ∃ t, load source = .ok t ∧ bytes = Utf8.encode (Yaml.documents t) := by
  obtain ⟨t, -, ht, -, hformat⟩ := exists_format_eq_ok h
  rw [Registry.format_yaml] at hformat
  exact ⟨t, ht, (Except.ok.inj hformat).symm⟩

/-- **No output of a built-in format is a source.** -/
theorem load_output {format : String} {source bytes : Bytes}
    (h : (ofFormat format).output source = .ok bytes) : ∃ e, load bytes = .error e := by
  obtain ⟨t, ht, rfl | rfl⟩ := ofFormat_output_eq_ok h
  · exact load_of_startsNothing ⟨_, _, rfl, rfl, rfl⟩
  · exact load_of_startsNothing (startsNothing_documents ht)

end Converter
end FunctionMap
