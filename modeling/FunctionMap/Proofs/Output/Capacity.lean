import FunctionMap.Proofs.Output.Formatter

/-!
# Outputs in a sink of limited capacity

A sink that takes no more than a number of bytes refuses every chunk that would make it longer, and
what it refuses first tells how the writing of an output ends: with the error of the part that does
not fit. The parts decide this alone. How each of them is cut into chunks on its way to the sink makes
no difference.

* `Sink.Limited s limit` -- the sink is not longer than `limit`, and refuses exactly what would make it
  so;
* `Cut parts pieces` -- the pieces are the parts, each one in chunks of its own;
* `Ends parts room result` -- how parts end that are written where `room` bytes are left.

Main statement: `write_to_limited_sink`, for the two built-in formats.
-/

namespace FunctionMap

/-! ## 1. Limited sinks -/

namespace Sink

/-- The sink is not longer than `limit` bytes, and refuses exactly the chunks that would make it
    longer. -/
structure Limited (s : Sink) (limit : Nat) : Prop where
  length_le : s.content.length ≤ limit
  refuses_iff : ∀ content chunk,
    (s.refusal? content chunk).isSome = true ↔ limit < content.length + chunk.length

theorem limited_bounded {initial : Bytes} {limit : Nat} (h : initial.length ≤ limit)
    (cause : String) : (bounded initial limit cause).Limited limit where
  length_le := by simpa [content, bounded] using h
  refuses_iff content chunk := by
    rw [bounded]
    dsimp only
    split <;> simp [*]

namespace Limited

variable {s : Sink} {limit : Nat}

/-- A chunk that fits is taken whole, and the capacity stays. -/
theorem write_of_le (hs : s.Limited limit) {chunk : Bytes}
    (hfits : s.content.length + chunk.length ≤ limit) :
    ∃ s', s.write chunk = .ok s' ∧ s'.Limited limit ∧ s'.content = s.content ++ chunk := by
  have hnone : s.refusal? s.content chunk = none := by
    rw [← Option.not_isSome_iff_eq_none, hs.refuses_iff]
    exact Nat.not_lt.mpr hfits
  have hcontent : content { s with chunks := s.chunks ++ [chunk] } = s.content ++ chunk := by
    rw [content, List.flatten_append, List.flatten_singleton]
    rfl
  have hlimited : Limited { s with chunks := s.chunks ++ [chunk] } limit :=
    ⟨by rwa [hcontent, List.length_append], hs.refuses_iff⟩
  exact ⟨_, by rw [write, hnone], hlimited, hcontent⟩

theorem write_of_lt (hs : s.Limited limit) {chunk : Bytes}
    (hover : limit < s.content.length + chunk.length) : ∃ cause, s.write chunk = .error cause := by
  obtain ⟨cause, hsome⟩ := Option.isSome_iff_exists.mp ((hs.refuses_iff s.content chunk).mpr hover)
  exact ⟨cause, by rw [write, hsome]⟩

end Limited
end Sink

/-! ## 2. Chunks of one part -/

/-- Some chunks, whose refusal is the same error. -/
def chunked (chunks : List Bytes) (refused : String → FormatError) : List Part :=
  chunks.map fun bytes => ⟨bytes, refused⟩

section Chunks

variable (refused : String → FormatError) {s : Sink} {limit : Nat}

/-- Chunks that fit together are all taken, and what stands behind them is written next. -/
theorem writeParts_chunked_of_le (hs : s.Limited limit) {chunks : List Bytes}
    (hfits : s.content.length + chunks.flatten.length ≤ limit) (rest : List Part) :
    ∃ s', writeParts (chunked chunks refused ++ rest) s = writeParts rest s' ∧ s'.Limited limit ∧
      s'.content = s.content ++ chunks.flatten := by
  induction chunks generalizing s with
  | nil => exact ⟨s, rfl, hs, (List.append_nil _).symm⟩
  | cons chunk chunks ih =>
    rw [List.flatten_cons, List.length_append] at hfits
    have hroom : s.content.length + chunk.length ≤ limit := by omega
    obtain ⟨s₁, hwrite, hs₁, hcontent₁⟩ := hs.write_of_le hroom
    have hfits₁ : s₁.content.length + chunks.flatten.length ≤ limit := by
      rw [hcontent₁, List.length_append]
      omega
    obtain ⟨s', hrest, hs', hcontent⟩ := ih hs₁ hfits₁
    refine ⟨s', ?_, hs', ?_⟩
    · rw [chunked, List.map_cons, List.cons_append, writeParts, hwrite]
      exact hrest
    · rw [hcontent, hcontent₁, List.flatten_cons, List.append_assoc]

/-- Of chunks that do not fit together one is refused. -/
theorem writeParts_chunked_of_lt (hs : s.Limited limit) {chunks : List Bytes}
    (hover : limit < s.content.length + chunks.flatten.length) (rest : List Part) :
    ∃ cause s', writeParts (chunked chunks refused ++ rest) s = (.error (refused cause), s') := by
  induction chunks generalizing s with
  | nil => exact absurd hs.length_le (Nat.not_le.mpr hover)
  | cons chunk chunks ih =>
    rw [List.flatten_cons, List.length_append] at hover
    rw [chunked, List.map_cons, List.cons_append, writeParts]
    by_cases hfits : s.content.length + chunk.length ≤ limit
    · obtain ⟨s₁, hwrite, hs₁, hcontent₁⟩ := hs.write_of_le hfits
      rw [hwrite]
      refine ih hs₁ ?_
      rw [hcontent₁, List.length_append]
      omega
    · obtain ⟨cause, hwrite⟩ := hs.write_of_lt (Nat.not_le.mp hfits)
      exact ⟨cause, s, by rw [hwrite]⟩

end Chunks

/-! ## 3. Parts in a row -/

/-- The pieces are the parts, each one in chunks of its own that make up its bytes. -/
inductive Cut : List Part → List Part → Prop where
  | nil : Cut [] []
  | cons {p : Part} {parts pieces : List Part} {chunks : List Bytes}
      (hchunks : chunks.flatten = p.bytes) (h : Cut parts pieces) :
      Cut (p :: parts) (chunked chunks p.refused ++ pieces)

/-- Every part is a chunk. -/
theorem Cut.refl (parts : List Part) : Cut parts parts := by
  induction parts with
  | nil => exact .nil
  | cons p parts ih =>
    have hchunk : [p.bytes].flatten = p.bytes := List.flatten_singleton
    exact .cons hchunk ih

/-- The bytes of some parts. -/
def bytesOf (parts : List Part) : Bytes := (parts.map Part.bytes).flatten

/-- How parts end that are written where `room` bytes are left: they are all taken if they fit, and
    otherwise the first part that does not fit behind those before it is refused. -/
inductive Ends : List Part → Nat → Except FormatError Unit → Prop where
  | taken {parts : List Part} {room : Nat} (hfits : (bytesOf parts).length ≤ room) :
      Ends parts room (.ok ())
  | refused {before after : List Part} {p : Part} {room : Nat} {cause : String}
      (hfits : (bytesOf before).length ≤ room)
      (hover : room < (bytesOf before).length + p.bytes.length) :
      Ends (before ++ p :: after) room (.error (p.refused cause))

theorem bytesOf_nil : bytesOf [] = [] := rfl

theorem bytesOf_cons (p : Part) (parts : List Part) : bytesOf (p :: parts) = p.bytes ++ bytesOf parts :=
  rfl

/-- A part that is taken leaves less room for the others. -/
theorem Ends.cons {parts : List Part} {room : Nat} {result : Except FormatError Unit} {p : Part}
    (h : Ends parts room result) : Ends (p :: parts) (p.bytes.length + room) result := by
  cases h with
  | taken hfits =>
    refine .taken ?_
    rw [bytesOf_cons, List.length_append]
    omega
  | @refused before after q _ cause hfits hover =>
    have hlength : (bytesOf (p :: before)).length = p.bytes.length + (bytesOf before).length := by
      rw [bytesOf_cons, List.length_append]
    have hfits' : (bytesOf (p :: before)).length ≤ p.bytes.length + room := by omega
    exact .refused hfits' (by omega)

/-- **However the parts are cut, the writing ends at the first part that does not fit.** What has been
    taken whole is behind what the sink held before. -/
theorem ends_writeParts {parts pieces : List Part} (hcut : Cut parts pieces) {s : Sink} {limit : Nat}
    (hs : s.Limited limit) : Ends parts (limit - s.content.length) (writeParts pieces s).1 ∧
      ((writeParts pieces s).1 = .ok () →
        (writeParts pieces s).2.content = s.content ++ bytesOf parts) := by
  -- a part that is taken whole leaves a sink of the same limit for the rest
  induction hcut generalizing s with
  | nil => exact ⟨.taken (Nat.zero_le _), fun _ => (List.append_nil _).symm⟩
  | @cons p parts pieces chunks hchunks h ih =>
    have hle := hs.length_le
    by_cases hfits : s.content.length + p.bytes.length ≤ limit
    · rw [← hchunks] at hfits
      obtain ⟨s₁, hwrite, hs₁, hcontent₁⟩ :=
        writeParts_chunked_of_le p.refused hs hfits pieces
      rw [hchunks] at hfits hcontent₁
      obtain ⟨hends, hcontent⟩ := ih hs₁
      have hroom : limit - s.content.length = p.bytes.length + (limit - s₁.content.length) := by
        rw [hcontent₁, List.length_append]
        omega
      rw [hwrite, hroom]
      refine ⟨hends.cons, fun hok => ?_⟩
      rw [hcontent hok, hcontent₁, bytesOf_cons, List.append_assoc]
    · have hover : limit < s.content.length + chunks.flatten.length := by
        rw [hchunks]
        omega
      obtain ⟨cause, s', hwrite⟩ :=
        writeParts_chunked_of_lt p.refused hs hover pieces
      rw [hwrite]
      have hfirst : limit - s.content.length < (bytesOf []).length + p.bytes.length := by
        rw [bytesOf_nil, List.length_nil]
        omega
      exact ⟨.refused (Nat.zero_le _) hfirst, fun hok => nomatch hok⟩

theorem Ends.cons_cases {p : Part} {parts : List Part} {room : Nat} {result : Except FormatError Unit}
    (h : Ends (p :: parts) room result) :
    (room < p.bytes.length ∧ ∃ cause, result = .error (p.refused cause)) ∨
      (p.bytes.length ≤ room ∧ Ends parts (room - p.bytes.length) result) := by
  generalize hall : p :: parts = all at h
  cases h with
  | taken hfits =>
    rw [← hall, bytesOf_cons, List.length_append] at hfits
    exact Or.inr ⟨by omega, .taken (by omega)⟩
  | @refused before after q _ cause hfits hover =>
    cases before with
    | nil =>
      cases hall
      rw [bytesOf_nil, List.length_nil, Nat.zero_add] at hover
      exact Or.inl ⟨hover, cause, rfl⟩
    | cons b before =>
      cases hall
      rw [bytesOf_cons, List.length_append] at hfits hover
      exact Or.inr ⟨by omega, .refused (by omega) (by omega)⟩

theorem Ends.of_nil {room : Nat} {result : Except FormatError Unit} (h : Ends [] room result) :
    result = .ok () := by
  generalize hall : ([] : List Part) = all at h
  cases h with
  | taken hfits => rfl
  | refused hfits hover => exact absurd hall (by simp)

/-! ## 4. The built-in formats -/

/-- How the two documents of a table end in a sink: both of them and the line between them are taken, or
    the first of the three that does not fit is refused. -/
structure YamlOutcome (t : Table) (s : Sink) (limit : Nat) (result : Except FormatError Unit × Sink) :
    Prop where
  ok_iff : result.1 = .ok () ↔
    s.content.length + Utf8.size (Yaml.enumDocument t) + 4 + Utf8.size (Yaml.functionDocument t)
      ≤ limit
  yaml_iff : (∃ cause, result.1 = .error (.yaml cause)) ↔
    limit < s.content.length + Utf8.size (Yaml.enumDocument t) ∨
    s.content.length + Utf8.size (Yaml.enumDocument t) + 4 ≤ limit ∧
      limit < s.content.length + Utf8.size (Yaml.enumDocument t) + 4
        + Utf8.size (Yaml.functionDocument t)
  io_iff : (∃ cause, result.1 = .error (.io cause)) ↔
    s.content.length + Utf8.size (Yaml.enumDocument t) ≤ limit ∧
      limit < s.content.length + Utf8.size (Yaml.enumDocument t) + 4
  content : result.1 = .ok () →
    ∃ bytes, Registry.builtin.format t "yaml" = .ok bytes ∧ result.2.content = s.content ++ bytes

/-- How the dump of a table ends in a sink: it is taken with the line feed behind it, or the one of the
    two that does not fit is refused. -/
structure JsonOutcome (t : Table) (s : Sink) (limit : Nat) (result : Except FormatError Unit × Sink) :
    Prop where
  ok_iff : result.1 = .ok () ↔ s.content.length + Utf8.size (Json.dump t) + 1 ≤ limit
  json_iff : (∃ cause, result.1 = .error (.json cause)) ↔
    limit < s.content.length + Utf8.size (Json.dump t)
  io_iff : (∃ cause, result.1 = .error (.io cause)) ↔
    s.content.length + Utf8.size (Json.dump t) ≤ limit ∧
      limit < s.content.length + Utf8.size (Json.dump t) + 1
  content : result.1 = .ok () →
    ∃ bytes, Registry.builtin.format t "json" = .ok bytes ∧ result.2.content = s.content ++ bytes

section Outcomes

variable {t : Table} {s : Sink} {limit : Nat} {pieces : List Part}

/-- **The documents of a table end as their lengths say**, in whatever pieces they are written. -/
theorem yamlOutcome_writeParts (hs : s.Limited limit)
    (hcut : Cut (Formatter.yaml.output t).parts pieces) :
    YamlOutcome t s limit (writeParts pieces s) := by
  obtain ⟨hends, hcontent⟩ := ends_writeParts hcut hs
  generalize writeParts pieces s = written at hends hcontent ⊢
  obtain ⟨result, s'⟩ := written
  have hle := hs.length_le
  have henums : (Utf8.encode (Yaml.enumDocument t)).length = _ := Utf8.length_encode _
  have hseparator : (Utf8.encode Yaml.separator).length = 4 := rfl
  have hfunctions : (Utf8.encode (Yaml.functionDocument t)).length = _ := Utf8.length_encode _
  have hwritten : result = .ok () → ∃ bytes, Registry.builtin.format t "yaml" = .ok bytes ∧
      s'.content = s.content ++ bytes :=
    fun hok => ⟨_, Registry.format_of_get? (f := .yaml) rfl t rfl, hcontent hok⟩
  rcases hends.cons_cases with ⟨hover, cause, rfl⟩ | ⟨hfits₁, hends⟩
  · rw [henums] at hover
    refine ⟨?_, ?_, ?_, hwritten⟩ <;> simp <;> omega
  rw [henums] at hfits₁ hends
  rcases hends.cons_cases with ⟨hover, cause, rfl⟩ | ⟨hfits₂, hends⟩
  · rw [hseparator] at hover
    refine ⟨?_, ?_, ?_, hwritten⟩ <;> simp <;> omega
  rw [hseparator] at hfits₂ hends
  rcases hends.cons_cases with ⟨hover, cause, rfl⟩ | ⟨hfits₃, hends⟩
  · rw [hfunctions] at hover
    refine ⟨?_, ?_, ?_, hwritten⟩ <;> simp <;> omega
  rw [hfunctions] at hfits₃
  obtain rfl := hends.of_nil
  refine ⟨?_, ?_, ?_, hwritten⟩ <;> simp <;> omega

/-- **The dump of a table ends as its length says**, in whatever pieces it is written. -/
theorem jsonOutcome_writeParts (hs : s.Limited limit)
    (hcut : Cut (Formatter.json.output t).parts pieces) :
    JsonOutcome t s limit (writeParts pieces s) := by
  obtain ⟨hends, hcontent⟩ := ends_writeParts hcut hs
  generalize writeParts pieces s = written at hends hcontent ⊢
  obtain ⟨result, s'⟩ := written
  have hle := hs.length_le
  have hdump : (Utf8.encode (Json.dump t)).length = _ := Utf8.length_encode _
  have hwritten : result = .ok () → ∃ bytes, Registry.builtin.format t "json" = .ok bytes ∧
      s'.content = s.content ++ bytes :=
    fun hok => ⟨_, Registry.format_of_get? (f := .json) rfl t rfl, hcontent hok⟩
  rcases hends.cons_cases with ⟨hover, cause, rfl⟩ | ⟨hfits₁, hends⟩
  · rw [hdump] at hover
    refine ⟨?_, ?_, ?_, hwritten⟩ <;> simp <;> omega
  rw [hdump] at hfits₁ hends
  rcases hends.cons_cases with ⟨hover, cause, rfl⟩ | ⟨hfits₂, hends⟩
  · rw [List.length_singleton] at hover
    refine ⟨?_, ?_, ?_, hwritten⟩ <;> simp <;> omega
  rw [List.length_singleton] at hfits₂
  obtain rfl := hends.of_nil
  refine ⟨?_, ?_, ?_, hwritten⟩ <;> simp <;> omega

end Outcomes

/-- A formatter that does not fail on its own account fails only where the sink refuses a part. -/
theorem Output.write_of_failure?_eq_none {o : Output} (hok : o.failure? = none) (s : Sink) :
    o.write s = writeParts o.parts s := by
  rw [write, hok]
  cases writeParts o.parts s with
  | mk result s' => cases result <;> rfl

theorem Registry.write_of_get? {r : Registry} {name : String} {f : Formatter}
    (hf : r.get? name = some f) {t : Table} (hok : (f.output t).failure? = none) (s : Sink) :
    r.write t name s = writeParts (f.output t).parts s := by
  rw [write, hf]
  exact Output.write_of_failure?_eq_none hok s

/-- **What a built-in format writes to a sink of limited capacity fails exactly if it does not fit, with
    the error of the part that does not fit.** The two documents and the dump are refused as such, the
    line between the documents and the line feed behind the dump as other bytes. This holds as well
    if the parts come to the sink in chunks of any other kind. What is taken whole is what the format
    writes to a buffer. -/
theorem write_to_limited_sink (t : Table) {s : Sink} {limit : Nat} (hs : s.Limited limit) :
    (YamlOutcome t s limit (Registry.builtin.write t "yaml" s) ∧
      ∀ pieces, Cut (Formatter.yaml.output t).parts pieces →
        YamlOutcome t s limit (Output.write ⟨pieces, none⟩ s)) ∧
    JsonOutcome t s limit (Registry.builtin.write t "json" s) ∧
      ∀ pieces, Cut (Formatter.json.output t).parts pieces →
        JsonOutcome t s limit (Output.write ⟨pieces, none⟩ s) := by
  refine ⟨⟨?_, fun pieces hcut => ?_⟩, ?_, fun pieces hcut => ?_⟩
  · rw [Registry.write_of_get? (f := .yaml) rfl rfl]
    exact yamlOutcome_writeParts hs (.refl _)
  · rw [Output.write_of_failure?_eq_none rfl]
    exact yamlOutcome_writeParts hs hcut
  · rw [Registry.write_of_get? (f := .json) rfl rfl]
    exact jsonOutcome_writeParts hs (.refl _)
  · rw [Output.write_of_failure?_eq_none rfl]
    exact jsonOutcome_writeParts hs hcut

/-- The first document has three bytes, and a sink of six holds two already: there is no room for the
    line behind it, nor for the dump. -/
theorem write_to_limited_sink_of_six :
    let t : Table := ⟨[], [⟨⟨1, 2⟩, "F", []⟩]⟩
    let s := Sink.bounded (Utf8.encode ['a', 'b']) 6 "sink full"
    s.Limited 6 ∧ (∃ cause, (Registry.builtin.write t "yaml" s).1 = .error (.io cause)) ∧
      ∃ cause, (Registry.builtin.write t "json" s).1 = .error (.json cause) := by
  intro t s
  have hs : s.Limited 6 := Sink.limited_bounded (by decide) "sink full"
  obtain ⟨⟨hyaml, -⟩, hjson, -⟩ := write_to_limited_sink t hs
  exact ⟨hs, hyaml.io_iff.mpr (by decide +kernel), hjson.json_iff.mpr (by decide +kernel)⟩

end FunctionMap
