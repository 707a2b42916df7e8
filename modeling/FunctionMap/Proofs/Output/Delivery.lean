import FunctionMap.Conversion

/-!
# A conversion is all or nothing towards its receiver

A formatter may write some bytes and fail behind them. The bytes go to a buffer first, and only the
complete output of a formatter goes on to the receiver, at once.

* `Converter.Staged c source result` -- how the stages in front of the receiver end: for a reason of
  their own, or with the bytes of the whole output;
* `FailsWhole accept content` -- a receiver that takes bytes whole or not at all, as a `Sink` does.

Main statement: `conversion_all_or_nothing`. It is about receivers of every kind.
-/

namespace FunctionMap

/-! ## 1. The stages in front of the receiver -/

namespace Converter

/-- How the stages of a conversion end. The output is complete if the format exists, the source
    declares a table under new names, and the formatter of the format does not fail on it. -/
inductive Staged (c : Converter) (source : Bytes) : Except ConversionError Bytes → Prop where
  | unknown (hf : c.registry.get? c.format = none) :
      Staged c source (.error (.format (.notFound c.format)))
  | refused {f : Formatter} {e : SourceError} (hf : c.registry.get? c.format = some f)
      (ht : load source = .error e) : Staged c source (.error (.source e))
  | failed {f : Formatter} {t : Table} {e : FormatError} {s : Sink}
      (hf : c.registry.get? c.format = some f) (ht : load source = .ok t)
      (ho : (f.output t).write .buffer = (.error e, s)) : Staged c source (.error (.format e))
  | complete {f : Formatter} {t : Table} {s : Sink} (hf : c.registry.get? c.format = some f)
      (ht : load source = .ok t) (ho : (f.output t).write .buffer = (.ok (), s)) :
      Staged c source (.ok s.content)

theorem output_of_none {c : Converter} (hf : c.registry.get? c.format = none) (source : Bytes) :
    c.output source = .error (.format (.notFound c.format)) := by
  rw [output, Registry.has, hf]
  rfl

theorem output_of_some {c : Converter} {f : Formatter} (hf : c.registry.get? c.format = some f)
    (source : Bytes) :
    c.output source = match load source with
      | .error e => .error (.source e)
      | .ok t => match (f.output t).write .buffer with
        | (.ok (), s) => .ok s.content
        | (.error e, _) => .error (.format e) := by
  have hhas : c.registry.has c.format = true := by
    rw [Registry.has, hf]
    rfl
  rw [output, if_pos hhas]
  cases load source with
  | error e => rfl
  | ok t =>
    dsimp only
    rw [Registry.format, Registry.write, hf]
    dsimp only
    cases (f.output t).write .buffer with
    | mk result s => cases result <;> rfl

theorem staged_output (c : Converter) (source : Bytes) : c.Staged source (c.output source) := by
  cases hf : c.registry.get? c.format with
  | none =>
    rw [output_of_none hf]
    exact .unknown hf
  | some f =>
    rw [output_of_some hf]
    cases ht : load source with
    | error e => exact .refused hf ht
    | ok t =>
      dsimp only
      cases ho : (f.output t).write .buffer with
      | mk result s =>
        cases result with
        | error e => exact .failed hf ht ho
        | ok _ => exact .complete hf ht ho

/-- The stages end in one way. -/
theorem Staged.output_eq {c : Converter} {source : Bytes} {result : Except ConversionError Bytes}
    (h : c.Staged source result) : c.output source = result := by
  cases h with
  | unknown hf => exact output_of_none hf source
  | refused hf ht => rw [output_of_some hf, ht]
  | failed hf ht ho =>
    rw [output_of_some hf, ht]
    dsimp only
    rw [ho]
  | complete hf ht ho =>
    rw [output_of_some hf, ht]
    dsimp only
    rw [ho]

/-! ## 2. The receiver -/

section Delivery

variable {ρ : Type} (c : Converter) (source : Bytes) (accept : ρ → Bytes → Except String Unit × ρ)

/-- Bytes that are refused leave no trace, and bytes that are accepted are behind all others. -/
structure FailsWhole (content : ρ → Bytes) : Prop where
  refused : ∀ r bytes cause r', accept r bytes = (.error cause, r') → content r' = content r
  accepted : ∀ r bytes r', accept r bytes = (.ok (), r') → content r' = content r ++ bytes

theorem deliver_of_error {e : ConversionError} (h : c.output source = .error e) (r : ρ) :
    c.deliver source accept r = (.error e, r) := by
  rw [deliver, h]

/-- The answer of a receiver to the whole output is the answer of the conversion. -/
theorem deliver_of_ok {bytes : Bytes} (h : c.output source = .ok bytes) (r : ρ) :
    c.deliver source accept r = ((accept r bytes).1.mapError .io, (accept r bytes).2) := by
  rw [deliver, h]
  dsimp only
  cases haccept : accept r bytes with
  | mk answer r' => cases answer <;> rfl

/-- Either there is no output and the receiver is not asked, or it answers for the whole output. -/
theorem deliver_cases (r : ρ) :
    (∃ e, c.deliver source accept r = (.error e, r)) ∨
      ∃ bytes answer r', c.output source = .ok bytes ∧ accept r bytes = (answer, r') ∧
        c.deliver source accept r = (answer.mapError .io, r') := by
  cases houtput : c.output source with
  | error e => exact Or.inl ⟨e, c.deliver_of_error source accept houtput r⟩
  | ok bytes =>
    exact Or.inr ⟨bytes, _, _, rfl, rfl, c.deliver_of_ok source accept houtput r⟩

/-- What a conversion does to a receiver `r`: one of the endings of its stages applies; without a
    complete output the receiver is left alone, and else it is handed that output, once. -/
structure AllOrNothing (r : ρ) : Prop where
  ends : ∃ result, c.Staged source result
  nothing : ∀ e, c.Staged source (.error e) → c.deliver source accept r = (.error e, r)
  all : ∀ bytes, c.Staged source (.ok bytes) →
    c.deliver source accept r = ((accept r bytes).1.mapError .io, (accept r bytes).2)
  succeeds_iff : ∀ bytes, c.Staged source (.ok bytes) →
    ((c.deliver source accept r).1 = .ok () ↔ (accept r bytes).1 = .ok ())
  after_error : ∀ content, FailsWhole accept content → ∀ e r',
    c.deliver source accept r = (.error e, r') → content r' = content r
  after_success : ∀ content, FailsWhole accept content → ∀ r',
    c.deliver source accept r = (.ok (), r') →
      ∃ bytes, c.Staged source (.ok bytes) ∧ content r' = content r ++ bytes

theorem allOrNothing (r : ρ) : c.AllOrNothing source accept r where
  ends := ⟨_, c.staged_output source⟩
  nothing e h := c.deliver_of_error source accept h.output_eq r
  all bytes h := c.deliver_of_ok source accept h.output_eq r
  succeeds_iff bytes h := by
    rw [c.deliver_of_ok source accept h.output_eq r]
    cases (accept r bytes).1 with
    | error cause => exact ⟨fun h => (by cases h), fun h => (by cases h)⟩
    | ok _ => exact ⟨fun _ => rfl, fun _ => rfl⟩
  after_error content hcontent e r' h := by
    obtain ⟨e', hdeliver⟩ | ⟨bytes, answer, r₁, -, haccept, hdeliver⟩ :=
      c.deliver_cases source accept r
    · rw [hdeliver] at h
      cases h
      rfl
    · rw [hdeliver] at h
      cases answer with
      | error cause =>
        cases h
        exact hcontent.refused r bytes cause _ haccept
      | ok _ => cases h
  after_success content hcontent r' h := by
    obtain ⟨e', hdeliver⟩ | ⟨bytes, answer, r₁, houtput, haccept, hdeliver⟩ :=
      c.deliver_cases source accept r
    · rw [hdeliver] at h
      cases h
    · rw [hdeliver] at h
      cases answer with
      | error cause => cases h
      | ok _ =>
        cases h
        have hstaged := c.staged_output source
        rw [houtput] at hstaged
        exact ⟨bytes, hstaged, hcontent.accepted r bytes _ haccept⟩

end Delivery

/-! ## 3. Sinks -/

/-- **A sink fails whole.** -/
theorem failsWhole_accept : FailsWhole Sink.accept Sink.content where
  refused s bytes cause s' h := by
    rw [Sink.accept] at h
    cases hwrite : s.write bytes with
    | error cause' =>
      rw [hwrite] at h
      cases h
      rfl
    | ok s₁ =>
      rw [hwrite] at h
      cases h
  accepted s bytes s' h := by
    rw [Sink.accept, Sink.write] at h
    cases hrefusal : s.refusal? s.content bytes with
    | some cause =>
      rw [hrefusal] at h
      cases h
    | none =>
      rw [hrefusal] at h
      cases h
      rw [Sink.content, List.flatten_append, List.flatten_singleton]
      rfl

/-- **A conversion is all or nothing towards its receiver.** Whatever the formats of the registry do,
    and whatever kind of receiver it is: if the format does not exist, if the source is refused or if
    the formatter fails, the receiver is left as it was; else it is handed the complete output of the
    formatter in one piece, and its answer is how the conversion ends. A sink so holds what it held
    before, after an error, and else that and the complete output behind it. -/
theorem conversion_all_or_nothing (c : Converter) (source : Bytes) :
    (∀ (ρ : Type) (accept : ρ → Bytes → Except String Unit × ρ) (r : ρ),
      c.AllOrNothing source accept r) ∧
    ∀ s : Sink,
      (∀ e s', c.convert source s = (.error e, s') → s'.content = s.content) ∧
      ∀ s', c.convert source s = (.ok (), s') →
        ∃ bytes, c.Staged source (.ok bytes) ∧ s'.content = s.content ++ bytes := by
  refine ⟨fun ρ accept r => c.allOrNothing source accept r, fun s => ?_⟩
  have h := c.allOrNothing source Sink.accept s
  exact ⟨h.after_error _ failsWhole_accept, h.after_success _ failsWhole_accept⟩

end Converter
end FunctionMap
