import FunctionMap.Conversion
import FunctionMap.Proofs.Text.ValidPrefix
import Mathlib.Data.List.Induction

/-!
# The registry after any registrations

Formatters are registered in any number and order, also several under one name. What a registry then
tells of its names, by looking one up, by testing one and by listing all, comes down to the history of its
registrations. A table is written along two ways, as bytes by a conversion and as a text, and both come
to the same.

* `Registry.registerAll r history` -- the registry after some registrations;
* `LastUnder name history f` -- `f` is the formatter that was registered last under a name;
* `SameOutcome bytes text` -- the text shows the bytes, or there is neither, for one and the same cause;
* `Agrees r history` -- what holds of a registry with this history.

Main statement: `registry_agrees_with_history`, for the empty and for the built-in registry.
-/

namespace FunctionMap

/-- A registry after some registrations. -/
def Registry.registerAll (r : Registry) (history : List Formatter) : Registry :=
  history.foldl register r

/-- The formatter that was registered last under a name. -/
def LastUnder (name : String) (history : List Formatter) (f : Formatter) : Prop :=
  f.name = name ∧ ∃ before after, history = before ++ f :: after ∧ ∀ g ∈ after, g.name ≠ name

/-- The text shows the bytes, or there are neither bytes nor a text, for the same fault of the format. -/
inductive SameOutcome : Except ConversionError Bytes → Except FormatError String → Prop where
  | written (bytes : Bytes) :
      SameOutcome (.ok bytes) (.ok (String.ofList (Utf8.decodeLossy bytes)))
  | failed (e : FormatError) : SameOutcome (.error (.format e)) (.error e)

/-- The bytes that a conversion leaves in an empty buffer. -/
def Converter.toBytes (c : Converter) (source : Bytes) : Except ConversionError Bytes :=
  match c.convert source .buffer with
  | (.ok (), s) => .ok s.content
  | (.error e, _) => .error e

/-- What a registry tells, given the history of its registrations. -/
structure Agrees (r : Registry) (history : List Formatter) : Prop where
  has_iff : ∀ name, r.has name = true ↔ ∃ f ∈ history, f.name = name
  get?_isSome_iff : ∀ name, (∃ f, r.get? name = some f) ↔ ∃ f ∈ history, f.name = name
  mem_names_iff : ∀ name, name ∈ r.names ↔ ∃ f ∈ history, f.name = name
  /-- A name has the formatter that was registered last under it. -/
  get?_iff : ∀ name f, r.get? name = some f ↔ LastUnder name history f
  /-- One more registration gives its name a formatter and changes no other name. -/
  get?_register : ∀ f, (r.register f).get? f.name = some f ∧
    ∀ name, name ≠ f.name → (r.register f).get? name = r.get? name
  /-- The names are listed in the order of their bytes, each one once. -/
  increasing : r.names.Pairwise fun a b => Utf8.encode a.toList < Utf8.encode b.toList
  /-- A source is converted to the bytes that the text of its table shows. -/
  sameOutcome : ∀ source t name, load source = .ok t →
    SameOutcome (Converter.toBytes ⟨r, name⟩ source) (r.serialize t name)

namespace Registry

/-! ## 1. One registration -/

theorem find?_place (f : Formatter) (formatters : List Formatter) (name : String) :
    (place f formatters).find? (·.name = name) =
      if f.name = name then some f else formatters.find? (·.name = name) := by
  induction formatters with
  | nil => by_cases hf : f.name = name <;> simp [place, hf]
  | cons g rest ih =>
    unfold place
    by_cases hfg : f.name = g.name
    · rw [if_pos hfg]
      by_cases hf : f.name = name
      · simp [hf]
      · have hg : ¬ g.name = name := fun h => hf (hfg.trans h)
        simp [hf, hg]
    · rw [if_neg hfg]
      by_cases hlt : f.order < g.order
      · by_cases hf : f.name = name <;> simp [hlt, hf]
      · rw [if_neg hlt]
        by_cases hg : g.name = name
        · have hf : ¬ f.name = name := fun h => hfg (h.trans hg.symm)
          simp [hg, hf]
        · simp [hg, ih]

/-- **A registration gives its name a formatter and changes no other name.** -/
theorem get?_register (r : Registry) (f : Formatter) (name : String) :
    (r.register f).get? name = if f.name = name then some f else r.get? name :=
  find?_place f r.formatters name

/-- Formatters in the order of their names, at most one for a name. -/
def Ordered (formatters : List Formatter) : Prop :=
  formatters.Pairwise fun f g => f.order < g.order

theorem order_congr {f g : Formatter} (h : f.name = g.name) : f.order = g.order := by
  rw [Formatter.order, Formatter.order, h]

theorem order_lt_of_not_lt {f g : Formatter} (hname : f.name ≠ g.name) (h : ¬ f.order < g.order) :
    g.order < f.order := by
  have hne : g.order ≠ f.order := fun heq =>
    hname (String.toList_inj.mp (Utf8.encode_injective heq)).symm
  exact Std.lt_of_le_of_ne (List.not_lt.mp h) hne

theorem mem_place {f x : Formatter} {formatters : List Formatter} (h : x ∈ place f formatters) :
    x = f ∨ x ∈ formatters := by
  induction formatters with
  | nil => exact Or.inl (List.mem_singleton.mp h)
  | cons g rest ih =>
    unfold place at h
    split at h
    · exact (List.mem_cons.mp h).imp_right (List.mem_cons_of_mem g)
    · split at h
      · exact List.mem_cons.mp h
      · obtain rfl | h := List.mem_cons.mp h
        · exact Or.inr List.mem_cons_self
        · exact (ih h).imp_right (List.mem_cons_of_mem g)

/-- **A formatter is put in its place.** -/
theorem Ordered.place {f : Formatter} {formatters : List Formatter} (h : Ordered formatters) :
    Ordered (place f formatters) := by
  induction formatters with
  | nil => exact List.pairwise_singleton _ f
  | cons g rest ih =>
    obtain ⟨hg, hrest⟩ := List.pairwise_cons.mp h
    unfold Registry.place
    by_cases hname : f.name = g.name
    · rw [if_pos hname]
      refine List.pairwise_cons.mpr ⟨fun x hx => ?_, hrest⟩
      rw [order_congr hname]
      exact hg x hx
    · rw [if_neg hname]
      by_cases hlt : f.order < g.order
      · rw [if_pos hlt]
        refine List.pairwise_cons.mpr ⟨fun x hx => ?_, h⟩
        obtain rfl | hx := List.mem_cons.mp hx
        · exact hlt
        · exact List.lt_trans hlt (hg x hx)
      · rw [if_neg hlt]
        refine List.pairwise_cons.mpr ⟨fun x hx => ?_, ih hrest⟩
        obtain rfl | hx := mem_place hx
        · exact order_lt_of_not_lt hname hlt
        · exact hg x hx

/-! ## 2. Any number of registrations -/

theorem registerAll_append (r : Registry) (history : List Formatter) (f : Formatter) :
    r.registerAll (history ++ [f]) = (r.registerAll history).register f := by
  rw [registerAll, List.foldl_append]
  rfl

theorem ordered_registerAll {r : Registry} (h : Ordered r.formatters) (history : List Formatter) :
    Ordered (r.registerAll history).formatters := by
  induction history generalizing r with
  | nil => exact h
  | cons f rest ih => exact ih h.place

theorem lastUnder_append_iff {name : String} {history : List Formatter} {f g : Formatter} :
    LastUnder name (history ++ [f]) g ↔
      (f.name = name ∧ g = f) ∨ (f.name ≠ name ∧ LastUnder name history g) := by
  constructor
  · intro h
    obtain ⟨hg, before, after, hsplit, hafter⟩ := h
    obtain rfl | ⟨after, last, rfl⟩ := List.eq_nil_or_concat after
    · obtain ⟨-, hlast⟩ := List.append_inj' hsplit rfl
      obtain rfl : f = g := by simpa using hlast
      exact Or.inl ⟨hg, rfl⟩
    · have hsplit : history ++ [f] = (before ++ g :: after) ++ [last] := by simpa using hsplit
      obtain ⟨hhistory, hlast⟩ := List.append_inj' hsplit rfl
      obtain rfl : f = last := by simpa using hlast
      exact Or.inr ⟨hafter f (by simp), hg, before, after, hhistory,
        fun x hx => hafter x (by simp [hx])⟩
  · intro h
    obtain ⟨hf, rfl⟩ | ⟨hf, hg, before, after, rfl, hafter⟩ := h
    · exact ⟨hf, history, [], rfl, by simp⟩
    · refine ⟨hg, before, after ++ [f], by simp, fun x hx => ?_⟩
      obtain hx | hx := List.mem_append.mp hx
      · exact hafter x hx
      · rwa [List.mem_singleton.mp hx]

/-- **A name has the formatter that was registered last under it.** -/
theorem get?_registerAll_iff {history : List Formatter} {name : String} {f : Formatter} :
    (empty.registerAll history).get? name = some f ↔ LastUnder name history f := by
  induction history using List.reverseRecOn with
  | nil =>
    constructor
    · intro h
      cases h
    · intro h
      obtain ⟨-, before, after, hsplit, -⟩ := h
      simp at hsplit
  | append_singleton history g ih =>
    rw [registerAll_append, get?_register, lastUnder_append_iff]
    by_cases hg : g.name = name
    · simp [hg, eq_comm]
    · simp [hg, ih]

theorem exists_lastUnder_iff {name : String} {history : List Formatter} :
    (∃ f, LastUnder name history f) ↔ ∃ f ∈ history, f.name = name := by
  induction history using List.reverseRecOn with
  | nil => simp [LastUnder]
  | append_singleton history g ih =>
    simp only [lastUnder_append_iff]
    by_cases hg : g.name = name
    · simp [hg]
    · simp [hg, ih]

theorem mem_names_iff {r : Registry} {name : String} :
    name ∈ r.names ↔ ∃ f, r.get? name = some f := by
  rw [← Option.isSome_iff_exists, get?, List.find?_isSome, names, List.mem_map]
  simp

end Registry

/-! ## 3. Two ways to write a table -/

theorem Converter.toBytes_eq_output (c : Converter) (source : Bytes) :
    c.toBytes source = c.output source := by
  rw [toBytes, convert, deliver]
  cases c.output source with
  | error e => rfl
  | ok bytes => simp [Sink.accept, Sink.write, Sink.buffer, Sink.content]

namespace Registry

/-- **A conversion and the text of the table come to the same.** -/
theorem sameOutcome (r : Registry) {source : Bytes} {t : Table} (hload : load source = .ok t)
    (name : String) :
    SameOutcome (Converter.toBytes ⟨r, name⟩ source) (r.serialize t name) := by
  rw [Converter.toBytes_eq_output, Converter.output, hload, serialize]
  dsimp only
  by_cases hname : r.has name = true
  · rw [if_pos hname]
    cases r.format t name with
    | ok bytes => exact .written bytes
    | error e => exact .failed e
  · -- a conversion tests the name before the source, the text only meets the missing formatter
    have hnone : r.get? name = none := by simpa [has] using hname
    rw [if_neg hname, format, write, hnone]
    exact .failed (.notFound name)

/-! ## 4. All views -/

theorem agrees_registerAll (history : List Formatter) :
    Agrees (empty.registerAll history) history where
  has_iff name := by
    rw [has, Option.isSome_iff_exists]
    simp only [get?_registerAll_iff]
    exact exists_lastUnder_iff
  get?_isSome_iff name := by
    simp only [get?_registerAll_iff]
    exact exists_lastUnder_iff
  mem_names_iff name := by
    rw [Registry.mem_names_iff]
    simp only [get?_registerAll_iff]
    exact exists_lastUnder_iff
  get?_iff name f := get?_registerAll_iff
  get?_register f := by
    refine ⟨?_, fun name hname => ?_⟩
    · rw [Registry.get?_register, if_pos rfl]
    · rw [Registry.get?_register, if_neg hname.symm]
  increasing := by
    have hordered : Ordered (empty.registerAll history).formatters :=
      ordered_registerAll List.Pairwise.nil history
    exact List.pairwise_map.mpr hordered
  sameOutcome source t name hload := Registry.sameOutcome _ hload name

end Registry

/-- **All views of a registry agree with the history of its registrations**, and so do the two ways to
    write a table; the built-in registry starts with a history of its own. -/
theorem registry_agrees_with_history (history : List Formatter) :
    Agrees (Registry.empty.registerAll history) history ∧
      Agrees (Registry.builtin.registerAll history) (.yaml :: .json :: history) :=
  ⟨Registry.agrees_registerAll history, Registry.agrees_registerAll (.yaml :: .json :: history)⟩

end FunctionMap
