import FunctionMap.Proofs.Declaration.Reader
import FunctionMap.Proofs.Declaration.OpenDeclaration

/-!
# A run of the parser is a derivation

The parser goes through a source in single steps and comes back to a list from a comment; the
grammar of `Proofs/Declaration/Grammar` has neither steps nor phases. They are tied together in both
directions:

* along a derivation, every gap, entry and declaration moves the run on to what remains behind it
  (`run_of_gap`, `run_of_values`, `run_of_declares`), so the run gives what inserting the declarations
  one after the other gives, errors of duplicates included (`parse_of_file`);
* along a run, `State.Derives` says that what remains completes a derivation of the table that the
  run gives; it holds at the end and is carried back over every transition.

Main statement: `parse_eq_ok_iff`.
-/

namespace FunctionMap
namespace Parser

open Grammar

/-! ## 1. Gaps -/

/-- The state moved to where `rest` is still to come. -/
def State.upTo (s : State) (rest : List Char) : State := { s with cursor := s.cursor.upTo rest }

theorem State.upTo_upTo {s : State} {mid rest : List Char} (hmid : mid <:+ s.cursor.rest)
    (hrest : rest <:+ mid) : (s.upTo mid).upTo rest = s.upTo rest := by
  simp only [State.upTo, Cursor.upTo_upTo hmid hrest]

theorem State.upTo_self (s : State) : s.upTo s.cursor.rest = s := by
  rw [State.upTo, Cursor.upTo_self]

/-- States that take the same step run alike. -/
theorem run_congr {s s' : State} (hs : s.cursor.rest ≠ []) (hs' : s'.cursor.rest ≠ [])
    (h : s.step = s'.step) : run s = run s' := by
  cases hstep : s'.step with
  | ok s₂ => rw [run_of_step hs (h.trans hstep), run_of_step hs' hstep]
  | error e => rw [run_of_refusal hs (h.trans hstep), run_of_refusal hs' hstep]

theorem step_upTo_of_blanks {s : State} {r : Resume} (hphase : s.phase = r.phase) {rest : List Char}
    (h : Blanks s.cursor.rest rest) : (s.upTo rest).step = s.step := by
  have hskip := Cursor.skipWhitespace_upTo h
  cases r <;>
    simp only [State.step, hphase, Resume.phase, State.stepTop, State.stepValues,
      State.stepParameters, State.upTo, hskip]

/-- Blanks make no difference at top level and in a list. -/
theorem run_of_blanks {s : State} {r : Resume} (hphase : s.phase = r.phase) {rest : List Char}
    (h : Blanks s.cursor.rest rest) : run (s.upTo rest) = run s := by
  by_cases hs : s.cursor.rest = []
  · have hrest : rest = s.cursor.rest := by
      rw [hs] at h ⊢
      cases h
      rfl
    rw [hrest, State.upTo_self]
  by_cases hrest : rest = []
  -- the run from `s` still takes the step that finds nothing behind the blanks
  · subst hrest
    have hskip : s.cursor.skipWhitespace.rest = [] := by
      rw [Cursor.skipWhitespace_of_blanks h noBlank_nil, Cursor.rest_upTo]
    have hnext : nextPhase? r s.cursor.skipWhitespace = some .top := by rw [nextPhase?, hskip]
    rw [(Transition.turn r .top hphase hnext).run_eq hs, run_of_end rfl, run_of_end hskip]
    rfl
  · exact run_congr hrest hs (step_upTo_of_blanks hphase h)

/-- A character that calls for a phase is not read before the phase is entered. -/
theorem run_of_turn {s : State} {r : Resume} (hphase : s.phase = r.phase) {p : Phase}
    (hblank : NoBlank s.cursor.rest) (hs : s.cursor.rest ≠ [])
    (hnext : nextPhase? r s.cursor = some p) : run { s with phase := p } = run s := by
  have hskip := Cursor.skipWhitespace_of_noBlank hblank
  have hturn : Transition s { s with phase := p, cursor := s.cursor.skipWhitespace } :=
    .turn r p hphase (by rw [hskip, hnext])
  rw [hskip] at hturn
  exact (hturn.run_eq hs).symm

/-- A comment makes no difference at top level and in a list. -/
theorem run_of_comment {s : State} {r : Resume} (hphase : s.phase = r.phase) {rest : List Char}
    (h : Comment s.cursor.rest rest) : run (s.upTo rest) = run s := by
  obtain ⟨body, htext, -⟩ := h.text_eq
  have hblank : NoBlank s.cursor.rest := htext ▸ noBlank_cons (by decide)
  have hs : s.cursor.rest ≠ [] := htext ▸ List.cons_ne_nil _ _
  have hnext : nextPhase? r s.cursor = some (.comment r) := by
    rw [nextPhase?, htext]
    rfl
  have hcomment : Transition { s with phase := .comment r } _ := .uncomment r rfl
  rw [← run_of_turn hphase hblank hs hnext, hcomment.run_eq hs]
  simp only [State.upTo, Cursor.skipComment_of_comment h, ← hphase]

/-- **A gap makes no difference at top level and in a list.** -/
theorem run_of_gap {s : State} {r : Resume} (hphase : s.phase = r.phase) {rest : List Char}
    (h : Gap s.cursor.rest rest) : run (s.upTo rest) = run s := by
  generalize htext : s.cursor.rest = text at h
  induction h generalizing s with
  | none rest => rw [← htext, State.upTo_self]
  | @blank c text rest hc h ih =>
    have hblanks : Blanks s.cursor.rest text := by
      rw [htext]
      exact .more c hc (.none text)
    rw [← run_of_blanks hphase hblanks, ← ih (s := s.upTo _) hphase rfl,
      State.upTo_upTo hblanks.suffix h.suffix]
  | comment hc h ih =>
    rw [← htext] at hc
    rw [← run_of_comment hphase hc, ← ih (s := s.upTo _) hphase rfl,
      State.upTo_upTo hc.suffix h.suffix]

/-! ## 2. Entries -/

/-- In the list of values of the enumeration `e`, which stands behind `es`. -/
def inEnum (c : Cursor) (es : List Enumeration) (e : Enumeration) (fs : List Function) : State :=
  ⟨.values, c, ⟨es ++ [e], fs⟩, some es.length, none⟩

/-- In the list of parameters of the function `f`, which stands behind `fs`. -/
def inFunction (c : Cursor) (es : List Enumeration) (fs : List Function) (f : Function) : State :=
  ⟨.parameters, c, ⟨es, fs ++ [f]⟩, none, some fs.length⟩

/-- Where an entry stands, a list goes on. -/
theorem nextPhase?_of_entryAt {r : Resume} {c : Cursor} (h : EntryAt c.rest) :
    c.skipWhitespace = c ∧ nextPhase? r c.skipWhitespace = none := by
  have hskip := Cursor.skipWhitespace_of_noBlank h.noBlank
  refine ⟨hskip, nextPhase?_eq_none_iff.mpr ?_⟩
  rwa [hskip]

theorem run_of_value {c : Cursor} {es : List Enumeration} {e : Enumeration} {fs : List Function}
    {value : EnumValue} {rest : List Char} (h : Value c.rest value rest) :
    run (inEnum (c.upTo rest) es { e with values := e.values ++ [value] } fs)
      = run (inEnum c es e fs) := by
  have hentry : EntryAt c.rest := h.entryAt
  obtain ⟨hskip, hnext⟩ := nextPhase?_of_entryAt (r := .values) hentry
  have hread : readValue c.skipWhitespace = .ok (value, c.upTo rest) := by
    rw [hskip]
    exact (readValue_eq_ok_iff hentry).mpr ⟨rest, h, rfl⟩
  have hstep := Transition.value (s := inEnum c es e fs) value (c.upTo rest) _ rfl hnext hread
    (Table.pushValue?_last es e fs value)
  exact (hstep.run_eq hentry.ne_nil).symm

theorem run_of_parameter {c : Cursor} {es : List Enumeration} {fs : List Function} {f : Function}
    {parameter : Parameter} {rest : List Char} (h : ParameterEntry c.rest parameter rest) :
    run (inFunction (c.upTo rest) es fs { f with parameters := f.parameters ++ [parameter] })
      = run (inFunction c es fs f) := by
  have hentry : EntryAt c.rest := h.entryAt
  obtain ⟨hskip, hnext⟩ := nextPhase?_of_entryAt (r := .parameters) hentry
  have hread : readParameter c.skipWhitespace = .ok (parameter, c.upTo rest) := by
    rw [hskip]
    exact (readParameter_eq_ok_iff hentry).mpr ⟨rest, h, rfl⟩
  have hstep := Transition.parameter (s := inFunction c es fs f) parameter (c.upTo rest) _ rfl hnext
    hread (Table.pushParameter?_last es fs f parameter)
  exact (hstep.run_eq hentry.ne_nil).symm

/-- What an item moves on, items in a row move on. -/
theorem star_congr {α β : Type} {item : List Char → α → List Char → Prop} {F : Cursor → List α → β}
    (hsuffix : ∀ text x rest, item text x rest → rest <:+ text)
    (hitem : ∀ c xs x rest, item c.rest x rest → F (c.upTo rest) (xs ++ [x]) = F c xs)
    (xs : List α) {c : Cursor} {ys : List α} {rest : List Char} (h : Star item c.rest ys rest) :
    F (c.upTo rest) (xs ++ ys) = F c xs := by
  generalize htext : c.rest = text at h
  induction h generalizing c xs with
  | nil rest => rw [← htext, Cursor.upTo_self, List.append_nil]
  | @cons text mid rest y ys hy hys ih =>
    rw [← htext] at hy
    rw [← hitem c xs y mid hy, ← ih (xs ++ [y]) (c := c.upTo mid) rfl,
      Cursor.upTo_upTo (hsuffix _ _ _ hy) (hys.suffix hsuffix), List.append_assoc]
    rfl

/-- **Values, with the gaps behind them, are appended to the open enumeration.** -/
theorem run_of_values {c : Cursor} {es : List Enumeration} {name elementType : String}
    {fs : List Function} {values : List EnumValue} {rest : List Char}
    (h : Star (Spaced Value) c.rest values rest) :
    run (inEnum (c.upTo rest) es ⟨name, elementType, values⟩ fs)
      = run (inEnum c es ⟨name, elementType, []⟩ fs) := by
  refine star_congr (F := fun c values => run (inEnum c es ⟨name, elementType, values⟩ fs))
    (fun _ _ _ => Spaced.suffix fun _ _ _ => Value.suffix) ?_ [] h
  rintro c values value rest ⟨hvalue, hgap⟩
  rw [← run_of_value hvalue, ← Cursor.upTo_upTo hvalue.suffix hgap.suffix]
  exact run_of_gap (s := inEnum (c.upTo _) es ⟨name, elementType, values ++ [value]⟩ fs)
    (r := .values) rfl hgap

/-- **Parameters, with the gaps behind them, are appended to the open function.** -/
theorem run_of_parameters {c : Cursor} {es : List Enumeration} {fs : List Function}
    {key : FunctionKey} {name : String} {parameters : List Parameter} {rest : List Char}
    (h : Star (Spaced ParameterEntry) c.rest parameters rest) :
    run (inFunction (c.upTo rest) es fs ⟨key, name, parameters⟩)
      = run (inFunction c es fs ⟨key, name, []⟩) := by
  refine star_congr (F := fun c parameters => run (inFunction c es fs ⟨key, name, parameters⟩))
    (fun _ _ _ => Spaced.suffix fun _ _ _ => ParameterEntry.suffix) ?_ [] h
  rintro c parameters parameter rest ⟨hparameter, hgap⟩
  rw [← run_of_parameter hparameter, ← Cursor.upTo_upTo hparameter.suffix hgap.suffix]
  exact run_of_gap (s := inFunction (c.upTo _) es fs ⟨key, name, parameters ++ [parameter]⟩)
    (r := .parameters) rfl hgap

/-! ## 3. Declarations -/

/-- An enumeration header is entered without moving, and can be read there. -/
theorem run_of_enumHeader {s : State} {r : Resume} (hphase : s.phase = r.phase)
    {name elementType : String} {rest : List Char}
    (h : EnumHeader s.cursor.rest name elementType rest) :
    s.cursor.rest ≠ [] ∧ run { s with phase := .enumHeader } = run s ∧
      readEnumHeader s.cursor = .ok (name, elementType, s.cursor.upTo rest) := by
  have hread := readEnumHeader_eq_ok_iff.mpr ⟨rest, h, rfl⟩
  generalize htext : s.cursor.rest = text at h
  cases h with
  | mk hname htype =>
    have hblank : NoBlank s.cursor.rest := htext ▸ noBlank_cons (by decide)
    have hs : s.cursor.rest ≠ [] := htext ▸ List.cons_ne_nil _ _
    have hnext : nextPhase? r s.cursor = some .enumHeader := by
      rw [nextPhase?, htext]
      rfl
    exact ⟨htext ▸ hs, run_of_turn hphase hblank hs hnext, hread⟩

/-- A function header is entered without moving, and can be read there. -/
theorem run_of_functionHeader {s : State} {r : Resume} (hphase : s.phase = r.phase)
    {key : FunctionKey} {name : String} {rest : List Char}
    (h : FunctionHeader s.cursor.rest key name rest) :
    s.cursor.rest ≠ [] ∧ run { s with phase := .functionHeader } = run s ∧
      readFunctionHeader s.cursor = .ok (key, name, s.cursor.upTo rest) := by
  have hread := readFunctionHeader_eq_ok_iff.mpr ⟨rest, h, rfl⟩
  generalize htext : s.cursor.rest = text at h
  cases h with
  | mk hgroup hcomma htype hbracket hname =>
    have hblank : NoBlank s.cursor.rest := htext ▸ noBlank_cons (by decide)
    have hs : s.cursor.rest ≠ [] := htext ▸ List.cons_ne_nil _ _
    have hnext : nextPhase? r s.cursor = some .functionHeader := by
      rw [nextPhase?, htext]
      rfl
    exact ⟨htext ▸ hs, run_of_turn hphase hblank hs hnext, hread⟩

/-- The state behind a declaration: in its list, where all its entries have been read. -/
def behind (t : Table) (c : Cursor) : Declaration → State
  | .enumeration e => inEnum c t.enums e t.functions
  | .function f => inFunction c t.enums t.functions f

/-- The phase behind a declaration. -/
def listOf : Declaration → Resume
  | .enumeration _ => .values
  | .function _ => .parameters

theorem phase_behind (t : Table) (c : Cursor) (d : Declaration) :
    (behind t c d).phase = (listOf d).phase := by cases d <;> rfl

theorem cursor_behind (t : Table) (c : Cursor) (d : Declaration) : (behind t c d).cursor = c := by
  cases d <;> rfl

theorem table_behind (t : Table) (c : Cursor) (d : Declaration) :
    (behind t c d).table = t.add d := by cases d <;> rfl

/-- **A declaration with a new key moves the run on to what remains behind it.** -/
theorem run_of_declares {s : State} {r : Resume} (hphase : s.phase = r.phase) {d : Declaration}
    {rest : List Char} (h : Declares s.cursor.rest d rest) (hnew : s.table.IsNew d) :
    run (behind s.table (s.cursor.upTo rest) d) = run s := by
  have hsuffix := h.suffix
  cases h with
  | @enumeration a b _ name elementType values hheader hgap hvalues =>
    obtain ⟨hs, hrun, hread⟩ := run_of_enumHeader hphase hheader
    have hstep : Transition { s with phase := .enumHeader } _ :=
      .enumHeader name elementType _ rfl hread hnew
    have ha := hheader.suffix
    have hb := hgap.suffix.trans ha
    rw [← hrun, hstep.run_eq hs, behind, ← Cursor.upTo_upTo hb (suffix_of_values hvalues)]
    refine (run_of_values hvalues).trans ?_
    rw [← Cursor.upTo_upTo ha hgap.suffix]
    exact run_of_gap (s := inEnum (s.cursor.upTo a) s.table.enums ⟨name, elementType, []⟩
      s.table.functions) (r := .values) rfl hgap
  | @function a b _ key name parameters hheader hgap hparameters =>
    obtain ⟨hs, hrun, hread⟩ := run_of_functionHeader hphase hheader
    have hstep : Transition { s with phase := .functionHeader } _ :=
      .functionHeader key name _ rfl hread hnew
    have ha := hheader.suffix
    have hb := hgap.suffix.trans ha
    rw [← hrun, hstep.run_eq hs, behind, ← Cursor.upTo_upTo hb (suffix_of_parameters hparameters)]
    refine (run_of_parameters hparameters).trans ?_
    rw [← Cursor.upTo_upTo ha hgap.suffix]
    exact run_of_gap (s := inFunction (s.cursor.upTo a) s.table.enums s.table.functions
      ⟨key, name, []⟩) (r := .parameters) rfl hgap

/-- **A declaration with an old key ends the run.** -/
theorem run_of_duplicate {s : State} {r : Resume} (hphase : s.phase = r.phase) {d : Declaration}
    {rest : List Char} (h : Declares s.cursor.rest d rest) (hold : ¬ s.table.IsNew d) :
    run s = .error (Table.duplicateOf d) := by
  cases h with
  | @enumeration a b _ name elementType values hheader hgap hvalues =>
    obtain ⟨hs, hrun, hread⟩ := run_of_enumHeader hphase hheader
    have hstep : State.step { s with phase := .enumHeader } =
        .error (.duplicate .enumeration name) := by
      have hmem := Classical.not_not.mp hold
      simp only [State.step, State.stepEnumHeader, hread,
        Table.insertEnum_of_mem (e := ⟨name, elementType, []⟩) hmem]
    rw [← hrun, run_of_refusal (s := { s with phase := .enumHeader }) hs hstep, Table.duplicateOf]
  | @function a b _ key name parameters hheader hgap hparameters =>
    obtain ⟨hs, hrun, hread⟩ := run_of_functionHeader hphase hheader
    have hstep : State.step { s with phase := .functionHeader } =
        .error (.duplicate .function key.text) := by
      have hmem := Classical.not_not.mp hold
      simp only [State.step, State.stepFunctionHeader, hread,
        Table.insertFunction_of_mem (f := ⟨key, name, []⟩) hmem]
    rw [← hrun, run_of_refusal (s := { s with phase := .functionHeader }) hs hstep,
      Table.duplicateOf]

/-- **Declarations up to the end of the source are inserted one after the other.** -/
theorem run_of_declarations {s : State} {r : Resume} (hphase : s.phase = r.phase)
    {ds : List Declaration} (h : Star Declares s.cursor.rest ds []) :
    run s = s.table.insertAll ds := by
  generalize htext : s.cursor.rest = text at h
  generalize hend : ([] : List Char) = rest at h
  -- the list of each declaration is where the next one is entered, so the phase changes
  induction h generalizing s r with
  | nil rest => rw [run_of_end (htext.trans hend.symm), Table.insertAll]
  | @cons text mid rest d ds hd hds ih =>
    rw [← htext] at hd
    rw [Table.insertAll]
    by_cases hnew : s.table.IsNew d
    · have hrun := ih (phase_behind s.table (s.cursor.upTo mid) d) (by rw [cursor_behind]; rfl) hend
      rw [← run_of_declares hphase hd hnew, hrun, table_behind, Table.insert_of_isNew hnew]
    · rw [run_of_duplicate hphase hd hnew, Table.insert_of_not_isNew hnew]

/-- **A source is parsed to what inserting its declarations one after the other gives.** -/
theorem parse_of_file {text : List Char} {ds : List Declaration} (h : File text ds) :
    parse (Utf8.encode text) = Table.empty.insertAll ds := by
  obtain ⟨hgap, hds⟩ := h
  rw [(parse_eq_run (Cursor.ofBytes_encode text)).1,
    ← run_of_gap (s := .start (.ofText text)) (r := .top) rfl hgap]
  exact run_of_declarations (r := .top) rfl hds

/-! ## 4. What remains along a run -/

/-- In the list or level `r`, with the table `u` so far, a text leads to the table `t`: entries of
    the last declaration of the list, and then declarations up to the end. -/
inductive Leads : Resume → List Char → Table → Table → Prop where
  | top {text a : List Char} {ds : List Declaration} {u t : Table} (hgap : Gap text a)
      (hds : Star Declares a ds []) (hinsert : u.insertAll ds = .ok t) : Leads .top text u t
  | values {text a b : List Char} {values : List EnumValue} {ds : List Declaration} {u t : Table}
      (hgap : Gap text a) (hvalues : Star (Spaced Value) a values b) (hds : Star Declares b ds [])
      (hinsert : (u.extendEnum values).insertAll ds = .ok t) : Leads .values text u t
  | parameters {text a b : List Char} {parameters : List Parameter} {ds : List Declaration}
      {u t : Table} (hgap : Gap text a) (hparameters : Star (Spaced ParameterEntry) a parameters b)
      (hds : Star Declares b ds []) (hinsert : (u.extendFunction parameters).insertAll ds = .ok t) :
      Leads .parameters text u t

/-- What remains in a state completes a derivation of the table `t`. -/
structure State.Derives (s : State) (t : Table) : Prop where
  within : ∀ r, s.phase.Within r → Leads r s.cursor.rest s.table t
  header : s.phase = .enumHeader ∨ s.phase = .functionHeader →
    ∃ ds, Star Declares s.cursor.rest ds [] ∧ s.table.insertAll ds = .ok t

/-- Declarations can follow at once, in any list. -/
theorem leads_of_declarations {r : Resume} {text : List Char} {ds : List Declaration} {u t : Table}
    (hds : Star Declares text ds []) (hinsert : u.insertAll ds = .ok t) : Leads r text u t := by
  cases r with
  | top => exact .top (.none text) hds hinsert
  | values => exact .values (.none text) (.nil text) hds (by rwa [Table.extendEnum_nil])
  | parameters => exact .parameters (.none text) (.nil text) hds (by rwa [Table.extendFunction_nil])

/-- What leads to a table starts with a gap, so a longer gap leads there too. -/
theorem Leads.of_gap {r : Resume} {text mid : List Char} {u t : Table}
    (hgap : ∀ rest, Gap mid rest → Gap text rest) (h : Leads r mid u t) : Leads r text u t := by
  cases h with
  | top hmid hds hinsert => exact .top (hgap _ hmid) hds hinsert
  | values hmid hvalues hds hinsert => exact .values (hgap _ hmid) hvalues hds hinsert
  | parameters hmid hparameters hds hinsert => exact .parameters (hgap _ hmid) hparameters hds hinsert

theorem Leads.of_blanks {r : Resume} {text mid : List Char} {u t : Table} (hb : Blanks text mid)
    (h : Leads r mid u t) : Leads r text u t := h.of_gap fun _ => hb.gap

theorem Leads.of_comment {r : Resume} {text mid : List Char} {u t : Table} (hc : Comment text mid)
    (h : Leads r mid u t) : Leads r text u t := h.of_gap fun _ => .comment hc

/-- At top level the rest of a derivation is one in every list: no entry is left to come. -/
theorem Leads.of_top {r : Resume} {text : List Char} {u t : Table} (h : Leads .top text u t) :
    Leads r text u t := by
  cases h with
  | top hgap hds hinsert =>
    have hnone : Leads r _ u t := leads_of_declarations hds hinsert
    clear hds
    induction hgap with
    | none _ => exact hnone
    | blank c hc _ ih => exact (ih hnone).of_blanks (.more c hc (.none _))
    | comment hc _ ih => exact (ih hnone).of_comment hc

/-- A value completes what remains behind it in the list. -/
theorem Leads.of_value {text mid rest : List Char} {es : List Enumeration} {e : Enumeration}
    {fs : List Function} {value : EnumValue} {t : Table} (hb : Blanks text mid)
    (hvalue : Value mid value rest)
    (h : Leads .values rest ⟨es ++ [{ e with values := e.values ++ [value] }], fs⟩ t) :
    Leads .values text ⟨es ++ [e], fs⟩ t := by
  cases h with
  | values hgap hvalues hds hinsert =>
    refine Leads.of_blanks hb (.values (.none mid) (.cons (.mk hvalue hgap) hvalues) hds ?_)
    rw [← hinsert, Table.extendEnum_last, Table.extendEnum_last, List.append_assoc]
    rfl

/-- A parameter completes what remains behind it in the list. -/
theorem Leads.of_parameter {text mid rest : List Char} {es : List Enumeration}
    {fs : List Function} {f : Function} {parameter : Parameter} {t : Table} (hb : Blanks text mid)
    (hparameter : ParameterEntry mid parameter rest)
    (h : Leads .parameters rest
      ⟨es, fs ++ [{ f with parameters := f.parameters ++ [parameter] }]⟩ t) :
    Leads .parameters text ⟨es, fs ++ [f]⟩ t := by
  cases h with
  | parameters hgap hparameters hds hinsert =>
    refine Leads.of_blanks hb
      (.parameters (.none mid) (.cons (.mk hparameter hgap) hparameters) hds ?_)
    rw [← hinsert, Table.extendFunction_last, Table.extendFunction_last, List.append_assoc]
    rfl

/-- An enumeration header completes what remains behind it to a declaration. -/
theorem Leads.of_enumHeader {text rest : List Char} {name elementType : String} {u t : Table}
    (hheader : EnumHeader text name elementType rest) (hnew : name ∉ u.enumNames)
    (h : Leads .values rest (u.addEnum ⟨name, elementType, []⟩) t) :
    ∃ ds, Star Declares text ds [] ∧ u.insertAll ds = .ok t := by
  cases h with
  | values hgap hvalues hds hinsert =>
    refine ⟨_, .cons (.enumeration hheader hgap hvalues) hds, ?_⟩
    rw [Table.insertAll, Table.insert_of_isNew (d := .enumeration ⟨name, elementType, _⟩) hnew,
      ← hinsert, Table.addEnum, Table.extendEnum_last]
    rfl

/-- A function header completes what remains behind it to a declaration. -/
theorem Leads.of_functionHeader {text rest : List Char} {key : FunctionKey} {name : String}
    {u t : Table} (hheader : FunctionHeader text key name rest) (hnew : key ∉ u.functionKeys)
    (h : Leads .parameters rest (u.addFunction ⟨key, name, []⟩) t) :
    ∃ ds, Star Declares text ds [] ∧ u.insertAll ds = .ok t := by
  cases h with
  | parameters hgap hparameters hds hinsert =>
    refine ⟨_, .cons (.function hheader hgap hparameters) hds, ?_⟩
    rw [Table.insertAll, Table.insert_of_isNew (d := .function ⟨key, name, _⟩) hnew,
      ← hinsert, Table.addFunction, Table.extendFunction_last]
    rfl

/-- Inside a list or level only what remains of it counts. -/
theorem derives_of_within {s : State} {r : Resume} {t : Table} (hphase : s.phase.Within r)
    (h : Leads r s.cursor.rest s.table t) : s.Derives t where
  within r' hr := by
    obtain rfl := hphase.unique hr
    exact h
  header hh := by
    rcases hh with hh | hh <;> rw [hh] at hphase
    · exact absurd hphase (not_within_enumHeader r)
    · exact absurd hphase (not_within_functionHeader r)

theorem derives_of_header {s : State} {t : Table} {ds : List Declaration}
    (hphase : s.phase = .enumHeader ∨ s.phase = .functionHeader)
    (hds : Star Declares s.cursor.rest ds []) (hinsert : s.table.insertAll ds = .ok t) :
    s.Derives t where
  within r hr := by
    rcases hphase with hphase | hphase <;> rw [hphase] at hr
    · exact absurd hr (not_within_enumHeader r)
    · exact absurd hr (not_within_functionHeader r)
  header _ := ⟨ds, hds, hinsert⟩

/-- **A derivation of what remains behind a step is completed to one of what remains before it.** -/
theorem Transition.derives {s s' : State} {t : Table} (h : Transition s s') (hs : s.Consistent)
    (ht : s'.Derives t) : s.Derives t := by
  cases h with
  | turn r p hphase hnext =>
    refine derives_of_within (.inl hphase) (Leads.of_blanks (Cursor.blanks_skipWhitespace s.cursor) ?_)
    rcases nextPhase?_eq_some_cases hnext with ⟨-, rfl⟩ | ⟨-, rfl⟩ | ⟨-, rfl⟩ | ⟨-, rfl⟩
    · exact (ht.within .top (Or.inl rfl)).of_top
    · exact ht.within r (Or.inr rfl)
    · obtain ⟨ds, hds, hinsert⟩ := ht.header (Or.inl rfl)
      exact leads_of_declarations hds hinsert
    · obtain ⟨ds, hds, hinsert⟩ := ht.header (Or.inr rfl)
      exact leads_of_declarations hds hinsert
  | uncomment r hphase =>
    obtain ⟨rest, hrest⟩ : ∃ rest, s.cursor.rest = '#' :: rest :=
      List.head?_eq_some_iff.mp (hs.comment r hphase)
    refine derives_of_within (.inr hphase) (Leads.of_comment (Cursor.comment_skipComment hrest) ?_)
    exact ht.within r (Or.inl rfl)
  | enumHeader name elementType c hphase hread hnew =>
    obtain ⟨rest, hheader, rfl⟩ := readEnumHeader_eq_ok_iff.mp hread
    obtain ⟨ds, hds, hinsert⟩ := Leads.of_enumHeader hheader hnew (ht.within .values (Or.inl rfl))
    exact derives_of_header (Or.inl hphase) hds hinsert
  | functionHeader key name c hphase hread hnew =>
    obtain ⟨rest, hheader, rfl⟩ := readFunctionHeader_eq_ok_iff.mp hread
    obtain ⟨ds, hds, hinsert⟩ :=
      Leads.of_functionHeader hheader hnew (ht.within .parameters (Or.inl rfl))
    exact derives_of_header (Or.inr hphase) hds hinsert
  | value value c table hphase hentry hread hpush =>
    obtain ⟨rest, hvalue, rfl⟩ := (readValue_eq_ok_iff (nextPhase?_eq_none_iff.mp hentry)).mp hread
    obtain ⟨es, e, he, -, rfl⟩ := hs.value_pushed (within_self hphase) hpush
    have hu : s.table = ⟨es ++ [e], s.table.functions⟩ := by rw [← he]
    refine derives_of_within (r := .values) (.inl hphase) ?_
    rw [hu]
    exact .of_value (Cursor.blanks_skipWhitespace _) hvalue (ht.within .values (within_self hphase))
  | parameter parameter c table hphase hentry hread hpush =>
    obtain ⟨rest, hparameter, rfl⟩ :=
      (readParameter_eq_ok_iff (nextPhase?_eq_none_iff.mp hentry)).mp hread
    obtain ⟨fs, f, hf, -, rfl⟩ := hs.parameter_pushed (within_self hphase) hpush
    have hu : s.table = ⟨s.table.enums, fs ++ [f]⟩ := by rw [← hf]
    refine derives_of_within (r := .parameters) (.inl hphase) ?_
    rw [hu]
    exact .of_parameter (Cursor.blanks_skipWhitespace _) hparameter
      (ht.within .parameters (within_self hphase))

/-- **What remains in a state of a run completes a derivation of the table that the run gives.** -/
theorem derives_of_run {s : State} {t : Table} (h : run s = .ok t) (hs : s.Consistent) :
    s.Derives t := by
  induction s using run_induction with
  | atEnd s hend =>
    rw [run_of_end hend] at h
    cases h
    have hleads (r : Resume) : Leads r s.cursor.rest s.table s.table := by
      rw [hend]
      exact leads_of_declarations (.nil []) rfl
    rcases hs.phase_of_end hend with hphase | hphase | hphase
    · exact derives_of_within (r := .top) (.inl hphase) (hleads _)
    · exact derives_of_within (r := .values) (.inl hphase) (hleads _)
    · exact derives_of_within (r := .parameters) (.inl hphase) (hleads _)
  | refusal s e hne he =>
    rw [run_of_refusal hne he] at h
    cases h
  | step s s₂ hne ht ih =>
    rw [ht.run_eq hne] at h
    exact ht.derives hs (ih h (ht.consistent hs))

/-! ## 5. Sources and their derivations -/

theorem file_of_parse {source : Bytes} {t : Table} (h : parse source = .ok t) :
    ∃ text ds, source = Utf8.encode text ∧ File text ds ∧ Table.empty.insertAll ds = .ok t := by
  cases hc : Cursor.ofBytes source with
  | error e =>
    rw [(parse_of_notUtf8 hc).1] at h
    cases h
  | ok c =>
    rw [(parse_eq_run hc).1] at h
    obtain ⟨text, htext, rfl⟩ := Cursor.ofBytes_eq_ok_iff.mp hc
    cases (derives_of_run h (consistent_start _)).within .top (Or.inl rfl) with
    | top hgap hds hinsert => exact ⟨text, _, htext, .mk hgap hds, hinsert⟩

/-- **A source is accepted exactly if it has a derivation in which no enumeration name and no
    function key occurs twice, and the table lists the declarations of that derivation.** -/
theorem parse_eq_ok_iff (source : Bytes) (t : Table) :
    parse source = .ok t ↔ ∃ text ds, source = Utf8.encode text ∧ File text ds ∧
      (Table.ofDeclarations ds).Distinct ∧ t = Table.ofDeclarations ds := by
  constructor
  · intro h
    obtain ⟨text, ds, htext, hfile, hinsert⟩ := file_of_parse h
    obtain ⟨hdistinct, rfl⟩ := (Table.insertAll_eq_ok_iff Table.distinct_empty).mp hinsert
    exact ⟨text, ds, htext, hfile, hdistinct, rfl⟩
  · intro h
    obtain ⟨text, ds, rfl, hfile, hdistinct, rfl⟩ := h
    rw [parse_of_file hfile]
    exact (Table.insertAll_eq_ok_iff Table.distinct_empty).mpr ⟨hdistinct, rfl⟩

end Parser
end FunctionMap
