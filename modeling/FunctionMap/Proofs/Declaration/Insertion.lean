import FunctionMap.Proofs.Declaration.Span
import FunctionMap.Proofs.Declaration.Alike
import FunctionMap.Proofs.Declaration.Derivation
import FunctionMap.Proofs.Declaration.Progress

/-!
# A comment put in between two entries is invisible

The parser is run on a source up to a state that is at top level or in a list, and a comment with a
line feed is put in where the cursor stands. The new run is compared with the old one in two parts:

* in front of the comment the states are the same, but for the comment that is still to come
  (`State.withRest`). Every step moves the new run on as well (`run_withRest_of_transition`), since a
  rule looks no further than at the first character behind it. Only the last step may be another: at
  white space up to the end of the source, and in a comment that the new one continues;
* behind the comment all offsets are greater by its length, and nothing else is changed
  (`alike_moved`).

Main statement: `parse_insertComment`.
-/

namespace FunctionMap

open Grammar

/-! ## 1. Behind the comment -/

/-- The error, pointing further back in the source. -/
def SourceError.moved (k : Nat) : SourceError → SourceError
  | .unexpectedCharacter character offset => .unexpectedCharacter character (offset + k)
  | .unexpectedEnd expected offset => .unexpectedEnd expected (offset + k)
  | .notAnInteger token offset fault => .notAnInteger token (offset + k) fault
  | .duplicate kind key => .duplicate kind key
  | .strayEntry what => .strayEntry what
  | .notUtf8 offset => .notUtf8 (offset + k)

/-- The cursor at the same text, further back in the source. -/
def Cursor.moved (k : Nat) (c : Cursor) : Cursor := ⟨c.offset + k, c.rest⟩

theorem Cursor.advance_moved (k : Nat) (c : Cursor) (read rest : List Char) :
    (c.moved k).advance read rest = (c.advance read rest).moved k := by
  simp only [advance, moved, Nat.add_right_comm]

theorem Cursor.unexpected_moved (k : Nat) (c : Cursor) :
    (c.moved k).unexpected = c.unexpected.moved k := by
  obtain ⟨offset, rest⟩ := c
  cases rest <;> rfl

/-- **Reading does not depend on the offset.** -/
theorem alike_moved (k : Nat) :
    Alike (fun c c' => c' = c.moved k) (fun e e' => e' = e.moved k) where
  unlocated e he := by cases e <;> first | rfl | cases he
  atEnd c c' h := by rw [h]; rfl
  skipWhitespace c c' h := by rw [h]; exact Cursor.advance_moved k c _ _
  current? c c' h := by rw [h]; rfl
  skipComment c c' h _ := by rw [h]; exact Cursor.advance_moved k c _ _
  unexpected c c' h := by rw [h]; exact Cursor.unexpected_moved k c
  expect c c' x description h _ _ := by
    have hunexpected := Cursor.unexpected_moved k c
    obtain ⟨offset, rest⟩ := c
    subst h
    cases rest with
    | nil => exact .error rfl
    | cons y rest =>
      simp only [Cursor.expect, Cursor.moved] at hunexpected ⊢
      split
      · exact .ok (Cursor.advance_moved k ⟨offset, y :: rest⟩ _ rest)
      · exact .error hunexpected
  readToken c c' h := by
    subst h
    unfold Cursor.readToken
    dsimp only [Cursor.moved]
    split
    · exact .error rfl
    · exact .error rfl
    · exact .ok ⟨⟨rfl, fun _ => rfl⟩, Cursor.advance_moved k c _ _⟩

namespace Parser

/-- **A run further back in the source gives the same table, or the same error further back.** -/
theorem run_moved (k : Nat) {s : State} (hs : s.Consistent) :
    run { s with cursor := s.cursor.moved k } = (run s).mapError (·.moved k) := by
  have hrun := (alike_moved k).run hs (.mk rfl)
  generalize run s = x, run { s with cursor := s.cursor.moved k } = y at hrun
  cases hrun with
  | ok h => rw [h]; rfl
  | error h => rw [h]; rfl

end Parser

/-! ## 2. In front of the comment -/

namespace Cursor

/-- The cursor with another text to come. -/
def withRest (c : Cursor) (text : List Char) : Cursor := ⟨c.offset, text⟩

section WithRest

variable {c : Cursor} {read read' back : List Char}

/-- The same characters are read, whatever is to come behind them. -/
theorem upTo_withRest (h : c.rest = read ++ back) (read' z : List Char) :
    (c.withRest (read ++ z)).upTo (read' ++ z) = (c.upTo (read' ++ back)).withRest (read' ++ z) := by
  simp only [upTo, withRest, h, Utf8.size_append, Nat.add_sub_add_right]

theorem skipWhitespace_withRest (h : c.rest = read ++ back)
    (h' : c.skipWhitespace.rest = read' ++ back) (z : List Char) :
    (c.withRest (read ++ '#' :: z)).skipWhitespace
      = c.skipWhitespace.withRest (read' ++ '#' :: z) := by
  have hblanks : Blanks (read ++ back) (read' ++ back) := h ▸ h' ▸ blanks_skipWhitespace c
  have hrest : NoBlank (read' ++ '#' :: z) :=
    (sameStart_hash read' back z).noBlank (h' ▸ noBlank_skipWhitespace c)
  have hskip : c.upTo (read' ++ back) = c.skipWhitespace := by
    rw [skipWhitespace_eq_upTo, ← h', skipWhitespace_eq_upTo, rest_upTo]
  rw [skipWhitespace_of_blanks (hblanks.spanned.replace z) hrest, upTo_withRest h, hskip]

theorem skipComment_withRest {rest : List Char} (hhash : c.rest = '#' :: rest)
    (h : c.rest = read ++ back) (h' : c.skipComment.rest = read' ++ back) (hne : read' ≠ [])
    (z : List Char) :
    (c.withRest (read ++ z)).skipComment = c.skipComment.withRest (read' ++ z) := by
  have hcomment : Comment (read ++ back) (read' ++ back) := h ▸ h' ▸ comment_skipComment hhash
  obtain ⟨body, htext, hbody⟩ := hcomment.text_eq
  have hread : read = '#' :: body ++ read' := by
    rw [← List.append_assoc] at htext
    exact List.append_cancel_right htext
  have hcomment' : Comment (c.withRest (read ++ z)).rest (read' ++ z) := by
    refine ⟨⟨body, by rw [withRest, hread, List.append_assoc], hbody⟩, fun x hx => ?_⟩
    obtain ⟨y, ys, rfl⟩ := List.exists_cons_of_ne_nil hne
    exact hcomment.maximal x hx
  have hskip : c.upTo (read' ++ back) = c.skipComment := by
    rw [← h', ← skipComment_of_comment (comment_skipComment hhash)]
  rw [skipComment_of_comment hcomment', upTo_withRest h, hskip]

end WithRest

end Cursor

namespace Parser

section Readers

variable {c c' : Cursor} {read read' back : List Char} (hread : c.rest = read ++ back)
  (hread' : c'.rest = read' ++ back) (z : List Char)

include hread hread'

/-- What a rule reads in front of `back`, it also reads in front of a `#`. -/
theorem exists_upTo_withRest {R : List Char → List Char → Prop}
    (hspan : ∀ rest, R c.rest rest → Spanned R c.rest rest)
    (h : ∃ rest, R c.rest rest ∧ c' = c.upTo rest) :
    ∃ rest, R (c.withRest (read ++ '#' :: z)).rest rest ∧
      c'.withRest (read' ++ '#' :: z) = (c.withRest (read ++ '#' :: z)).upTo rest := by
  obtain ⟨rest, hrule, rfl⟩ := h
  obtain rfl : rest = read' ++ back := hread'
  have hspanned := hspan _ hrule
  rw [hread] at hspanned
  exact ⟨_, hspanned.replace z, (Cursor.upTo_withRest hread _ _).symm⟩

theorem readEnumHeader_withRest {name elementType : String}
    (h : readEnumHeader c = .ok (name, elementType, c')) :
    readEnumHeader (c.withRest (read ++ '#' :: z))
      = .ok (name, elementType, c'.withRest (read' ++ '#' :: z)) :=
  readEnumHeader_eq_ok_iff.mpr (exists_upTo_withRest (R := (EnumHeader · name elementType ·)) hread
    hread' z (fun _ => EnumHeader.spanned) (readEnumHeader_eq_ok_iff.mp h))

theorem readFunctionHeader_withRest {key : FunctionKey} {name : String}
    (h : readFunctionHeader c = .ok (key, name, c')) :
    readFunctionHeader (c.withRest (read ++ '#' :: z))
      = .ok (key, name, c'.withRest (read' ++ '#' :: z)) :=
  readFunctionHeader_eq_ok_iff.mpr (exists_upTo_withRest (R := (FunctionHeader · key name ·)) hread
    hread' z (fun _ => FunctionHeader.spanned) (readFunctionHeader_eq_ok_iff.mp h))

theorem readValue_withRest (he : EntryAt c.rest) {value : EnumValue}
    (h : readValue c = .ok (value, c')) :
    readValue (c.withRest (read ++ '#' :: z)) = .ok (value, c'.withRest (read' ++ '#' :: z)) := by
  obtain ⟨rest, hvalue, hc⟩ := exists_upTo_withRest (R := (Value · value ·)) hread hread' z
    (fun _ => Value.spanned) ((readValue_eq_ok_iff he).mp h)
  exact (readValue_eq_ok_iff hvalue.entryAt).mpr ⟨rest, hvalue, hc⟩

theorem readParameter_withRest (he : EntryAt c.rest) {parameter : Parameter}
    (h : readParameter c = .ok (parameter, c')) :
    readParameter (c.withRest (read ++ '#' :: z))
      = .ok (parameter, c'.withRest (read' ++ '#' :: z)) := by
  obtain ⟨rest, hparameter, hc⟩ := exists_upTo_withRest (R := (ParameterEntry · parameter ·)) hread
    hread' z (fun _ => ParameterEntry.spanned) ((readParameter_eq_ok_iff he).mp h)
  exact (readParameter_eq_ok_iff hparameter.entryAt).mpr ⟨rest, hparameter, hc⟩

end Readers

/-! ## 3. A run up to the comment -/

/-- The state with another text to come. -/
def State.withRest (s : State) (text : List Char) : State :=
  { s with cursor := s.cursor.withRest text }

theorem withRest_ne_nil (s : State) (read body back : List Char) :
    (s.withRest (read ++ commented body back)).cursor.rest ≠ [] :=
  List.append_ne_nil_of_right_ne_nil _ (List.cons_ne_nil _ _)

/-- The comment that stands where a state at top level or in a list is makes no difference to it. -/
theorem run_withRest_commented {s : State} {r : Resume} (hphase : s.phase = r.phase)
    {body : List Char} (hbody : '\n' ∉ body) (back : List Char) :
    run (s.withRest (commented body back))
      = run { s with cursor := (s.cursor.withRest back).moved ((Utf8.encode body).length + 2) } := by
  rw [← run_of_gap (s := s.withRest (commented body back)) hphase ((Gap.none back).commented hbody)]
  have hcursor : (s.cursor.withRest (commented body back)).upTo back
      = (s.cursor.withRest back).moved ((Utf8.encode body).length + 2) := by
    have hsize : Utf8.size (commented body back) - Utf8.size back = (Utf8.encode body).length + 2 := by
      have hhash : '#'.utf8Size = 1 := rfl
      have hline : '\n'.utf8Size = 1 := rfl
      rw [commented, Utf8.size_cons, Utf8.size_append, Utf8.size_cons, Utf8.length_encode, hhash,
        hline]
      omega
    simp only [Cursor.upTo, Cursor.withRest, Cursor.moved, hsize]
  rw [← hcursor]
  rfl

section InFront

variable {s : State} {read back body : List Char} (hread : s.cursor.rest = read ++ back)
  (hbody : '\n' ∉ body)

include hread hbody

/-- White space up to the end of the source: the comment is all that is still to come. -/
theorem run_withRest_of_end {r : Resume} (hphase : s.phase = r.phase)
    (hend : s.cursor.skipWhitespace.rest = []) (hback : back = []) :
    run (s.withRest (read ++ commented body back)) = .ok s.table := by
  subst hback
  have hblanks : Blanks (read ++ []) ([] ++ []) := by
    rw [← hread, List.append_nil, ← hend]
    exact Cursor.blanks_skipWhitespace s.cursor
  have hgap : Gap (read ++ commented body []) [] :=
    (hblanks.spanned.replace _).gap ((Gap.none []).commented hbody)
  rw [← run_of_gap (s := s.withRest (read ++ commented body [])) hphase hgap, run_of_end rfl]
  rfl

/-- A comment up to the one that is put in: the two are one comment. -/
theorem run_withRest_of_comment {r : Resume} (hphase : s.phase = .comment r) {rest : List Char}
    (hhash : s.cursor.rest = '#' :: rest) (hend : s.cursor.skipComment.rest = back) :
    run (s.withRest (read ++ commented body back)) = run
      (State.withRest { s with phase := r.phase, cursor := s.cursor.skipComment }
        (commented body back)) := by
  have hcomment : Comment s.cursor.rest back := hend ▸ Cursor.comment_skipComment hhash
  have hcomment' : Comment (read ++ commented body back) ('\n' :: back) :=
    Comment.merge (hread ▸ hcomment) hbody back
  have hstep : Transition (s.withRest (read ++ commented body back)) _ := .uncomment r hphase
  have hskip : (s.withRest (read ++ commented body back)).cursor.skipComment
      = (s.cursor.withRest (read ++ commented body back)).upTo ('\n' :: back) :=
    Cursor.skipComment_of_comment hcomment'
  have hline : Blanks ('\n' :: back) back := .more '\n' (by decide) (.none back)
  have hgap : Gap (commented body back) back := (Gap.none back).commented hbody
  -- both runs go on behind the line feed
  have hleft : run (s.withRest (read ++ commented body back)) = run { s with
      phase := r.phase
      cursor := (s.cursor.withRest (read ++ commented body back)).upTo back } := by
    rw [hstep.run_eq (withRest_ne_nil s read body back), hskip,
      ← Cursor.upTo_upTo hcomment'.suffix hline.suffix]
    exact (run_of_blanks (s := { s with phase := r.phase, cursor := _ }) rfl hline).symm
  have hcursor : s.cursor.skipComment.withRest (commented body back)
      = (s.cursor.withRest (read ++ commented body back)).upTo (commented body back) := by
    rw [Cursor.skipComment_of_comment hcomment]
    exact (Cursor.upTo_withRest hread [] (commented body back)).symm
  rw [hleft, ← Cursor.upTo_upTo (List.suffix_append read _) hgap.suffix, ← hcursor]
  exact run_of_gap (s := State.withRest { s with phase := r.phase, cursor := s.cursor.skipComment }
    (commented body back)) rfl hgap

end InFront

/-- Where something is left before the replaced text, the same phase is called for. -/
theorem nextPhase?_withRest {r : Resume} {c : Cursor} {read back : List Char}
    (h : c.rest = read ++ back) (hne : read ≠ []) (z : List Char) :
    nextPhase? r (c.withRest (read ++ z)) = nextPhase? r c := by
  obtain ⟨x, xs, rfl⟩ := List.exists_cons_of_ne_nil hne
  simp only [nextPhase?, h, Cursor.withRest]
  rfl

section Steps

variable {s : State} {read read' back : List Char} (hread : s.cursor.rest = read ++ back)
  (z : List Char)

include hread

theorem turn_withRest {r : Resume} {p : Phase} (hphase : s.phase = r.phase)
    (hnext : nextPhase? r s.cursor.skipWhitespace = some p)
    (hskip : s.cursor.skipWhitespace.rest = read' ++ back) (hne : read' ≠ []) :
    Transition (s.withRest (read ++ '#' :: z)) (State.withRest
      { s with phase := p, cursor := s.cursor.skipWhitespace } (read' ++ '#' :: z)) := by
  have hcursor := Cursor.skipWhitespace_withRest hread hskip z
  have hnext' : nextPhase? r (s.withRest (read ++ '#' :: z)).cursor.skipWhitespace = some p := by
    rw [State.withRest, hcursor, nextPhase?_withRest hskip hne, hnext]
  have ht := Transition.turn (s := s.withRest (read ++ '#' :: z)) r p hphase hnext'
  rwa [State.withRest, hcursor] at ht

/-- An entry is read behind white space, and is not empty. -/
theorem entry_withRest {r : Resume} {c : Cursor}
    (hentry : nextPhase? r s.cursor.skipWhitespace = none)
    (hsuffix : c.rest <:+ s.cursor.skipWhitespace.rest)
    (hlt : c.rest.length < s.cursor.skipWhitespace.rest.length) (hread' : c.rest = read' ++ back) :
    ∃ start, s.cursor.skipWhitespace.rest = start ++ back ∧
      (s.withRest (read ++ '#' :: z)).cursor.skipWhitespace
        = s.cursor.skipWhitespace.withRest (start ++ '#' :: z) ∧
      nextPhase? r (s.withRest (read ++ '#' :: z)).cursor.skipWhitespace = none := by
  obtain ⟨entry, hsplit⟩ := hsuffix
  rw [hread', ← List.append_assoc] at hsplit
  have hne : entry ++ read' ≠ [] := by
    intro h
    rw [hread', ← hsplit, h, List.nil_append, List.length_append] at hlt
    omega
  have hcursor := Cursor.skipWhitespace_withRest hread hsplit.symm z
  refine ⟨entry ++ read', hsplit.symm, hcursor, ?_⟩
  rw [State.withRest, hcursor, nextPhase?_withRest hsplit.symm hne, hentry]

theorem value_withRest {value : EnumValue} {c : Cursor} {table : Table} (hphase : s.phase = .values)
    (hentry : nextPhase? .values s.cursor.skipWhitespace = none)
    (hvalue : readValue s.cursor.skipWhitespace = .ok (value, c))
    (hpush : s.openEnum.bind (s.table.pushValue? · value) = some table)
    (hread' : c.rest = read' ++ back) :
    Transition (s.withRest (read ++ '#' :: z))
      (State.withRest { s with cursor := c, table } (read' ++ '#' :: z)) := by
  have he := nextPhase?_eq_none_iff.mp hentry
  have hsuffix : c.rest <:+ s.cursor.skipWhitespace.rest := by
    obtain ⟨rest, hrule, rfl⟩ := (readValue_eq_ok_iff he).mp hvalue
    exact hrule.suffix
  obtain ⟨start, hstart, hskip, hentry'⟩ :=
    entry_withRest hread z hentry hsuffix (length_rest_readValue_lt hvalue) hread'
  have hvalue' := readValue_withRest hstart hread' z he hvalue
  rw [← hskip] at hvalue'
  exact .value value _ table hphase hentry' hvalue' hpush

theorem parameter_withRest {parameter : Parameter} {c : Cursor} {table : Table}
    (hphase : s.phase = .parameters)
    (hentry : nextPhase? .parameters s.cursor.skipWhitespace = none)
    (hparameter : readParameter s.cursor.skipWhitespace = .ok (parameter, c))
    (hpush : s.openFunction.bind (s.table.pushParameter? · parameter) = some table)
    (hread' : c.rest = read' ++ back) :
    Transition (s.withRest (read ++ '#' :: z))
      (State.withRest { s with cursor := c, table } (read' ++ '#' :: z)) := by
  have he := nextPhase?_eq_none_iff.mp hentry
  have hsuffix : c.rest <:+ s.cursor.skipWhitespace.rest := by
    obtain ⟨rest, hrule, rfl⟩ := (readParameter_eq_ok_iff he).mp hparameter
    exact hrule.suffix
  have hlt : c.rest.length < s.cursor.skipWhitespace.rest.length := by
    obtain ⟨x, xs, htext, hx, hx', -⟩ := he
    exact length_rest_readParameter_lt htext hx hx' hparameter
  obtain ⟨start, hstart, hskip, hentry'⟩ := entry_withRest hread z hentry hsuffix hlt hread'
  have hparameter' := readParameter_withRest hstart hread' z he hparameter
  rw [← hskip] at hparameter'
  exact .parameter parameter _ table hphase hentry' hparameter' hpush

end Steps

/-- **A step in front of the comment moves the new run on as it does the old one.** Only where the
    step stops right at the comment, it has to lead to the top level or to a list. -/
theorem run_withRest_of_transition {s s' : State} {read read' back body : List Char}
    (h : Transition s s') (hs : s.Consistent) (hread : s.cursor.rest = read ++ back)
    (hread' : s'.cursor.rest = read' ++ back) (hlast : read' = [] → ∃ r : Resume, s'.phase = r.phase)
    (hbody : '\n' ∉ body) :
    run (s.withRest (read ++ commented body back))
      = run (s'.withRest (read' ++ commented body back)) := by
  have hne := withRest_ne_nil s read body back
  cases h with
  | turn r p hphase hnext =>
    by_cases hend : read' = []
    -- white space up to the comment; the old run is at the end of the source
    · subst hend
      obtain ⟨r', rfl⟩ := hlast rfl
      have hrest : s.cursor.skipWhitespace.rest = [] := by
        rcases nextPhase?_eq_some_cases hnext with ⟨h, -⟩ | ⟨-, h⟩ | ⟨-, h⟩ | ⟨-, h⟩
        · exact h
        all_goals cases r' <;> cases h
      have hback : back = [] := hread'.symm.trans hrest
      have hrest' : s.cursor.skipWhitespace.skipWhitespace.rest = [] := by
        rw [Cursor.skipWhitespace_of_noBlank (Cursor.noBlank_skipWhitespace s.cursor), hrest]
      rw [run_withRest_of_end hread hbody hphase hrest hback,
        run_withRest_of_end (s := ⟨r'.phase, s.cursor.skipWhitespace, s.table, _, _⟩) hread' hbody rfl
          hrest' hback]
    · exact (turn_withRest hread _ hphase hnext hread' hend).run_eq hne
  | uncomment r hphase =>
    obtain ⟨rest, hhash⟩ : ∃ rest, s.cursor.rest = '#' :: rest :=
      List.head?_eq_some_iff.mp (hs.comment r hphase)
    by_cases hend : read' = []
    · subst hend
      exact run_withRest_of_comment hread hbody hphase hhash hread'
    · have hskip := Cursor.skipComment_withRest hhash hread hread' hend (commented body back)
      have ht : Transition (s.withRest (read ++ commented body back)) _ := .uncomment r hphase
      rw [ht.run_eq hne]
      exact congrArg (fun c => run { s with phase := r.phase, cursor := c }) hskip
  | enumHeader name elementType c hphase hheader hnew =>
    have ht : Transition (s.withRest (read ++ commented body back)) _ :=
      .enumHeader name elementType _ hphase (readEnumHeader_withRest hread hread' _ hheader) hnew
    exact ht.run_eq hne
  | functionHeader key name c hphase hheader hnew =>
    have ht : Transition (s.withRest (read ++ commented body back)) _ :=
      .functionHeader key name _ hphase (readFunctionHeader_withRest hread hread' _ hheader) hnew
    exact ht.run_eq hne
  | value value c table hphase hentry hvalue hpush =>
    exact (value_withRest hread _ hphase hentry hvalue hpush hread').run_eq hne
  | parameter parameter c table hphase hentry hparameter hpush =>
    exact (parameter_withRest hread _ hphase hentry hparameter hpush hread').run_eq hne

/-- Before a state at top level or in a list, a run stands further in front. -/
theorem length_rest_lt_of_visited {s s' : State} {r : Resume} {mid after : List State}
    (h : visited s = mid ++ s' :: after) (hs : s.Consistent) (hphase : s'.phase = r.phase) :
    ∀ s₀ ∈ mid, s'.cursor.rest.length < s₀.cursor.rest.length := by
  intro s₀ hs₀
  have hweight := weight_lt_of_visited h s₀ hs₀
  have hmem : s₀ ∈ visited s := h ▸ List.mem_append_left _ hs₀
  have hcost := (forall_mem_visited (P := State.Consistent)
    (fun _ _ hs _ ht => ht.consistent hs) hs hmem).cost_le
  rw [State.weight, State.weight, hphase, cost_phase] at hweight
  omega

/-- **A comment put in where a run comes by at top level or in a list moves the run on to behind
    it.** -/
theorem run_withRest_of_visited {s s' : State} {r : Resume} {mid after : List State}
    (h : visited s = mid ++ s' :: after) (hs : s.Consistent) (hphase : s'.phase = r.phase)
    {body : List Char} (hbody : '\n' ∉ body) : ∃ read, s.cursor.rest = read ++ s'.cursor.rest ∧
      run (s.withRest (read ++ commented body s'.cursor.rest))
        = run (s'.withRest (commented body s'.cursor.rest)) := by
  induction mid generalizing s with
  | nil =>
    rcases visited_eq_append_cases h with ⟨-, rfl⟩ | ⟨_, _, _, _, hmid, _⟩
    · exact ⟨[], rfl, rfl⟩
    · cases hmid
  | cons m mid ih =>
    rcases visited_eq_append_cases h with ⟨hmid, -⟩ | ⟨s₂, mid', hne, ht, hmid, hvisited⟩
    · cases hmid
    · cases hmid
      have hs₂ := ht.consistent hs
      obtain ⟨read', hread', hrun⟩ := ih hvisited hs₂
      obtain ⟨before, hbefore⟩ := ht.suffix hs hne
      have hread : m.cursor.rest = before ++ read' ++ s'.cursor.rest := by
        rw [← hbefore, hread', List.append_assoc]
      have hlast : read' = [] → ∃ r : Resume, s₂.phase = r.phase := by
        rintro rfl
        rcases visited_eq_append_cases hvisited with ⟨-, rfl⟩ | ⟨s₃, mid', -, -, rfl, -⟩
        · exact ⟨r, hphase⟩
        · have hlt := length_rest_lt_of_visited hvisited hs₂ hphase s₂ List.mem_cons_self
          rw [hread'] at hlt
          exact absurd hlt (Nat.lt_irrefl _)
      exact ⟨before ++ read', hread,
        (run_withRest_of_transition ht hs hread hread' hlast hbody).trans hrun⟩

/-! ## 4. Sources -/

/-- The source with a comment, and the line feed that ends it, put in at an offset. -/
def insertComment (source : Bytes) (offset : Nat) (body : List Char) : Bytes :=
  source.take offset ++ [0x23] ++ Utf8.encode body ++ [0x0A] ++ source.drop offset

theorem insertComment_encode (before back body : List Char) :
    insertComment (Utf8.encode (before ++ back)) (Utf8.size before) body
      = Utf8.encode (before ++ commented body back) := by
  have hline : Utf8.encode ('\n' :: back) = [0x0A] ++ Utf8.encode back := Utf8.encode_cons _ _
  have hcomment : Utf8.encode (commented body back)
      = [0x23] ++ (Utf8.encode body ++ Utf8.encode ('\n' :: back)) := by
    rw [commented, Utf8.encode_cons, Utf8.encode_append]
    rfl
  rw [insertComment, Utf8.encode_append, Utf8.take_encode_append, Utf8.drop_encode_append,
    Utf8.encode_append, hcomment, hline]
  simp only [List.append_assoc]

/-- **A comment put in at top level or between two entries is invisible.** Wherever a run comes by at
    top level, in a list of values or in a list of parameters, or ends there, the source with a
    comment in that place gives the same table, or the same error, further back by the length of the
    comment. -/
theorem parse_insertComment {source : Bytes} {s : State} (hs : s ∈ statesOf source) {r : Resume}
    (hphase : s.phase = r.phase) {body : List Char} (hbody : '\n' ∉ body) :
    parse (insertComment source s.cursor.offset body)
      = (parse source).mapError (·.moved ((Utf8.encode body).length + 2)) := by
  cases hc : Cursor.ofBytes source with
  | error e =>
    rw [(parse_of_notUtf8 hc).2] at hs
    cases hs
  | ok c =>
    obtain ⟨text, rfl, rfl⟩ := Cursor.ofBytes_eq_ok_iff.mp hc
    obtain ⟨hparse, hstates⟩ := parse_eq_run hc
    rw [hstates] at hs
    have hmoved := run_moved ((Utf8.encode body).length + 2) (consistent_of_mem_visited hs)
    obtain ⟨before, rfl, hoffset⟩ := cursor_in_of_mem_visited hs
    obtain ⟨mid, after, hvisited⟩ := List.append_of_mem hs
    obtain ⟨before', hbefore', hrun⟩ :=
      run_withRest_of_visited hvisited (consistent_start _) hphase hbody
    obtain rfl : before = before' := List.append_cancel_right hbefore'
    calc parse (insertComment (Utf8.encode (before ++ s.cursor.rest)) s.cursor.offset body)
        = parse (Utf8.encode (before ++ commented body s.cursor.rest)) := by
          rw [hoffset, insertComment_encode]
      _ = run (.start (.ofText (before ++ commented body s.cursor.rest))) :=
          (parse_eq_run (Cursor.ofBytes_encode _)).1
      _ = run (s.withRest (commented body s.cursor.rest)) := hrun
      _ = run { s with cursor := s.cursor.moved ((Utf8.encode body).length + 2) } :=
          run_withRest_commented hphase hbody s.cursor.rest
      _ = (run s).mapError (·.moved ((Utf8.encode body).length + 2)) := hmoved
      _ = (parse (Utf8.encode (before ++ s.cursor.rest))).mapError
            (·.moved ((Utf8.encode body).length + 2)) := by rw [hparse, run_of_mem_visited hs]

/-- The source ends behind the value 7, which has no name; the comment does not become its name. -/
theorem parse_insertComment_after_missing_name :
    let source := Utf8.encode "map K T 7".toList
    let t : Table := ⟨[⟨"K", "T", [⟨7, ""⟩]⟩], []⟩
    let closed : State := ⟨.values, ⟨9, []⟩, t, some 0, none⟩
    closed ∈ statesOf source ∧ parse (insertComment source 9 "[1, 2] f".toList) = .ok t := by
  intro source t closed
  have hclosed : closed ∈ statesOf source := by decide +kernel
  have hparse : parse source = .ok t := eq_ok_of_toOption (by decide +kernel)
  have hbody : '\n' ∉ "[1, 2] f".toList := by decide
  have hinsert := parse_insertComment hclosed (r := .values) rfl hbody
  rw [hparse] at hinsert
  exact ⟨hclosed, hinsert⟩

end Parser
end FunctionMap
