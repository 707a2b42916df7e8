import FunctionMap.Proofs.Source.Local
import FunctionMap.Proofs.Declaration.Alike

/-!
# An error depends on the text up to it

The readers of the parser are put together from the operations of the cursor, so they are local, and so
is every step. A run that fails has therefore looked at the text up to its error and at the first
character behind it; in particular no later declaration changes which error is found first.

Main statement: `error_depends_on_front`, for the errors that point at a character or at a token.
-/

namespace FunctionMap
namespace Parser

/-! ## 1. Readers -/

/-- What a header says, and the cursor behind it. -/
def headed {α β : Type} (a : α × β) (c : Cursor) : α × β × Cursor := (a.1, a.2, c)

theorem readEnumHeader_eq (c : Cursor) : readEnumHeader c
    = c.behindWord Symbol.mapKeywordText Symbol.mapKeyword >>= fun c =>
        c.skipWhitespace.readToken >>= fun name =>
        name.2.skipWhitespace.readToken >>= fun elementType =>
        .ok (headed (name.1.text, elementType.1.text) elementType.2) := by
  rw [readEnumHeader, Cursor.behindWord]
  cases c.expectWord Symbol.mapKeywordText Symbol.mapKeyword with
  | mk result c' => cases result <;> rfl

theorem local_readEnumHeader : Local headed readEnumHeader := by
  rw [funext readEnumHeader_eq]
  refine (local_behindWord _ _).bind fun _ => ?_
  refine local_readToken.skipWhitespace.bind fun name => ?_
  dsimp only
  refine local_readToken.skipWhitespace.bind fun elementType => ?_
  exact local_ok headed (name.text, elementType.text)

theorem readFunctionHeader_eq (c : Cursor) : readFunctionHeader c
    = c.expect '[' "'['" >>= fun c =>
        c.skipWhitespace.readInteger Token.int32 >>= fun group =>
        group.2.skipWhitespace.expect ',' "','" >>= fun c =>
        c.skipWhitespace.readInteger Token.int32 >>= fun typeId =>
        typeId.2.skipWhitespace.expect ']' "']'" >>= fun c =>
        c.skipWhitespace.readToken >>= fun name =>
        .ok (headed (⟨group.1, typeId.1⟩, name.1.text) name.2) := by
  simp only [readInteger_bind]
  rfl

theorem local_readFunctionHeader : Local headed readFunctionHeader := by
  rw [funext readFunctionHeader_eq]
  refine (local_expect _ _).bind fun _ => ?_
  refine (local_readInteger refusesToken_integer).skipWhitespace.bind fun group => ?_
  dsimp only
  refine (local_expect _ _).skipWhitespace.bind fun _ => ?_
  refine (local_readInteger refusesToken_integer).skipWhitespace.bind fun typeId => ?_
  dsimp only
  refine (local_expect _ _).skipWhitespace.bind fun _ => ?_
  refine local_readToken.skipWhitespace.bind fun name => ?_
  exact local_ok headed (FunctionKey.mk group typeId, name.text)

theorem readValue_eq (c : Cursor) : readValue c
    = c.readInteger Token.int64 >>= fun key =>
        key.2.skipWhitespace.readToken >>= fun name => .ok (⟨key.1, name.1.text⟩, name.2) := by
  rw [readInteger_bind]
  rfl

theorem local_readValue : Local Prod.mk readValue := by
  rw [funext readValue_eq]
  refine (local_readInteger refusesToken_integer).bind fun key => ?_
  dsimp only
  refine local_readToken.skipWhitespace.bind fun name => ?_
  exact local_ok Prod.mk (EnumValue.mk key name.text)

theorem readParameter_eq (c : Cursor) : readParameter c
    = c.readToken >>= fun typeName => typeName.2.skipWhitespace.readToken >>= fun name =>
        .ok (⟨stripBraces typeName.1.text, name.1.text⟩, name.2) := rfl

theorem local_readParameter : Local Prod.mk readParameter := by
  rw [funext readParameter_eq]
  refine local_readToken.bind fun typeName => ?_
  dsimp only
  refine local_readToken.skipWhitespace.bind fun name => ?_
  exact local_ok Prod.mk (Parameter.mk (stripBraces typeName.text) name.text)

/-! ## 2. Steps -/

/-- The state with its cursor elsewhere. -/
def State.moveTo (s : State) (c : Cursor) : State := { s with cursor := c }

theorem nextPhase?_congr {r : Resume} {c c' : Cursor} (h : c'.rest.head? = c.rest.head?) :
    nextPhase? r c' = nextPhase? r c := by
  obtain ⟨n, rest⟩ := c
  obtain ⟨n', rest'⟩ := c'
  cases rest with
  | nil =>
    obtain rfl := List.head?_eq_none_iff.mp h
    rfl
  | cons x rest =>
    obtain ⟨after, rfl⟩ := List.head?_eq_some_iff.mp h
    rfl

theorem local_unexpected {α β : Type} (put : α → Cursor → β) :
    Local put fun c => .error c.unexpected := by
  intro n text
  cases text with
  | nil =>
    refine ⟨[], [], rfl, .error (.unexpectedEnd "a declaration" n) .unexpectedEnd fun z hz => ?_⟩
    rw [List.head?_eq_none_iff.mp hz]
    rfl
  | cons x rest => exact ⟨[], x :: rest, rfl, endsBehind_of_refused put rest fun _ => rfl⟩

/-- Which phase stands behind white space is seen at the first character. -/
theorem local_turn (s : State) (r : Resume) {g : Cursor → Except SourceError State}
    (hg : Local State.moveTo g) : Local State.moveTo fun c =>
      match nextPhase? r c with
      | some phase => .ok (State.moveTo { s with phase } c)
      | none => g c := by
  intro n text
  cases hnext : nextPhase? r ⟨n, text⟩ with
  | some p =>
    refine ⟨[], text, rfl, .ok { s with phase := p } fun rest' hrest => ?_⟩
    have hnext' : nextPhase? r ⟨n, rest'⟩ = some p := hnext ▸ nextPhase?_congr hrest
    rw [List.nil_append, hnext']
    rfl
  | none =>
    obtain ⟨read, rest, rfl, hread⟩ := hg n text
    have hnext' : ∀ z, z.head? = rest.head? → nextPhase? r ⟨n, read ++ z⟩ = none :=
      fun z hz => hnext ▸ nextPhase?_congr (head?_append_congr hz read)
    refine ⟨read, rest, rfl, ?_⟩
    cases hread with
    | ok a h => exact .ok a fun z hz => by rw [hnext' z hz, h z hz]
    | error e hstops h => exact .error e hstops fun z hz => by rw [hnext' z hz, h z hz]

theorem local_stepTop (s : State) : Local State.moveTo fun c => (s.moveTo c).stepTop :=
  (local_turn s .top (local_unexpected State.moveTo)).skipWhitespace

theorem local_stepList {α : Type} (s : State) (r : Resume)
    {read : Cursor → Except SourceError (α × Cursor)} (hread : Local Prod.mk read)
    (push : α → Option Table) {stray : SourceError} (hstray : ∀ n rest, stray.StopsAt n [] rest) :
    Local State.moveTo fun c => (s.moveTo c).stepList r read push stray := by
  have hentry : Local State.moveTo fun c => read c >>= fun entry =>
      (push entry.1).elim (.error stray) fun table => .ok (State.moveTo { s with table } entry.2) := by
    refine hread.bind fun a => ?_
    dsimp only
    cases push a with
    | some table => exact local_ok State.moveTo { s with table }
    | none => exact local_error State.moveTo hstray
  have heq : ∀ c, (s.moveTo c).stepList r read push stray
      = match nextPhase? r c.skipWhitespace with
        | some phase => .ok (State.moveTo { s with phase } c.skipWhitespace)
        | none => read c.skipWhitespace >>= fun entry =>
          (push entry.1).elim (.error stray) fun table =>
            .ok (State.moveTo { s with table } entry.2) := by
    intro c
    unfold State.stepList
    dsimp only [State.moveTo]
    cases nextPhase? r c.skipWhitespace with
    | some phase => rfl
    | none =>
      cases read c.skipWhitespace with
      | error e => rfl
      | ok entry => cases hpush : push entry.1 <;> simp [bind, Except.bind, hpush]
  rw [funext heq]
  exact (local_turn s r hentry).skipWhitespace

theorem local_stepEnumHeader (s : State) :
    Local State.moveTo fun c => (s.moveTo c).stepEnumHeader := by
  have heq : ∀ c, (s.moveTo c).stepEnumHeader = readEnumHeader c >>= fun h =>
      s.table.insertEnum ⟨h.1, h.2.1, []⟩ >>= fun inserted =>
        .ok (State.moveTo ⟨.values, s.cursor, inserted.1, some inserted.2, none⟩ h.2.2) := by
    intro c
    unfold State.stepEnumHeader
    dsimp only [State.moveTo]
    cases readEnumHeader c with
    | error e => rfl
    | ok h => cases hinsert : s.table.insertEnum ⟨h.1, h.2.1, []⟩ <;> simp [bind, Except.bind, hinsert]
  rw [funext heq]
  refine local_readEnumHeader.bind fun h => ?_
  obtain ⟨name, elementType⟩ := h
  dsimp only [headed]
  by_cases hname : name ∈ s.table.enumNames
  · rw [Table.insertEnum_of_mem (e := ⟨name, elementType, []⟩) hname]
    exact local_error State.moveTo fun _ _ => .duplicate
  · rw [Table.insertEnum_of_not_mem (e := ⟨name, elementType, []⟩) hname]
    exact local_ok State.moveTo _

theorem local_stepFunctionHeader (s : State) :
    Local State.moveTo fun c => (s.moveTo c).stepFunctionHeader := by
  have heq : ∀ c, (s.moveTo c).stepFunctionHeader = readFunctionHeader c >>= fun h =>
      s.table.insertFunction ⟨h.1, h.2.1, []⟩ >>= fun inserted =>
        .ok (State.moveTo ⟨.parameters, s.cursor, inserted.1, none, some inserted.2⟩ h.2.2) := by
    intro c
    unfold State.stepFunctionHeader
    dsimp only [State.moveTo]
    cases readFunctionHeader c with
    | error e => rfl
    | ok h =>
      cases hinsert : s.table.insertFunction ⟨h.1, h.2.1, []⟩ <;> simp [bind, Except.bind, hinsert]
  rw [funext heq]
  refine local_readFunctionHeader.bind fun h => ?_
  obtain ⟨key, name⟩ := h
  dsimp only [headed]
  by_cases hkey : key ∈ s.table.functionKeys
  · rw [Table.insertFunction_of_mem (f := ⟨key, name, []⟩) hkey]
    exact local_error State.moveTo fun _ _ => .duplicate
  · rw [Table.insertFunction_of_not_mem (f := ⟨key, name, []⟩) hkey]
    exact local_ok State.moveTo _

theorem local_stepValues (s : State) : Local State.moveTo fun c => (s.moveTo c).stepValues := by
  have heq : ∀ c, (s.moveTo c).stepValues = (s.moveTo c).stepList .values readValue
      (fun value => s.openEnum.bind (s.table.pushValue? · value))
      (.strayEntry "enum value outside of a map declaration") :=
    fun c => stepValues_eq_stepList (s.moveTo c)
  rw [funext heq]
  exact local_stepList s .values local_readValue _ fun _ _ => .strayEntry

theorem local_stepParameters (s : State) :
    Local State.moveTo fun c => (s.moveTo c).stepParameters := by
  have heq : ∀ c, (s.moveTo c).stepParameters = (s.moveTo c).stepList .parameters readParameter
      (fun parameter => s.openFunction.bind (s.table.pushParameter? · parameter))
      (.strayEntry "parameter outside of a function declaration") :=
    fun c => stepParameters_eq_stepList (s.moveTo c)
  rw [funext heq]
  exact local_stepList s .parameters local_readParameter _ fun _ _ => .strayEntry

/-- **Every step is local.** -/
theorem local_step (s : State) : Local State.moveTo fun c => (s.moveTo c).step := by
  obtain ⟨phase, cursor, table, openEnum, openFunction⟩ := s
  cases phase with
  | top => exact local_stepTop _
  | comment r =>
    exact (local_ok State.moveTo (State.mk r.phase cursor table openEnum openFunction)).skipWhile _
  | enumHeader => exact local_stepEnumHeader _
  | values => exact local_stepValues _
  | functionHeader => exact local_stepFunctionHeader _
  | parameters => exact local_stepParameters _

/-! ## 3. Runs -/

/-- **A run that fails has looked at the text up to its error and at the first character behind it at
    most.** -/
theorem run_eq_error_of_head {s : State} {e : SourceError} (h : run s = .error e) :
    ∃ read rest, s.cursor.rest = read ++ rest ∧ e.StopsAt s.cursor.offset read rest ∧
      ∀ rest', rest'.head? = rest.head? →
        run (s.moveTo ⟨s.cursor.offset, read ++ rest'⟩) = .error e := by
  induction s using run_induction with
  | atEnd s hend =>
    rw [run_of_end hend] at h
    cases h
  | refusal s e' hne hstep =>
    rw [run_of_refusal hne hstep] at h
    cases h
    obtain ⟨read, rest, hread, hstops, herror⟩ := (local_step s).of_error hstep
    refine ⟨read, rest, hread, hstops, fun z hz => run_of_refusal ?_ (herror z hz)⟩
    exact append_ne_nil_congr hz (hread ▸ hne)
  | step s s₂ hne ht ih =>
    rw [ht.run_eq hne] at h
    obtain ⟨read', rest', hread', hstops, hrun⟩ := ih h
    obtain ⟨s', read, rest, hread, rfl, hok⟩ := (local_step s).of_ok ht.step
    obtain rfl : rest = read' ++ rest' := hread'
    rw [← List.append_assoc] at hread
    refine ⟨read ++ read', rest', hread, hstops.behind, fun z hz => ?_⟩
    have hne' : (s.moveTo ⟨s.cursor.offset, read ++ read' ++ z⟩).cursor.rest ≠ [] :=
      append_ne_nil_congr hz (hread ▸ hne)
    have hstep : (s.moveTo ⟨s.cursor.offset, read ++ read' ++ z⟩).step
        = .ok (s'.moveTo ⟨s.cursor.offset + Utf8.size read, read' ++ z⟩) := by
      rw [List.append_assoc]
      exact hok _ (head?_append_congr hz read')
    rw [run_of_step hne' hstep]
    exact hrun z hz

/-! ## 4. Sources -/

theorem parse_eq_error_of_head {text : List Char} {e : SourceError}
    (h : parse (Utf8.encode text) = .error e) : ∃ read rest, text = read ++ rest ∧
      e.StopsAt 0 read rest ∧ ∀ rest', rest'.head? = rest.head? →
        parse (Utf8.encode (read ++ rest')) = .error e := by
  rw [(parse_eq_run (Cursor.ofBytes_encode text)).1] at h
  obtain ⟨read, rest, htext, hstops, hrun⟩ := run_eq_error_of_head h
  refine ⟨read, rest, htext, hstops, fun z hz => ?_⟩
  rw [(parse_eq_run (Cursor.ofBytes_encode _)).1]
  exact hrun z hz

/-- A text with the same first bytes starts with the same characters. -/
theorem exists_append_of_take {front rest text' : List Char}
    (h : (Utf8.encode text').take (Utf8.size front)
      = (Utf8.encode (front ++ rest)).take (Utf8.size front)) : ∃ back, text' = front ++ back := by
  rw [Utf8.encode_append, Utf8.take_encode_append] at h
  have hsplit := (List.take_append_drop (Utf8.size front) (Utf8.encode text')).symm
  rw [h] at hsplit
  exact Utf8.exists_append_of_encode hsplit

/-- A text with the same first bytes that ends where they end is the same text. -/
theorem eq_of_take {front text' : List Char}
    (h : (Utf8.encode text').take (Utf8.size front) = (Utf8.encode front).take (Utf8.size front))
    (hend : (Utf8.encode text')[Utf8.size front]? = (Utf8.encode front)[Utf8.size front]?) :
    text' = front := by
  rw [← Utf8.length_encode, List.getElem?_eq_none (Nat.le_refl _), List.getElem?_eq_none_iff] at hend
  rw [← Utf8.length_encode, List.take_length, List.take_of_length_le hend] at h
  exact Utf8.encode_injective h

/-- Every character that ends a token is one byte. -/
theorem utf8Size_of_isDelimiter {c : Char} (h : Symbol.isDelimiter c = true) : c.utf8Size = 1 := by
  simp only [Symbol.isDelimiter, Symbol.isWhitespace, Bool.or_eq_true, decide_eq_true_eq] at h
  rcases h with (((((rfl | rfl) | rfl) | rfl) | rfl) | rfl) | rfl <;> rfl

theorem unexpectedCharacter_of_take {text text' : List Char} {x : Char} {n : Nat}
    (h : parse (Utf8.encode text) = .error (.unexpectedCharacter x n))
    (htake : (Utf8.encode text').take (n + x.utf8Size)
      = (Utf8.encode text).take (n + x.utf8Size)) :
    parse (Utf8.encode text') = .error (.unexpectedCharacter x n) := by
  obtain ⟨read, rest, rfl, hstops, hparse⟩ := parse_eq_error_of_head h
  cases hstops with
  | @unexpectedCharacter _ after =>
    have hsize : 0 + Utf8.size read + x.utf8Size = Utf8.size (read ++ [x]) := by
      rw [Utf8.size_append, Utf8.size_cons, Utf8.size_nil, Nat.zero_add, Nat.add_zero]
    rw [hsize, List.append_cons read x after] at htake
    obtain ⟨back, rfl⟩ := exists_append_of_take htake
    rw [List.append_assoc]
    exact hparse (x :: back) rfl

theorem notAnInteger_of_take {text text' : List Char} {token : String} {n : Nat}
    {fault : Numeral.Fault} (h : parse (Utf8.encode text) = .error (.notAnInteger token n fault))
    (htake : (Utf8.encode text').take (n + Utf8.size token.toList)
      = (Utf8.encode text).take (n + Utf8.size token.toList))
    (hnext : (Utf8.encode text')[n + Utf8.size token.toList]?
      = (Utf8.encode text)[n + Utf8.size token.toList]?) :
    parse (Utf8.encode text') = .error (.notAnInteger token n fault) := by
  obtain ⟨read, rest, rfl, hstops, hparse⟩ := parse_eq_error_of_head h
  cases hstops with
  | @notAnInteger before _ _ _ hread hmaximal =>
    have hsize : 0 + Utf8.size before + Utf8.size token.toList = Utf8.size read := by
      rw [hread, Utf8.size_append, Nat.zero_add]
    rw [hsize] at htake hnext
    cases rest with
    | nil =>
      rw [List.append_nil] at htake hnext
      rw [eq_of_take htake hnext, ← List.append_nil read]
      exact hparse [] rfl
    | cons d after =>
      -- the character behind the token is one byte, so both texts agree on it as a whole
      have hd : d.utf8Size = 1 := utf8Size_of_isDelimiter (hmaximal d rfl)
      have hsize' : Utf8.size (read ++ [d]) = Utf8.size read + 1 := by
        rw [Utf8.size_append, Utf8.size_cons, Utf8.size_nil, hd]
      rw [List.append_cons read d after] at htake hnext
      have htake' : (Utf8.encode text').take (Utf8.size (read ++ [d]))
          = (Utf8.encode (read ++ [d] ++ after)).take (Utf8.size (read ++ [d])) := by
        rw [hsize', List.take_add_one, List.take_add_one, htake, hnext]
      obtain ⟨back, rfl⟩ := exists_append_of_take htake'
      rw [List.append_assoc]
      exact hparse (d :: back) rfl

/-- **Whatever is edited or appended behind the first error, the error stays.** An error at a character
    depends on the text up to and with this character. An error at a token depends on the text up to and
    with the token, and on where the token ends: both sources end there, or the next byte is the
    same. -/
theorem error_depends_on_front {source source' : Bytes} (hvalid : Utf8.Valid source)
    (hvalid' : Utf8.Valid source') :
    (∀ x n, parse source = .error (.unexpectedCharacter x n) →
      source'.take (n + x.utf8Size) = source.take (n + x.utf8Size) →
      parse source' = .error (.unexpectedCharacter x n)) ∧
    (∀ token n fault, parse source = .error (.notAnInteger token n fault) →
      source'.take (n + Utf8.size token.toList) = source.take (n + Utf8.size token.toList) →
      source'[n + Utf8.size token.toList]? = source[n + Utf8.size token.toList]? →
      parse source' = .error (.notAnInteger token n fault)) := by
  obtain ⟨text, rfl⟩ := hvalid
  obtain ⟨text', rfl⟩ := hvalid'
  exact ⟨fun _ _ h htake => unexpectedCharacter_of_take h htake,
    fun _ _ _ h htake hnext => notAnInteger_of_take h htake hnext⟩

/-- At the top `é` starts nothing, and the second value of `K` has no integer key. Neither a declaration
    that follows nor a key that is used twice hides that. -/
theorem error_depends_on_front_of_repeated_key :
    (parse (Utf8.encode "# a\né".toList) = .error (.unexpectedCharacter 'é' 4) ∧
      parse (Utf8.encode "# a\né [1, 2] f".toList) = .error (.unexpectedCharacter 'é' 4)) ∧
    (parse (Utf8.encode "map K T 1 a 7a b".toList) = .error (.notAnInteger "7a" 12 .invalidDigit) ∧
      parse (Utf8.encode "map K T 1 a 7a 1 c map K T".toList)
        = .error (.notAnInteger "7a" 12 .invalidDigit)) := by
  have hchar : parse (Utf8.encode "# a\né".toList) = .error (.unexpectedCharacter 'é' 4) :=
    eq_error_of_error? (by decide +kernel)
  have htoken : parse (Utf8.encode "map K T 1 a 7a b".toList)
      = .error (.notAnInteger "7a" 12 .invalidDigit) := eq_error_of_error? (by decide +kernel)
  refine ⟨⟨hchar, ?_⟩, ⟨htoken, ?_⟩⟩
  · exact (error_depends_on_front ⟨_, rfl⟩ ⟨_, rfl⟩).1 'é' 4 hchar (by decide +kernel)
  · exact (error_depends_on_front ⟨_, rfl⟩ ⟨_, rfl⟩).2 "7a" 12 .invalidDigit htoken
      (by decide +kernel) (by decide +kernel)

end Parser
end FunctionMap
