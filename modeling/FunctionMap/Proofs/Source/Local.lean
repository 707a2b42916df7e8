import FunctionMap.Source.Cursor
import FunctionMap.Proofs.Text.CharRun

/-!
# How far a reader looks

Whatever a reader gives at a place, a table entry or an error, it has looked at some characters from
there on and at the first one behind them at most. So it gives the same before every other text with
the same first character.

* `SourceError.StopsAt n read rest e` -- a reader that stands at the offset `n` has come behind `read`
  and fails with `e` before `rest`;
* `Local put r` -- the reader `r` is so, where `put a c` is a result with the cursor behind it.

Main statements: the operations of a cursor are local (`local_readToken`, `local_expect`), and so are
readers put together from them (`Local.bind`, `Local.skipWhile`).
-/

namespace FunctionMap

/-- A reader that stands at the offset `n` fails before `rest`, behind `read`. A token that is no
    integer is read already. -/
inductive SourceError.StopsAt (n : Nat) (read : List Char) : List Char → SourceError → Prop where
  | unexpectedCharacter {x : Char} {after : List Char} :
      StopsAt n read (x :: after) (.unexpectedCharacter x (n + Utf8.size read))
  | unexpectedEnd {expected : String} :
      StopsAt n read [] (.unexpectedEnd expected (n + Utf8.size read))
  | notAnInteger {before rest : List Char} {token : String} {fault : Numeral.Fault}
      (hread : read = before ++ token.toList)
      (hmaximal : ∀ c ∈ rest.head?, Symbol.isDelimiter c = true) :
      StopsAt n read rest (.notAnInteger token (n + Utf8.size before) fault)
  | duplicate {rest : List Char} {kind : DeclarationKind} {key : String} :
      StopsAt n read rest (.duplicate kind key)
  | strayEntry {rest : List Char} {what : String} : StopsAt n read rest (.strayEntry what)

theorem SourceError.StopsAt.behind {n : Nat} {read read' rest : List Char} {e : SourceError}
    (h : e.StopsAt (n + Utf8.size read) read' rest) : e.StopsAt n (read ++ read') rest := by
  have hsize : ∀ text, n + Utf8.size read + Utf8.size text = n + Utf8.size (read ++ text) :=
    fun text => by rw [Utf8.size_append, Nat.add_assoc]
  cases h with
  | unexpectedCharacter => exact hsize read' ▸ .unexpectedCharacter
  | unexpectedEnd => exact hsize read' ▸ .unexpectedEnd
  | notAnInteger hread hmaximal =>
    rw [hsize]
    exact .notAnInteger (by rw [hread, List.append_assoc]) hmaximal
  | duplicate => exact .duplicate
  | strayEntry => exact .strayEntry

/-- The text behind what is read may be another one with the same first character. -/
theorem head?_append_congr {rest rest' : List Char} (h : rest'.head? = rest.head?)
    (read : List Char) : (read ++ rest').head? = (read ++ rest).head? := by
  rw [List.head?_append, List.head?_append, h]

theorem append_ne_nil_congr {read rest rest' : List Char} (h : rest'.head? = rest.head?)
    (hne : read ++ rest ≠ []) : read ++ rest' ≠ [] := by
  intro hnil
  have hhead := head?_append_congr h read
  rw [hnil] at hhead
  exact hne (List.head?_eq_none_iff.mp hhead.symm)

/-! ## 1. Local readers -/

section Local

variable {α β γ δ : Type}

/-- Behind `read` a reader has come to its end, and gives the same before every text that starts as
    `rest` does. -/
inductive EndsBehind (put : α → Cursor → β) (r : Cursor → Except SourceError β) (n : Nat)
    (read rest : List Char) : Prop where
  | ok (a : α) (h : ∀ rest', rest'.head? = rest.head? →
      r ⟨n, read ++ rest'⟩ = .ok (put a ⟨n + Utf8.size read, rest'⟩))
  | error (e : SourceError) (hstops : e.StopsAt n read rest)
      (h : ∀ rest', rest'.head? = rest.head? → r ⟨n, read ++ rest'⟩ = .error e)

/-- Wherever it stands, a reader looks at some characters and at the first one behind them at most. -/
def Local (put : α → Cursor → β) (r : Cursor → Except SourceError β) : Prop :=
  ∀ n text, ∃ read rest, text = read ++ rest ∧ EndsBehind put r n read rest

variable {put : α → Cursor → β} {put' : γ → Cursor → δ}

theorem Local.of_ok {r : Cursor → Except SourceError β} (hr : Local put r) {c : Cursor} {b : β}
    (h : r c = .ok b) : ∃ a read rest, c.rest = read ++ rest ∧
      b = put a ⟨c.offset + Utf8.size read, rest⟩ ∧ ∀ rest', rest'.head? = rest.head? →
        r ⟨c.offset, read ++ rest'⟩ = .ok (put a ⟨c.offset + Utf8.size read, rest'⟩) := by
  obtain ⟨n, text⟩ := c
  obtain ⟨read, rest, rfl, hread⟩ := hr n text
  cases hread with
  | ok a hok => exact ⟨a, read, rest, rfl, Except.ok.inj (h.symm.trans (hok rest rfl)), hok⟩
  | error e hstops herror =>
    rw [herror rest rfl] at h
    cases h

theorem Local.of_error {r : Cursor → Except SourceError β} (hr : Local put r) {c : Cursor}
    {e : SourceError} (h : r c = .error e) : ∃ read rest, c.rest = read ++ rest ∧
      e.StopsAt c.offset read rest ∧ ∀ rest', rest'.head? = rest.head? →
        r ⟨c.offset, read ++ rest'⟩ = .error e := by
  obtain ⟨n, text⟩ := c
  obtain ⟨read, rest, rfl, hread⟩ := hr n text
  cases hread with
  | ok a hok =>
    rw [hok rest rfl] at h
    cases h
  | error e' hstops herror =>
    rw [herror rest rfl] at h
    cases h
    exact ⟨read, rest, rfl, hstops, herror⟩

theorem local_ok (put : α → Cursor → β) (a : α) : Local put fun c => .ok (put a c) :=
  fun _ text => ⟨[], text, rfl, .ok a fun _ _ => rfl⟩

theorem local_error (put : α → Cursor → β) {e : SourceError}
    (he : ∀ n rest, e.StopsAt n [] rest) : Local put fun _ => .error e :=
  fun n text => ⟨[], text, rfl, .error e (he n text) fun _ _ => rfl⟩

/-- A reader that refuses a character where it stands looks no further. -/
theorem endsBehind_of_refused (put : α → Cursor → β) {r : Cursor → Except SourceError β} {n : Nat}
    {x : Char} (rest : List Char)
    (h : ∀ after, r ⟨n, x :: after⟩ = .error (.unexpectedCharacter x n)) :
    EndsBehind put r n [] (x :: rest) := by
  refine .error (.unexpectedCharacter x n) .unexpectedCharacter fun rest' hrest => ?_
  obtain ⟨after, rfl⟩ := List.head?_eq_some_iff.mp hrest
  exact h after

/-- **Two local readers in a row are local.** -/
theorem Local.bind {r : Cursor → Except SourceError β} {f : β → Except SourceError δ}
    (hr : Local put r) (hf : ∀ a, Local put' fun c => f (put a c)) :
    Local put' fun c => r c >>= f := by
  intro n text
  obtain ⟨read, rest, rfl, hread⟩ := hr n text
  cases hread with
  | error e hstops h =>
    refine ⟨read, rest, rfl, .error e hstops fun rest' hrest => ?_⟩
    rw [h rest' hrest]
    rfl
  | ok a h =>
    obtain ⟨read', rest', rfl, hread'⟩ := hf a (n + Utf8.size read) rest
    have hsame : ∀ z, z.head? = rest'.head? →
        (r ⟨n, read ++ read' ++ z⟩ >>= f) = f (put a ⟨n + Utf8.size read, read' ++ z⟩) := by
      intro z hz
      rw [List.append_assoc, h _ (head?_append_congr hz read')]
      rfl
    refine ⟨read ++ read', rest', (List.append_assoc _ _ _).symm, ?_⟩
    cases hread' with
    | ok b h' =>
      refine .ok b fun z hz => ?_
      rw [hsame z hz, h' z hz, Utf8.size_append, Nat.add_assoc]
    | error e hstops h' =>
      refine .error e hstops.behind fun z hz => ?_
      rw [hsame z hz, h' z hz]

/-- A reader behind a run of characters of a class is local: the run ends at the first character
    that is not in the class. -/
theorem Local.skipWhile {r : Cursor → Except SourceError β} (hr : Local put r) (p : Char → Bool) :
    Local put fun c => r (c.skipWhile p) := by
  intro n text
  obtain ⟨read, rest, hrest, hread⟩ :=
    hr (n + Utf8.size (text.takeWhile p)) (text.dropWhile p)
  have hsplit : text = text.takeWhile p ++ (read ++ rest) := by
    rw [← hrest, List.takeWhile_append_dropWhile]
  have hrun : ∀ c ∈ text.takeWhile p, p c = true := fun c hc => mem_takeWhile hc
  have hmaximal : ∀ c ∈ (read ++ rest).head?, p c = false := hrest ▸ head?_dropWhile text
  generalize text.takeWhile p = run at hread hsplit hrun
  have hskip : ∀ z, z.head? = rest.head? →
      Cursor.skipWhile p ⟨n, run ++ read ++ z⟩ = ⟨n + Utf8.size run, read ++ z⟩ := by
    intro z hz
    have hmaximal' : ∀ c ∈ (read ++ z).head?, p c = false :=
      head?_append_congr hz read ▸ hmaximal
    rw [Cursor.skipWhile, List.append_assoc]
    dsimp only
    rw [takeWhile_of_maximal hrun hmaximal', dropWhile_of_maximal hrun hmaximal', Cursor.advance]
  refine ⟨run ++ read, rest, by rw [hsplit, List.append_assoc], ?_⟩
  cases hread with
  | ok a h =>
    refine .ok a fun z hz => ?_
    rw [hskip z hz, h z hz, Utf8.size_append, Nat.add_assoc]
  | error e hstops h =>
    refine .error e hstops.behind fun z hz => ?_
    rw [hskip z hz, h z hz]

theorem Local.skipWhitespace {r : Cursor → Except SourceError β} (hr : Local put r) :
    Local put fun c => r c.skipWhitespace := hr.skipWhile Symbol.isWhitespace

end Local

/-! ## 2. The operations of a cursor -/

/-- The cursor alone, as a result. -/
@[reducible] def Cursor.alone (_ : Unit) (c : Cursor) : Cursor := c

theorem local_expect (due : Char) (description : String) :
    Local Cursor.alone (Cursor.expect due description) := by
  intro n text
  cases text with
  | nil =>
    refine ⟨[], [], rfl, .error (.unexpectedEnd description n) .unexpectedEnd fun rest' hrest => ?_⟩
    rw [List.head?_eq_none_iff.mp hrest]
    rfl
  | cons x rest =>
    by_cases hx : x = due
    · refine ⟨[x], rest, rfl, .ok () fun rest' _ => ?_⟩
      simp only [Cursor.expect, List.singleton_append, hx, if_true]
      rfl
    · refine ⟨[], x :: rest, rfl, endsBehind_of_refused _ rest fun after => ?_⟩
      simp only [Cursor.expect, hx, if_false]
      rfl

/-- The cursor behind a word that is due. -/
def Cursor.behindWord (description : String) (word : List Char) (c : Cursor) :
    Except SourceError Cursor :=
  match c.expectWord description word with
  | (.error e, _) => .error e
  | (.ok (), c) => .ok c

theorem Cursor.behindWord_cons (description : String) (x : Char) (xs : List Char) (c : Cursor) :
    c.behindWord description (x :: xs)
      = c.expect x description >>= Cursor.behindWord description xs := by
  rw [behindWord, expectWord]
  cases c.expect x description <;> rfl

theorem local_behindWord (description : String) (word : List Char) :
    Local Cursor.alone (Cursor.behindWord description word) := by
  induction word with
  | nil => exact local_ok Cursor.alone ()
  | cons x xs ih =>
    have heq : Cursor.behindWord description (x :: xs)
        = fun c => c.expect x description >>= Cursor.behindWord description xs :=
      funext (Cursor.behindWord_cons description x xs)
    rw [heq]
    exact (local_expect x description).bind fun _ => ih

/-- The text starts with a token, which is cut off by the first character of `rest`, and which may be
    empty there. -/
structure TokenAt (run rest : List Char) : Prop where
  plain : ∀ c ∈ run, Symbol.isDelimiter c = false
  maximal : ∀ c ∈ rest.head?, Symbol.isDelimiter c = true
  due : run = [] → rest.head? ≠ some ',' ∧ rest.head? ≠ some ']'

theorem TokenAt.congr {run rest rest' : List Char} (h : TokenAt run rest)
    (hrest : rest'.head? = rest.head?) : TokenAt run rest' :=
  ⟨h.plain, hrest ▸ h.maximal, hrest ▸ h.due⟩

/-- A text starts with a token, or with a character that is refused where one is due. -/
theorem token_cases (text : List Char) : (∃ run rest, text = run ++ rest ∧ TokenAt run rest) ∨
    ∃ x rest, text = x :: rest ∧ (x = ',' ∨ x = ']') := by
  have hsplit := List.takeWhile_append_dropWhile (p := (!Symbol.isDelimiter ·)) (l := text)
  have hrun : ∀ c ∈ text.takeWhile (!Symbol.isDelimiter ·), Symbol.isDelimiter c = false :=
    fun c hc => by simpa using mem_takeWhile hc
  have hrest : ∀ c ∈ (text.dropWhile (!Symbol.isDelimiter ·)).head?, Symbol.isDelimiter c = true :=
    fun c hc => by simpa using head?_dropWhile text c hc
  generalize text.takeWhile (!Symbol.isDelimiter ·) = run,
    text.dropWhile (!Symbol.isDelimiter ·) = rest at hsplit hrun hrest
  by_cases hdue : run = [] → rest.head? ≠ some ',' ∧ rest.head? ≠ some ']'
  · exact Or.inl ⟨run, rest, hsplit.symm, hrun, hrest, hdue⟩
  · obtain ⟨rfl, hx⟩ := Classical.not_imp.mp hdue
    cases rest with
    | nil => exact absurd ⟨nofun, nofun⟩ hx
    | cons x rest =>
      refine Or.inr ⟨x, rest, hsplit.symm, ?_⟩
      by_cases hcomma : x = ','
      · exact Or.inl hcomma
      · refine Or.inr (Classical.byContradiction fun hbracket => hx ?_)
        exact ⟨fun h => hcomma (Option.some.inj h), fun h => hbracket (Option.some.inj h)⟩

theorem TokenAt.takeWhile {run rest : List Char} (h : TokenAt run rest) :
    (run ++ rest).takeWhile (!Symbol.isDelimiter ·) = run :=
  takeWhile_of_maximal (fun c hc => by rw [h.plain c hc]; rfl)
    fun c hc => by rw [h.maximal c hc]; rfl

theorem TokenAt.dropWhile {run rest : List Char} (h : TokenAt run rest) :
    (run ++ rest).dropWhile (!Symbol.isDelimiter ·) = rest :=
  dropWhile_of_maximal (fun c hc => by rw [h.plain c hc]; rfl)
    fun c hc => by rw [h.maximal c hc]; rfl

theorem TokenAt.readToken {run rest : List Char} (h : TokenAt run rest) (n : Nat) :
    Cursor.readToken ⟨n, run ++ rest⟩
      = .ok (⟨String.ofList run, n⟩, ⟨n + Utf8.size run, rest⟩) := by
  rw [Cursor.readToken]
  dsimp only
  rw [h.takeWhile, h.dropWhile]
  split
  · exact absurd rfl (h.due rfl).1
  · exact absurd rfl (h.due rfl).2
  · rfl

theorem readToken_of_refused {x : Char} (hx : x = ',' ∨ x = ']') (n : Nat) (rest : List Char) :
    Cursor.readToken ⟨n, x :: rest⟩ = .error (.unexpectedCharacter x n) := by
  have hdelimiter : Symbol.isDelimiter x = true := by rcases hx with rfl | rfl <;> decide
  rw [Cursor.readToken]
  dsimp only
  rw [List.takeWhile_cons_of_neg (by simp [hdelimiter]),
    List.dropWhile_cons_of_neg (by simp [hdelimiter])]
  rcases hx with rfl | rfl <;> rfl

/-- **A token is cut off by the character behind it**, and an empty one is refused for it. -/
theorem local_readToken : Local Prod.mk Cursor.readToken := by
  intro n text
  rcases token_cases text with ⟨run, rest, rfl, h⟩ | ⟨x, rest, rfl, hx⟩
  · exact ⟨run, rest, rfl, .ok _ fun rest' hrest => (h.congr hrest).readToken n⟩
  · exact ⟨[], x :: rest, rfl, endsBehind_of_refused _ rest (readToken_of_refused hx n)⟩

/-- A token as an integer, by a rule for tokens. -/
def Cursor.readInteger {α : Type} (integer : Token → Except SourceError α) (c : Cursor) :
    Except SourceError (α × Cursor) := do
  let (t, c) ← c.readToken
  let k ← integer t
  return (k, c)

/-- The rule refuses a token as it stands. -/
def RefusesToken {α : Type} (integer : Token → Except SourceError α) : Prop :=
  ∀ t e, integer t = .error e → ∃ fault, e = .notAnInteger t.text t.offset fault

/-- A token that is no integer is refused once it is read. -/
theorem local_readInteger {α : Type} {integer : Token → Except SourceError α}
    (hinteger : RefusesToken integer) : Local Prod.mk (Cursor.readInteger integer) := by
  intro n text
  rcases token_cases text with ⟨run, rest, rfl, h⟩ | ⟨x, rest, rfl, hx⟩
  · refine ⟨run, rest, rfl, ?_⟩
    have hread : ∀ rest', rest'.head? = rest.head? → Cursor.readInteger integer ⟨n, run ++ rest'⟩
        = integer ⟨String.ofList run, n⟩ >>= fun k => .ok (k, ⟨n + Utf8.size run, rest'⟩) := by
      intro rest' hrest
      rw [Cursor.readInteger, (h.congr hrest).readToken n]
      rfl
    cases hk : integer ⟨String.ofList run, n⟩ with
    | ok k =>
      rw [hk] at hread
      exact .ok k hread
    | error e =>
      rw [hk] at hread
      obtain ⟨fault, rfl⟩ := hinteger _ e hk
      have htoken : run = [] ++ (String.ofList run).toList := String.toList_ofList.symm
      exact .error _ (.notAnInteger htoken h.maximal) hread
  · refine ⟨[], x :: rest, rfl, endsBehind_of_refused _ rest fun after => ?_⟩
    rw [Cursor.readInteger, readToken_of_refused hx]
    rfl

theorem readInteger_bind {α β : Type} (integer : Token → Except SourceError α) (c : Cursor)
    (f : α × Cursor → Except SourceError β) : c.readInteger integer >>= f
      = c.readToken >>= fun t => integer t.1 >>= fun k => f (k, t.2) := by
  rw [Cursor.readInteger]
  cases c.readToken with
  | error e => rfl
  | ok t =>
    change (integer t.1 >>= fun k => .ok (k, t.2)) >>= f = integer t.1 >>= fun k => f (k, t.2)
    cases integer t.1 <;> rfl

theorem refusesToken_integer {w : Numeral.Width} {α : Type} {ofInt : Int → α} :
    RefusesToken (Token.integer w ofInt) := by
  intro t e h
  unfold Token.integer at h
  cases hread : Numeral.readAs w ofInt t.text.toList with
  | ok v => rw [hread] at h; cases h
  | error fault => rw [hread] at h; cases h; exact ⟨fault, rfl⟩

end FunctionMap
