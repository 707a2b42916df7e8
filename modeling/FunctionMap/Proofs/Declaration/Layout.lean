import FunctionMap.Proofs.Source.Layout
import FunctionMap.Proofs.Declaration.Alike

/-!
# Layout never changes meaning

Two runs over texts that differ in layout only are in the same phase with the same table at every
step, with cursors that read alike. So they end with the same table, or with errors of the same kind.
Line ends are a case of it: a carriage return before a line feed is part of a comment or of white
space.

Main statement: `parse_relaid`.
-/

namespace FunctionMap

/-! ## 1. Two sources -/

/-- Both sources have the same table, or are refused with errors of the same kind. -/
structure SameMeaning (source source' : Bytes) : Prop where
  ok : ∀ t, parse source = .ok t ↔ parse source' = .ok t
  error : ∀ e, parse source = .error e → ∃ e', parse source' = .error e' ∧ e.SameKind e'

theorem sameMeaning_of_relaid {text text' : List Char} (h : Relaid text text') :
    SameMeaning (Utf8.encode text) (Utf8.encode text') := by
  have hlike : (Parser.State.start (.ofText text)).Like (fun c c' => Relaid c.rest c'.rest)
      (.start (.ofText text')) := .mk h
  have hrun := alike_relaid.run (Parser.consistent_start _) hlike
  rw [← (Parser.parse_eq_run (Cursor.ofBytes_encode text)).1,
    ← (Parser.parse_eq_run (Cursor.ofBytes_encode text')).1] at hrun
  generalize hx : parse (Utf8.encode text) = x, hy : parse (Utf8.encode text') = y at hrun
  cases hrun with
  | ok heq =>
    subst heq
    exact ⟨fun t => by rw [hx, hy], fun e he => by rw [hx] at he; cases he⟩
  | error hkind =>
    refine ⟨fun t => ?_, fun e he => ?_⟩
    · rw [hx, hy]
      exact ⟨fun h => (nomatch h), fun h => (nomatch h)⟩
    · rw [hx] at he
      cases he
      exact ⟨_, hy, hkind⟩

/-! ## 2. Line ends -/

/-- A text with a carriage return put before every line feed. -/
def crlf (text : List Char) : List Char :=
  text.flatMap fun c => if c = '\n' then ['\r', '\n'] else [c]

theorem crlf_append (a b : List Char) : crlf (a ++ b) = crlf a ++ crlf b := List.flatMap_append

theorem crlf_of_not_mem {text : List Char} (h : '\n' ∉ text) : crlf text = text := by
  induction text with
  | nil => rfl
  | cons c text ih =>
    obtain ⟨hc, htext⟩ := not_or.mp (mt List.mem_cons.mpr h)
    rw [crlf, List.flatMap_cons, if_neg (Ne.symm hc)]
    exact congrArg (c :: ·) (ih htext)

theorem isWhitespace_of_mem_crlf {run : List Char} (h : ∀ c ∈ run, Symbol.isWhitespace c = true) :
    ∀ c ∈ crlf run, Symbol.isWhitespace c = true := by
  intro c hc
  obtain ⟨x, hx, hc⟩ := List.mem_flatMap.mp hc
  split at hc
  · simp only [List.mem_cons, List.not_mem_nil, or_false] at hc
    rcases hc with rfl | rfl <;> rfl
  · exact List.mem_singleton.mp hc ▸ h x hx

theorem crlf_ne_nil {text : List Char} (h : text ≠ []) : crlf text ≠ [] := by
  obtain ⟨c, rest, rfl⟩ := List.exists_cons_of_ne_nil h
  rw [crlf, List.flatMap_cons]
  split <;> exact List.cons_ne_nil _ _

/-- Line ends are layout: a carriage return is part of the comment that the line feed ends, or of
    the white space. -/
theorem relaid_crlf (text : List Char) : Relaid text (crlf text) := by
  induction text using layout_induction with
  | nil => exact .nil
  | char c a hblank hhash ih =>
    have hc : c ≠ '\n' := by rintro rfl; cases hblank
    rw [← List.singleton_append, crlf_append, crlf_of_not_mem (by simpa using Ne.symm hc)]
    exact .char c hblank hhash ih
  | comment body a hbody ih =>
    have hcrlf : crlf ('#' :: body ++ '\n' :: a) = '#' :: (body ++ ['\r']) ++ '\n' :: crlf a := by
      have hline : crlf ('\n' :: a) = '\r' :: '\n' :: crlf a := rfl
      rw [crlf_append, crlf_of_not_mem (by simpa using hbody), hline]
      simp
    rw [hcrlf]
    exact .comment hbody (by simpa using hbody) ih
  | lastComment body hbody =>
    rw [crlf_of_not_mem (by simpa using hbody)]
    exact .lastComment hbody hbody
  | blanks run a hne hrun hmaximal ih =>
    rw [crlf_append]
    exact .blanks hne hrun (crlf_ne_nil hne) (isWhitespace_of_mem_crlf hrun) hmaximal ih

/-- **Layout never changes meaning.** Whatever the comments of a text say and however long its white
    space is, the table is the same, and so is the kind of the error; in particular line feeds and
    carriage returns with line feeds mean the same. -/
theorem parse_relaid {text text' : List Char} (h : Relaid text text') :
    SameMeaning (Utf8.encode text) (Utf8.encode text') ∧
      SameMeaning (Utf8.encode text) (Utf8.encode (crlf text)) :=
  ⟨sameMeaning_of_relaid h, sameMeaning_of_relaid (relaid_crlf text)⟩

/-- The comment stands for the missing type of `K`, also where it looks like a declaration. -/
theorem parse_relaid_comment_for_type :
    Relaid ("map K#a\n".toList) ("map\t\nK#[1, 2] f\n".toList) ∧
      parse (Utf8.encode "map\t\nK#[1, 2] f\n".toList) = .ok ⟨[⟨"K", "", []⟩], []⟩ := by
  have hcomment : Relaid (['#', 'a'] ++ ['\n']) (('#' :: "[1, 2] f".toList) ++ ['\n']) :=
    .comment (by decide) (by decide) .nil
  have hrun : ∀ c ∈ [' '], Symbol.isWhitespace c = true := by simp [Symbol.isWhitespace]
  have hrun' : ∀ c ∈ ['\t', '\n'], Symbol.isWhitespace c = true := by simp [Symbol.isWhitespace]
  have hname : Relaid ([' '] ++ 'K' :: ['#', 'a', '\n'])
      (['\t', '\n'] ++ 'K' :: ('#' :: "[1, 2] f".toList ++ ['\n'])) :=
    .blanks (by decide) hrun (by decide) hrun' (Grammar.noBlank_cons (by decide))
      (.char 'K' (by decide) (by decide) hcomment)
  have h : Relaid "map K#a\n".toList "map\t\nK#[1, 2] f\n".toList :=
    .char 'm' (by decide) (by decide) (.char 'a' (by decide) (by decide)
      (.char 'p' (by decide) (by decide) hname))
  have hparse : parse (Utf8.encode "map K#a\n".toList) = .ok ⟨[⟨"K", "", []⟩], []⟩ :=
    eq_ok_of_toOption (by decide +kernel)
  exact ⟨h, ((parse_relaid h).1.ok _).mp hparse⟩

end FunctionMap
