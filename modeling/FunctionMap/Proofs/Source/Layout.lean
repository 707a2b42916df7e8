import FunctionMap.Proofs.Source.Alike

/-!
# Texts that differ in layout

The layout of a text is what its comments say and how long its white space is. `Relaid text text'`
says that two texts differ in nothing else: comment stands against comment, a run of white space
against a run of white space, and every other character against itself. A comment reaches up to the
line feed and takes it in; a run of white space is as long as possible, and none is added or taken
away.

Main statement: cursors in two such texts read alike (`alike_relaid`), also where a comment stands
for a name that is missing, and where one is refused.
-/

namespace FunctionMap

open Grammar (NoBlank)

/-! ## 1. Texts that differ in layout -/

/-- The texts differ only in what their comments say and in the white space of each run. -/
inductive Relaid : List Char → List Char → Prop where
  | nil : Relaid [] []
  | char (c : Char) {a b : List Char} (hblank : Symbol.isWhitespace c = false) (hhash : c ≠ '#')
      (h : Relaid a b) : Relaid (c :: a) (c :: b)
  | comment {body body' a b : List Char} (hbody : '\n' ∉ body) (hbody' : '\n' ∉ body')
      (h : Relaid a b) : Relaid ('#' :: body ++ '\n' :: a) ('#' :: body' ++ '\n' :: b)
  | lastComment {body body' : List Char} (hbody : '\n' ∉ body) (hbody' : '\n' ∉ body') :
      Relaid ('#' :: body) ('#' :: body')
  | blanks {run run' a b : List Char} (hne : run ≠ []) (hrun : ∀ c ∈ run, Symbol.isWhitespace c = true)
      (hne' : run' ≠ []) (hrun' : ∀ c ∈ run', Symbol.isWhitespace c = true) (hmaximal : NoBlank a)
      (h : Relaid a b) : Relaid (run ++ a) (run' ++ b)

/-- Errors of the same kind: the same end, token and fault, or key, and the same character unless
    both are white space. -/
inductive SourceError.SameKind : SourceError → SourceError → Prop where
  | unexpectedCharacter {x x' : Char} {n n' : Nat}
      (h : x = x' ∨ Symbol.isWhitespace x = true ∧ Symbol.isWhitespace x' = true) :
      SameKind (.unexpectedCharacter x n) (.unexpectedCharacter x' n')
  | unexpectedEnd {expected : String} {n n' : Nat} :
      SameKind (.unexpectedEnd expected n) (.unexpectedEnd expected n')
  | notAnInteger {token : String} {fault : Numeral.Fault} {n n' : Nat} :
      SameKind (.notAnInteger token n fault) (.notAnInteger token n' fault)
  | duplicate {kind : DeclarationKind} {key : String} :
      SameKind (.duplicate kind key) (.duplicate kind key)
  | strayEntry {what : String} : SameKind (.strayEntry what) (.strayEntry what)

/-- Every text is made of characters, comments and runs of white space. -/
theorem layout_induction {motive : List Char → Prop} (nil : motive [])
    (char : ∀ c a, Symbol.isWhitespace c = false → c ≠ '#' → motive a → motive (c :: a))
    (comment : ∀ body a, '\n' ∉ body → motive a → motive ('#' :: body ++ '\n' :: a))
    (lastComment : ∀ body, '\n' ∉ body → motive ('#' :: body))
    (blanks : ∀ run a, run ≠ [] → (∀ c ∈ run, Symbol.isWhitespace c = true) → NoBlank a →
      motive a → motive (run ++ a)) (text : List Char) : motive text := by
  match text with
  | [] => exact nil
  | x :: rest =>
    by_cases hhash : x = '#'
    · subst hhash
      have hbody : '\n' ∉ rest.takeWhile (· ≠ '\n') := fun h => by simpa using mem_takeWhile h
      rw [← List.takeWhile_append_dropWhile (p := (· ≠ '\n')) (l := rest)]
      have hlen := Cursor.length_dropWhile_le (· ≠ '\n') rest
      have hhead := head?_dropWhile (p := (· ≠ '\n')) rest
      generalize rest.takeWhile (· ≠ '\n') = body, rest.dropWhile (· ≠ '\n') = behind
        at hbody hlen hhead
      cases behind with
      | nil =>
        rw [List.append_nil]
        exact lastComment body hbody
      | cons y a =>
        obtain rfl : y = '\n' := by simpa using hhead y rfl
        exact comment body a hbody (layout_induction nil char comment lastComment blanks a)
    · by_cases hblank : Symbol.isWhitespace x = true
      · have hlen : ((x :: rest).dropWhile Symbol.isWhitespace).length ≤ rest.length := by
          rw [List.dropWhile_cons_of_pos hblank]
          exact Cursor.length_dropWhile_le _ _
        rw [← List.takeWhile_append_dropWhile (p := Symbol.isWhitespace) (l := x :: rest)]
        refine blanks _ _ ?_ (fun c hc => mem_takeWhile hc) (Cursor.noBlank_dropWhile _)
          (layout_induction nil char comment lastComment blanks _)
        rw [List.takeWhile_cons_of_pos hblank]
        exact List.cons_ne_nil _ _
      · exact char x rest (by simpa using hblank) hhash
          (layout_induction nil char comment lastComment blanks rest)
termination_by text.length
decreasing_by
  all_goals simp_wf
  all_goals simp at *
  all_goals omega

namespace Relaid

/-! ## 2. What two such texts have in common -/

/-- Both texts are at their end, or start with the same character or with white space. -/
theorem heads {a b : List Char} (h : Relaid a b) : (a = [] ∧ b = []) ∨
    ∃ x x' as bs, a = x :: as ∧ b = x' :: bs ∧
      (x = x' ∨ Symbol.isWhitespace x = true ∧ Symbol.isWhitespace x' = true) := by
  cases h with
  | nil => exact Or.inl ⟨rfl, rfl⟩
  | char c hblank hhash h => exact Or.inr ⟨c, c, _, _, rfl, rfl, Or.inl rfl⟩
  | comment hbody hbody' h => exact Or.inr ⟨'#', '#', _, _, rfl, rfl, Or.inl rfl⟩
  | lastComment hbody hbody' => exact Or.inr ⟨'#', '#', _, _, rfl, rfl, Or.inl rfl⟩
  | @blanks run run' a b hne hrun hne' hrun' hmaximal h =>
    obtain ⟨x, as, rfl⟩ := List.exists_cons_of_ne_nil hne
    obtain ⟨x', bs, rfl⟩ := List.exists_cons_of_ne_nil hne'
    exact Or.inr ⟨x, x', _, _, rfl, rfl,
      Or.inr ⟨hrun x List.mem_cons_self, hrun' x' List.mem_cons_self⟩⟩

/-- Where no white space stands, both texts start with the same character. -/
theorem head?_eq {a b : List Char} (h : Relaid a b) (ha : NoBlank a) : a.head? = b.head? := by
  rcases h.heads with ⟨rfl, rfl⟩ | ⟨x, x', as, bs, rfl, rfl, hx⟩
  · rfl
  · rcases hx with rfl | ⟨hx, -⟩
    · rfl
    · rw [ha x rfl] at hx
      cases hx

theorem symm {a b : List Char} (h : Relaid a b) : Relaid b a := by
  induction h with
  | nil => exact .nil
  | char c hblank hhash _ ih => exact .char c hblank hhash ih
  | comment hbody hbody' _ ih => exact .comment hbody' hbody ih
  | lastComment hbody hbody' => exact .lastComment hbody' hbody
  | blanks hne hrun hne' hrun' hmaximal h ih =>
    exact .blanks hne' hrun' hne hrun (fun c hc => hmaximal c (h.head?_eq hmaximal ▸ hc)) ih

/-- A character that is no layout stands against itself. -/
theorem tail {x : Char} {a text : List Char} (h : Relaid (x :: a) text)
    (hblank : Symbol.isWhitespace x = false) (hhash : x ≠ '#') :
    ∃ b, text = x :: b ∧ Relaid a b := by
  generalize hx : x :: a = start at h
  cases h with
  | nil => cases hx
  | char c _ _ h =>
    cases hx
    exact ⟨_, rfl, h⟩
  | comment hbody hbody' h =>
    cases hx
    exact absurd rfl hhash
  | lastComment hbody hbody' =>
    cases hx
    exact absurd rfl hhash
  | blanks hne hrun hne' hrun' hmaximal h =>
    obtain ⟨y, run, rfl⟩ := List.exists_cons_of_ne_nil hne
    cases hx
    rw [hrun x List.mem_cons_self] at hblank
    cases hblank

/-- White space may be put before both texts. -/
theorem blank {x y : Char} {a b : List Char} (hx : Symbol.isWhitespace x = true)
    (hy : Symbol.isWhitespace y = true) (h : Relaid a b) : Relaid (x :: a) (y :: b) := by
  have hone : ∀ {z : Char}, Symbol.isWhitespace z = true →
      ∀ c ∈ [z], Symbol.isWhitespace c = true := fun hz c hc => List.mem_singleton.mp hc ▸ hz
  have hsingle : NoBlank a → Relaid ([x] ++ a) ([y] ++ b) := fun ha =>
    .blanks (List.cons_ne_nil _ _) (hone hx) (List.cons_ne_nil _ _) (hone hy) ha h
  cases h with
  | nil => exact hsingle Grammar.noBlank_nil
  | char c hblank hhash h => exact hsingle (Grammar.noBlank_cons hblank)
  | comment hbody hbody' h => exact hsingle (Grammar.noBlank_cons (by decide))
  | lastComment hbody hbody' => exact hsingle (Grammar.noBlank_cons (by decide))
  -- the runs are as long as possible, so they take the character in
  | blanks hne hrun hne' hrun' hmaximal h =>
    exact .blanks (List.cons_ne_nil x _) (List.forall_mem_cons.mpr ⟨hx, hrun⟩)
      (List.cons_ne_nil y _) (List.forall_mem_cons.mpr ⟨hy, hrun'⟩) hmaximal h

/-! ## 3. Cursors in two such texts -/

theorem dropWhitespace {a b : List Char} (h : Relaid a b) :
    Relaid (a.dropWhile Symbol.isWhitespace) (b.dropWhile Symbol.isWhitespace) := by
  have hsame : NoBlank a → Relaid (a.dropWhile Symbol.isWhitespace)
      (b.dropWhile Symbol.isWhitespace) := fun ha => by
    have hb : NoBlank b := fun c hc => ha c (h.head?_eq ha ▸ hc)
    rwa [dropWhile_eq_self ha, dropWhile_eq_self hb]
  cases h with
  | nil => exact hsame Grammar.noBlank_nil
  | char c hblank hhash h => exact hsame (Grammar.noBlank_cons hblank)
  | comment hbody hbody' h => exact hsame (Grammar.noBlank_cons (by decide))
  | lastComment hbody hbody' => exact hsame (Grammar.noBlank_cons (by decide))
  | blanks hne hrun hne' hrun' hmaximal h =>
    have hmaximal' : NoBlank _ := fun c hc => hmaximal c (h.head?_eq hmaximal ▸ hc)
    rwa [dropWhile_of_maximal hrun hmaximal, dropWhile_of_maximal hrun' hmaximal']

theorem dropComment {a b : List Char} (h : Relaid ('#' :: a) b) :
    Relaid (('#' :: a).dropWhile (· ≠ '\n')) (b.dropWhile (· ≠ '\n')) := by
  have hdrop : ∀ {body rest : List Char}, '\n' ∉ body → (∀ c ∈ rest.head?, c = '\n') →
      ('#' :: body ++ rest).dropWhile (· ≠ '\n') = rest := by
    intro body rest hbody hrest
    refine dropWhile_of_maximal (fun c hc => ?_) (fun c hc => by simpa using hrest c hc)
    rcases List.mem_cons.mp hc with rfl | hc
    · decide
    · simpa using fun heq : c = '\n' => hbody (heq ▸ hc)
  generalize hx : '#' :: a = start at h
  cases h with
  | nil => cases hx
  | char c _ hhash h =>
    cases hx
    exact absurd rfl hhash
  | @comment body body' a b hbody hbody' h =>
    have hline : ∀ rest : List Char, ∀ c ∈ ('\n' :: rest).head?, c = '\n' := by simp
    rw [hdrop hbody (hline _), hdrop hbody' (hline _)]
    exact h.blank (by decide) (by decide)
  | @lastComment body body' hbody hbody' =>
    have hend : ∀ c ∈ ([] : List Char).head?, c = '\n' := by simp
    rw [← List.append_nil ('#' :: body), ← List.append_nil ('#' :: body'), hdrop hbody hend,
      hdrop hbody' hend]
    exact .nil
  | blanks hne hrun hne' hrun' hmaximal h =>
    obtain ⟨y, run, rfl⟩ := List.exists_cons_of_ne_nil hne
    cases hx
    cases hrun '#' List.mem_cons_self

/-- Where characters stand that end a token, both texts start with an empty one. -/
theorem token_of_delimiter {x x' : Char} {as bs : List Char} (h : Relaid (x :: as) (x' :: bs))
    (hx : Symbol.isDelimiter x = true) (hx' : Symbol.isDelimiter x' = true) :
    (x :: as).takeWhile (!Symbol.isDelimiter ·) = (x' :: bs).takeWhile (!Symbol.isDelimiter ·) ∧
      Relaid ((x :: as).dropWhile (!Symbol.isDelimiter ·))
        ((x' :: bs).dropWhile (!Symbol.isDelimiter ·)) := by
  simpa [List.takeWhile_cons, List.dropWhile_cons, hx, hx'] using h

/-- Both texts start with the same token, which may be empty. -/
theorem token {a b : List Char} (h : Relaid a b) :
    a.takeWhile (!Symbol.isDelimiter ·) = b.takeWhile (!Symbol.isDelimiter ·) ∧
      Relaid (a.dropWhile (!Symbol.isDelimiter ·)) (b.dropWhile (!Symbol.isDelimiter ·)) := by
  induction h with
  | nil => exact ⟨rfl, .nil⟩
  | @char c a b hblank hhash h ih =>
    by_cases hc : Symbol.isDelimiter c = true
    · exact (char c hblank hhash h).token_of_delimiter hc hc
    · obtain ⟨htake, hdrop⟩ := ih
      simp only [List.takeWhile_cons, List.dropWhile_cons, hc, Bool.not_false, if_true, htake,
        true_and]
      exact hdrop
  | comment hbody hbody' h =>
    exact (comment hbody hbody' h).token_of_delimiter (by decide) (by decide)
  | lastComment hbody hbody' =>
    exact (lastComment hbody hbody').token_of_delimiter (by decide) (by decide)
  | @blanks run run' a b hne hrun hne' hrun' hmaximal h =>
    have hall : Relaid (run ++ a) (run' ++ b) := .blanks hne hrun hne' hrun' hmaximal h
    obtain ⟨x, as, rfl⟩ := List.exists_cons_of_ne_nil hne
    obtain ⟨x', bs, rfl⟩ := List.exists_cons_of_ne_nil hne'
    have hx : Symbol.isWhitespace x = true := hrun x List.mem_cons_self
    have hx' : Symbol.isWhitespace x' = true := hrun' x' List.mem_cons_self
    exact hall.token_of_delimiter (by simp [Symbol.isDelimiter, hx])
      (by simp [Symbol.isDelimiter, hx'])

end Relaid

section Cursors

variable {c c' : Cursor} (h : Relaid c.rest c'.rest)

include h

theorem sameKind_unexpected : c.unexpected.SameKind c'.unexpected := by
  rcases h.heads with ⟨hc, hc'⟩ | ⟨x, x', as, bs, hc, hc', hx⟩
  · rw [Cursor.unexpected, Cursor.unexpected, hc, hc']
    exact .unexpectedEnd
  · rw [Cursor.unexpected, Cursor.unexpected, hc, hc']
    exact .unexpectedCharacter hx

theorem agree_expect_of_relaid {x : Char} (description : String)
    (hblank : Symbol.isWhitespace x = false) (hhash : x ≠ '#') :
    Agree (fun c c' => Relaid c.rest c'.rest) SourceError.SameKind (c.expect x description)
      (c'.expect x description) := by
  have hunexpected := sameKind_unexpected h
  unfold Cursor.expect
  rcases h.heads with ⟨hc, hc'⟩ | ⟨y, y', as, bs, hc, hc', hy⟩
  · rw [hc, hc']
    exact .error .unexpectedEnd
  · rw [hc, hc']
    dsimp only
    by_cases hyx : y = x
    · subst hyx
      rw [hc, hc'] at h
      obtain ⟨b, hb, htail⟩ := h.tail hblank hhash
      cases hb
      rw [if_pos rfl, if_pos rfl]
      exact .ok htail
    · have hyx' : y' ≠ x := by
        rintro rfl
        rcases hy with hy | ⟨-, hy⟩
        · exact hyx hy
        · rw [hblank] at hy
          cases hy
      rw [if_neg hyx, if_neg hyx']
      exact .error hunexpected

/-- A comma or a bracket that stands where a token is due is refused in both. -/
theorem agree_readToken_of_relaid :
    Agree (fun r r' => r.1.Alike SourceError.SameKind r'.1 ∧ Relaid r.2.rest r'.2.rest)
      SourceError.SameKind c.readToken c'.readToken := by
  obtain ⟨htake, hdrop⟩ := h.token
  unfold Cursor.readToken
  dsimp only
  rw [← htake]
  generalize c.rest.takeWhile (!Symbol.isDelimiter ·) = text,
    c.rest.dropWhile (!Symbol.isDelimiter ·) = rest,
    c'.rest.dropWhile (!Symbol.isDelimiter ·) = rest' at hdrop
  split
  · obtain ⟨b, rfl, -⟩ := hdrop.tail (by decide) (by decide)
    exact .error (.unexpectedCharacter (Or.inl rfl))
  · obtain ⟨b, rfl, -⟩ := hdrop.tail (by decide) (by decide)
    exact .error (.unexpectedCharacter (Or.inl rfl))
  · rename_i hcomma hbracket
    split
    · obtain ⟨b, rfl, -⟩ := hdrop.symm.tail (by decide) (by decide)
      exact absurd rfl (hcomma b rfl)
    · obtain ⟨b, rfl, -⟩ := hdrop.symm.tail (by decide) (by decide)
      exact absurd rfl (hbracket b rfl)
    · exact .ok ⟨⟨rfl, fun fault => .notAnInteger⟩, hdrop⟩

end Cursors

/-- **Cursors in two texts that differ in layout read alike.** -/
theorem alike_relaid : Alike (fun c c' => Relaid c.rest c'.rest) SourceError.SameKind where
  unlocated e he := by
    cases e with
    | duplicate kind key => exact .duplicate
    | strayEntry what => exact .strayEntry
    | _ => cases he
  atEnd c c' h := by
    rcases h.heads with ⟨hc, hc'⟩ | ⟨x, x', as, bs, hc, hc', -⟩
    · rw [hc, hc']
    · rw [hc, hc']
      exact ⟨fun h => (nomatch h), fun h => (nomatch h)⟩
  skipWhitespace c c' h := h.dropWhitespace
  current? c c' h := h.dropWhitespace.head?_eq (Cursor.noBlank_dropWhile c.rest)
  skipComment c c' h hhash := by
    obtain ⟨rest, hrest⟩ := List.head?_eq_some_iff.mp hhash
    rw [hrest] at h
    have hdrop := h.dropComment
    rw [← hrest] at hdrop
    exact hdrop
  unexpected c c' h := sameKind_unexpected h
  expect c c' x description h hblank hhash := agree_expect_of_relaid h description hblank hhash
  readToken c c' h := agree_readToken_of_relaid h

end FunctionMap
