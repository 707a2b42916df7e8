import FunctionMap.Source.Position

/-!
# Positions by counting

A position is found by halving a list of line starts; here it is related to the line feeds of the
source itself. `StartsLine source offset start` says, without any list, where the line of an offset
starts: behind the last line feed below the offset, or at zero.

The halving keeps `Brackets`: the line sought is one of those still looked at, because the first of
them starts at or before the offset and no line behind them does. When one line is left, the starts up
to its own are those at or before the offset, and their number is that of the line feeds below it.

Main statement: `position_counts`.
-/

namespace FunctionMap

/-! ## 1. The starts of lines -/

/-- The line of an offset starts at `start`: behind the last line feed below the offset, or at zero if
    there is none. -/
structure StartsLine (source : Bytes) (offset start : Nat) : Prop where
  opened : start = 0 ∨ ∃ i, source[i]? = some lineFeed ∧ start = i + 1
  le : start ≤ offset
  last : ∀ i, start ≤ i → i < offset → source[i]? ≠ some lineFeed

theorem mem_lineStartsFrom {bs : Bytes} {offset start : Nat} :
    start ∈ lineStartsFrom offset bs ↔ ∃ i, bs[i]? = some lineFeed ∧ start = offset + i + 1 := by
  induction bs generalizing offset with
  | nil => simp [lineStartsFrom]
  | cons b bs ih =>
    -- a line feed of the whole is the first byte or one of the others
    have hsplit : (∃ i, (b :: bs)[i]? = some lineFeed ∧ start = offset + i + 1) ↔
        (b = lineFeed ∧ start = offset + 1) ∨
          ∃ i, bs[i]? = some lineFeed ∧ start = offset + 1 + i + 1 := by
      constructor
      · rintro ⟨i, hi, hstart⟩
        cases i with
        | zero => exact Or.inl ⟨by simpa using hi, hstart⟩
        | succ i => exact Or.inr ⟨i, by simpa using hi, by omega⟩
      · rintro (⟨rfl, hstart⟩ | ⟨i, hi, hstart⟩)
        · exact ⟨0, rfl, hstart⟩
        · exact ⟨i + 1, by simpa using hi, by omega⟩
    rw [hsplit, lineStartsFrom]
    by_cases hb : b = lineFeed
    · rw [if_pos hb, List.mem_cons, ih]
      simp [hb]
    · rw [if_neg hb, ih]
      simp [hb]

theorem length_lineStartsFrom (offset : Nat) (bs : Bytes) :
    (lineStartsFrom offset bs).length = bs.count lineFeed := by
  induction bs generalizing offset with
  | nil => rfl
  | cons b bs ih =>
    rw [lineStartsFrom, List.count_cons]
    by_cases hb : b = lineFeed
    · rw [if_pos hb, List.length_cons, ih]
      simp [hb]
    · rw [if_neg hb, ih]
      simp [hb]

theorem pairwise_lineStartsFrom (offset : Nat) (bs : Bytes) :
    (offset :: lineStartsFrom offset bs).Pairwise (· < ·) := by
  refine List.pairwise_cons.mpr ⟨fun start hstart => ?_, ?_⟩
  · obtain ⟨i, -, rfl⟩ := mem_lineStartsFrom.mp hstart
    omega
  · induction bs generalizing offset with
    | nil => exact List.Pairwise.nil
    | cons b bs ih =>
      rw [lineStartsFrom]
      split
      · refine List.pairwise_cons.mpr ⟨fun start hstart => ?_, ih (offset + 1)⟩
        obtain ⟨i, -, rfl⟩ := mem_lineStartsFrom.mp hstart
        omega
      · exact ih (offset + 1)

/-- The starts at or before an offset are as many as the line feeds below it. -/
theorem countP_lineStartsFrom (offset front : Nat) (bs : Bytes) :
    (lineStartsFrom front bs).countP (· ≤ offset) = (bs.take (offset - front)).count lineFeed := by
  induction bs generalizing front with
  | nil => simp [lineStartsFrom]
  | cons b bs ih =>
    by_cases hfront : front < offset
    · have hsub : offset - front = (offset - (front + 1)) + 1 := by omega
      rw [lineStartsFrom, hsub, List.take_succ_cons, List.count_cons, ← ih]
      by_cases hb : b = lineFeed
      · have hle : front + 1 ≤ offset := hfront
        simp [hb, hle]
      · simp [hb]
    · -- every start lies behind `front`
      have hnone : (lineStartsFrom front (b :: bs)).countP (· ≤ offset) = 0 := by
        refine List.countP_eq_zero.mpr fun start hstart => ?_
        obtain ⟨i, -, rfl⟩ := mem_lineStartsFrom.mp hstart
        simp only [decide_eq_true_eq]
        omega
      rw [hnone, show offset - front = 0 by omega]
      rfl

/-! ## 2. Halving -/

namespace LineIndex

/-- The starts of the lines increase. -/
def Increasing (index : LineIndex) : Prop :=
  ∀ ⦃i j start start' : Nat⦄, i < j → index.starts[i]? = some start →
    index.starts[j]? = some start' → start < start'

/-- The line of the offset is one of `count` lines from `base` on. -/
structure Brackets (index : LineIndex) (offset base count : Nat) : Prop where
  pos : 0 < count
  inside : base + count ≤ index.lineCount
  first : ∃ start, index.starts[base]? = some start ∧ start ≤ offset
  behind : ∀ line start, base + count ≤ line → index.starts[line]? = some start → offset < start

section Halving

variable {index : LineIndex} {offset base count : Nat}

/-- The upper half is kept if it starts at or before the offset. -/
theorem Brackets.upper (h : index.Brackets offset base count) (hcount : 1 < count) {start : Nat}
    (hstart : index.starts[base + count / 2]? = some start) (hle : start ≤ offset) :
    index.Brackets offset (base + count / 2) (count - count / 2) where
  pos := by omega
  inside := by have := h.inside; omega
  first := ⟨start, hstart, hle⟩
  behind line start' hline := h.behind line start' (by omega)

/-- The lower half is kept if the upper one starts behind the offset. -/
theorem Brackets.lower (hinc : index.Increasing) (h : index.Brackets offset base count)
    (hcount : 1 < count) {start : Nat} (hstart : index.starts[base + count / 2]? = some start)
    (hlt : offset < start) : index.Brackets offset base (count / 2) where
  pos := by omega
  inside := by have := h.inside; omega
  first := h.first
  behind line start' hline hstart' := by
    rcases Nat.lt_or_eq_of_le hline with hline | rfl
    · exact Nat.lt_trans hlt (hinc hline hstart hstart')
    · rw [hstart] at hstart'
      cases hstart'
      exact hlt

/-- **Halving ends at the line of the offset.** -/
theorem brackets_narrow (hinc : index.Increasing) (h : index.Brackets offset base count) :
    index.Brackets offset (index.narrow offset base count) 1 := by
  fun_induction narrow index offset base count with
  | case1 base count hcount =>
    have hone : count = 1 := by have := h.pos; omega
    exact hone ▸ h
  | case2 base count hcount half start hstart hle ih =>
    exact ih (h.upper (by omega) hstart hle)
  | case3 base count hcount half start hstart hle ih =>
    exact ih (h.lower hinc (by omega) hstart (by omega))
  | case4 base count hcount half hnone ih =>
    have hinside : base + count / 2 < index.lineCount := by have := h.inside; omega
    rw [Array.getElem?_eq_getElem hinside] at hnone
    cases hnone

/-- **The search finds the line of the offset**, if the offset starts it, or the place right behind
    that line. -/
theorem search_cases (hinc : index.Increasing) (h : index.Brackets offset 0 index.lineCount) :
    ∃ line, index.Brackets offset line 1 ∧
      (index.search offset = .here line ∨ index.search offset = .missing (line + 1)) := by
  have hline := brackets_narrow hinc h
  obtain ⟨start, hstart, hle⟩ := hline.first
  refine ⟨_, hline, ?_⟩
  unfold search
  simp only [hstart]
  by_cases heq : start = offset
  · exact Or.inl (if_pos heq)
  · have hlt : start < offset := by omega
    rw [if_neg heq, if_pos hlt]
    exact Or.inr rfl

/-- The line of an offset holds it, and a place that the search gives instead lies right behind it. -/
theorem brackets_lineOf (hinc : index.Increasing) (h : index.Brackets offset 0 index.lineCount) :
    index.Brackets offset (index.lineOf offset) 1 ∧
      ∀ slot, index.search offset = .missing slot → slot = index.lineOf offset + 1 := by
  obtain ⟨line, hline, hsearch | hsearch⟩ := search_cases hinc h
  · have hof : index.lineOf offset = line := by rw [lineOf, hsearch]
    rw [hof, hsearch]
    exact ⟨hline, fun slot hslot => (nomatch hslot)⟩
  · have hof : index.lineOf offset = line := by rw [lineOf, hsearch]; rfl
    rw [hof, hsearch]
    exact ⟨hline, fun slot hslot => (Found.missing.inj hslot).symm⟩

/-- The starts at or before the offset are those of the lines up to its own. -/
theorem Brackets.countP (hinc : index.Increasing) {line : Nat} (h : index.Brackets offset line 1) :
    index.starts.toList.countP (· ≤ offset) = line + 1 := by
  obtain ⟨start, hstart, hle⟩ := h.first
  have hlength : line + 1 ≤ index.starts.toList.length := h.inside
  rw [← List.take_append_drop (line + 1) index.starts.toList, List.countP_append]
  have hupTo : (index.starts.toList.take (line + 1)).countP (· ≤ offset) = line + 1 := by
    rw [List.countP_eq_length.mpr, List.length_take, Nat.min_eq_left hlength]
    intro s hs
    obtain ⟨i, hi⟩ := List.mem_iff_getElem?.mp hs
    have hline : i < line + 1 := by
      refine Nat.lt_of_not_le fun hge => ?_
      rw [List.getElem?_take_eq_none hge] at hi
      cases hi
    rw [List.getElem?_take_of_lt hline, Array.getElem?_toList] at hi
    rcases Nat.lt_or_eq_of_le (Nat.le_of_lt_succ hline) with hlt | rfl
    · exact decide_eq_true (Nat.le_trans (Nat.le_of_lt (hinc hlt hi hstart)) hle)
    · rw [hstart] at hi
      cases hi
      exact decide_eq_true hle
  have hbehind : (index.starts.toList.drop (line + 1)).countP (· ≤ offset) = 0 := by
    refine List.countP_eq_zero.mpr fun s hs => ?_
    obtain ⟨i, hi⟩ := List.mem_iff_getElem?.mp hs
    rw [List.getElem?_drop, Array.getElem?_toList] at hi
    have hlt := h.behind (line + 1 + i) s (Nat.le_add_right _ _) hi
    simp only [decide_eq_true_eq]
    omega
  rw [hupTo, hbehind, Nat.add_zero]

end Halving

/-! ## 3. The lines of a source -/

theorem starts_ofBytes (source : Bytes) (line : Nat) :
    (ofBytes source).starts[line]? = (0 :: lineStartsFrom 0 source)[line]? := by
  rw [ofBytes, List.getElem?_toArray]

theorem lineCount_ofBytes (source : Bytes) :
    (ofBytes source).lineCount = source.count lineFeed + 1 := by
  rw [lineCount, ofBytes, List.size_toArray, List.length_cons, length_lineStartsFrom]

theorem increasing_ofBytes (source : Bytes) : (ofBytes source).Increasing := by
  intro i j start start' hij hi hj
  rw [starts_ofBytes] at hi hj
  obtain ⟨hi', rfl⟩ := List.getElem?_eq_some_iff.mp hi
  obtain ⟨hj', rfl⟩ := List.getElem?_eq_some_iff.mp hj
  exact List.pairwise_iff_getElem.mp (pairwise_lineStartsFrom 0 source) i j hi' hj' hij

/-- At the outset every line is looked at: the first one starts at zero, and none lies behind the
    last. -/
theorem brackets_ofBytes (source : Bytes) (offset : Nat) :
    (ofBytes source).Brackets offset 0 (ofBytes source).lineCount where
  pos := by rw [lineCount_ofBytes]; exact Nat.succ_pos _
  inside := Nat.le_of_eq (Nat.zero_add _)
  first := ⟨0, starts_ofBytes source 0, Nat.zero_le offset⟩
  behind line start hline hstart := by
    have hnone : (ofBytes source).starts[line]? = none :=
      Array.getElem?_eq_none (by rwa [Nat.zero_add] at hline)
    rw [hnone] at hstart
    cases hstart

/-- A line that starts at or before an offset, with no line behind it that does, starts behind the
    last line feed below the offset. -/
theorem startsLine_of_brackets {source : Bytes} {offset line start : Nat}
    (h : (ofBytes source).Brackets offset line 1)
    (hstart : (ofBytes source).starts[line]? = some start) : StartsLine source offset start where
  opened := by
    rw [starts_ofBytes] at hstart
    rcases List.mem_cons.mp (List.mem_of_getElem? hstart) with hzero | hmem
    · exact Or.inl hzero
    · obtain ⟨i, hi, rfl⟩ := mem_lineStartsFrom.mp hmem
      exact Or.inr ⟨i, hi, by omega⟩
  le := by
    obtain ⟨start', hstart', hle⟩ := h.first
    rw [hstart] at hstart'
    cases hstart'
    exact hle
  last := by
    -- a line feed further on would open a line that starts at or before the offset
    intro i hge hlt hfeed
    have hmem : i + 1 ∈ 0 :: lineStartsFrom 0 source :=
      List.mem_cons_of_mem _ (mem_lineStartsFrom.mpr ⟨i, hfeed, by omega⟩)
    obtain ⟨line', hline'⟩ := List.mem_iff_getElem?.mp hmem
    rw [← starts_ofBytes] at hline'
    rcases Nat.lt_or_ge line line' with hbehind | hbefore
    · have := h.behind line' (i + 1) hbehind hline'
      omega
    · rcases Nat.lt_or_eq_of_le hbefore with hbefore | rfl
      · have := increasing_ofBytes source hbefore hline' hstart
        omega
      · rw [hstart] at hline'
        cases hline'
        omega

end LineIndex

/-! ## 4. Positions -/

/-- **The line of an offset is the number of line feeds below it.** -/
theorem Position.line_ofOffset (source : Bytes) (offset : Nat) :
    (ofOffset source offset).line = (source.take offset).count lineFeed := by
  have hinc := LineIndex.increasing_ofBytes source
  have hcount :=
    (LineIndex.brackets_lineOf hinc (LineIndex.brackets_ofBytes source offset)).1.countP hinc
  have hstarts : (LineIndex.ofBytes source).starts.toList = 0 :: lineStartsFrom 0 source := rfl
  rw [hstarts, List.countP_cons, countP_lineStartsFrom] at hcount
  show (LineIndex.ofBytes source).lineOf offset = _
  simpa using hcount.symm

/-- A position comes before another one: its line does, or it is the same line and its column does. -/
def Position.Before (p q : Position) : Prop :=
  p.line < q.line ∨ p.line = q.line ∧ p.column < q.column

/-- The line of an offset is one that there is, and it starts behind the last line feed below the
    offset. -/
theorem exists_startsLine (source : Bytes) (offset : Nat) :
    ∃ start, (LineIndex.ofBytes source).starts[(Position.ofOffset source offset).line]? = some start ∧
      StartsLine source offset start ∧ (Position.ofOffset source offset).column = offset - start := by
  have hbrackets := (LineIndex.brackets_lineOf (LineIndex.increasing_ofBytes source)
    (LineIndex.brackets_ofBytes source offset)).1
  obtain ⟨start, hstart, -⟩ := hbrackets.first
  refine ⟨start, hstart, LineIndex.startsLine_of_brackets hbrackets hstart, ?_⟩
  show offset - (LineIndex.ofBytes source).startOf _ = offset - start
  rw [LineIndex.startOf, hstart, Option.getD_some]

/-- A greater offset has a later position. -/
theorem Position.before_of_lt {source : Bytes} {offset offset' : Nat} (h : offset < offset') :
    (ofOffset source offset).Before (ofOffset source offset') := by
  have hle : (ofOffset source offset).line ≤ (ofOffset source offset').line := by
    rw [line_ofOffset, line_ofOffset]
    exact (List.take_sublist_take_left (Nat.le_of_lt h)).count_le _
  rcases Nat.lt_or_eq_of_le hle with hlt | heq
  · exact Or.inl hlt
  · -- the two offsets are on one line, and so count from one start
    obtain ⟨start, hstart, hstarts, hcolumn⟩ := exists_startsLine source offset
    obtain ⟨start', hstart', -, hcolumn'⟩ := exists_startsLine source offset'
    rw [← heq, hstart] at hstart'
    cases hstart'
    have := hstarts.le
    exact Or.inr ⟨heq, by omega⟩

/-- What the position of an offset says of a source. -/
structure PositionCounts (source : Bytes) (offset : Nat) : Prop where
  /-- The line is the number of line feeds below the offset. -/
  line : (Position.ofOffset source offset).line = (source.take offset).count lineFeed
  /-- There is one line more than there are line feeds, and the line is one of them. -/
  lineCount : (LineIndex.ofBytes source).lineCount = source.count lineFeed + 1
  line_lt : (Position.ofOffset source offset).line < (LineIndex.ofBytes source).lineCount
  /-- The line in front of a place where the offset would have to be put in is there. -/
  slot_pos : ∀ slot, (LineIndex.ofBytes source).search offset = .missing slot → 0 < slot
  /-- The column counts from behind the last line feed below the offset, the start of the line, which
      is not behind the offset: line and column give the offset back. -/
  column : ∃ start, StartsLine source offset start ∧
    (LineIndex.ofBytes source).starts[(Position.ofOffset source offset).line]? = some start ∧
    (Position.ofOffset source offset).column = offset - start ∧
    start + (Position.ofOffset source offset).column = offset
  /-- A greater offset has a later position. -/
  increasing : ∀ offset', offset < offset' →
    (Position.ofOffset source offset).Before (Position.ofOffset source offset')

/-- **The position that halving finds is the one that counting line feeds gives**, for every source and
    every offset, also behind its end. -/
theorem position_counts (source : Bytes) (offset : Nat) : PositionCounts source offset := by
  obtain ⟨hbrackets, hslot⟩ := LineIndex.brackets_lineOf (LineIndex.increasing_ofBytes source)
    (LineIndex.brackets_ofBytes source offset)
  obtain ⟨start, hstart, hstarts, hcolumn⟩ := exists_startsLine source offset
  have hle := hstarts.le
  exact
    { line := Position.line_ofOffset source offset
      lineCount := LineIndex.lineCount_ofBytes source
      line_lt := hbrackets.inside
      slot_pos := fun slot h => by rw [hslot slot h]; exact Nat.succ_pos _
      column := ⟨start, hstarts, hstart, hcolumn, by omega⟩
      increasing := fun offset' h => Position.before_of_lt h }

/-- A line feed still belongs to the line that it ends. -/
example : let source := Utf8.encode "map K\n0 a\n".toList
    Position.ofOffset source 5 = ⟨0, 5⟩ ∧ Position.ofOffset source 6 = ⟨1, 0⟩ := by
  decide +kernel

end FunctionMap
