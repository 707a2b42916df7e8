import FunctionMap.Proofs.Source.Excerpt
import FunctionMap.Proofs.Declaration.Diagnosis

/-!
# The line that a diagnosis points at

A diagnosis prints a line number and an excerpt; the excerpt marks a line. The number comes from
counting line feeds and the excerpt from cutting the text, which knows no line behind the last line
feed. So the line of an offset is there to be marked, unless the offset is the end of a source that is
empty or ends in a line feed (`exists_sourceLine_iff`).

Main statement: the excerpt of a located error marks one line, and that line bears the printed number,
unless the error is at the end of a source that ends in a line feed; then it marks none
(`located_error_marks_its_line`).
-/

namespace FunctionMap

open Utf8 (decodeLossy)

/-! ## 1. The line of an offset -/

/-- The line of the end starts there exactly if nothing stands behind the last line feed. -/
theorem StartsLine.eq_length_iff {source : Bytes} {start : Nat}
    (h : StartsLine source source.length start) :
    start = source.length ↔ source = [] ∨ source.getLast? = some lineFeed := by
  have hle := h.le
  constructor
  · rintro rfl
    rcases h.opened with hzero | ⟨i, hi, hopened⟩
    · exact Or.inl (List.eq_nil_of_length_eq_zero hzero)
    · right
      rw [List.getLast?_eq_getElem?, show source.length - 1 = i by omega]
      exact hi
  · rintro (rfl | hfeed)
    · exact Nat.le_zero.mp hle
    · -- the last line feed lies in front of the start
      refine Nat.le_antisymm hle (Nat.le_of_not_lt fun hlt => h.last (source.length - 1) ?_ ?_ ?_)
      · omega
      · omega
      · rwa [← List.getLast?_eq_getElem?]

/-- The line of an offset is the last one exactly if no line feed stands behind the offset. -/
theorem line_eq_last_iff {source : Bytes} {offset : Nat} :
    (Position.ofOffset source offset).line + 1 = (source.splitOn lineFeed).length ↔
      lineFeed ∉ source.drop offset := by
  have hcount : source.count lineFeed =
      (source.take offset).count lineFeed + (source.drop offset).count lineFeed := by
    rw [← List.count_append, List.take_append_drop]
  rw [length_splitOn, Position.line_ofOffset, ← List.count_eq_zero]
  omega

/-- The last segment is all that stands behind its start. -/
theorem takeWhile_of_last_line {source : Bytes} {offset start : Nat}
    (hstarts : StartsLine source offset start) (hlast : lineFeed ∉ source.drop offset) :
    (source.drop start).takeWhile (· ≠ lineFeed) = source.drop start := by
  have hplain : ∀ b ∈ source.drop start, decide (b ≠ lineFeed) = true := by
    intro b hb
    refine decide_eq_true fun hfeed => ?_
    obtain ⟨i, hi⟩ := List.mem_iff_getElem?.mp hb
    rw [List.getElem?_drop, hfeed] at hi
    rcases Nat.lt_or_ge (start + i) offset with hlt | hge
    · exact hstarts.last _ (Nat.le_add_right _ _) hlt hi
    · refine hlast (List.mem_iff_getElem?.mpr ⟨start + i - offset, ?_⟩)
      rwa [List.getElem?_drop, Nat.add_sub_cancel' hge]
  have hwhole : (source.drop start ++ []).takeWhile (· ≠ lineFeed)
      = source.drop start ++ [].takeWhile (· ≠ lineFeed) := List.takeWhile_append_of_pos hplain
  rwa [List.takeWhile_nil, List.append_nil] at hwhole

/-- **The line of an offset is there, unless the offset is the end of a source that is empty or ends in
    a line feed.** -/
theorem exists_sourceLine_iff {source : Bytes} {offset : Nat} (hoffset : offset ≤ source.length) :
    (∃ line, SourceLine source (Position.ofOffset source offset).line line) ↔
      ¬ (offset = source.length ∧ (source = [] ∨ source.getLast? = some lineFeed)) := by
  obtain ⟨start, hstart, hstarts, -⟩ := exists_startsLine source offset
  have hsegment := getElem?_splitOn_of_start hstart
  have hindex := (List.getElem?_eq_some_iff.mp hsegment).1
  constructor
  · -- the line of such an end would have to be the last segment, which is empty
    rintro ⟨line, hline⟩ ⟨rfl, hend⟩
    have hlast : lineFeed ∉ source.drop source.length := by simp
    rw [takeWhile_of_last_line hstarts hlast, hstarts.eq_length_iff.mpr hend, List.drop_length]
      at hsegment
    have hnumber := line_eq_last_iff.mpr hlast
    cases hline with
    | ended _ hnext => omega
    | last hsegment' _ hne =>
      rw [hsegment] at hsegment'
      exact hne (Option.some.inj hsegment').symm
  · intro hnot
    by_cases hlast : lineFeed ∈ source.drop offset
    · have hnumber := mt line_eq_last_iff.mp (not_not_intro hlast)
      exact ⟨_, .ended hsegment (by omega)⟩
    · rw [takeWhile_of_last_line hstarts hlast] at hsegment
      refine ⟨_, .last hsegment (line_eq_last_iff.mpr hlast) fun hnil => hnot ?_⟩
      have hle := hstarts.le
      have hlength := List.drop_eq_nil_iff.mp hnil
      obtain rfl : offset = source.length := by omega
      exact ⟨rfl, hstarts.eq_length_iff.mp (by omega)⟩

/-! ## 2. The marked lines of an excerpt -/

/-- The lines of an excerpt that bear the mark. -/
def markedLines (excerpt : String) : List (List Char) :=
  (excerpt.toList.splitOn '\n').filter (['>', '>'].isPrefixOf ·)

/-- Lines that are ended by line feeds and hold none. -/
theorem splitOn_flatMap_lines {rows : List (List Char)} (h : ∀ row ∈ rows, '\n' ∉ row) :
    (rows.flatMap (· ++ ['\n'])).splitOn '\n' = rows ++ [[]] := by
  induction rows with
  | nil => rfl
  | cons row rows ih =>
    have hrow := h row List.mem_cons_self
    rw [List.flatMap_cons, List.append_assoc, List.singleton_append,
      List.splitOn_append_cons_self_of_not_mem hrow,
      ih fun row' hrow' => h row' (List.mem_cons_of_mem _ hrow'), List.cons_append]

namespace Excerpt

/-- A row without its line feed. -/
def rowText (marked i : Nat) (text : List Char) : List Char :=
  (if i = marked then ['>', '>'] else [' ', ' ']) ++ ' ' ::
    alignRight 3 (Numeral.writeNat (i + 1)) ++ [' ', '|', ' '] ++ text

theorem row_eq (marked i : Nat) (text : List Char) :
    row marked i text = rowText marked i text ++ ['\n'] := rfl

theorem isPrefixOf_rowText (marked i : Nat) (text : List Char) :
    ['>', '>'].isPrefixOf (rowText marked i text) = decide (i = marked) := by
  unfold rowText
  by_cases h : i = marked
  · simp [h]
  · simp [h, List.isPrefixOf]

theorem lineFeed_not_mem_rowText {marked i : Nat} {text : List Char} (h : '\n' ∉ text) :
    '\n' ∉ rowText marked i text := by
  have hnumber : '\n' ∉ Numeral.writeNat (i + 1) := fun hmem =>
    absurd ((Numeral.isDigits_writeNat (i + 1)).2 _ hmem) (by decide)
  unfold rowText alignRight
  split <;> simp [h, hnumber]

/-- Of numbered texts whose numbers increase, at most one has a given number. -/
theorem filter_eq_singleton {shown : List (List Char × Nat)} {text : List Char} {i : Nat}
    (hinc : (shown.map Prod.snd).Pairwise (· < ·)) (h : (text, i) ∈ shown) :
    shown.filter (fun r => r.2 = i) = [(text, i)] := by
  obtain ⟨front, back, rfl⟩ := List.append_of_mem h
  rw [List.map_append, List.map_cons, List.pairwise_append, List.pairwise_cons] at hinc
  obtain ⟨-, ⟨hback, -⟩, hfront⟩ := hinc
  have hnone : ∀ r ∈ front, ¬ decide (r.2 = i) = true := fun r hr => by
    have := hfront r.2 (List.mem_map_of_mem hr) i List.mem_cons_self
    simp only [decide_eq_true_eq]
    omega
  have hnone' : ∀ r ∈ back, ¬ decide (r.2 = i) = true := fun r hr => by
    have := hback r.2 (List.mem_map_of_mem hr)
    simp only [decide_eq_true_eq]
    omega
  rw [List.filter_append, List.filter_cons_of_pos (by simp), List.filter_eq_nil_iff.mpr hnone,
    List.filter_eq_nil_iff.mpr hnone']
  rfl

/-- The marked lines of an excerpt are the rows of the marked line. -/
theorem markedLines_around (source : Bytes) (marked : Nat) :
    markedLines (around source marked) =
      ((window marked (lines (decodeLossy source))).filter fun r => r.2 = marked).map
        fun r => rowText marked r.2 r.1 := by
  have hrows : (window marked (lines (decodeLossy source))).flatMap
        (fun r => row marked r.2 r.1) =
      ((window marked (lines (decodeLossy source))).map fun r => rowText marked r.2 r.1).flatMap
        (· ++ ['\n']) := by
    simp only [List.flatMap_map, row_eq]
  have hplain : ∀ row ∈ (window marked (lines (decodeLossy source))).map
      fun r => rowText marked r.2 r.1, '\n' ∉ row := by
    intro row hrow
    obtain ⟨⟨text, i⟩, hr, rfl⟩ := List.mem_map.mp hrow
    obtain ⟨line, hline, rfl⟩ := getElem?_lines_decodeLossy.mp (mem_window_iff.mp hr).1
    exact lineFeed_not_mem_rowText fun hmem =>
      hline.lineFeed_not_mem (Utf8.mem_of_mem_decodeLossy (b := lineFeed) (by decide) hmem)
  have haround : (around source marked).toList = (window marked (lines (decodeLossy source))).flatMap
      fun r => row marked r.2 r.1 := String.toList_ofList
  rw [markedLines, haround, hrows, splitOn_flatMap_lines hplain, List.filter_append, List.filter_map]
  simp only [Function.comp_def, isPrefixOf_rowText]
  exact List.append_nil _

/-- **An excerpt marks the line that it is about, if there is such a line**, and no other. -/
theorem markedLines_of_sourceLine {source : Bytes} {marked : Nat} {line : Bytes}
    (h : SourceLine source marked line) :
    markedLines (around source marked) = [rowText marked marked (decodeLossy line)] := by
  have hmem : (decodeLossy line, marked) ∈ window marked (lines (decodeLossy source)) :=
    mem_window_iff.mpr ⟨getElem?_lines_decodeLossy.mpr ⟨line, h, rfl⟩, Nat.le_add_right _ _,
      Nat.le_add_right _ _⟩
  rw [markedLines_around, filter_eq_singleton (pairwise_window _ _) hmem]
  rfl

theorem markedLines_of_not_sourceLine {source : Bytes} {marked : Nat}
    (h : ¬ ∃ line, SourceLine source marked line) : markedLines (around source marked) = [] := by
  rw [markedLines_around, List.filter_eq_nil_iff.mpr]
  · rfl
  · rintro ⟨text, i⟩ hr heq
    obtain rfl : i = marked := by simpa using heq
    obtain ⟨line, hline, -⟩ := getElem?_lines_decodeLossy.mp (mem_window_iff.mp hr).1
    exact h ⟨line, hline⟩

end Excerpt

/-! ## 3. Located errors -/

namespace Parser

/-- An offset that a truthful error points at is not behind the end of the source. -/
theorem Truthful.offset_le {source : Bytes} {e : SourceError} (h : Truthful source e) {offset : Nat}
    (hoffset : e.offset? = some offset) : offset ≤ source.length := by
  cases h with
  | unexpectedCharacter _ _ hlt =>
    cases hoffset
    exact Nat.le_of_lt hlt
  | unexpectedEnd _ heq =>
    cases hoffset
    exact Nat.le_of_eq heq
  | notAnInteger hsource heq _ _ _ _ _ _ =>
    cases hoffset
    rw [hsource, heq, List.append_assoc, List.length_append]
    exact Nat.le_add_right _ _
  | duplicateEnum _ _ _ => cases hoffset
  | duplicateFunction _ _ _ => cases hoffset
  | notUtf8 _ hupTo =>
    cases hoffset
    exact hupTo.le

theorem offset_le_of_parse {source : Bytes} {e : SourceError} {offset : Nat}
    (h : parse source = .error e) (hoffset : e.offset? = some offset) : offset ≤ source.length := by
  cases hc : Cursor.ofBytes source with
  | error e' =>
    obtain ⟨n, hdecode, rfl⟩ := Cursor.ofBytes_eq_error_iff.mp hc
    rw [(parse_of_notUtf8 hc).1] at h
    cases h
    cases hoffset
    exact (Utf8.decode_eq_error_iff.mp hdecode).2.le
  | ok c =>
    obtain ⟨text, rfl, -⟩ := Cursor.ofBytes_eq_ok_iff.mp hc
    exact (truthful_of_parse_encode h).2.offset_le hoffset

/-- **A located error shows the line that it points at, unless it is at the end of a source that ends in
    a line feed.** The diagnosis prints the number of the line and an excerpt; one line of the excerpt
    is marked, it bears that number and shows that line of the source. At such an end no line is
    marked. -/
theorem located_error_marks_its_line {source : Bytes} {e : SourceError} {offset : Nat}
    (h : parse source = .error e) (hoffset : e.offset? = some offset) :
    let p := Position.ofOffset source offset
    let number := Numeral.writeNat (p.line + 1)
    let excerpt := Excerpt.around source p.line
    e.diagnosis source = "Error at " ++ String.ofList (number ++ ':' :: Numeral.writeNat (p.column + 1))
        ++ ": " ++ e.message ++ "\n\n" ++ excerpt ∧
      (offset = source.length ∧ source.getLast? = some lineFeed → markedLines excerpt = []) ∧
      (¬ (offset = source.length ∧ source.getLast? = some lineFeed) →
        ∃ line, SourceLine source p.line line ∧ markedLines excerpt =
          [['>', '>', ' '] ++ Excerpt.alignRight 3 number ++ [' ', '|', ' '] ++ decodeLossy line]) := by
  intro p number excerpt
  have hline := exists_sourceLine_iff (offset_le_of_parse h hoffset)
  refine ⟨?_, fun hend => ?_, fun hend => ?_⟩
  · rw [SourceError.diagnosis, hoffset]
    rfl
  · refine Excerpt.markedLines_of_not_sourceLine fun hex => hline.mp hex ⟨hend.1, Or.inr hend.2⟩
  · have hne : source ≠ [] := by
      rintro rfl
      have hempty : error? (parse []) = none := by decide +kernel
      rw [h] at hempty
      cases hempty
    obtain ⟨line, hsource⟩ := hline.mpr fun ⟨hlength, hlast⟩ => hend ⟨hlength, hlast.resolve_left hne⟩
    refine ⟨line, hsource, ?_⟩
    rw [Excerpt.markedLines_of_sourceLine hsource, Excerpt.rowText, if_pos rfl]
    rfl

/-- The source ends inside a header, on a line of its own that no line feed ends. -/
theorem located_error_marks_its_line_at_unended_header :
    let source := Utf8.encode "map K int\r\n0 a\n[1".toList
    let e := SourceError.unexpectedEnd "','" 17
    let p := Position.ofOffset source 17
    parse source = .error e ∧ e.offset? = some 17 ∧
      ¬ (17 = source.length ∧ source.getLast? = some lineFeed) ∧
      ∃ line, SourceLine source p.line line ∧ markedLines (Excerpt.around source p.line) =
        [['>', '>', ' '] ++ Excerpt.alignRight 3 (Numeral.writeNat (p.line + 1)) ++ [' ', '|', ' ']
          ++ decodeLossy line] := by
  intro source e p
  have h : parse source = .error e := eq_error_of_error? (by decide +kernel)
  have hend : ¬ (17 = source.length ∧ source.getLast? = some lineFeed) := by decide +kernel
  exact ⟨h, rfl, hend, (located_error_marks_its_line h rfl).2.2 hend⟩

/-- The same header with a line feed behind it: the diagnosis prints line 2, and its excerpt has no
    such line. -/
theorem last_line_feed_hides_error_line :
    let source := Utf8.encode "[1, 2\n".toList
    let e := SourceError.unexpectedEnd "']'" 6
    parse source = .error e ∧ e.offset? = some 6 ∧
      e.diagnosis source =
        "Error at 2:1: Unexpected end of input at offset 6, expected ']'\n\n     1 | [1, 2\n" ∧
      markedLines (e.diagnosis source) = [] := by
  intro source e
  refine ⟨eq_error_of_error? (by decide +kernel), rfl, ?_, ?_⟩
  · decide +kernel
  · decide +kernel

end Parser
end FunctionMap
