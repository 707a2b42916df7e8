import FunctionMap.Source.Excerpt
import FunctionMap.Proofs.Text.Lossy
import FunctionMap.Proofs.Source.Position

/-!
# The lines that an excerpt shows

An excerpt cuts the decoded text into lines, positions count the line feeds of the bytes. Here both
are related to the segments between the line feeds of the bytes:

* `SourceLine source i line` -- line `i` of the bytes: the segment number `i`, without the one carriage
  return in front of its line feed, and without an empty last segment;
* decoding the bytes and cutting the text gives these lines, each decoded by itself
  (`getElem?_lines_decodeLossy`), because a line feed is always read as a character;
* the segment with the number that a position gives is the one in which the offset stands
  (`segment_of_offset`).

Main statement: `excerpt_shows_source_lines`.
-/

namespace FunctionMap

open Utf8 (decodeLossy)

/-! ## 1. Lines of the bytes -/

/-- The carriage return. -/
def carriageReturn : UInt8 := 0x0D

/-- A segment without the carriage return that stands right before its line feed. -/
def withoutReturn (segment : Bytes) : Bytes :=
  if segment.getLast? = some carriageReturn then segment.dropLast else segment

/-- A line of the bytes and its number: a segment that a line feed ends, or what follows the last line
    feed, unless it is empty. -/
inductive SourceLine (source : Bytes) : Nat → Bytes → Prop where
  | ended {i : Nat} {segment : Bytes} (hsegment : (source.splitOn lineFeed)[i]? = some segment)
      (hnext : i + 1 < (source.splitOn lineFeed).length) : SourceLine source i (withoutReturn segment)
  | last {i : Nat} {segment : Bytes} (hsegment : (source.splitOn lineFeed)[i]? = some segment)
      (hlast : i + 1 = (source.splitOn lineFeed).length) (hne : segment ≠ []) :
      SourceLine source i segment

/-- A line of the bytes is the longest run without a line feed from the start of that line. -/
theorem splitOn_eq_map_starts (front : Nat) (bs : Bytes) :
    bs.splitOn lineFeed = (front :: lineStartsFrom front bs).map fun start =>
      (bs.drop (start - front)).takeWhile (· ≠ lineFeed) := by
  induction bs generalizing front with
  | nil => simp [lineStartsFrom]
  | cons b bs ih =>
    -- behind the first byte, what is dropped counts from the next one on
    have hshift : ∀ start ∈ (front + 1) :: lineStartsFrom (front + 1) bs,
        (bs.drop (start - (front + 1))).takeWhile (· ≠ lineFeed)
          = ((b :: bs).drop (start - front)).takeWhile (· ≠ lineFeed) := by
      intro start hstart
      have hlt : front < start := by
        rcases List.mem_cons.mp hstart with rfl | hmem
        · exact Nat.lt_succ_self front
        · obtain ⟨i, -, rfl⟩ := mem_lineStartsFrom.mp hmem
          omega
      rw [show start - front = start - (front + 1) + 1 by omega, List.drop_succ_cons]
    rw [List.splitOn_cons_eq_if_modifyHead, ih (front + 1), lineStartsFrom]
    by_cases hb : b = lineFeed
    · rw [if_pos hb, if_pos (by simp [hb]), List.map_congr_left hshift, List.map_cons]
      simp [hb]
    · rw [if_neg hb, if_neg (by simp [hb]), List.map_cons, List.map_cons, List.modifyHead_cons]
      rw [List.map_congr_left fun start hstart => hshift start (List.mem_cons_of_mem _ hstart)]
      simp [hb]

/-- The segment of a line is the longest run without a line feed from its start. -/
theorem getElem?_splitOn_of_start {source : Bytes} {line start : Nat}
    (h : (LineIndex.ofBytes source).starts[line]? = some start) :
    (source.splitOn lineFeed)[line]? = some ((source.drop start).takeWhile (· ≠ lineFeed)) := by
  rw [LineIndex.starts_ofBytes] at h
  rw [splitOn_eq_map_starts 0, List.getElem?_map, h]
  rfl

theorem length_splitOn (source : Bytes) :
    (source.splitOn lineFeed).length = source.count lineFeed + 1 := by
  rw [splitOn_eq_map_starts 0, List.length_map, List.length_cons, length_lineStartsFrom]

/-- No line holds a line feed. -/
theorem SourceLine.lineFeed_not_mem {source : Bytes} {i : Nat} {line : Bytes}
    (h : SourceLine source i line) : lineFeed ∉ line := by
  have hsegment : ∀ segment, (source.splitOn lineFeed)[i]? = some segment → lineFeed ∉ segment := by
    intro segment hsegment hmem
    rw [splitOn_eq_map_starts 0] at hsegment
    obtain ⟨start, -, rfl⟩ := List.mem_map.mp (List.mem_of_getElem? hsegment)
    have := List.all_eq_true.mp List.all_takeWhile _ hmem
    simp at this
  cases h with
  | ended h _ =>
    unfold withoutReturn
    split
    · exact fun hmem => hsegment _ h (List.dropLast_subset _ hmem)
    · exact hsegment _ h
  | last h _ _ => exact hsegment _ h

/-- **The line of a position is the segment in which its offset stands**, the column counts from the
    start of that segment, and up to the end of the source it does not lead out of it. -/
theorem segment_of_offset (source : Bytes) (offset : Nat) : ∃ segment,
    (source.splitOn lineFeed)[(Position.ofOffset source offset).line]? = some segment ∧
      segment <+: source.drop (offset - (Position.ofOffset source offset).column) ∧
      (offset ≤ source.length → (Position.ofOffset source offset).column ≤ segment.length) := by
  obtain ⟨start, hstart, hstarts, hcolumn⟩ := exists_startsLine source offset
  have hle := hstarts.le
  have hdrop : offset - (Position.ofOffset source offset).column = start := by omega
  refine ⟨_, getElem?_splitOn_of_start hstart, ?_, fun hoffset => ?_⟩
  · rw [hdrop]
    exact List.takeWhile_prefix _
  · -- none of the bytes between the start and the offset is a line feed
    have hrun : ∀ b ∈ (source.drop start).take (offset - start), b ≠ lineFeed := by
      intro b hb hfeed
      obtain ⟨i, hi⟩ := List.mem_iff_getElem?.mp hb
      rw [List.getElem?_take] at hi
      split at hi
      · rw [List.getElem?_drop, hfeed] at hi
        exact hstarts.last (start + i) (by omega) (by omega) hi
      · cases hi
    have hprefix : (source.drop start).take (offset - start)
        <+: (source.drop start).takeWhile (· ≠ lineFeed) := by
      refine ⟨((source.drop start).drop (offset - start)).takeWhile (· ≠ lineFeed), ?_⟩
      rw [← List.takeWhile_append_of_pos fun b hb => decide_eq_true (hrun b hb),
        List.take_append_drop]
    have hlength := hprefix.length_le
    rw [List.length_take, List.length_drop] at hlength
    omega

/-! ## 2. Lines of the decoded text -/

namespace Excerpt

theorem segments_eq_splitOn {α : Type} [DecidableEq α] (separator : α) (xs : List α) :
    segments separator xs = xs.splitOn separator := by
  induction xs with
  | nil => rfl
  | cons x xs ih =>
    obtain ⟨first, rest, hsplit⟩ := List.exists_cons_of_ne_nil (List.splitOn_ne_nil separator xs)
    rw [segments, ih, List.splitOn_cons_eq_if_modifyHead, hsplit]
    by_cases hx : x = separator
    · simp [hx]
    · simp [hx, consFirst]

/-- The line that a segment gives: without its carriage return if a line feed ends it, and as it is if
    it is the last one and not empty. -/
theorem getElem?_ofSegments {segments : List (List Char)} {i : Nat} {line : List Char} :
    (ofSegments segments)[i]? = some line ↔ ∃ segment, segments[i]? = some segment ∧
      (i + 1 < segments.length ∧ line = dropReturn segment ∨
        i + 1 = segments.length ∧ segment ≠ [] ∧ line = segment) := by
  fun_induction ofSegments segments generalizing i with
  | case1 => simp
  | case2 => cases i <;> simp
  | case3 last hlast => cases i <;> simp [hlast, eq_comm]
  | case4 segment rest hrest ih =>
    have hne : rest ≠ [] := hrest
    have hlength : 0 < rest.length := List.length_pos_iff.mpr hne
    cases i with
    | zero => simp [eq_comm, hlength, hne]
    | succ i => simp [ih]

/-- **Decoding and cutting into segments can be done in either order**: a line feed is always read as
    the character it is. -/
theorem splitOn_decodeLossy (bs : Bytes) :
    (decodeLossy bs).splitOn '\n' = (bs.splitOn lineFeed).map decodeLossy := by
  have hfeed : lineFeed < 0x80 := by decide
  have hnot : ∀ {front : Bytes}, lineFeed ∉ front → '\n' ∉ decodeLossy front :=
    fun h hmem => h (Utf8.mem_of_mem_decodeLossy hfeed hmem)
  by_cases h : lineFeed ∈ bs
  · obtain ⟨front, rest, hbs, hfront⟩ := List.eq_append_cons_of_mem h
    have hdecode : decodeLossy (front ++ lineFeed :: rest)
        = decodeLossy front ++ '\n' :: decodeLossy rest :=
      Utf8.decodeLossy_append_ascii hfeed front rest
    have hlt : rest.length < bs.length := by
      rw [hbs, List.length_append, List.length_cons]
      omega
    rw [hbs, hdecode, List.splitOn_append_cons_self_of_not_mem (hnot hfront),
      List.splitOn_append_cons_self_of_not_mem hfront, splitOn_decodeLossy rest, List.map_cons]
  · rw [List.splitOn_eq_singleton (hnot h), List.splitOn_eq_singleton h]
    rfl
termination_by bs.length

/-- A carriage return at the end of a segment is one of its bytes. -/
theorem dropReturn_decodeLossy (segment : Bytes) :
    dropReturn (decodeLossy segment) = decodeLossy (withoutReturn segment) := by
  have hreturn : carriageReturn < 0x80 := by decide
  unfold dropReturn withoutReturn
  by_cases h : segment.getLast? = some carriageReturn
  · obtain ⟨front, rfl⟩ := List.getLast?_eq_some_iff.mp h
    have hdecode : decodeLossy (front ++ [carriageReturn]) = decodeLossy front ++ ['\r'] :=
      Utf8.decodeLossy_append_ascii hreturn front []
    rw [if_pos h, hdecode, List.getLast?_concat, if_pos rfl, List.dropLast_concat,
      List.dropLast_concat]
  · have hnot : (decodeLossy segment).getLast? ≠ some '\r' :=
      fun hlast => h (Utf8.getLast?_of_getLast?_decodeLossy hreturn hlast)
    rw [if_neg h, if_neg hnot]

/-- **The lines of the decoded text are the lines of the bytes, each decoded by itself.** -/
theorem getElem?_lines_decodeLossy {source : Bytes} {i : Nat} {text : List Char} :
    (lines (decodeLossy source))[i]? = some text ↔
      ∃ line, SourceLine source i line ∧ text = decodeLossy line := by
  rw [lines, segments_eq_splitOn, splitOn_decodeLossy, getElem?_ofSegments, List.length_map]
  constructor
  · rintro ⟨segment, hsegment, h⟩
    rw [List.getElem?_map, Option.map_eq_some_iff] at hsegment
    obtain ⟨bytes, hbytes, rfl⟩ := hsegment
    rcases h with ⟨hnext, rfl⟩ | ⟨hlast, hne, rfl⟩
    · exact ⟨_, .ended hbytes hnext, dropReturn_decodeLossy bytes⟩
    · exact ⟨_, .last hbytes hlast fun h => hne (Utf8.decodeLossy_eq_nil_iff.mpr h), rfl⟩
  · rintro ⟨line, hline, rfl⟩
    cases hline with
    | @ended segment hsegment hnext =>
      refine ⟨decodeLossy segment, by rw [List.getElem?_map, hsegment]; rfl, Or.inl ⟨hnext, ?_⟩⟩
      exact (dropReturn_decodeLossy segment).symm
    | last hsegment hlast hne =>
      refine ⟨decodeLossy line, by rw [List.getElem?_map, hsegment]; rfl, Or.inr ⟨hlast, ?_, rfl⟩⟩
      exact fun h => hne (Utf8.decodeLossy_eq_nil_iff.mp h)

/-! ## 3. The window -/

/-- The window shows the lines that there are, from `reach` before the marked one to `reach` after
    it. -/
theorem mem_window_iff {marked i : Nat} {lines : List (List Char)} {line : List Char} :
    (line, i) ∈ window marked lines ↔
      lines[i]? = some line ∧ marked ≤ i + reach ∧ i ≤ marked + reach := by
  unfold window
  rw [List.mem_iff_getElem?]
  constructor
  · rintro ⟨k, hk⟩
    rw [List.getElem?_drop, List.getElem?_take] at hk
    split at hk
    · rw [List.getElem?_zipIdx, Option.map_eq_some_iff] at hk
      obtain ⟨line', hline, hpair⟩ := hk
      obtain ⟨rfl, rfl⟩ := Prod.mk.inj hpair
      exact ⟨by rwa [Nat.zero_add], by omega, by omega⟩
    · cases hk
  · rintro ⟨hline, hfrom, hto⟩
    have hlt : i < lines.length := (List.getElem?_eq_some_iff.mp hline).1
    refine ⟨i - (marked - reach), ?_⟩
    rw [List.getElem?_drop, show marked - reach + (i - (marked - reach)) = i by omega,
      List.getElem?_take_of_lt (by omega), List.getElem?_zipIdx, hline]
    simp

/-- The numbers of the lines in the window increase. -/
theorem pairwise_window (marked : Nat) (lines : List (List Char)) :
    ((window marked lines).map Prod.snd).Pairwise (· < ·) := by
  have hsublist : (window marked lines).Sublist lines.zipIdx :=
    (List.drop_sublist _ _).trans (List.take_sublist _ _)
  refine List.Pairwise.sublist (hsublist.map Prod.snd) ?_
  rw [List.zipIdx_map_snd]
  exact List.pairwise_lt_range'

/-- A row shows the mark or two blanks in its place, the number from one on, moved to the right by
    blanks, a bar and the text. -/
theorem exists_row_eq (marked i : Nat) (text : List Char) :
    ∃ blanks, (∀ c ∈ blanks, c = ' ') ∧ row marked i text =
      (if i = marked then ['>', '>'] else [' ', ' ']) ++ [' '] ++ blanks ++
        Numeral.writeNat (i + 1) ++ [' ', '|', ' '] ++ text ++ ['\n'] := by
  refine ⟨List.replicate (3 - (Numeral.writeNat (i + 1)).length) ' ',
    fun c hc => List.eq_of_mem_replicate hc, ?_⟩
  rw [row, alignRight]
  simp only [List.append_assoc, List.cons_append, List.nil_append]

end Excerpt

/-! ## 4. The excerpt -/

/-- An excerpt shows numbered texts: of each line of the bytes that stands at most two lines away from
    the marked one, what it decodes to, once, in order. -/
structure ShowsLines (source : Bytes) (marked : Nat) (shown : List (List Char × Nat)) : Prop where
  rows : Excerpt.around source marked
    = String.ofList (shown.flatMap fun (text, i) => Excerpt.row marked i text)
  increasing : (shown.map Prod.snd).Pairwise (· < ·)
  exactly : ∀ i text, (text, i) ∈ shown ↔
    (∃ line, SourceLine source i line ∧ text = decodeLossy line) ∧ marked ≤ i + 2 ∧ i ≤ marked + 2

/-- **An excerpt shows the lines of the bytes around the marked one, each decoded by itself**, with
    their numbers from one on and a mark at that line only; and positions number the lines alike, for
    every byte string, whether it is a text or not. -/
theorem excerpt_shows_source_lines (source : Bytes) (marked : Nat) :
    (∃ shown, ShowsLines source marked shown) ∧
      (∀ i text, ∃ blanks, (∀ c ∈ blanks, c = ' ') ∧ Excerpt.row marked i text =
        (if i = marked then ['>', '>'] else [' ', ' ']) ++ [' '] ++ blanks ++
          Numeral.writeNat (i + 1) ++ [' ', '|', ' '] ++ text ++ ['\n']) ∧
      (∀ i text, (Excerpt.lines (decodeLossy source))[i]? = some text ↔
        ∃ line, SourceLine source i line ∧ text = decodeLossy line) ∧
      ∀ offset, ∃ segment,
        (source.splitOn lineFeed)[(Position.ofOffset source offset).line]? = some segment ∧
          segment <+: source.drop (offset - (Position.ofOffset source offset).column) ∧
          (offset ≤ source.length → (Position.ofOffset source offset).column ≤ segment.length) := by
  refine ⟨⟨Excerpt.window marked (Excerpt.lines (decodeLossy source)), rfl,
    Excerpt.pairwise_window _ _, fun i text => ?_⟩, fun i text => Excerpt.exists_row_eq marked i text,
    fun i text => Excerpt.getElem?_lines_decodeLossy, segment_of_offset source⟩
  rw [Excerpt.mem_window_iff, Excerpt.getElem?_lines_decodeLossy]
  rfl

end FunctionMap
