import FunctionMap.Proofs.Declaration.Span
import FunctionMap.Proofs.Declaration.Derivation

/-!
# Sources joined by an empty comment

A declaration has no mark at its end, so where a source stops and another is put behind it, the
first may be in a list, behind an entry whose name is missing or in a comment. An empty comment and
a line feed between the two are enough in all these cases:

* the `#` ends a word, and stands where an optional word may be missing as the end of the source
  did (`Spanned.append`);
* in an unfinished comment the `#` is part of it, and the line feed ends it (`Gap.join`).

So a derivation of the first source is also one of its text in the joined source, and one of the
second follows it (`File.join`). Main statement: `parse_join`.
-/

namespace FunctionMap
namespace Grammar

/-! ## 1. Joined sources -/

/-- A text, an empty comment and a line feed, and the text `b`. -/
def join (text b : List Char) : List Char := text ++ '#' :: '\n' :: b

/-- What remains of a joined source where `rest` remains of the first one: at its end the gap that
    the second one starts with has been read as well, up to `start`. -/
def joinRest (b start rest : List Char) : List Char := if rest = [] then start else join rest b

theorem joinRest_of_ne_nil {b start rest : List Char} (h : rest ≠ []) :
    joinRest b start rest = join rest b := if_neg h

/-- A comment that goes on up to the end of the first source ends at the line feed behind it. -/
theorem Comment.join_end {text : List Char} (h : Comment text []) (b : List Char) :
    Comment (join text b) ('\n' :: b) := by
  rw [← List.append_nil text] at h
  exact h.merge List.not_mem_nil b

/-- A comment that a line feed ends stays as it is. -/
theorem Comment.join {text rest : List Char} (h : Comment text rest) (hrest : rest ≠ [])
    (b : List Char) : Comment (join text b) (join rest b) := by
  obtain ⟨body, htext, hbody⟩ := h.text_eq
  refine ⟨⟨body, ?_, hbody⟩, fun c hc => ?_⟩
  · rw [htext, Grammar.join, Grammar.join, List.append_assoc]
  · cases rest with
    | nil => exact absurd rfl hrest
    | cons x rest => exact h.maximal c hc

/-- **A gap takes in the comment that joins the sources, also from inside a comment.** -/
theorem Gap.join {text rest b start : List Char} (h : Gap text rest) (hb : Gap b start) :
    Gap (join text b) (joinRest b start rest) := by
  have hline : Gap ('\n' :: b) start := .blank '\n' (by decide) hb
  induction h with
  | none rest =>
    by_cases hrest : rest = []
    · subst hrest
      exact hb.emptyLine
    · rw [joinRest_of_ne_nil hrest]
      exact .none _
  | blank c hc h ih => exact .blank c hc ih
  | @comment text mid rest hc h ih =>
    by_cases hmid : mid = []
    -- the comment was not finished: the first `#` of the joint belongs to it
    · subst hmid
      have hrest : rest = [] := List.suffix_nil.mp h.suffix
      subst hrest
      exact .comment (hc.join_end b) hline
    · exact .comment (hc.join hmid b) ih

/-- Items take in the comment that joins the sources if each does so at its end. -/
theorem Star.join {α : Type} {item : List Char → α → List Char → Prop} {b start : List Char}
    (hitem : ∀ text x rest, item text x rest →
      text ≠ [] ∧ item (Grammar.join text b) x (joinRest b start rest))
    {text rest : List Char} {xs : List α} (h : Star item text xs rest) :
    Star item (joinRest b start text) xs (joinRest b start rest) := by
  induction h with
  | nil rest => exact .nil _
  | cons hx _ ih =>
    obtain ⟨hne, hx⟩ := hitem _ _ _ hx
    rw [joinRest_of_ne_nil hne]
    exact .cons hx ih

theorem Spaced.join {α : Type} {item : List Char → α → List Char → Prop} {b start : List Char}
    (hitem : ∀ text x rest, item text x rest →
      text ≠ [] ∧ item (Grammar.join text b) x (Grammar.join rest b))
    {text rest : List Char} {x : α} (h : Spaced item text x rest) (hb : Gap b start) :
    text ≠ [] ∧ Spaced item (Grammar.join text b) x (joinRest b start rest) := by
  obtain ⟨hx, hgap⟩ := h
  obtain ⟨hne, hx⟩ := hitem _ _ _ hx
  exact ⟨hne, .mk hx (hgap.join hb)⟩

/-- **The list of a declaration does not run on into the second source.** -/
theorem Declares.join {text rest b start : List Char} {d : Declaration} (h : Declares text d rest)
    (hb : Gap b start) : text ≠ [] ∧ Declares (join text b) d (joinRest b start rest) := by
  cases h with
  | enumeration hheader hgap hvalues =>
    have hvalues' := hvalues.join fun _ _ _ hvalue =>
      hvalue.join (fun _ _ _ h => ⟨h.entryAt.ne_nil, h.spanned.append ('\n' :: b)⟩) hb
    exact ⟨hheader.ne_nil, .enumeration (hheader.spanned.append _) (hgap.join hb) hvalues'⟩
  | function hheader hgap hparameters =>
    have hparameters' := hparameters.join fun _ _ _ hparameter =>
      hparameter.join (fun _ _ _ h => ⟨h.entryAt.ne_nil, h.spanned.append ('\n' :: b)⟩) hb
    exact ⟨hheader.ne_nil, .function (hheader.spanned.append _) (hgap.join hb) hparameters'⟩

/-- **The declarations of a joined source are those of the two sources.** -/
theorem File.join {a b : List Char} {ds ds' : List Declaration} (ha : File a ds) (hb : File b ds') :
    File (join a b) (ds ++ ds') := by
  obtain ⟨hgap, hds⟩ := ha
  obtain ⟨hgap', hds'⟩ := hb
  exact .mk (hgap.join hgap') ((hds.join fun _ _ _ h => h.join hgap').append hds')

end Grammar

namespace Parser

open Grammar

/-! ## 2. Joined tables -/

/-- The bytes of an empty comment and a line feed. -/
def joint : Bytes := [0x23, 0x0A]

theorem encode_join (a b : List Char) :
    Utf8.encode (join a b) = Utf8.encode a ++ joint ++ Utf8.encode b := by
  rw [join, Utf8.encode_append, Utf8.encode_cons, Utf8.encode_cons, List.append_assoc]
  rfl

/-- The declarations of the second source are inserted behind the table of the first. -/
theorem parse_joined {a b : Bytes} {ta tb : Table} (ha : parse a = .ok ta) (hb : parse b = .ok tb) :
    ta.Distinct ∧ ∃ ds, (Table.ofDeclarations ds).Distinct ∧ tb = Table.ofDeclarations ds ∧
      parse (a ++ joint ++ b) = ta.insertAll ds := by
  obtain ⟨text, ds, rfl, hfile, hinsert⟩ := file_of_parse ha
  obtain ⟨text', ds', rfl, hfile', hinsert'⟩ := file_of_parse hb
  obtain ⟨hdistinct, hta⟩ := (Table.insertAll_eq_ok_iff Table.distinct_empty).mp hinsert
  obtain ⟨hdistinct', htb⟩ := (Table.insertAll_eq_ok_iff Table.distinct_empty).mp hinsert'
  refine ⟨hta ▸ hdistinct, ds', hdistinct', htb, ?_⟩
  rw [← encode_join, parse_of_file (hfile.join hfile'), Table.insertAll_append, hinsert]
  rfl

/-- **Sources joined by an empty comment give the tables of both, one behind the other**, whatever
    the parser is doing at the end of the first; and the error of a shared key if there is one. -/
theorem parse_join {a b : Bytes} {ta tb : Table} (ha : parse a = .ok ta) (hb : parse b = .ok tb) :
    (ta.Apart tb → parse (a ++ joint ++ b) = .ok (ta ++ tb)) ∧
    (¬ ta.Apart tb → ∃ e, Table.Shared ta tb e ∧ parse (a ++ joint ++ b) = .error e) := by
  obtain ⟨hdistinct, ds, hdistinct', rfl, hparse⟩ := parse_joined ha hb
  rw [hparse]
  constructor
  · intro hapart
    refine (Table.insertAll_eq_ok_iff hdistinct).mpr ⟨?_, rfl⟩
    exact Table.distinct_append_iff.mpr ⟨hdistinct, hdistinct', hapart⟩
  · intro hshared
    cases hinsert : ta.insertAll ds with
    | ok t =>
      obtain ⟨ht, -⟩ := (Table.insertAll_eq_ok_iff hdistinct).mp hinsert
      exact absurd (Table.distinct_append_iff.mp ht).2.2 hshared
    | error e => exact ⟨e, Table.shared_of_insertAll_eq_error hdistinct' hinsert, rfl⟩

/-- The value 7 has no name where the first source ends; the parameter behind the joint does not
    become its name, and the same source again is refused. -/
theorem parse_join_unfinished_value :
    parse (Utf8.encode "map K T 7".toList ++ joint ++ Utf8.encode "[1, 2] f p".toList)
        = .ok ⟨[⟨"K", "T", [⟨7, ""⟩]⟩], [⟨⟨1, 2⟩, "f", [⟨"p", ""⟩]⟩]⟩ ∧
      ∃ e, Table.Shared ⟨[⟨"K", "T", [⟨7, ""⟩]⟩], []⟩ ⟨[⟨"K", "T", [⟨7, ""⟩]⟩], []⟩ e ∧
        parse (Utf8.encode "map K T 7".toList ++ joint ++ Utf8.encode "map K T 7".toList)
          = .error e := by
  have ha : parse (Utf8.encode "map K T 7".toList) = .ok ⟨[⟨"K", "T", [⟨7, ""⟩]⟩], []⟩ :=
    eq_ok_of_toOption (by decide +kernel)
  have hb : parse (Utf8.encode "[1, 2] f p".toList)
      = .ok ⟨[], [⟨⟨1, 2⟩, "f", [⟨"p", ""⟩]⟩]⟩ :=
    eq_ok_of_toOption (by decide +kernel)
  exact ⟨(parse_join ha hb).1 (by decide), (parse_join ha ha).2 (by decide)⟩

end Parser
end FunctionMap
