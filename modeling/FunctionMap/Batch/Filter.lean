import FunctionMap.Text.Alphanumeric
import FunctionMap.Text.Blank
import FunctionMap.Text.Decimal
import FunctionMap.Batch.Log

/-!
# Filters of the log

A filter is a list of directives with commas between them. A directive sets the level up to which
events are told, for all events or for those of the parts whose names start with a text, and may ask
for a field that the events have in braces: `info`, `mfm=debug`, `mfm[{input}]=trace`. A name
or a value in the brackets is about what encloses an event, and no event of a run is enclosed.

Of the directives that are about an event only the most specific one counts.
-/

namespace FunctionMap
namespace Log

/-! ## 1. Directives -/

/-- The events that a directive is about, and the level up to which it tells them; without one it
    tells none of them. -/
structure Directive where
  part? : Option (List Char)
  field? : Option String
  limit? : Option Level
  deriving DecidableEq, Repr

namespace Directive

/-- Whether a directive is about an event. -/
def concerns (d : Directive) (e : Event) : Bool :=
  d.part?.all (·.isPrefixOf e.part.name.toList) && d.field?.all (e.fieldNames.contains ·)

/-- Whether a directive is more specific than another one about the same event: by the name of the
    part, then by the field, of which the greater name counts. -/
def outweighs (a b : Directive) : Bool :=
  let size (d : Directive) : Nat := (d.part?.map (·.length + 1)).getD 0
  size b < size a || (size a = size b &&
    match a.field?, b.field? with
    | some f, some g => g < f
    | some _, none => true
    | none, _ => false)

end Directive

/-! ## 2. Filters -/

/-- The directives of a filter, in the order in which they were given. -/
structure Filter where
  directives : List Directive
  deriving DecidableEq, Repr

namespace Filter

/-- The filter that lets a level and the heavier ones through. -/
def upTo (level : Level) : Filter := ⟨[⟨none, none, some level⟩]⟩

/-- The directive that counts for an event among some behind the one at hand: the most specific one,
    and of several the last. -/
def chosenBehind (e : Event) (d : Directive) : List Directive → Directive
  | [] => d
  | next :: rest =>
    chosenBehind e (if next.concerns e && !d.outweighs next then next else d) rest

/-- The directive that counts for an event, if there is one. -/
def chosen? (f : Filter) (e : Event) : Option Directive :=
  match f.directives.filter (·.concerns e) with
  | [] => none
  | d :: rest => some (chosenBehind e d rest)

/-- Whether a filter lets an event through. -/
def admits (f : Filter) (e : Event) : Bool :=
  ((f.chosen? e).bind (·.limit?)).any fun limit => e.level.rank ≤ limit.rank

end Filter

/-! ## 3. Reading -/

namespace Level

/-- The level of a rank, and none of rank zero; five is the last rank. -/
def ofRank? : Nat → Option (Option Level)
  | 0 => some none
  | 1 => some (some .error)
  | 2 => some (some .warn)
  | 3 => some (some .info)
  | 4 => some (some .debug)
  | 5 => some (some .trace)
  | _ => none

/-- The level that a word is in any case, or a number. -/
def ofText? (text : List Char) : Option (Option Level) :=
  match String.ofList (text.map Char.toLower) with
  | "off" => some none
  | "error" => some (some .error)
  | "warn" => some (some .warn)
  | "info" => some (some .info)
  | "debug" => some (some .debug)
  | "trace" => some (some .trace)
  | _ =>
    match text with
    | '+' :: ds => (digits? 10 ds).bind ofRank?
    | ds => (digits? 10 ds).bind ofRank?

end Level

/-- The parts of the text of a directive. -/
structure DirectiveText where
  /-- What stands before all else. -/
  word : List Char
  /-- What stands in brackets: a name, and a field in braces. -/
  brackets? : Option (List Char × Option (List Char))
  /-- What stands behind the sign of equality. -/
  level? : Option (List Char)
  deriving DecidableEq, Repr

namespace DirectiveText

/-- The characters that a directive starts with, besides a bracket. -/
def isStart (c : Char) : Bool :=
  c = '-' || c = ':' || c = '_' || Alphanumeric.isAlphanumeric c

/-- Reads the level at the end of a directive. -/
def levelAtEnd? : List Char → Option (Option (List Char))
  | [] => some none
  | '=' :: level => some (some level)
  | _ => none

/-- Reads what follows an opening bracket. -/
def afterBracket? (word : List Char) (s : List Char) : Option DirectiveText :=
  let inName (c : Char) : Bool := c ≠ ']' && c ≠ '\x7b'
  let name := s.takeWhile inName
  match s.dropWhile inName with
  | ']' :: r => (levelAtEnd? r).map fun level? => ⟨word, some (name, none), level?⟩
  | '\x7b' :: r =>
    match r.takeWhile (· ≠ '\x7d'), r.dropWhile (· ≠ '\x7d') with
    | [], _ => none
    | field, '\x7d' :: ']' :: r =>
      (levelAtEnd? r).map fun level? => ⟨word, some (name, some field), level?⟩
    | _, _ => none
  | _ => none

/-- The parts of a text without blanks around it. -/
def ofText? (s : List Char) : Option DirectiveText :=
  match s with
  | [] => none
  | '[' :: r => afterBracket? [] r
  | c :: _ =>
    let inWord (c : Char) : Bool := c ≠ '=' && c ≠ '['
    if isStart c then
      match s.dropWhile inWord with
      | '[' :: r => afterBracket? (s.takeWhile inWord) r
      | r => (levelAtEnd? r).map fun level? => ⟨s.takeWhile inWord, none, level?⟩
    else none

end DirectiveText

namespace Directive

/-- The directives of a text: one, or none where it is about no event. Blanks at the end belong to the
    word or the level there. With blanks in front a directive is about no event and has no level. -/
def ofText? (text : List Char) : Option (List Directive) := do
  let front := text.takeWhile Blank.isBlank
  let back := (text.reverse.takeWhile Blank.isBlank).reverse
  let parts ← DirectiveText.ofText? (Blank.trim text)
  match parts.brackets?, parts.level? with
  | none, none =>
    match Level.ofText? text with
    | some limit? => return [⟨none, none, limit?⟩]
    | none => return [⟨some text, none, some .trace⟩]
  | brackets?, level? =>
    let limit? ←
      match level?, front with
      | none, _ => some (some .trace)
      | some level, [] =>
        if level ++ back = [] then some (some .trace) else Level.ofText? (level ++ back)
      | some _, _ :: _ => none
    let part? := if parts.word = [] then none else some parts.word
    match front, brackets? with
    | [], none => return [⟨part?, none, limit?⟩]
    | [], some ([], some field) =>
      return if '=' ∈ field then [] else [⟨part?, some (String.ofList field), limit?⟩]
    | _, _ => return []

end Directive

namespace Filter

/-- The filter that a setting asks for: directives with commas between them. No directive lets
    nothing through, and a malformed one lets warnings through. -/
def ofSetting (text : String) : Filter :=
  match ((Excerpt.segments ',' text.toList).filter (· ≠ [])).mapM Directive.ofText? with
  | some directives => ⟨directives.flatten⟩
  | none => upTo .warn

/-- The filter for a number of requests to say more; without one the setting counts. -/
def ofVerbosity (requests : Nat) (setting : String) : Filter :=
  match requests with
  | 0 => ofSetting setting
  | 1 => upTo .info
  | 2 => upTo .debug
  | _ => upTo .trace

end Filter
end Log
end FunctionMap
