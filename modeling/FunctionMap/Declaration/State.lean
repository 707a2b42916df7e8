import FunctionMap.Source.Cursor
import FunctionMap.Declaration.Table

/-!
# The steps of the declaration parser

Declarations have no terminator: a header opens a list of values or parameters, and the list runs
until a special character (`m`, `[`, `#`) stands where its next entry could start, or until the source
ends. What the parser reads next is its phase:

* top level -- the next declaration or comment is due;
* enumeration header -- `map name type`;
* values -- the `key name` entries of the enumeration opened last;
* function header -- `[group, type] name`;
* parameters -- the `type name` entries of the function opened last, braces around a type dropped;
* comment -- up to the line feed, then back to the list or level it interrupts.
-/

namespace FunctionMap
namespace Parser

/-! ## 1. States -/

/-- What a comment can interrupt. -/
inductive Resume where
  | top | values | parameters
  deriving DecidableEq, Repr

/-- What the parser reads next. -/
inductive Phase where
  | top | enumHeader | values | functionHeader | parameters
  | comment (resume : Resume)
  deriving DecidableEq, Repr

/-- The phase that a comment gives way to. -/
def Resume.phase : Resume → Phase
  | .top => .top
  | .values => .values
  | .parameters => .parameters

/-- The parser between two steps. The enumeration that values belong to and the function that
    parameters belong to are known by their indices. -/
structure State where
  phase : Phase
  cursor : Cursor
  table : Table
  openEnum : Option Nat
  openFunction : Option Nat
  deriving DecidableEq, Repr

/-- The parser at the start of a source. -/
def State.start (cursor : Cursor) : State := ⟨.top, cursor, .empty, none, none⟩

/-! ## 2. One step -/

/-- The phase that the end of the source or a special character under the cursor calls for; a
    comment is to resume at `resume`. -/
def nextPhase? (resume : Resume) (c : Cursor) : Option Phase :=
  match c.rest with
  | [] => some .top
  | x :: _ =>
    if x = '#' then some (.comment resume)
    else if x = 'm' then some .enumHeader
    else if x = '[' then some .functionHeader
    else none

/-- What a header declares. -/
inductive Header where
  | enumeration (name elementType : String)
  | function (key : FunctionKey) (name : String)
  deriving DecidableEq, Repr

/-- Reads `map name type`. -/
def readEnumHeader (c : Cursor) : Except SourceError (String × String × Cursor) :=
  match c.expectWord Symbol.mapKeywordText Symbol.mapKeyword with
  | (.error e, _) => .error e
  | (.ok (), c) => do
    let (name, c) ← c.skipWhitespace.readToken
    let (elementType, c) ← c.skipWhitespace.readToken
    return (name.text, elementType.text, c)

/-- Reads `[group, type] name`. -/
def readFunctionHeader (c : Cursor) : Except SourceError (FunctionKey × String × Cursor) := do
  let c ← c.expect '[' "'['"
  let (group, c) ← c.skipWhitespace.readToken
  let group ← group.int32
  let c ← c.skipWhitespace.expect ',' "','"
  let (typeId, c) ← c.skipWhitespace.readToken
  let typeId ← typeId.int32
  let c ← c.skipWhitespace.expect ']' "']'"
  let (name, c) ← c.skipWhitespace.readToken
  return (⟨group, typeId⟩, name.text, c)

/-- Reads `key name`. -/
def readValue (c : Cursor) : Except SourceError (EnumValue × Cursor) := do
  let (key, c) ← c.readToken
  let key ← key.int64
  let (name, c) ← c.skipWhitespace.readToken
  return (⟨key, name.text⟩, c)

/-- Whether a character is a brace. -/
def isBrace (c : Char) : Bool := c = '\x7b' || c = '\x7d'

/-- A parameter type without the braces around it. -/
def stripBraces (typeName : String) : String :=
  String.ofList (Blank.trimBy isBrace typeName.toList)

/-- Reads `type name`. -/
def readParameter (c : Cursor) : Except SourceError (Parameter × Cursor) := do
  let (typeName, c) ← c.readToken
  let (name, c) ← c.skipWhitespace.readToken
  return (⟨stripBraces typeName.text, name.text⟩, c)

namespace State

/-- At top level: whatever is no declaration, no comment and not the end is an error. -/
def stepTop (s : State) : Except SourceError State :=
  let c := s.cursor.skipWhitespace
  match nextPhase? .top c with
  | some phase => .ok { s with phase, cursor := c }
  | none => .error c.unexpected

/-- At an enumeration header. -/
def stepEnumHeader (s : State) : Except SourceError State :=
  match readEnumHeader s.cursor with
  | .error e => .error e
  | .ok (name, elementType, c) =>
    match s.table.insertEnum ⟨name, elementType, []⟩ with
    | .error e => .error e
    | .ok (table, index) => .ok ⟨.values, c, table, some index, none⟩

/-- In a list of values. -/
def stepValues (s : State) : Except SourceError State :=
  let c := s.cursor.skipWhitespace
  match nextPhase? .values c with
  | some phase => .ok { s with phase, cursor := c }
  | none =>
    match readValue c with
    | .error e => .error e
    | .ok (value, c) =>
      match s.openEnum.bind (s.table.pushValue? · value) with
      | some table => .ok { s with cursor := c, table }
      | none => .error (.strayEntry "enum value outside of a map declaration")

/-- At a function header. -/
def stepFunctionHeader (s : State) : Except SourceError State :=
  match readFunctionHeader s.cursor with
  | .error e => .error e
  | .ok (key, name, c) =>
    match s.table.insertFunction ⟨key, name, []⟩ with
    | .error e => .error e
    | .ok (table, index) => .ok ⟨.parameters, c, table, none, some index⟩

/-- In a list of parameters. -/
def stepParameters (s : State) : Except SourceError State :=
  let c := s.cursor.skipWhitespace
  match nextPhase? .parameters c with
  | some phase => .ok { s with phase, cursor := c }
  | none =>
    match readParameter c with
    | .error e => .error e
    | .ok (parameter, c) =>
      match s.openFunction.bind (s.table.pushParameter? · parameter) with
      | some table => .ok { s with cursor := c, table }
      | none => .error (.strayEntry "parameter outside of a function declaration")

/-- One step of the parser. -/
def step (s : State) : Except SourceError State :=
  match s.phase with
  | .top => s.stepTop
  | .comment resume => .ok { s with phase := resume.phase, cursor := s.cursor.skipComment }
  | .enumHeader => s.stepEnumHeader
  | .values => s.stepValues
  | .functionHeader => s.stepFunctionHeader
  | .parameters => s.stepParameters

/-- The header that the next step reads, if it reads one. -/
def header? (s : State) : Option Header :=
  match s.phase with
  | .enumHeader =>
    match readEnumHeader s.cursor with
    | .ok (name, elementType, _) => some (.enumeration name elementType)
    | .error _ => none
  | .functionHeader =>
    match readFunctionHeader s.cursor with
    | .ok (key, name, _) => some (.function key name)
    | .error _ => none
  | _ => none

end State

end Parser
end FunctionMap
