import FunctionMap.Declaration.Weight

/-!
# The declaration parser

One pass over a source fills a table: `Parser.run` takes steps until the source ends. `parse` gives
the table, `headers` the headers that were read on the way.
-/

namespace FunctionMap
namespace Parser

/-- Runs the parser to the end of the source. -/
def run (s : State) : Except SourceError Table :=
  if hs : s.cursor.rest = [] then .ok s.table
  else
    match h : s.step with
    | .error e => .error e
    | .ok s' =>
      have := weight_step hs h
      run s'
termination_by s.weight

/-- The states that the parser goes through from a state on: the state itself, and those behind
    every step up to the end of the source or the first error. -/
def visited (s : State) : List State :=
  s ::
    if hs : s.cursor.rest = [] then []
    else
      match h : s.step with
      | .error _ => []
      | .ok s' =>
        have := weight_step hs h
        visited s'
termination_by s.weight

end Parser

/-- The table that a source declares, with all names as written. -/
def parse (source : Bytes) : Except SourceError Table := do
  Parser.run (.start (← Cursor.ofBytes source))

/-- The headers that the parser reads in a source, in order, up to the first error; one that is
    refused as a duplicate is read all the same. -/
def headers (source : Bytes) : List Parser.Header :=
  match Cursor.ofBytes source with
  | .error _ => []
  | .ok c => (Parser.visited (.start c)).filterMap Parser.State.header?

end FunctionMap
