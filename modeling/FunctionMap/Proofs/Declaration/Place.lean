import FunctionMap.Proofs.Source.Place
import FunctionMap.Proofs.Declaration.Transition

/-!
# The parser in a text

The readers of the parser are put together from the operations of the cursor, so they too stay in the
text and point into it where they fail: one statement `reads_…` for each. Which integers are due is a
matter of the phase (`Phase.dueWidth`).

Main statement: the cursor of a run never leaves the text (`Transition.cursor_in`).
-/

namespace FunctionMap
namespace Parser

open Numeral (Width)

/-! ## 1. Readers -/

section Readers

variable {c : Cursor} {text : List Char} {due : Option Width}

theorem reads_readEnumHeader (h : c.In text) :
    Reads text due (fun r => r.2.2.In text) (readEnumHeader c) := by
  unfold readEnumHeader
  split
  · rename_i e c₁ hword
    exact reads_error (h.pointsInto_of_expectWord hword)
  · rename_i c₁ hword
    have h₁ : c₁.In text := h.in_of_expectWord hword
    refine h₁.skipWhitespace.reads_readToken.bind fun (name, c₂) h₂ => ?_
    refine h₂.2.skipWhitespace.reads_readToken.bind fun (elementType, c₃) h₃ => ?_
    exact reads_ok h₃.2

theorem reads_readFunctionHeader (h : c.In text) :
    Reads text (some .bits32) (fun r => r.2.2.In text) (readFunctionHeader c) := by
  refine (h.reads_expect _ _).bind fun c₁ h₁ => ?_
  refine h₁.skipWhitespace.reads_readToken.bind fun (group, c₂) h₂ => ?_
  refine h₂.1.reads_integer.bind fun _ _ => ?_
  refine (h₂.2.skipWhitespace.reads_expect _ _).bind fun c₃ h₃ => ?_
  refine h₃.skipWhitespace.reads_readToken.bind fun (typeId, c₄) h₄ => ?_
  refine h₄.1.reads_integer.bind fun _ _ => ?_
  refine (h₄.2.skipWhitespace.reads_expect _ _).bind fun c₅ h₅ => ?_
  refine h₅.skipWhitespace.reads_readToken.bind fun (name, c₆) h₆ => ?_
  exact reads_ok h₆.2

theorem reads_readValue (h : c.In text) :
    Reads text (some .bits64) (fun r => r.2.In text) (readValue c) := by
  refine h.reads_readToken.bind fun (key, c₁) h₁ => ?_
  refine h₁.1.reads_integer.bind fun _ _ => ?_
  refine h₁.2.skipWhitespace.reads_readToken.bind fun (name, c₂) h₂ => ?_
  exact reads_ok h₂.2

theorem reads_readParameter (h : c.In text) :
    Reads text due (fun r => r.2.In text) (readParameter c) := by
  refine h.reads_readToken.bind fun (typeName, c₁) h₁ => ?_
  refine h₁.2.skipWhitespace.reads_readToken.bind fun (name, c₂) h₂ => ?_
  exact reads_ok h₂.2

end Readers

/-! ## 2. Steps -/

/-- The width of the integers that are due in a phase, if any are. -/
def Phase.dueWidth : Phase → Option Width
  | .values => some .bits64
  | .functionHeader => some .bits32
  | .top | .enumHeader | .parameters | .comment _ => none

/-- **A step leaves the cursor in the text.** -/
theorem Transition.cursor_in {s s' : State} (h : Transition s s') {text : List Char}
    (hs : s.cursor.In text) : s'.cursor.In text := by
  cases h with
  | turn resume p hphase hnext => exact hs.skipWhitespace
  | uncomment resume hphase => exact hs.skipComment
  | enumHeader name elementType c hphase hread hnew =>
    have hheader : Reads text none (fun r => r.2.2.In text) (readEnumHeader s.cursor) :=
      reads_readEnumHeader hs
    exact hheader.ok _ hread
  | value value c table hphase hentry hread hpush =>
    exact (reads_readValue hs.skipWhitespace).ok _ hread
  | functionHeader key name c hphase hread hnew => exact (reads_readFunctionHeader hs).ok _ hread
  | parameter parameter c table hphase hentry hread hpush =>
    have hparameter : Reads text none (fun r => r.2.In text)
        (readParameter s.cursor.skipWhitespace) := reads_readParameter hs.skipWhitespace
    exact hparameter.ok _ hread

theorem cursor_in_of_mem_visited {text : List Char} {s : State}
    (h : s ∈ visited (State.start (.ofText text))) : s.cursor.In text := by
  exact forall_mem_visited (P := fun s => s.cursor.In text) (fun _ _ hs _ ht => ht.cursor_in hs)
    (Cursor.in_ofText text) h

end Parser
end FunctionMap
