import FunctionMap.Text.Utf8
import FunctionMap.Yaml.Scalar

/-!
# Tags

A name stands in front of a node as a tag: an exclamation mark and the name, with every byte that a
tag cannot hold written as `%` and two hexadecimal digits. A name that is empty or starts with an
exclamation mark would not come back as that name, so such a node has no tag.
-/

namespace FunctionMap
namespace Yaml
namespace Tag

/-- The bytes that stand for themselves in a tag. -/
def isPlain (b : UInt8) : Bool :=
  let c := Char.ofNat b.toNat
  c.isAlphanum || c ∈ "_-;/?:@&=+$,.~*'()[]".toList

/-- A byte in a tag. -/
def writeByte (b : UInt8) : List Char :=
  if isPlain b then [Char.ofNat b.toNat] else '%' :: Scalar.hex 2 b.toNat

/-- What a name contributes to a tag: nothing behind its first NUL. -/
def body (name : List Char) : Bytes := Utf8.encode (name.takeWhile (· ≠ '\x00'))

/-- The tag of a name; a name of which nothing is left has the tag of the mark alone. -/
def write (name : List Char) : List Char :=
  match body name with
  | [] => ['!', '<', '%', '2', '1', '>']
  | bytes => '!' :: bytes.flatMap writeByte

/-- Whether a name can stand as a tag. -/
def Allowed (name : List Char) : Prop := name ≠ [] ∧ name.head? ≠ some '!'

instance (name : List Char) : Decidable (Allowed name) := inferInstanceAs (Decidable (_ ∧ _))

end Tag
end Yaml
end FunctionMap
