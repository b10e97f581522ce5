import SnapshotPlan.Text.Number

/-!
# Values written as text

The types that a parameter may have, with the texts that they are read from and the text that they
are written as.  Numbers are read as `Text.readBelow?` and `Text.readBetween?` say, within the
range of the type; a truth value is `true` or `false` and nothing else; a character is a text of
just one.
-/

set_option autoImplicit false

namespace SnapshotPlan

/-- A type with texts for its values. -/
class Scalar (α : Type) where
  /-- The value that a text stands for. -/
  read? : String → Option α
  /-- The text of a value. -/
  render : α → String

namespace Scalar

instance : Scalar UInt8 where
  read? s := (Text.readBelow? UInt8.size s).map UInt8.ofNat
  render x := toString x.toNat

instance : Scalar UInt32 where
  read? s := (Text.readBelow? UInt32.size s).map UInt32.ofNat
  render x := toString x.toNat

instance : Scalar UInt64 where
  read? s := (Text.readBelow? UInt64.size s).map UInt64.ofNat
  render x := toString x.toNat

instance : Scalar Int8 where
  read? s := (Text.readBetween? Int8.minValue.toInt Int8.maxValue.toInt s).map Int8.ofInt
  render x := toString x.toInt

instance : Scalar Int64 where
  read? s := (Text.readBetween? Int64.minValue.toInt Int64.maxValue.toInt s).map Int64.ofInt
  render x := toString x.toInt

instance : Scalar Bool where
  read? s := if s = "true" then some true else if s = "false" then some false else none
  render b := if b then "true" else "false"

instance : Scalar Char where
  read? s := match s.toList with
    | [c] => some c
    | _ => none
  render c := String.singleton c

instance : Scalar String where
  read? s := some s
  render s := s

end Scalar

end SnapshotPlan
