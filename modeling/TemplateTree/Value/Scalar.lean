import TemplateTree.Calendar
import TemplateTree.Number.Binary64
import TemplateTree.Text.Basic

/-!
# Scalars

The values without parts: nothing, truth values, numbers, texts, bytes, dates and moments. A scalar
can be a key of a mapping. Numbers that are equal are one key, whatever their type
(`Scalar.sameKey`), and some scalars count as nothing (`Scalar.isNothing`).
-/

namespace TemplateTree

/-- A value without parts. -/
inductive Scalar where
  | null
  | bool (value : Bool)
  | int (value : Int)
  | float (value : Binary64)
  | text (value : Text)
  | bytes (value : List UInt8)
  | date (value : Date)
  | moment (value : Moment)
deriving DecidableEq, Repr

namespace Scalar

/-- The name of the type of a scalar. -/
def typeName : Scalar → Text
  | null => "NoneType"
  | bool _ => "bool"
  | int _ => "int"
  | float _ => "float"
  | text _ => "str"
  | bytes _ => "bytes"
  | date _ => "date"
  | moment _ => "datetime"

/-- The integer that a truth value counts as among numbers. -/
def truth (b : Bool) : Int := if b then 1 else 0

/-- Whether two scalars are the same key. Truth values count as numbers. -/
def sameKey : Scalar → Scalar → Bool
  | bool a, bool b => a == b
  | bool a, int n => truth a == n
  | int n, bool b => n == truth b
  | bool a, float d => d.isInt (truth a)
  | float d, bool b => d.isInt (truth b)
  | int n, float d => d.isInt n
  | float d, int n => d.isInt n
  | float a, float b => a.sameNumber b
  | moment a, moment b => a.sameInstant b
  | a, b => a == b

/-- Whether a scalar counts as nothing: null, false, zero, an empty text, no bytes. -/
def isNothing : Scalar → Bool
  | null => true
  | bool b => !b
  | int n => n == 0
  | float d => d.isZero
  | text t => t.isEmpty
  | bytes bs => bs.isEmpty
  | date _ => false
  | moment _ => false

end Scalar

end TemplateTree
