import TemplateTree.Number.Shortest
import TemplateTree.Text.Quoted
import TemplateTree.Value.Basic
import TemplateTree.Value.SetOrder

/-!
# Values as they are shown

Two texts of a value stand side by side: `Value.plain` is the text it has when it is used as text (a
key in a message), and `View.display` shows it so that its type can be seen. A value with an integer
of too many digits has neither. A collection that contains itself is shown once, and then by a
mark.
-/

namespace TemplateTree

/-! ## 1. Dates and moments -/

/-- A number with at least the given number of digits. -/
def padded (width n : Nat) : Text :=
  let ds := Nat.toDigits 10 n
  Text.ofChars (List.replicate (width - ds.length) '0' ++ ds)

/-- The text of a date. -/
def Date.plain (d : Date) : Text :=
  padded 4 d.year ++ "-" ++ padded 2 d.month ++ "-" ++ padded 2 d.day

/-- A call in the shown form of a value. -/
def shownCall (function : Text) (arguments : List Text) : Text :=
  function ++ "(" ++ Text.join ", " arguments ++ ")"

/-- The shown form of a date. -/
def Date.display (d : Date) : Text :=
  shownCall "datetime.date" [Decimal.ofNat d.year, Decimal.ofNat d.month, Decimal.ofNat d.day]

namespace Moment

/-- The text of a distance from universal time. -/
def plainOffset (minutes : Int) : Text :=
  Text.ofString (if minutes < 0 then "-" else "+") ++ padded 2 (minutes.natAbs / 60) ++ ":"
    ++ padded 2 (minutes.natAbs % 60)

/-- The text of a moment. -/
def plain (m : Moment) : Text :=
  m.date.plain ++ " " ++ padded 2 m.hour ++ ":" ++ padded 2 m.minute ++ ":" ++ padded 2 m.second
    ++ (if m.microsecond = 0 then [] else Text.ofString "." ++ padded 6 m.microsecond)
    ++ (match m.offset with | none => [] | some o => plainOffset o)

/-- The shown form of a distance from universal time, as days and seconds of the day. -/
def displayOffset (minutes : Int) : Text :=
  let day : Int := 24 * 60
  let days := minutes / day
  let seconds := (minutes % day) * 60
  if minutes = 0 then
    "datetime.timezone.utc"
  else
    shownCall "datetime.timezone" [shownCall "datetime.timedelta"
      ((if days = 0 then [] else ["days=" ++ Decimal.ofInt days])
        ++ (if seconds = 0 then [] else ["seconds=" ++ Decimal.ofInt seconds]))]

/-- The shown form of a moment; seconds and microseconds are left out where they are zero. -/
def display (m : Moment) : Text :=
  let small := if m.microsecond = 0 then (if m.second = 0 then [] else [m.second])
    else [m.second, m.microsecond]
  shownCall "datetime.datetime"
    (([m.date.year, m.date.month, m.date.day, m.hour, m.minute] ++ small).map Decimal.ofNat
      ++ match m.offset with
        | none => []
        | some o => ["tzinfo=" ++ displayOffset o])

end Moment

/-! ## 2. Scalars -/

namespace Scalar

/-- The text of a truth value. -/
def boolText (b : Bool) : Text := if b then "True" else "False"

/-- The shown form of a scalar, where it has one. -/
def display : Scalar → Option Text
  | null => some "None"
  | bool b => some (boolText b)
  | int n => Decimal.ofInt? n
  | float d => some (Shortest.text d)
  | text t => some (Quoted.text t)
  | bytes bs => some (Quoted.bytes bs)
  | date d => some d.display
  | moment m => some m.display

/-- A scalar as text, where it has one: texts, dates and moments without the marks of their type. -/
def plain : Scalar → Option Text
  | text t => some t
  | date d => some d.plain
  | moment m => some m.plain
  | s => s.display

/-- The text of a number; truth values are none. -/
def numberText? : Scalar → Option (Option Text)
  | int n => some (Decimal.ofInt? n)
  | float d => some (some (Shortest.text d))
  | _ => none

end Scalar

/-! ## 3. Values -/

/-- Shown parts between two marks. -/
def between (opening closing : Text) (parts : List Text) : Text :=
  opening ++ Text.join ", " parts ++ closing

/-- The mark of a collection that is shown inside itself. -/
def Level.again {α : Type} : Level α → Text
  | list _ => "[...]"
  | tuple _ => "(...)"
  | _ => "\x7b...\x7d"

namespace View

variable {α : Type}

/-- The shown form of a part, where it has one, inside the collections of a path. A collection on the
    path is not shown again. Every level takes one step of the fuel. -/
def displayWithin (view : View α) : Nat → (path : List α) → α → Option Text
  | 0, _, v => some (view.level v).again
  | depth + 1, path, v =>
    let inner := view.displayWithin depth (v :: path)
    match view.level v with
    | .scalar s => s.display
    | .set [] => some "set()"
    | .set members => ((Scalar.inTableOrder members).mapM Scalar.display).map (between "\x7b" "\x7d")
    | level =>
      if path.any (view.same v) then
        some level.again
      else
        match level with
        | .list items => (items.mapM inner).map (between "[" "]")
        | .tuple [member] => (inner member).map fun t => "(" ++ t ++ ",)"
        | .tuple members => (members.mapM inner).map (between "(" ")")
        | .mapping entries =>
          (entries.mapM fun (e : Scalar × α) => do
            return (← e.1.display) ++ ": " ++ (← inner e.2)).map
            (between "\x7b" "\x7d")
        | _ => some level.again

/-- The shown form of a part, where it has one. -/
def display (view : View α) (v : α) : Option Text := view.displayWithin (view.reach + 1) [] v

end View

namespace Value

/-- The shown form of a value, where it has one. -/
def display (v : Value) : Option Text := v.view.display v

/-- A value as text, where it has one. -/
def plain : Value → Option Text
  | scalar s => s.plain
  | v => v.display

end Value

end TemplateTree
