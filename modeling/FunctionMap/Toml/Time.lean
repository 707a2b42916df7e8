import FunctionMap.Text.Decimal

/-!
# Dates and times of day

A point in time is a date, a time of day, or both with or without an offset. It is checked against
the calendar and written in one form: `T` between date and time, `Z` for an offset that was given as
that letter, no trailing zeros in a fraction of a second.
-/

namespace FunctionMap
namespace Toml

/-! ## 1. Points in time -/

/-- A day of the calendar. -/
structure Date where
  year : Nat
  month : Nat
  day : Nat
  deriving DecidableEq, Repr

/-- A time of day. -/
structure Clock where
  hour : Nat
  minute : Nat
  second : Nat
  nanosecond : Nat
  deriving DecidableEq, Repr

/-- How far a clock is ahead of the one of the zero meridian. -/
inductive Offset where
  /-- Not at all, said by a letter. -/
  | zulu
  /-- Some minutes, said in digits. -/
  | minutes (n : Int)
  deriving DecidableEq, Repr

/-- A point in time: an offset stands only where a date and a time of day do. -/
inductive Time where
  | dateOnly (date : Date)
  | clockOnly (clock : Clock)
  | both (date : Date) (clock : Clock) (offset? : Option Offset)
  deriving DecidableEq, Repr

/-! ## 2. Writing -/

/-- A number with zeros in front up to a width. -/
def padded (width n : Nat) : List Char :=
  List.replicate (width - (Numeral.writeNat n).length) '0' ++ Numeral.writeNat n

/-- The text of a date. -/
def Date.text (d : Date) : List Char :=
  padded 4 d.year ++ '-' :: padded 2 d.month ++ '-' :: padded 2 d.day

/-- The text of a fraction of a second. -/
def fractionText (nanosecond : Nat) : List Char :=
  if nanosecond = 0 then []
  else '.' :: ((padded 9 nanosecond).reverse.dropWhile (· = '0')).reverse

/-- The text of a time of day. -/
def Clock.text (c : Clock) : List Char :=
  padded 2 c.hour ++ ':' :: padded 2 c.minute ++ ':' :: padded 2 c.second
    ++ fractionText c.nanosecond

/-- The text of an offset. -/
def Offset.text : Offset → List Char
  | .zulu => ['Z']
  | .minutes n =>
    (if n < 0 then '-' else '+') :: padded 2 (n.natAbs / 60) ++ ':' :: padded 2 (n.natAbs % 60)

/-- The text of a point in time. -/
def Time.text : Time → String
  | .dateOnly date => String.ofList date.text
  | .clockOnly clock => String.ofList clock.text
  | .both date clock offset? =>
    String.ofList (date.text ++ 'T' :: clock.text ++ (offset?.map Offset.text).getD [])

/-! ## 3. Reading -/

namespace Time

/-- The last hour of a day. -/
def lastHour : Nat := 23

/-- The last minute of an hour. -/
def lastMinute : Nat := 59

/-- The last second of a minute, which may be a leap second. -/
def lastSecond : Nat := 60

/-- Reads exactly two digits of a number within bounds. -/
def twoDigits (low high : Nat) : List Char → Option (Nat × List Char)
  | a :: b :: r =>
    match digits? 10 [a, b] with
    | some n => if low ≤ n ∧ n ≤ high then some (n, r) else none
    | none => none
  | _ => none

/-- The number of days of a month. -/
def daysIn (year month : Nat) : Nat :=
  if month = 2 then
    if year % 4 = 0 ∧ (year % 100 ≠ 0 ∨ year % 400 = 0) then 29 else 28
  else if month ∈ [4, 6, 9, 11] then 30
  else 31

/-- Reads a date. -/
def date : List Char → Option (Date × List Char)
  | a :: b :: c :: d :: '-' :: r => do
    let year ← digits? 10 [a, b, c, d]
    let (month, r) ← twoDigits 1 12 r
    let '-' :: r := r | none
    let (day, r) ← twoDigits 1 (daysIn year month) r
    return (⟨year, month, day⟩, r)
  | _ => none

/-- Reads a fraction of a second in nanoseconds; the digits behind the ninth do not count. -/
def fraction : List Char → Option (Nat × List Char)
  | '.' :: r =>
    let shown := (r.takeWhile Char.isDigit).take 9
    (digits? 10 shown).map fun n => (n * Nat.pow 10 (9 - shown.length), r.dropWhile Char.isDigit)
  | r => some (0, r)

/-- Reads a time of day. -/
def clock (s : List Char) : Option (Clock × List Char) := do
  let (hour, r) ← twoDigits 0 lastHour s
  let ':' :: r := r | none
  let (minute, r) ← twoDigits 0 lastMinute r
  let ':' :: r := r | none
  let (second, r) ← twoDigits 0 lastSecond r
  let (nanosecond, r) ← fraction r
  return (⟨hour, minute, second, nanosecond⟩, r)

/-- The minutes of an offset that is given as hours and minutes. -/
def offsetMinutes? (s : List Char) : Option Nat := do
  let (hour, r) ← twoDigits 0 lastHour s
  let ':' :: r := r | none
  let (minute, r) ← twoDigits 0 lastMinute r
  if r = [] then some (hour * 60 + minute) else none

/-- The offset that a text is, if it is one; no text is no offset. -/
def offset? : List Char → Option (Option Offset)
  | [] => some none
  | ['Z'] | ['z'] => some (some .zulu)
  | '+' :: r => (offsetMinutes? r).map fun n => some (.minutes n)
  | '-' :: r => (offsetMinutes? r).map fun n => some (.minutes (-n))
  | _ => none

/-- The point in time that a text is. -/
def ofText? (s : List Char) : Option Time :=
  match date s with
  | some (day, []) => some (.dateOnly day)
  | some (day, mark :: r) =>
    if mark = 'T' ∨ mark = 't' ∨ mark = ' ' then do
      let (clock, r) ← clock r
      return .both day clock (← offset? r)
    else none
  | none =>
    match clock s with
    | some (clock, []) => some (.clockOnly clock)
    | _ => none

end Time
end Toml
end FunctionMap
