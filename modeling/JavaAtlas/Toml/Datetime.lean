import JavaAtlas.Number.Literal
import JavaAtlas.Number.Shortest

set_option autoImplicit false

/-! # Dates and times

A date, a time of day, both together, or both with their offset from universal time. Reading checks
that the date is in the calendar; what is kept of a fraction of a second are nine digits. -/

namespace JavaAtlas.Toml

/-- A day of the calendar. -/
structure Date where
  year : Nat
  month : Nat
  day : Nat
deriving DecidableEq, Repr

/-- A time of day. -/
structure TimeOfDay where
  hour : Nat
  minute : Nat
  second : Option Nat
  nanosecond : Option Nat
deriving DecidableEq, Repr

/-- The distance from universal time: none, or some minutes. -/
inductive Offset where
  | universal
  | minutes (n : Int)
deriving DecidableEq, Repr

/-- A date, a time or both. -/
inductive Datetime where
  | date (date : Date)
  | time (time : TimeOfDay)
  | civil (date : Date) (time : TimeOfDay)
  | instant (date : Date) (time : TimeOfDay) (offset : Offset)
deriving DecidableEq, Repr

namespace Datetime

/-! ## Reading -/

/-- The number at the start of a text that has exactly `count` digits, and the rest. -/
def takeNumber (count : Nat) (cs : List Char) : Option (Nat × List Char) :=
  let digits := cs.take count
  if digits.length = count ∧ digits.all Char.isDigit then
    some (Literal.appendDigits 0 digits, cs.drop count)
  else none

/-- The rest of a text after the character `c`. -/
def takeChar (c : Char) : List Char → Option (List Char)
  | [] => none
  | d :: rest => if d = c then some rest else none

/-- Whether a year has a 29th of February. -/
def isLeapYear (year : Nat) : Bool := year % 4 == 0 && (year % 100 != 0 || year % 400 == 0)

/-- The number of days of a month. -/
def daysInMonth (year month : Nat) : Nat :=
  if month = 2 then if isLeapYear year then 29 else 28
  else if month ∈ [4, 6, 9, 11] then 30
  else 31

/-- The date at the start of a text. -/
def takeDate (cs : List Char) : Option (Date × List Char) := do
  let (year, cs) ← takeNumber 4 cs
  let cs ← takeChar '-' cs
  let (month, cs) ← takeNumber 2 cs
  let cs ← takeChar '-' cs
  let (day, cs) ← takeNumber 2 cs
  if 1 ≤ month ∧ month ≤ 12 ∧ 1 ≤ day ∧ day ≤ daysInMonth year month then
    some (⟨year, month, day⟩, cs)
  else none

/-- The fraction of a second after its point, in nanoseconds. -/
def takeFraction (cs : List Char) : Option (Nat × List Char) :=
  let digits := cs.takeWhile Char.isDigit
  if digits.isEmpty then none
  else
    let nine := (digits ++ List.replicate 9 '0').take 9
    some (Literal.appendDigits 0 nine, cs.drop digits.length)

/-- The time of day at the start of a text. A minute may end with a leap second. -/
def takeTime (cs : List Char) : Option (TimeOfDay × List Char) := do
  let (hour, cs) ← takeNumber 2 cs
  let cs ← takeChar ':' cs
  let (minute, cs) ← takeNumber 2 cs
  if hour > 23 ∨ minute > 59 then none
  else match cs with
    | ':' :: cs => do
      let (second, cs) ← takeNumber 2 cs
      if second > 60 then none
      else match cs with
        | '.' :: cs => do
          let (nanosecond, cs) ← takeFraction cs
          some (⟨hour, minute, some second, some nanosecond⟩, cs)
        | cs => some (⟨hour, minute, some second, none⟩, cs)
    | cs => some (⟨hour, minute, none, none⟩, cs)

/-- The offset that a text spells. -/
def offset? (cs : List Char) : Option Offset :=
  match cs with
  | ['Z'] | ['z'] => some .universal
  | sign :: cs => do
    let (hours, cs) ← takeNumber 2 cs
    let cs ← takeChar ':' cs
    let (minutes, cs) ← takeNumber 2 cs
    let total : Int := hours * 60 + minutes
    if hours > 23 ∨ minutes > 59 ∨ cs ≠ [] then none
    else if sign = '+' then some (.minutes total)
    else if sign = '-' then some (.minutes (-total))
    else none
  | [] => none

/-- The date or time that a text spells. -/
def ofChars? (cs : List Char) : Option Datetime :=
  match takeDate cs with
  | some (d, []) => some (.date d)
  | some (d, c :: rest) =>
    if c = 'T' ∨ c = 't' ∨ c = ' ' then
      match takeTime rest with
      | some (t, []) => some (.civil d t)
      | some (t, rest) => (offset? rest).map (.instant d t)
      | none => none
    else none
  | none => match takeTime cs with
    | some (t, []) => some (.time t)
    | _ => none

/-! ## Writing -/

/-- A number with at least `width` digits. -/
def padded (width n : Nat) : List Char :=
  let digits := Decimal.digits n
  List.replicate (width - digits.length) '0' ++ digits

/-- The digits of a fraction of a second, without the zeros at the end but at least one digit. -/
def fractionChars (nanosecond : Nat) : List Char :=
  match ((padded 9 nanosecond).reverse.dropWhile (· == '0')).reverse with
  | [] => ['0']
  | digits => digits

/-- The text of a date. -/
def dateChars (d : Date) : List Char :=
  padded 4 d.year ++ '-' :: padded 2 d.month ++ '-' :: padded 2 d.day

/-- The text of a time of day. -/
def timeChars (t : TimeOfDay) : List Char :=
  let second := match t.second with
    | some second => ':' :: padded 2 second
    | none => []
  let fraction := match t.nanosecond with
    | some nanosecond => '.' :: fractionChars nanosecond
    | none => []
  padded 2 t.hour ++ ':' :: padded 2 t.minute ++ second ++ fraction

/-- The text of an offset. -/
def offsetChars : Offset → List Char
  | .universal => ['Z']
  | .minutes n =>
    (if n < 0 then '-' else '+') ::
      padded 2 (n.natAbs / 60) ++ ':' :: padded 2 (n.natAbs % 60)

/-- The text of a date or time. -/
def chars : Datetime → List Char
  | date d => dateChars d
  | time t => timeChars t
  | civil d t => dateChars d ++ 'T' :: timeChars t
  | instant d t offset => dateChars d ++ 'T' :: timeChars t ++ offsetChars offset

end Datetime

end JavaAtlas.Toml
