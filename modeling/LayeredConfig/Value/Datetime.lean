/-
  LayeredConfig/Value/Datetime.lean
  =================================
  **Dates and times.**

  A datetime is a day, a time of day, both, or both with an offset from
  universal time.  There is one way to write each (`1979-05-27T07:32:00.5Z`)
  and a few more to read it: `t` or a blank between day and time, `z` for `Z`,
  and fractions of a second beyond the ninth digit, which are cut.  A leap
  second is a second like any other.  An offset is less than a day.
-/
import LayeredConfig.Number.Integer

namespace LayeredConfig

open Number

/-! ### The four kinds -/

structure Date where
  year : Nat
  month : Nat
  day : Nat
deriving DecidableEq, Repr

structure Time where
  hour : Nat
  minute : Nat
  second : Nat
  nanosecond : Nat
deriving DecidableEq, Repr

/-- Offset from universal time: `Z`, or a number of minutes east. -/
inductive Offset where
  | utc
  | east (minutes : Int)
deriving DecidableEq, Repr

inductive Datetime where
  | date (d : Date)
  | time (t : Time)
  | localTime (d : Date) (t : Time)
  | offsetTime (d : Date) (t : Time) (z : Offset)
deriving DecidableEq, Repr

/-! ### Writing -/

def Date.text (d : Date) : List Char :=
  padded 4 d.year ++ '-' :: padded 2 d.month ++ '-' :: padded 2 d.day

/-- The fraction of a second, without the zeros at its end; nothing for a whole second. -/
def fractionText (nanosecond : Nat) : List Char :=
  if nanosecond = 0 then []
  else '.' :: ((padded 9 nanosecond).reverse.dropWhile (· == '0')).reverse

def Time.text (t : Time) : List Char :=
  padded 2 t.hour ++ ':' :: padded 2 t.minute ++ ':' :: padded 2 t.second
    ++ fractionText t.nanosecond

def Offset.text : Offset → List Char
  | .utc => ['Z']
  | .east minutes =>
    (if minutes < 0 then '-' else '+') :: padded 2 (minutes.natAbs / 60)
      ++ ':' :: padded 2 (minutes.natAbs % 60)

def Datetime.text : Datetime → List Char
  | .date d => d.text
  | .time t => t.text
  | .localTime d t => d.text ++ 'T' :: t.text
  | .offsetTime d t z => d.text ++ 'T' :: t.text ++ z.text

/-! ### Reading -/

def readDigits? (n : Nat) (s : List Char) : Option (Nat × List Char) :=
  let ds := s.take n
  if ds.length = n ∧ ds.all Char.isDigit then some (ofDigits ds, s.drop n) else none

def readChar? (c : Char) : List Char → Option (List Char)
  | d :: rest => if d = c then some rest else none
  | [] => none

def isLeapYear (year : Nat) : Bool := year % 4 = 0 && (year % 100 ≠ 0 || year % 400 = 0)

def daysInMonth (year month : Nat) : Nat :=
  match month with
  | 2 => if isLeapYear year then 29 else 28
  | 4 | 6 | 9 | 11 => 30
  | _ => 31

def Date.read? (s : List Char) : Option (Date × List Char) := do
  let (year, s) ← readDigits? 4 s
  let s ← readChar? '-' s
  let (month, s) ← readDigits? 2 s
  let s ← readChar? '-' s
  let (day, s) ← readDigits? 2 s
  if 1 ≤ month ∧ month ≤ 12 ∧ 1 ≤ day ∧ day ≤ daysInMonth year month then
    some (⟨year, month, day⟩, s)
  else none

/-- The fraction of a second as nanoseconds, from at least one digit behind a point. -/
def readFraction? : List Char → Option (Nat × List Char)
  | '.' :: s =>
    let ds := s.takeWhile Char.isDigit
    if ds.isEmpty then none
    else
      let kept := ds.take 9
      some (ofDigits kept * Nat.pow 10 (9 - kept.length), s.dropWhile Char.isDigit)
  | s => some (0, s)

def Time.read? (s : List Char) : Option (Time × List Char) := do
  let (hour, s) ← readDigits? 2 s
  let s ← readChar? ':' s
  let (minute, s) ← readDigits? 2 s
  let s ← readChar? ':' s
  let (second, s) ← readDigits? 2 s
  let (nanosecond, s) ← readFraction? s
  if hour ≤ 23 ∧ minute ≤ 59 ∧ second ≤ 60 then
    some (⟨hour, minute, second, nanosecond⟩, s)
  else none

def Offset.read? : List Char → Option (Offset × List Char)
  | c :: s => do
    if c = 'Z' ∨ c = 'z' then return (.utc, s)
    let ahead ← if c = '+' then some true else if c = '-' then some false else none
    let (hours, s) ← readDigits? 2 s
    let s ← readChar? ':' s
    let (minutes, s) ← readDigits? 2 s
    let total := hours * 60 + minutes
    if hours ≤ 23 ∧ minutes ≤ 59 then
      return (.east (if ahead then total else -(total : Int)), s)
    else none
  | [] => none

def isTimeMark (c : Char) : Bool := c = 'T' || c = 't' || c = ' '

/-- The longest datetime at the start of a text, and what follows it.  What does not read as a time
    is left alone. -/
def Datetime.readStart? (s : List Char) : Option (Datetime × List Char) :=
  match Date.read? s with
  | none => (Time.read? s).map fun (t, rest) => (.time t, rest)
  | some (d, rest) =>
    match rest with
    | mark :: afterMark =>
      if isTimeMark mark then
        match Time.read? afterMark with
        | some (t, rest) =>
          match Offset.read? rest with
          | some (z, rest) => some (.offsetTime d t z, rest)
          | none => some (.localTime d t, rest)
        | none => some (.date d, rest)
      else some (.date d, rest)
    | [] => some (.date d, [])

def Datetime.read? (s : List Char) : Option Datetime :=
  match Datetime.readStart? s with
  | some (d, []) => some d
  | _ => none

end LayeredConfig
