import DataSchema.Text.CharClass

/-!
Dates, times of day and instants in text.

A date is `YYYY-MM-DD` with a day that the month of that year has. A time is `hh:mm:ss` with an optional
fraction of a second; a sixtieth second is a leap second. An offset is `Z` or a signed `hh:mm` below a
day. An instant is a date, a separator, a time and an offset. All digits are ASCII.

The check of a time first looks at the shape of the text, where the decimal digits of every script count.
It then looks for an offset behind the eighth byte, and breaks off if that byte is inside a character.
-/

namespace DataSchema.Format

/-- The value of two digits. -/
def twoDigits? (a b : Char) : Option Nat :=
  if a.isDigit ∧ b.isDigit then some ((a.toNat - 48) * 10 + (b.toNat - 48)) else none

def isLeapYear (year : Nat) : Bool :=
  year % 4 == 0 && (year % 100 != 0 || year % 400 == 0)

def daysInMonth (year month : Nat) : Nat :=
  match month with
  | 2 => if isLeapYear year then 29 else 28
  | 4 | 6 | 9 | 11 => 30
  | _ => 31

def isDate : List Char → Bool
  | [y1, y2, y3, y4, '-', m1, m2, '-', d1, d2] =>
    match twoDigits? y1 y2, twoDigits? y3 y4, twoDigits? m1 m2, twoDigits? d1 d2 with
    | some century, some year, some month, some day =>
      decide (1 ≤ month ∧ month ≤ 12 ∧ 1 ≤ day ∧ day ≤ daysInMonth (century * 100 + year) month)
    | _, _, _, _ => false
  | _ => false

/-- Drops the fraction of a second; none if a point is followed by no digit. -/
def dropFraction? (digit : Char → Bool) : List Char → Option (List Char)
  | '.' :: c :: rest => if digit c then some (rest.dropWhile digit) else none
  | '.' :: [] => none
  | rest => some rest

/-- What follows a time of day at the start of a text. -/
def afterTime? : List Char → Option (List Char)
  | h1 :: h2 :: ':' :: m1 :: m2 :: ':' :: s1 :: s2 :: rest =>
    match twoDigits? h1 h2, twoDigits? m1 m2, twoDigits? s1 s2 with
    | some hour, some minute, some second =>
      if hour < 24 ∧ minute < 60 ∧ second ≤ 60 then dropFraction? Char.isDigit rest else none
    | _, _, _ => none
  | _ => none

def isOffset : List Char → Bool
  | ['Z'] => true
  | ['z'] => true
  | [sign, h1, h2, ':', m1, m2] =>
    match twoDigits? h1 h2, twoDigits? m1 m2 with
    | some hour, some minute => (sign == '+' || sign == '-') && hour < 24 && minute < 60
    | _, _ => false
  | _ => false

/-- A time of day with an optional offset. -/
def isTime (text : List Char) : Bool :=
  (afterTime? text).any fun rest => rest.isEmpty || isOffset rest

def isOffsetShape : List Char → Bool
  | ['Z'] => true
  | ['z'] => true
  | [sign, h1, h2, ':', m1, m2] =>
    (sign == '+' || sign == '-') && [h1, h2, m1, m2].all Text.isDigit
  | _ => false

/-- The shape of a time of day with an optional offset, in the digits of any script. -/
def isTimeShape : List Char → Bool
  | h1 :: h2 :: ':' :: m1 :: m2 :: ':' :: s1 :: s2 :: rest =>
    [h1, h2, m1, m2, s1, s2].all Text.isDigit &&
      (dropFraction? Text.isDigit rest).any fun rest => rest.isEmpty || isOffsetShape rest
  | _ => false

/-- Does a character start, or the text end, after so many bytes? -/
def startsAt : Nat → List Char → Bool
  | 0, _ => true
  | _ + 1, [] => false
  | n + 1, c :: rest => c.utf8Size ≤ n + 1 && startsAt (n + 1 - c.utf8Size) rest

/-- Does the check of a time break off at the text? An offset `Z` is seen at the end of the text, so that
nothing is looked for behind the eighth byte. -/
def timeBreaksOff (text : List Char) : Bool :=
  isTimeShape text && text.getLast? != some 'Z' && text.getLast? != some 'z' && !startsAt 8 text

/-- In ASCII digits the eighth byte ends a character, and the check comes to an end. -/
example : timeBreaksOff "10:30:00+02:00".toList = false := by decide

/-- The last digit is the Arabic-Indic zero, of two bytes. -/
example : timeBreaksOff ['1', '0', ':', '3', '0', ':', '0', '\u0660'] = true := by decide

def isSeparator (c : Char) : Bool := c == 'T' || c == 't' || c == ' '

/-- A date and a time with an offset. -/
def isInstant (text : List Char) : Bool :=
  match text.dropWhile (!isSeparator ·) with
  | [] => false
  | _ :: time =>
    isDate (text.takeWhile (!isSeparator ·)) && (afterTime? time).any isOffset

end DataSchema.Format
