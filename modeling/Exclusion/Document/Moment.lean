import Exclusion.Decimal.Numeral
import Exclusion.Document.Reader

/-! # Dates and times

A moment is a date, a time of day, or both, and then perhaps with its distance from universal time.
It is kept as a text of one form: both parts are joined by a `T`, and fractions of a second have at
most nine digits and no zeros at the end.
-/

namespace Exclusion.Document

open Reader

def digitsWithin (count low high : Nat) : Reader (List Char) := do
  let digits ← exactly Char.isDigit count
  let n := Decimal.digitsValue digits
  if low ≤ n && n ≤ high then return digits else failure

def isLeapYear (year : Nat) : Bool :=
  year % 4 == 0 && (year % 100 != 0 || year % 400 == 0)

def daysInMonth (year month : Nat) : Nat :=
  if month == 2 then (if isLeapYear year then 29 else 28)
  else if month ∈ [4, 6, 9, 11] then 30
  else 31

def date : Reader (List Char) := do
  let year ← digitsWithin 4 0 9999
  char '-'
  let month ← digitsWithin 2 1 12
  char '-'
  let day ← digitsWithin 2 1 (daysInMonth (Decimal.digitsValue year) (Decimal.digitsValue month))
  return year ++ '-' :: month ++ '-' :: day

def trimFraction (digits : List Char) : List Char :=
  ((digits.take 9).reverse.dropWhile (· == '0')).reverse

def fraction : Reader (List Char) := do
  char '.'
  match trimFraction (← some1 Char.isDigit) with
  | [] => return []
  | digits => return '.' :: digits

def hourAndMinute : Reader (List Char) := do
  let hour ← digitsWithin 2 0 23
  char ':'
  let minute ← digitsWithin 2 0 59
  return hour ++ ':' :: minute

def timeOfDay : Reader (List Char) := do
  let start ← hourAndMinute
  char ':'
  let second ← digitsWithin 2 0 60
  let part ← fraction <|> return []
  return start ++ ':' :: second ++ part

/-- The distance from universal time. None at all is written with a plus. -/
def distance : Reader (List Char) :=
  ((char 'Z' <|> char 'z') *> return ['Z']) <|> do
    let mark ← satisfying fun c => c == '+' || c == '-'
    let d ← hourAndMinute
    return (if d.all fun c => c == '0' || c == ':' then '+' else mark) :: d

def timeBehindDate : Reader (List Char) := do
  let _ ← satisfying fun c => c == 'T' || c == 't' || c == ' '
  let time ← timeOfDay
  let rest ← distance <|> return []
  return 'T' :: time ++ rest

def moment : Reader String :=
  String.ofList <$>
    ((do
      let d ← date
      let rest ← timeBehindDate <|> return []
      return d ++ rest) <|> timeOfDay)

end Exclusion.Document
