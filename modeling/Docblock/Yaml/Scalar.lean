import Docblock.Failure
import Docblock.Value.Basic
import Docblock.Yaml.Quoted

/-!
# What plain scalars stand for

A plain scalar may stand for nothing, for a truth value, for a number or for a day;
any other one is a text. Integers may be binary, octal, hexadecimal, decimal or in
base sixty with colons; numbers with a point need one, so an exponent alone does
not make a number. Underscores between digits mean nothing. A day with a time of
day is not read.
-/

namespace Docblock.Yaml

/-- The spellings of nothing. -/
def nullWords : List Text := ["", "~", "null", "Null", "NULL"].map String.toList

/-- The spellings of truth. -/
def trueWords : List Text :=
  ["yes", "Yes", "YES", "true", "True", "TRUE", "on", "On", "ON"].map String.toList

/-- The spellings of falsehood. -/
def falseWords : List Text :=
  ["no", "No", "NO", "false", "False", "FALSE", "off", "Off", "OFF"].map String.toList

/-- The key under which another mapping is taken over. -/
def mergeKey : Text := ['<', '<']

/-- A scalar that stands for the default of a mapping, which no value has. -/
def defaultMark : Text := ['=']

/-- A decimal digit or an underscore. -/
def isDecimalOrMark (c : Char) : Bool := Text.isDecimal c || c == '_'

/-- A text without its underscores. -/
def withoutMarks (s : Text) : Text := s.filter (· != '_')

/-- Splits a sign off the front: whether it is a minus, and the rest. -/
def splitSign : Text → Bool × Text
  | '-' :: rest => (true, rest)
  | '+' :: rest => (false, rest)
  | s => (false, s)

/-- Digits and underscores that start with a digit. -/
def isDecimalRun (s : Text) : Bool := s.head?.any Text.isDecimal && s.all isDecimalOrMark

/-- A digit group of base sixty behind a colon. -/
def isSixtieth : Text → Bool
  | [a] => Text.isDecimal a
  | [a, b] => '0' ≤ a && a ≤ '5' && Text.isDecimal b
  | _ => false

/-- The value of an unsigned integer, if a text has the form of one. A base mark
without digits is malformed. -/
def unsigned? (s : Text) : Option (Except Failure Nat) :=
  let based := fun (base : Nat) (marked : Text) =>
    let digits := withoutMarks marked
    if digits = [] then Except.error Failure.badNumber else .ok (Text.digitsValue base digits)
  match s with
  | '0' :: 'b' :: digits =>
    if digits ≠ [] ∧ digits.all (fun c => c == '0' || c == '1' || c == '_') then
      some (based 2 digits)
    else none
  | '0' :: 'x' :: digits =>
    if digits ≠ [] ∧ digits.all (fun c => (Text.hexDigit? c).isSome || c == '_') then
      some (based 16 digits)
    else none
  | '0' :: digits =>
    if digits.all fun c => ('0' ≤ c && c ≤ '7') || c == '_' then
      some (.ok (Text.digitsValue 8 (withoutMarks digits)))
    else none
  | s =>
    match Text.splitOn ':' s with
    | [] => none
    | first :: groups =>
      if isDecimalRun first ∧ groups.all isSixtieth = true then
        some (.ok (groups.foldl (fun n group => 60 * n + Text.digitsValue 10 group)
          (Text.digitsValue 10 (withoutMarks first))))
      else none

/-- The exponent at the end of a number with a point: a letter, a sign and
digits, or nothing. -/
def exponent? : Text → Option Int
  | [] => some 0
  | e :: sign :: digits =>
    if (e = 'e' ∨ e = 'E') ∧ (sign = '-' ∨ sign = '+') ∧ digits ≠ [] ∧
        digits.all Text.isDecimal = true then
      let magnitude : Int := Text.digitsValue 10 digits
      some (if sign = '-' then -magnitude else magnitude)
    else none
  | _ => none

/-- The value of an unsigned number with a point, in base ten: digits before the
point, digits behind it, and an exponent. -/
def pointed? (s : Text) : Option Binary64 :=
  let whole := s.takeWhile isDecimalOrMark
  match s.drop whole.length with
  | '.' :: rest =>
    let fraction := rest.takeWhile isDecimalOrMark
    if (if whole = [] then fraction.head?.any Text.isDecimal else isDecimalRun whole) then
      (exponent? (rest.drop fraction.length)).map fun exponent =>
        let behind := withoutMarks fraction
        Binary64.ofDecimal false (Text.digitsValue 10 (withoutMarks whole ++ behind))
          (exponent - behind.length)
    else none
  | _ => none

/-- The value of an unsigned number with a point whose whole part is in base
sixty. -/
def sixties? (s : Text) : Option Binary64 :=
  match Text.splitOn ':' s with
  | first :: next :: more =>
    let groups := (next :: more).dropLast
    let last := (next :: more).getLast?.getD []
    let whole := Text.before '.' last
    if isDecimalRun first ∧ groups.all isSixtieth = true ∧ isSixtieth whole = true ∧
        last.contains '.' = true ∧ (Text.after '.' last).all isDecimalOrMark = true then
      let values := (first :: groups).map fun group =>
        Binary64.ofDecimal false (Text.digitsValue 10 (withoutMarks group)) 0
      let fraction := withoutMarks (Text.after '.' last)
      let least :=
        Binary64.ofDecimal false (Text.digitsValue 10 (whole ++ fraction)) (-fraction.length)
      let scaled := (least :: values.reverse).foldl
        (fun (total : Binary64 × Nat) value =>
          (Binary64.plusScaled total.1 value total.2, total.2 * 60))
        (Binary64.ofDyadic 0 0, 1)
      some scaled.1
    else none
  | _ => none

/-- The value of a number with a point, if a text has the form of one. A sign may
not stand before a number that starts with its point. -/
def float? (s : Text) : Option Binary64 :=
  let (negative, unsigned) := splitSign s
  let isSigned := unsigned.length < s.length
  if [".inf", ".Inf", ".INF"].any fun word => word.toList == unsigned then some (.infinite negative)
  else if [".nan", ".NaN", ".NAN"].any fun word => word.toList == s then some .undefined
  else if isSigned && unsigned.head? == some '.' then none
  else ((pointed? unsigned).or (sixties? unsigned)).map (Binary64.signed negative)

/-- The value of an integer, if a text has the form of one. -/
def int? (s : Text) : Option (Except Failure Int) :=
  let (negative, unsigned) := splitSign s
  (unsigned? unsigned).map fun result =>
    result.map fun (n : Nat) => if negative then -(n : Int) else (n : Int)

/-- The number of days in a month. -/
def monthLength (year month : Nat) : Nat :=
  if month = 2 then
    if year % 4 = 0 ∧ (year % 100 ≠ 0 ∨ year % 400 = 0) then 29 else 28
  else if [4, 6, 9, 11].contains month then 30
  else 31

/-- Whether the calendar has a day. -/
def isDay (year month day : Nat) : Bool :=
  1 ≤ year && 1 ≤ month && month ≤ 12 && 1 ≤ day && day ≤ monthLength year month

/-- A day as a value. It is written as it is read, and cannot be gone through. -/
def dayValue (written : Text) (year month day : Nat) : Value :=
  let notated := "datetime.date(".toList ++
    Text.join ", ".toList ([year, month, day].map Text.ofNat) ++ [')']
  .foreign
    { identity := notated, text := written, notated, isGiven := true, hasItems := false } []

/-- The day that four digits, two digits and two digits with hyphens between them stand
for, if a text has this form. A day that the calendar does not have is malformed. -/
def day? (s : Text) : Option (Except Failure Value) :=
  let groups := Text.splitOn '-' s
  if groups.map List.length = [4, 2, 2] ∧ groups.all (·.all Text.isDecimal) = true then
    match groups.map (Text.digitsValue 10) with
    | [year, month, day] =>
      some (if isDay year month day then .ok (dayValue s year month day) else .error .badNumber)
    | _ => none
  else none

/-- What stands behind as many digits as there are, up to a bound, if there are enough. -/
def behindDigits? (least most : Nat) (s : Text) : Option Text :=
  let count := ((s.take most).takeWhile Text.isDecimal).length
  if least ≤ count then some (s.drop count) else none

/-- What stands behind a character at the front. -/
def behindMark? (mark : Char) : Text → Option Text
  | c :: rest => if c = mark then some rest else none
  | [] => none

/-- Whether a text has the form of a time zone: nothing, the letter of the zero meridian,
or a sign and hours with or without minutes. -/
def isZone : Text → Bool
  | [] | ['Z'] => true
  | sign :: s =>
    (sign == '+' || sign == '-') && (behindDigits? 1 2 s).any fun rest =>
      rest.isEmpty || ((behindMark? ':' rest).bind (behindDigits? 2 2)).any List.isEmpty

/-- Whether a text has the form of a time of day: hours, minutes and seconds, which may
have a fraction, and a time zone. -/
def isTimeOfDay (s : Text) : Bool :=
  let seconds := do
    let minutes ← (← behindDigits? 1 2 s) |> behindMark? ':'
    let seconds ← (← behindDigits? 2 2 minutes) |> behindMark? ':'
    behindDigits? 2 2 seconds
  seconds.any fun behind =>
    let zone := ((behindMark? '.' behind).map (·.dropWhile Text.isDecimal)).getD behind
    isZone (zone.dropWhile fun c => c == ' ' || c == '\t')

/-- Whether a text has the form of a day with a time of day. -/
def isMoment (s : Text) : Bool :=
  let time := do
    let month ← (← behindDigits? 4 4 s) |> behindMark? '-'
    let day ← (← behindDigits? 1 2 month) |> behindMark? '-'
    behindDigits? 1 2 day
  time.any fun
    | c :: rest =>
      if c = 'T' ∨ c = 't' then isTimeOfDay rest
      else
        (c == ' ' || c == '\t') && isTimeOfDay (rest.dropWhile fun c => c == ' ' || c == '\t')
    | [] => false

/-- What a plain scalar stands for. -/
def plainValue (s : Text) : Except Failure Value :=
  if nullWords.contains s then .ok .null
  else if trueWords.contains s then .ok (.flag true)
  else if falseWords.contains s then .ok (.flag false)
  else if s = mergeKey ∨ s = defaultMark ∨ isMoment s = true then .error .badDocument
  else
    match float? s with
    | some number => .ok (.float number)
    | none =>
      match int? s with
      | some result => result.map .int
      | none => (day? s).getD (.ok (.text s))

end Docblock.Yaml
