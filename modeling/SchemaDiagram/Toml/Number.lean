import SchemaDiagram.Toml.Blank
import SchemaDiagram.Toml.Value

/-!
# TOML numbers and dates

Numbers may have single underscores between digits. Whole numbers have 64 bits, and a number that
is too great for a double is refused. Dates and times are those of the calendar; a minute may have
a leap second.
-/

namespace SchemaDiagram.Toml

open Text

/-- The part of a text before one of its tails. -/
def lexeme (text rest : List Char) : String :=
  String.ofList (text.take (text.length - rest.length))

/-- The digits at the front, between which single underscores may stand, and the text after
them. -/
def digitRun (isDigit : Char → Bool) : List Char → List Char × List Char
  | [] => ([], [])
  | c :: rest =>
    if isDigit c then
      let run := digitRun isDigit rest
      (c :: run.1, run.2)
    else if c = '_' then
      match rest with
      | d :: after =>
        if isDigit d then
          let run := digitRun isDigit after
          (d :: run.1, run.2)
        else ([], c :: rest)
      | [] => ([], [c])
    else ([], c :: rest)

/-- At least one digit and the text after the digits. -/
def digits? (isDigit : Char → Bool) : List Char → Option (List Char × List Char)
  | c :: rest => if isDigit c then some (digitRun isDigit (c :: rest)) else none
  | [] => none

/-- The value of a digit; letters count on from ten. -/
def digitValue (c : Char) : Nat :=
  if c.isDigit then c.toNat - '0'.toNat else c.toLower.toNat - 'a'.toNat + 10

/-- The number that digits stand for. -/
def ofDigits (base : Nat) (digits : List Char) : Nat :=
  digits.foldl (fun n c ↦ n * base + digitValue c) 0

/-- Whether there is a minus sign, and the text after the sign, if there is one. -/
def sign : List Char → Bool × List Char
  | '-' :: rest => (true, rest)
  | '+' :: rest => (false, rest)
  | text => (false, text)

/-- The digits of a decimal number without a leading zero, and the text after them. -/
def decimalDigits? : List Char → Option (List Char × List Char)
  | c :: rest =>
    if c = '0' then some (['0'], rest)
    else if c.isDigit then some (digitRun Char.isDigit (c :: rest))
    else none
  | [] => none

/-- A whole number that fits into 64 bits. -/
def inRange? (negative : Bool) (n : Nat) : Option Int :=
  if negative then if n ≤ Nat.pow 2 63 then some (-n) else none
  else if n < Nat.pow 2 63 then some n else none

/-- A whole number in another base, read from behind its mark. -/
def basedInteger? (base : Nat) (isDigit : Char → Bool) (text : List Char) :
    Option (Value × List Char) := do
  let (digits, rest) ← digits? isDigit text
  let value ← inRange? false (ofDigits base digits)
  some (.integer value, rest)

/-- Whether the character is a hexadecimal digit. -/
def isHexDigit (c : Char) : Bool :=
  c.isDigit || ('a' ≤ c && c ≤ 'f') || ('A' ≤ c && c ≤ 'F')

/-- A whole number. -/
def integer? (text : List Char) : Option (Value × List Char) :=
  match text with
  | '0' :: 'x' :: rest => basedInteger? 16 isHexDigit rest
  | '0' :: 'o' :: rest => basedInteger? 8 (fun c ↦ '0' ≤ c && c ≤ '7') rest
  | '0' :: 'b' :: rest => basedInteger? 2 (fun c ↦ c == '0' || c == '1') rest
  | _ => do
    let (negative, rest) := sign text
    let (digits, rest) ← decimalDigits? rest
    let value ← inRange? negative (ofDigits 10 digits)
    some (.integer value, rest)

/-- Whether a positive decimal number rounds beyond the doubles, to infinity. The number is
`mantissa * 10 ^ exponent`. -/
def exceedsDouble (mantissa : Nat) (exponent : Int) : Bool :=
  if mantissa = 0 then false
  else
    let magnitude := (Nat.toDigits 10 mantissa).length + exponent
    if magnitude < 309 then false
    else if 310 ≤ magnitude then true
    else
      let bound := Nat.pow 2 1024 - Nat.pow 2 970
      if 0 ≤ exponent then decide (bound ≤ mantissa * Nat.pow 10 exponent.toNat)
      else decide (bound * Nat.pow 10 (-exponent).toNat ≤ mantissa)

/-- The digits after the point and the text after them. -/
def fraction? (text : List Char) : Option (List Char × List Char) :=
  (expect '.' text).bind (digits? Char.isDigit)

/-- The exponent and the text after it. -/
def exponent? : List Char → Option (Int × List Char)
  | c :: rest =>
    if c = 'e' ∨ c = 'E' then do
      let (negative, rest) := sign rest
      let (digits, rest) ← digits? Char.isDigit rest
      let value : Int := ofDigits 10 digits
      some (if negative then -value else value, rest)
    else none
  | [] => none

/-- A number with a fraction, an exponent, or both. -/
def decimal? (text : List Char) : Option (Value × List Char) := do
  let (negative, rest) := sign text
  let (whole, rest) ← decimalDigits? rest
  let (fraction, exponent, rest) ←
    match fraction? rest with
    | some (fraction, rest) =>
      match exponent? rest with
      | some (exponent, rest) => some (fraction, exponent, rest)
      | none => some (fraction, 0, rest)
    | none => (exponent? rest).map fun (exponent, rest) ↦ ([], exponent, rest)
  if !negative && exceedsDouble (ofDigits 10 (whole ++ fraction)) (exponent - fraction.length) then
    none
  else some (.float (lexeme text rest), rest)

/-- Infinity, or the value that is no number. -/
def specialNumber? (text : List Char) : Option (Value × List Char) := do
  let (_, rest) := sign text
  let rest ← (expectWord ['i', 'n', 'f'] rest).or (expectWord ['n', 'a', 'n'] rest)
  some (.float (lexeme text rest), rest)

/-- A number of exactly `count` digits that lies between two bounds. -/
def fixedNumber? (count low high : Nat) (text : List Char) : Option (Nat × List Char) :=
  let digits := text.take count
  let value := ofDigits 10 digits
  if digits.length = count ∧ digits.all Char.isDigit ∧ low ≤ value ∧ value ≤ high then
    some (value, text.drop count)
  else none

/-- The number of days of a month. -/
def daysOfMonth (year month : Nat) : Nat :=
  if month = 2 then
    if year % 4 = 0 ∧ (year % 100 ≠ 0 ∨ year % 400 = 0) then 29 else 28
  else if month = 4 ∨ month = 6 ∨ month = 9 ∨ month = 11 then 30
  else 31

/-- The text after a date. -/
def afterDate (text : List Char) : Option (List Char) := do
  let (year, rest) ← fixedNumber? 4 0 9999 text
  let rest ← expect '-' rest
  let (month, rest) ← fixedNumber? 2 1 12 rest
  let rest ← expect '-' rest
  let (_, rest) ← fixedNumber? 2 1 (daysOfMonth year month) rest
  some rest

/-- The text after a time of day. -/
def afterTime (text : List Char) : Option (List Char) := do
  let (_, rest) ← fixedNumber? 2 0 23 text
  let rest ← expect ':' rest
  let (_, rest) ← fixedNumber? 2 0 59 rest
  let rest ← expect ':' rest
  let (_, rest) ← fixedNumber? 2 0 60 rest
  match expect '.' rest with
  | some fraction =>
    if (fraction.takeWhile Char.isDigit).isEmpty then some rest
    else some (fraction.dropWhile Char.isDigit)
  | none => some rest

/-- The text after the distance from universal time. -/
def afterOffset : List Char → Option (List Char)
  | c :: rest =>
    if c = 'Z' ∨ c = 'z' then some rest
    else if c = '+' ∨ c = '-' then do
      let (_, rest) ← fixedNumber? 2 0 23 rest
      let rest ← expect ':' rest
      let (_, rest) ← fixedNumber? 2 0 59 rest
      some rest
    else none
  | [] => none

/-- The text after the time that follows a date, with its offset if there is one. -/
def afterTimeOfDate : List Char → Option (List Char)
  | c :: rest =>
    if c = 'T' ∨ c = 't' ∨ c = ' ' then
      (afterTime rest).map fun rest ↦ (afterOffset rest).getD rest
    else none
  | [] => none

/-- A date, a time, or both. -/
def dateTime? (text : List Char) : Option (Value × List Char) :=
  (((afterDate text).map fun rest ↦ (afterTimeOfDate rest).getD rest).or (afterTime text)).map
    fun rest ↦ (.dateTime (lexeme text rest), rest)

/-- A truth value. -/
def boolean? (text : List Char) : Option (Value × List Char) :=
  ((expectWord ['t', 'r', 'u', 'e'] text).map fun rest ↦ (.boolean true, rest)).or
    ((expectWord ['f', 'a', 'l', 's', 'e'] text).map fun rest ↦ (.boolean false, rest))

/-- A value that is no string and holds no other values. -/
def plainValue? (text : List Char) : Option (Value × List Char) :=
  (dateTime? text).or <| (decimal? text).or <| (integer? text).or <|
    (boolean? text).or (specialNumber? text)

end SchemaDiagram.Toml
