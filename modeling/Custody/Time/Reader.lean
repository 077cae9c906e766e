import Custody.Json.Codec
import Custody.Text.Blank
import Custody.Time.Instant

/-!
Reading instants. The form is that of the written one with some freedom: short numbers, blanks before
the parts, any offset from universal time, and any number of digits in the fraction. Each number is
checked as soon as it has been read; whether there is such a date is checked last.
-/

namespace Custody.Instant

inductive Refusal where
  | short
  | invalid
  | range
  | trailing
  | impossible
deriving DecidableEq, Repr

def Refusal.message : Refusal → String
  | .short => "premature end of input"
  | .invalid => "input contains invalid characters"
  | .range => "input is out of range"
  | .trailing => "trailing input"
  | .impossible => "no possible date and time matching input"

def digit? (c : Char) : Option Digit :=
  if h : 48 ≤ c.toNat ∧ c.toNat < 58 then some ⟨c.toNat - 48, by omega⟩ else none

def isDigit (c : Char) : Bool := (digit? c).isSome

/-- Reads digits, at least one and at most `width`. -/
def digits (width : Nat) (s : List Char) : Except Refusal (List Digit × List Char) :=
  let ds := (s.take width).takeWhile isDigit
  if s = [] then .error .short
  else if ds = [] then .error .invalid
  else .ok (ds.filterMap digit?, s.drop ds.length)

def number (width low high : Nat) (s : List Char) : Except Refusal (Nat × List Char) := do
  let (ds, s) ← digits width (Text.trimStart s)
  let n := Digit.number ds
  if low ≤ n ∧ n ≤ high then .ok (n, s) else .error .range

/-- Reads a year after blanks: up to four digits, or a sign and any number of them. -/
def year (s : List Char) : Except Refusal (Int × List Char) :=
  match Text.trimStart s with
  | '-' :: s => do
    let (ds, s) ← digits s.length s
    if Digit.number ds ≤ 0x80000000 then .ok (-(Digit.number ds : Int), s) else .error .range
  | '+' :: s => do
    let (ds, s) ← digits s.length s
    if Digit.number ds < 0x80000000 then .ok (Digit.number ds, s) else .error .range
  | s => do
    let (ds, s) ← digits 4 s
    .ok (Digit.number ds, s)

def mark (allowed : List Char) : List Char → Except Refusal (List Char)
  | [] => .error .short
  | c :: s => if c ∈ allowed then .ok s else .error .invalid

def separator (c : Char) (s : List Char) : Except Refusal (List Char) :=
  mark [c] (Text.trimStart s)

/-- Reads an optional fraction of a second; digits past the ninth do not count. -/
def fraction : List Char → Except Refusal (Nat × List Char)
  | '.' :: s => do
    let (ds, s) ← digits 9 s
    .ok (Digit.number ds * Nat.pow 10 (9 - ds.length), s.dropWhile isDigit)
  | s => .ok (0, s)

def pair : List Char → Except Refusal (Nat × List Char)
  | [] => .error .short
  | [c] => if c.utf8Size < 2 then .error .short else .error .invalid
  | a :: b :: s =>
    match digit? a, digit? b with
    | some a, some b => .ok (Digit.number [a, b], s)
    | _, _ => .error .invalid

def offset (s : List Char) : Except Refusal (Int × List Char) :=
  match s with
  | [] => .error .short
  | c :: rest =>
    if c = 'Z' ∨ c = 'z' then .ok (0, rest)
    else if (s.take 3).map Char.toUpper = ['U', 'T', 'C'] then .ok (0, s.drop 3)
    else if c = '+' ∨ c = '-' ∨ c = '−' then do
      let (hours, rest) ← pair rest
      let (minutes, rest) ← pair (rest.dropWhile fun c => c = ':' ∨ Text.isBlank c)
      if minutes < 60 then
        let seconds : Int := hours * 3600 + minutes * 60
        .ok (if c = '+' then seconds else -seconds, rest)
      else .error .range
    else .error .invalid

def ofParts (date : Date) (hour minute second nano : Nat) (offset : Int) :
    Except Refusal Instant :=
  let inRange (y : Int) : Bool := firstYear ≤ y && y ≤ lastYear
  if !(date.exists? && inRange date.year) then .error .range
  else if 86400 ≤ offset.natAbs then .error .range
  else
    let (second, nano) := if second = 60 then (59, nano + 1000000000) else (second, nano)
    let clock : Int := hour * 3600 + minute * 60 + second
    let t : Instant := ⟨date.toDay * 86400 + clock - offset, nano⟩
    if inRange t.date.year then .ok t else .error .impossible

def ofText (s : String) : Except Refusal Instant := do
  let (y, s) ← year s.toList
  let s ← separator '-' s
  let (month, s) ← number 2 1 12 s
  let s ← separator '-' s
  let (day, s) ← number 2 1 31 s
  let s ← mark ['T', 't', ' '] s
  let (hour, s) ← number 2 0 23 s
  let s ← separator ':' s
  let (minute, s) ← number 2 0 59 s
  let s ← separator ':' s
  let (second, s) ← number 2 0 60 s
  let (nano, s) ← fraction s
  let (shift, s) ← offset (Text.trimStart s)
  if Text.trimStart s ≠ [] then .error .trailing
  else ofParts ⟨y, month, day⟩ hour minute second nano shift

def codec : Json.Codec Instant where
  write t := Json.text t.text
  read _
    | .string (some s) =>
      match ofText s with
      | .ok t => .ok t
      | .error e => .error (.refused e.message)
    | j => .error (Json.mismatch "an RFC 3339 formatted date and time string" j)

end Custody.Instant
