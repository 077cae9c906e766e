import Custody.Decimal.Nearest
import Custody.Time.Calendar
import Custody.Toml.Basic
import Custody.Toml.Text

/-!
Numbers, truth values and points in time of a settings file. Numbers may be grouped by underscores
between digits; integers must fit 64 bits.
-/

namespace Custody.Toml.Scalar

open Text (Read)
open Text.Read (mark word one run someOf exactly many optional skip refuse)

/-- Digits in some base, with single underscores between them. -/
def grouped (base : Nat) : Read (List Char) := do
  let d ← one (Text.isDigit base)
  let ds ← many <| (one (Text.isDigit base)).orElse do
    mark '_'
    one (Text.isDigit base)
  pure (d :: ds)

def sign : Read Bool := do
  let s ← optional (one fun c => c == '+' || c == '-')
  pure (s == some '-')

/-- A sign and decimal digits without a zero in front. -/
def decimal : Read (Bool × List Char) := do
  let negative ← sign
  let ds ← grouped 10
  if 1 < ds.length && ds.head? == some '0' then refuse else pure (negative, ds)

def signed (negative : Bool) (n : Nat) : Read Toml :=
  let limit := UInt64.size / 2
  if n < limit || (negative && n == limit) then pure (.integer (if negative then -n else n))
  else refuse

def based (letter : Char) (base : Nat) : Read Toml := do
  word ['0', letter]
  let ds ← grouped base
  signed false (Text.numberOf base ds)

def integer : Read Toml :=
  (based 'x' 16).orElse <| (based 'o' 8).orElse <| (based 'b' 2).orElse do
    let (negative, ds) ← decimal
    signed negative (Text.numberOf 10 ds)

def fraction : Read (List Char) := do
  mark '.'
  grouped 10

def exponent : Read Int := do
  skip (one fun c => c == 'e' || c == 'E')
  let negative ← sign
  let ds ← grouped 10
  let n : Int := Text.numberOf 10 ds
  pure (if negative then -n else n)

/-- A number with a fraction, an exponent or both. Numbers beyond the greatest double are refused, but
only above zero. -/
def float : Read Toml := do
  let (negative, ds) ← decimal
  let tail ← optional fraction
  let power ← optional exponent
  if tail.isNone && power.isNone then refuse
  else
    let after := tail.getD []
    let all := ds ++ after
    let x := Decimal.nearestScaled (Text.numberOf 10 all) (power.getD 0 - after.length)
    if x.isInf && !negative then refuse else pure (.real (if negative then -x else x))

def special : Read Toml := do
  let negative ← sign
  let infinite : Read Float := do
    word ['i', 'n', 'f']
    pure (1.0 / 0.0)
  let undefined : Read Float := do
    word ['n', 'a', 'n']
    pure (0.0 / 0.0)
  let x ← infinite.orElse undefined
  pure (.real (if negative then -x else x))

def truth : Read Toml :=
  let yes : Read Toml := do
    word ['t', 'r', 'u', 'e']
    pure (.boolean true)
  yes.orElse do
    word ['f', 'a', 'l', 's', 'e']
    pure (.boolean false)

/-- A number of exactly so many digits, within bounds. -/
def counted (width low high : Nat) : Read Nat := do
  let ds ← exactly (Text.isDigit 10) width
  let n := Text.numberOf 10 ds
  if low ≤ n && n ≤ high then pure n else refuse

def date : Read Unit := do
  let year ← counted 4 0 9999
  mark '-'
  let month ← counted 2 1 12
  mark '-'
  let day ← counted 2 1 31
  if Date.exists? ⟨year, month, day⟩ then pure () else refuse

def timeOfDay : Read Unit := do
  skip (counted 2 0 23)
  mark ':'
  skip (counted 2 0 59)
  mark ':'
  skip (counted 2 0 60)
  skip <| optional do
    mark '.'
    someOf (Text.isDigit 10)

def offset : Read Unit :=
  (skip (one fun c => c == 'Z' || c == 'z')).orElse do
    skip (one fun c => c == '+' || c == '-')
    skip (counted 2 0 23)
    mark ':'
    skip (counted 2 0 59)

/-- A point in time: a date, a time of day, or a date with a time. -/
def moment : Read Toml :=
  let clock : Read Unit := do
    skip (one fun c => c == 'T' || c == 't' || c == ' ')
    timeOfDay
    skip (optional offset)
  let dated : Read Toml := do
    date
    skip (optional clock)
    pure .moment
  dated.orElse do
    timeOfDay
    pure .moment

def any : Read Toml :=
  let quoted : Read Toml := do
    let s ← string
    pure (.text s)
  quoted.orElse <| moment.orElse <| float.orElse <| special.orElse <| integer.orElse truth

end Custody.Toml.Scalar
