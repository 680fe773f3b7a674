import HeaderMiner.Power
import HeaderMiner.Text.Blank
import HeaderMiner.Text.Natural
/-!
# Durations in words

A duration is written as a list of amounts with their units, such as `1m 30s`.  Reading takes the
characters one by one (`Reader.step`) through four states: before an amount, inside its integer
part, inside its fraction, and inside its unit.  Seconds and every amount must fit 64 bits.
-/

namespace HeaderMiner

def nanosPerSecond : Nat := 1000000000

/-- a span of time whose seconds fit 64 bits -/
structure Duration where
  nanos : Nat
  nanos_lt : nanos < 2 ^ 64 * nanosPerSecond
deriving DecidableEq

namespace Duration

def ofSeconds (n : UInt64) : Duration :=
  ⟨n.toNat * nanosPerSecond, Nat.mul_lt_mul_of_pos_right n.toNat_lt (by decide)⟩

def ofMillis (n : UInt64) : Duration :=
  ⟨n.toNat * 1000000,
    Nat.lt_of_le_of_lt (Nat.mul_le_mul_left _ (by decide))
      (Nat.mul_lt_mul_of_pos_right n.toNat_lt (by decide : 0 < nanosPerSecond))⟩

def isZero (d : Duration) : Bool := d.nanos == 0

/-! ## units -/

inductive Scale where
  | nanosecond
  | microsecond
  | millisecond
  | second
  | minute
  | hour
  | day
  | week
  | month
  | year
deriving DecidableEq, Repr

namespace Scale

def ofName? (name : String) : Option Scale :=
  if ["nanos", "nsec", "ns"].contains name then some nanosecond
  else if ["usec", "us", "µs"].contains name then some microsecond
  else if ["millis", "msec", "ms"].contains name then some millisecond
  else if ["seconds", "second", "secs", "sec", "s"].contains name then some second
  else if ["minutes", "minute", "mins", "min", "m"].contains name then some minute
  else if ["hours", "hour", "hrs", "hr", "h"].contains name then some hour
  else if ["days", "day", "d"].contains name then some day
  else if ["weeks", "week", "wks", "wk", "w"].contains name then some week
  else if ["months", "month", "M"].contains name then some month
  else if ["years", "year", "yrs", "yr", "y"].contains name then some year
  else none

/-- the nanoseconds of a unit, for the units whose amounts are counted in nanoseconds -/
def nanos? : Scale → Option Nat
  | nanosecond => some 1
  | microsecond => some 1000
  | millisecond => some 1000000
  | _ => none

/-- the seconds of a unit from the second on; a month is 30.44 days and a year 365.25 -/
def seconds : Scale → Nat
  | minute => 60
  | hour => 3600
  | day => 86400
  | week => 604800
  | month => 2630016
  | year => 31557600
  | _ => 1

end Scale

/-! ## reading -/

def amountBound : Nat := 2 ^ 64

/-- a number, if it is below the bound of amounts -/
def bounded (n : Nat) : Option Nat := if n < amountBound then some n else none

/-- adds seconds and nanoseconds to a sum of seconds and nanoseconds -/
def addParts (sum : Nat × Nat) (seconds nanos : Nat) : Option (Nat × Nat) := do
  let n ← bounded (sum.2 + nanos)
  let s ← bounded (seconds + n / nanosPerSecond)
  let s ← bounded (sum.1 + s)
  return (s, n % nanosPerSecond)

def wholeParts (scale : Scale) (n : Nat) : Option (Nat × Nat) :=
  match scale.nanos? with
  | some k => (bounded (n * k)).map (0, ·)
  | none => (bounded (n * scale.seconds)).map (·, 0)

/-- the parts of a fraction of a unit; from the hour on they are whole seconds -/
def fractionParts (scale : Scale) (num den : Nat) : Option (Nat × Nat) :=
  match scale with
  | .nanosecond => none
  | .microsecond => (bounded (num * 1000)).map fun n => (0, n / den)
  | .millisecond => (bounded (num * 1000000)).map fun n => (0, n / den)
  | .second => (bounded (num * nanosPerSecond)).map fun n => (0, n / den)
  | .minute => (bounded (num * (60 * nanosPerSecond))).map fun n => (0, n / den)
  | scale => (bounded (num * scale.seconds)).map fun n => (n / den, 0)

/-- adds an amount of a unit to a sum -/
def addAmount (sum : Nat × Nat) (unit : List Char) (n : Nat) (fraction : Option (Nat × Nat)) :
    Option (Nat × Nat) := do
  let scale ← Scale.ofName? (String.ofList unit)
  let w ← wholeParts scale n
  let sum ← addParts sum w.1 w.2
  match fraction with
  | none => return sum
  | some (num, den) =>
    let f ← fractionParts scale num den
    addParts sum f.1 f.2

/-- where a reader stands, with the sum of the amounts behind it -/
inductive Reader where
  /-- before an amount; `first` if none has been read -/
  | before (sum : Nat × Nat) (first : Bool)
  /-- inside the integer part of an amount -/
  | integer (sum : Nat × Nat) (n : Nat)
  /-- inside the fraction `num / den` of an amount -/
  | fraction (sum : Nat × Nat) (n num den : Nat)
  /-- inside the unit of an amount, its letters last first -/
  | unit (sum : Nat × Nat) (n : Nat) (fraction : Option (Nat × Nat)) (letters : List Char)

namespace Reader

def isLetter (c : Char) : Bool := c.isAlpha || c == 'µ'

def step (r : Reader) (c : Char) : Option Reader :=
  match r with
  | before sum first =>
    match Text.digit? c with
    | some d => some (integer sum d)
    | none => if Text.isBlank c then some (before sum first) else none
  | integer sum n =>
    match Text.digit? c with
    | some d => (bounded (n * 10 + d)).map (integer sum ·)
    | none =>
      if Text.isBlank c then some (integer sum n)
      else if isLetter c then some (unit sum n none [c])
      else if c = '.' then some (fraction sum n 0 1)
      else none
  | fraction sum n num den =>
    match Text.digit? c with
    | some d => do return fraction sum n (← bounded (num * 10 + d)) (← bounded (den * 10))
    | none =>
      if Text.isBlank c then some (fraction sum n num den)
      else if isLetter c && den != 1 then some (unit sum n (some (num, den)) [c])
      else none
  | unit sum n f letters =>
    match Text.digit? c with
    | some d => (addAmount sum letters.reverse n f).map (integer · d)
    | none =>
      if Text.isBlank c then (addAmount sum letters.reverse n f).map (before · false)
      else if isLetter c then some (unit sum n f (c :: letters))
      else none

def finish : Reader → Option (Nat × Nat)
  | before sum first => if first then none else some sum
  | unit sum n f letters => addAmount sum letters.reverse n f
  | _ => none

end Reader

/-- the duration of a text; a lone zero needs no unit -/
def parse? (s : String) : Option Duration :=
  if s = "0" then some ⟨0, by decide⟩
  else do
    let r ← s.toList.foldlM Reader.step (.before (0, 0) true)
    let sum ← r.finish
    let n := sum.1 * nanosPerSecond + sum.2
    if h : n < 2 ^ 64 * nanosPerSecond then some ⟨n, h⟩ else none

/-! ## writing -/

def amountText (n : Nat) (unit : String) : List String :=
  if n = 0 then [] else [toString n ++ unit]

/-- an amount with its unit in words, which takes an `s` from two on -/
def amountWords (n : Nat) (unit : String) : List String :=
  amountText n (if 1 < n then unit ++ "s" else unit)

/-- the text of a duration: every amount that is not zero, largest unit first -/
def text (d : Duration) : String :=
  let seconds := d.nanos / nanosPerSecond
  let nanos := d.nanos % nanosPerSecond
  let inYear := seconds % 31557600
  let inMonth := inYear % 2630016
  let inDay := inMonth % 86400
  if d.nanos = 0 then "0s"
  else
    String.intercalate " " <|
      amountWords (seconds / 31557600) "year" ++ amountWords (inYear / 2630016) "month"
        ++ amountWords (inMonth / 86400) "day" ++ amountText (inDay / 3600) "h"
        ++ amountText (inDay % 3600 / 60) "m" ++ amountText (inDay % 60) "s"
        ++ amountText (nanos / 1000000) "ms" ++ amountText (nanos / 1000 % 1000) "us"
        ++ amountText (nanos % 1000) "ns"

end Duration

end HeaderMiner
