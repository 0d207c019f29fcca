import Irods.ReplicaStateTable

/-! getNextRepeatTime of rcMisc.cpp: when a delayed rule is run again, from its execution frequency.
Dates are read by convertDateFormat with the calendar of the host. -/
namespace Irods.RepeatTime
open CText
open ReplicaStateTable (decimalText)

-- Arithmetic of an int and of a rodsLong_t; signed overflow wraps.
def int32 (v : Int) : Int := v.bmod (2^32)

def int64 (v : Int) : Int := v.bmod (2^64)

/- What is left in delayStr and nextTime, and the answer. -/
structure Repeat where
  status : Int
  delay : Text
  next : Text
  deriving DecidableEq, Repr

/- A delay: the number, its unit and the directive behind it. -/
structure Delay where
  count : Int
  unit : Option Char
  directive : Text

def Delay.read (delay : Text) : Delay where
  count := atoll (delay.takeWhile Char.isDigit)
  unit := (delay.dropWhile Char.isDigit).head?
  directive := ((delay.dropWhile Char.isDigit).drop 1).dropWhile isSpace

def unitSeconds : Option Char → Nat
  | some 'm' => 60
  | some 'h' => 3600
  | some 'd' => 3600*24
  | some 'y' => 3600*24*365
  | _ => 1

def Delay.seconds (d : Delay) : Int := int64 (d.count*unitSeconds d.unit)

/- strstr, and what follows the words without its blanks. -/
def behind (directive words : Text) : Option Text :=
  (strstr directive words).map (fun i => (directive.drop (i+words.length)).dropWhile isSpace)

-- snprintf into tstr, an array of 200 characters.
def tstr (s : Text) : Text := boundedCopy 200 s

section repeating
variable (convertDateFormat : Text → Int → Text) (current : Int)

def nextTime (d : Delay) : Int := int64 (d.seconds+current)

-- The count is printed from a rodsLong_t.
def written (count : Int) (d : Delay) (rest : Text) : Text :=
  decimalText (int64 count) ++ d.unit.toList ++ lit " " ++ rest

/- Directives with a date: no more repeats when the next time is behind it. -/
def untilTime (d : Delay) (status : Int) (keep : Text → Text → Text) (s : Text) : Repeat :=
  let t := convertDateFormat (tstr s) current
  { status := if atoll t < nextTime current d then 2 else status,
    delay := keep s t,
    next := decimalText (nextTime current d) }

/- Directives with a number of times, an int, which is counted down. -/
def timesLeft (d : Delay) (words : Text) (count : Int) (status : Int) (s : Text) : Repeat :=
  let n := int32 (atoi ((tstr s).takeWhile Char.isDigit)-1)
  let rest := ((tstr s).dropWhile Char.isDigit).drop 1
  let times := if (strstr rest (lit "ORIGINAL TIMES")).isSome then lit " " ++ rest
    else lit " TIMES. ORIGINAL TIMES=" ++ decimalText (int32 (n+1))
  { status := if n ≤ 0 then 2 else status, delay := written count d (words ++ decimalText n ++ times),
    next := decimalText (nextTime current d) }

def upto (d : Delay) (s : Text) : Repeat :=
  let t := convertDateFormat (tstr s) current
  { status := 4, next := decimalText (nextTime current d),
    delay := written (if atoll t > nextTime current d then d.count*2 else d.count) d
      (lit "DOUBLE UNTIL SUCCESS UPTO " ++ s) }

def getNextRepeatTime (delay : Text) : Repeat :=
  let d := Delay.read delay
  let next := decimalText (nextTime current d)
  let on (words : Text) (found : Text → Repeat) (otherwise : Repeat) : Repeat :=
    match behind d.directive words with
    | some s => found s
    | none => otherwise
  if d.directive = [] ∨ d.directive = lit "REPEAT FOR EVER" then { status := 0, delay, next }
  else if d.directive = lit "DOUBLE FOR EVER" then
    { status := 3, delay := written (d.count*2) d (lit "DOUBLE FOR EVER"), next }
  else on (lit "REPEAT UNTIL SUCCESS OR UNTIL ") (untilTime convertDateFormat current d 1 (fun _ _ => delay)) <|
    on (lit "DOUBLE UNTIL SUCCESS OR UNTIL ") (untilTime convertDateFormat current d 4
      (fun s _ => written (d.count*2) d (lit "DOUBLE UNTIL SUCCESS OR UNTIL " ++ s))) <|
    on (lit "REPEAT UNTIL SUCCESS OR ") (timesLeft current d (lit "REPEAT UNTIL SUCCESS OR ") d.count 4) <|
    on (lit "DOUBLE UNTIL SUCCESS OR ") (timesLeft current d (lit "DOUBLE UNTIL SUCCESS OR ") (d.count*2) 4) <|
    on (lit "DOUBLE UNTIL SUCCESS UPTO ") (upto convertDateFormat current d) <|
    on (lit "REPEAT UNTIL SUCCESS") (fun _ => { status := 1, delay, next }) <|
    on (lit "DOUBLE UNTIL SUCCESS")
      (fun _ => { status := 4, delay := written (d.count*2) d (lit "DOUBLE UNTIL SUCCESS"), next }) <|
    on (lit "REPEAT UNTIL ") (untilTime convertDateFormat current d 0 (fun _ _ => delay)) <|
    on (lit "DOUBLE UNTIL ") (untilTime convertDateFormat current d 3
      (fun _ t => written (d.count*2) d (lit "DOUBLE UNTIL " ++ t))) <|
    on (lit "REPEAT ") (timesLeft current d (lit "REPEAT ") d.count 3) <|
    on (lit "DOUBLE ") (timesLeft current d (lit "DOUBLE ") (d.count*2) 3)
    -- nothing is written for a directive that is not known
    { status := 0, delay, next := [] }

end repeating

theorem repeatKnown (convertDateFormat current delay) :
    (getNextRepeatTime convertDateFormat current delay).status ∈ [0,1,2,3,4] := by
  unfold getNextRepeatTime untilTime timesLeft upto
  dsimp only
  repeat' split
  all_goals simp

theorem int64Range (v) : -2^63 ≤ int64 v ∧ int64 v < 2^63 := by
  have low := Int.le_bmod (x := v) (m := 2^64) (by decide)
  have high := Int.bmod_lt (x := v) (m := 2^64) (by decide)
  unfold int64
  omega

theorem int64Same {v : Int} (low : -2^63 ≤ v) (high : v < 2^63) : int64 v = v :=
  Int.bmod_eq_of_le (by omega) (by omega)

theorem int64Twice (v w : Int) : int64 (int64 v+w) = int64 (v+w) := Int.bmod_add_bmod

example : getNextRepeatTime (fun s _ => s) 1700000000 (lit "1h DOUBLE UNTIL SUCCESS OR 3 TIMES") =
    { status := 4, delay := lit "2h DOUBLE UNTIL SUCCESS OR 2 TIMES. ORIGINAL TIMES=3", next := lit "1700003600" } :=
    rfl

end Irods.RepeatTime
