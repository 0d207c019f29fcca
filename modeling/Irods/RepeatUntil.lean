import Irods.DateFormat

/-! Delayed rules that are repeated until some time: the frequency is kept as it is, and its time is converted anew
with every run. -/
namespace Irods.RepeatUntil
open CText RepeatTime RepeatCount DateFormat Except List
open ReplicaStateTable (decimalText readsBack isInt)

/- A time as checkDateFormat documents it: TIME_LEN long, of the characters of its formats. -/
def TIME_LEN : Nat := 32

structure Time where
  text : Text
  chars : ∀ c ∈ text, c ∈ lit "0123456789.:-smhdy"
  short : text.length < TIME_LEN

structure Clock where
  now : Nat → Int
  monotone : Monotone now
  range : ∀ i, 0 ≤ now i ∧ now i < 2^62

/- What a time says: a number, an offset that is added to the time of the call, or the fields of a date. -/
inductive Denoted
  | fixed (v : Int)
  | offset (v : Int)
  | date (fields : Text)
  deriving DecidableEq

section denoted
variable (s : Text)

-- A time that is refused is read as the number at its head.
def Denoted.ofDate (filled : Text) : Denoted := if matchesMask filled then .date (filled.take 19) else .fixed (atoll s)

def Denoted.ofSeconds (v : Int) : Denoted := if '-' ∈ s ∨ ':' ∈ s then .fixed v else .offset v

def Denoted.ofText : Denoted :=
  if isInteger s then .fixed (atoll s)
  else match s.getLast?.bind multiplier with
    | some unit => .ofSeconds s (int32 (atoi s.dropLast*unit))
    | none =>
      if s.length < 19 then
        if 4 ≤ s.length ∧ (s.take 4).all Char.isDigit then .ofDate s (s ++ dateMask.drop s.length)
        else match scanLoop s.length s.reverse with
          | some seconds => .ofSeconds s (int32 seconds)
          | none => .fixed (atoll s)
      else .ofDate s s

end denoted

def untilWords (untilSuccess : Bool) : Text :=
  if untilSuccess then lit "REPEAT UNTIL SUCCESS OR UNTIL " else lit "REPEAT UNTIL "

def untilKeep (untilSuccess : Bool) : Int := if untilSuccess then 1 else 0

section deadline
variable (calendar : Calendar) (time : Time) (d : Nat) (u : TimeUnit)

def deadline (current : Int) : Int := atoll (convertDateFormat calendar time.text current)

def Expires (untilSuccess : Bool) : Prop :=
  ∀ (clock : Clock) (i : Nat), deadline calendar time (clock.now 0) < clock.now i+d*u.seconds →
    (callAt (convertDateFormat calendar) clock.now (frequency (untilWords untilSuccess) d u time.text) i).status = 2

/- The time of a date under the tm_isdst of a call. -/
def reading (fields : Text) (current : Int) : Int := int32 (calendar.mktime (calendar.isdst current) fields)

def Denoted.moment (current : Int) : Denoted → Int
  | .fixed v => v
  | .offset v => v+current
  | .date fields => reading calendar fields current

def Denoted.Kept : Denoted → Prop
  | .fixed _ => True
  | .offset v => v < d*u.seconds
  | .date fields => ∀ first later, 0 ≤ first → first ≤ later → later < 2^62 →
      reading calendar fields first < later+d*u.seconds → reading calendar fields later < later+d*u.seconds

/- The 64-bit sum of a time and the delay is behind a deadline when the sum is. -/
def SumKept : Prop :=
  ∀ current, 0 ≤ current → current < 2^62 → deadline calendar time current < current+d*u.seconds →
    deadline calendar time current < int64 (current+clamp d*u.seconds)

end deadline

variable {calendar : Calendar} {time : Time} {untilSuccess : Bool} {d : Nat} {u : TimeUnit}

theorem timeTail (time : Time) : Tail time.text := by
  have known : ∀ c ∈ lit "0123456789.:-smhdy", isSpace c = false ∧ c ∉ lit "UPF" := eachOf rfl
  constructor
  · refine dropWhile_eq_self_iff.mpr fun some => ?_
    simp [known _ (time.chars _ (getElem_mem some))]
  · exact fun c rare there => (known c (time.chars c there)).2 rare

theorem untilCalled {convertDateFormat current s} (tail : Tail s) :
    getNextRepeatTime convertDateFormat current (frequency (untilWords untilSuccess) d u s) =
      untilTime convertDateFormat current ⟨clamp d,some u.letter,untilWords untilSuccess ++ s⟩ (untilKeep untilSuccess)
        (fun _ _ => frequency (untilWords untilSuccess) d u s) s := by
  have ready : Words (untilWords untilSuccess) := by
    cases untilSuccess <;> exact ⟨rfl,by decide⟩
  unfold getNextRepeatTime
  rw [readFrequency ready]
  extract_lets delay next on
  cases untilSuccess with
  | true =>
    have here : behind delay.directive (lit "REPEAT UNTIL SUCCESS OR UNTIL ") = some s :=
      behindHead tail (lit "REPEAT UNTIL SUCCESS OR UNTIL ")
    dsimp only [on]
    rw [here]
    rfl
  | false =>
    iterate 7 refine (onNone (missing tail rfl)).trans ?_
    have here : behind delay.directive (lit "REPEAT UNTIL ") = some s := behindHead tail (lit "REPEAT UNTIL ")
    dsimp only [on]
    rw [here]
    rfl

theorem untilStatus (now i) :
    (callAt (convertDateFormat calendar) now (frequency (untilWords untilSuccess) d u time.text) i).status =
      if deadline calendar time (now i) < int64 (now i+clamp d*u.seconds) then 2 else untilKeep untilSuccess := by
  have text : tstr time.text = time.text := boundedCopyFits (time.short.trans (by decide))
  have kept : ∀ i, delayAt (convertDateFormat calendar) now (frequency (untilWords untilSuccess) d u time.text) i =
      frequency (untilWords untilSuccess) d u time.text := by
    intro i
    induction i with
    | zero => rfl
    | succ i ih =>
      rw [delayAt,ih,untilCalled (timeTail time)]
      rfl
  rw [callAt,kept,untilCalled (timeTail time),untilTime,text,secondsOf]
  rfl

theorem dashedMask {s rest : Text} (long : 4 < s.length) (masked : matchesMask (s ++ rest) = true) : '-' ∈ s := by
  have place : ('-',s[4]) ∈ dateMask.zip (s ++ rest) := by
    refine mem_iff_getElem?.mpr ⟨4,?_⟩
    rw [getElem?_zip_eq_some,getElem?_append_left long,getElem?_eq_getElem long]
    exact ⟨rfl,rfl⟩
  have same := all_eq_true.mp masked _ place
  replace same : s[4] = '-' := by simpa using same
  exact same ▸ getElem_mem long

theorem intDecimal (v : Int) : atoll (decimalText (int32 v)) = int32 v := atollDecimal (int32Range v)

theorem secondsDeadline {s : Text} {v current : Int} (low : 0 ≤ current) (high : current < 2^62)
    (other : isInteger s = false) :
    atoll (if !isInteger s ∧ '-' ∉ s ∧ ':' ∉ s then decimalText (int64 (atoll (decimalText (int32 v))+current))
      else decimalText (int32 v)) =
      (Denoted.ofSeconds s (int32 v)).moment calendar current := by
  have range := int32Range v
  unfold isInt at range
  unfold Denoted.ofSeconds
  by_cases marked : '-' ∈ s ∨ ':' ∈ s
  · rw [if_pos marked,if_neg (by tauto),intDecimal]
    rfl
  · rw [if_neg marked,if_pos (by simpa [other] using not_or.mp marked),intDecimal,int64Same (by omega) (by omega),atoll,
      (readsBack _).value,clamp]
    show max _ (min _ (int32 v+current)) = int32 v+current
    omega

theorem dateDeadline {s filled : Text} {current : Int} (dashed : matchesMask filled = true → '-' ∈ s) :
    atoll (match fullDate calendar current filled with
      | .error _ => s
      | .ok t => if !isInteger s ∧ '-' ∉ s ∧ ':' ∉ s then decimalText (int64 (atoll t+current)) else t) =
      (Denoted.ofDate s filled).moment calendar current := by
  unfold fullDate Denoted.ofDate
  by_cases masked : matchesMask filled = true
  · have dash := dashed masked
    rw [if_pos masked,if_pos masked]
    show atoll (if _ then _ else _) = _
    rw [if_neg (by tauto)]
    exact intDecimal _
  · rw [if_neg masked,if_neg masked]
    rfl

theorem deadlineDenoted {current : Int} (low : 0 ≤ current) (high : current < 2^62) :
    deadline calendar time current = (Denoted.ofText time.text).moment calendar current := by
  have whole : boundedCopy 199 time.text = time.text := boundedCopyFits (time.short.trans (by decide))
  unfold deadline convertDateFormat Denoted.ofText
  rw [whole]
  unfold checkDateFormat
  by_cases number : isInteger time.text
  · simp [number,Denoted.moment]
  rw [if_neg number,if_neg number]
  rw [Bool.not_eq_true] at number
  cases time.text.getLast?.bind multiplier with
  | some unit => exact secondsDeadline low high number
  | none =>
    dsimp only
    by_cases short : time.text.length < 19
    · rw [if_pos short,if_pos short]
      by_cases year : 4 ≤ time.text.length ∧ (time.text.take 4).all Char.isDigit
      · rw [if_pos year,if_pos year]
        refine dateDeadline fun masked => dashedMask (lt_of_le_of_ne year.1 fun four => ?_) masked
        -- four digits are a number
        rw [four,take_length] at year
        exact absurd year.2 (by rw [← isInteger,number]; decide)
      · rw [if_neg year,if_neg year]
        cases scanLoop time.text.length time.text.reverse with
        | some seconds => exact secondsDeadline low high number
        | none => rfl
    · rw [if_neg short,if_neg short]
      refine dateDeadline fun masked => ?_
      exact @dashedMask _ [] (by omega) (by rwa [append_nil])

theorem denotedInt (s : Text) : ∀ v, Denoted.ofText s = .offset v → isInt v := by
  have seconds : ∀ w v, Denoted.ofSeconds s (int32 w) = .offset v → isInt v := by
    intro w v same
    unfold Denoted.ofSeconds at same
    split at same
    · contradiction
    · exact Denoted.offset.inj same ▸ int32Range w
  have date : ∀ filled v, Denoted.ofDate s filled ≠ .offset v := by
    intro filled v
    unfold Denoted.ofDate
    split <;> simp
  intro v same
  unfold Denoted.ofText at same
  split at same
  · contradiction
  split at same
  · exact seconds _ v same
  split at same
  · split at same
    · exact absurd same (date _ v)
    split at same
    · exact seconds _ v same
    · contradiction
  · exact absurd same (date _ v)

theorem sumSmall (small : d*u.seconds ≤ 2^62) {current : Int} (low : 0 ≤ current) (high : current < 2^62) :
    int64 (current+clamp d*u.seconds) = current+d*u.seconds := by
  have least : d ≤ d*u.seconds := Nat.le_mul_of_pos_right d (letterFacts u).2.2.2
  have whole : clamp d = d := by
    unfold clamp
    omega
  have product : (d : Int)*u.seconds = (d*u.seconds : Nat) := (Nat.cast_mul _ _).symm
  rw [whole,product,int64Same] <;> omega

theorem smallKept (small : d*u.seconds ≤ 2^62) : SumKept calendar time d u := by
  intro current low high late
  rwa [sumSmall small low high]

/- A run at the first time, and runs at the later one. -/
def twice (first later : Int) (low : 0 ≤ first) (order : first ≤ later) (high : later < 2^62) : Clock where
  now i := if i = 0 then first else later
  monotone := monotone_nat_of_le_succ fun i => by split <;> simp [order]
  range i := by split <;> omega

theorem expiresTwice (expires : Expires calendar time d u untilSuccess) {first later : Int} (low : 0 ≤ first)
    (order : first ≤ later) (high : later < 2^62) (late : deadline calendar time first < later+d*u.seconds) :
    deadline calendar time later < int64 (later+clamp d*u.seconds) := by
  have kept : untilKeep untilSuccess ≠ 2 := by cases untilSuccess <;> decide
  have status := expires (twice first later low order high) 1 late
  rw [untilStatus] at status
  by_contra early
  rw [show (twice first later low order high).now 1 = later from rfl,if_neg early] at status
  exact kept status

theorem expiresKept (expires : Expires calendar time d u untilSuccess) :
    (Denoted.ofText time.text).Kept calendar d u := by
  have product : (d : Int)*u.seconds = (d*u.seconds : Nat) := (Nat.cast_mul _ _).symm
  cases denoted : Denoted.ofText time.text with
  | fixed v => trivial
  | offset v =>
    have range := denotedInt _ v denoted
    unfold isInt at range
    by_contra large
    change ¬v < d*u.seconds at large
    -- a second run, one second too late for the deadline of the first
    have late : deadline calendar time 0 < v-d*u.seconds+1+d*u.seconds := by
      rw [deadlineDenoted le_rfl (by decide),denoted]
      show v+0 < _
      omega
    have passed := expiresTwice expires le_rfl (by omega) (by omega) late
    rw [deadlineDenoted (by omega) (by omega),denoted,sumSmall (by omega) (by omega) (by omega)] at passed
    change v+_ < _ at passed
    omega
  | date fields =>
    intro first later low order high late
    have passed := expiresTwice expires low order high (by
      rw [deadlineDenoted low (by omega),denoted]
      exact late)
    rw [deadlineDenoted (by omega) high,denoted] at passed
    change reading calendar fields later < _ at passed
    have range := int32Range (calendar.mktime (calendar.isdst later) fields)
    unfold isInt at range
    by_contra early
    rw [sumSmall (by unfold reading at early; omega) (by omega) high] at passed
    exact early passed

-- The deadline of a later run is passed if that of the first one is.
theorem keptLater (kept : (Denoted.ofText time.text).Kept calendar d u) (clock : Clock) (i)
    (late : deadline calendar time (clock.now 0) < clock.now i+d*u.seconds) :
    deadline calendar time (clock.now i) < clock.now i+d*u.seconds := by
  obtain ⟨low,high⟩ := clock.range i
  obtain ⟨start,first⟩ := clock.range 0
  rw [deadlineDenoted start first] at late
  rw [deadlineDenoted low high]
  cases denoted : Denoted.ofText time.text with
  | fixed v => rwa [denoted] at late
  | offset v =>
    rw [denoted] at kept
    change v < _ at kept
    show v+_ < _
    omega
  | date fields =>
    rw [denoted] at kept late
    exact kept _ _ start (clock.monotone (Nat.zero_le i)) high late

def twoHours : Time := ⟨lit "2h",eachOf (by decide),by decide⟩

end Irods.RepeatUntil
