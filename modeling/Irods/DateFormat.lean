import Irods.RepeatCount

/-! checkDateFormat, convertDateFormat and getOffsetTimeStr of rcMisc.cpp. The calendar of the host is a
parameter. -/
namespace Irods.DateFormat
open CText RepeatTime RepeatCount List
open ReplicaStateTable (decimalText readsBack isInt digitChars)

def DATE_FORMAT_ERR : Int := -1100000
def INPUT_ARG_NOT_WELL_FORMED_ERR : Int := -1084000
def isInteger (s : Text) : Bool := s.all Char.isDigit

def multiplier : Char → Option Int
  | 's' => some 1
  | 'm' => some 60
  | 'h' => some 3600
  | 'd' => some (3600*24)
  | 'y' => some (3600*24*365)
  | _ => none

inductive Place
  | digit (weight : Int)
  | mark (c : Char)

def places : List Place :=
  [.digit 1,.digit 10,.mark ':',.digit 60,.digit 600,.mark ':',.digit 3600,.digit 36000,.mark '.',.digit 86400,
    .digit 864000]

/- mypos is not moved behind the last place. -/
def scanRound : List Place → Text → Option (Int × Text)
  | [],r => some (0,r)
  | .digit _::_,[] => some (0,[])
  | .digit w::ps,c::r =>
    if !c.isDigit then none
    else if ps.isEmpty then some (w*(c.toNat-48 : Nat),c::r)
    else (scanRound ps r).map (fun (v,rest) => (w*(c.toNat-48 : Nat)+v,rest))
  | .mark _::ps,[] => scanRound ps []
  | .mark x::ps,c::r => if c = x then scanRound ps r else none

def scanLoop : Nat → Text → Option Int
  | _,[] => some 0
  | 0,_ => some 0
  | fuel+1,r => (scanRound places r).bind (fun (v,rest) => (scanLoop fuel rest).map (v+·))

/- The time zone of the host: tm_isdst as localtime has it at a time, and mktime of that flag and the fields of a
date. -/
structure Calendar where
  isdst : Int → Int
  mktime : Int → Text → Int

section calendar
variable (calendar : Calendar) (now : Int)

def dateMask : Text := lit "0000-00-00.00:00:00"

/- localToUnixTime fills the fields of the date into the tm of the present time, whose tm_isdst stays. -/
def localToUnixTime (s : Text) : Text := decimalText (int32 (calendar.mktime (calendar.isdst now) (s.take 19)))

def matchesMask (s : Text) : Bool := (dateMask.zip s).all (fun (m,c) => if m = '0' then c.isDigit else c = m)

def fullDate (s : Text) : Except Int Text :=
  if matchesMask s then .ok (localToUnixTime calendar now s) else .error DATE_FORMAT_ERR

def checkDateFormat (s : Text) : Except Int Text :=
  if isInteger s then .ok s
  else match s.getLast?.bind multiplier with
    | some unit => .ok (decimalText (int32 (atoi s.dropLast*unit)))
    | none =>
      if s.length < 19 then
        if 4 ≤ s.length ∧ (s.take 4).all Char.isDigit then fullDate calendar now (s ++ dateMask.drop s.length)
        else match scanLoop s.length s.reverse with
          | some offset => .ok (decimalText (int32 offset))
          | none => .error DATE_FORMAT_ERR
      else fullDate calendar now s

/- What is left in s, also when the check fails. -/
def convertDateFormat (s : Text) (current : Int) : Text :=
  match checkDateFormat calendar current (boundedCopy 199 s) with
  | .error _ => s
  | .ok t => if !isInteger s ∧ '-' ∉ s ∧ ':' ∉ s then decimalText (int64 (atoll t+current)) else t

end calendar

def getOffsetTimeStr (now : Int) (offSet : Text) : Except Int Text :=
  let trimmed := offSet.dropWhile isSpace
  let number := trimmed.takeWhile (fun c => c.isDigit || c == '.')
  let u := (trimmed.drop number.length).head?
  let mult := match u with
    | none => 1
    | some c => (multiplier c).getD 1
  if number = [] ∨ u.any (fun c => (multiplier c).isNone && !isSpace c) ∨ ('.' ∈ trimmed ∧ mult > 1)
  then .error INPUT_ARG_NOT_WELL_FORMED_ERR
  else .ok (decimalText (now+atoll trimmed*max 1 mult))

structure Number where
  text : Text
  some : text ≠ []
  all : ∀ c ∈ text, c.isDigit = true
  small : digits 0 text < 2^31

def Number.value (n : Number) : Nat := digits 0 n.text

structure Pair where
  tens : Fin 10
  ones : Fin 10

def Pair.text (p : Pair) : Text := [p.tens.val.digitChar,p.ones.val.digitChar]
def Pair.value (p : Pair) : Nat := 10*p.tens.val+p.ones.val

inductive Increment
  | number (n : Number)
  | unit (n : Number) (u : TimeUnit)
  | ss (s : Pair)
  | mmss (m s : Pair)
  | hhmmss (h m s : Pair)
  | ddhhmmss (d h m s : Pair)

def Increment.text : Increment → Text
  | number n => n.text
  | unit n u => n.text ++ [u.letter]
  | ss s => s.text
  | mmss m s => m.text ++ ':'::s.text
  | hhmmss h m s => h.text ++ ':'::(m.text ++ ':'::s.text)
  | ddhhmmss d h m s => d.text ++ '.'::(h.text ++ ':'::(m.text ++ ':'::s.text))

def Increment.seconds : Increment → Nat
  | number n => n.value
  | unit n u => n.value*u.seconds
  | ss s => s.value
  | mmss m s => 60*m.value+s.value
  | hhmmss h m s => 3600*h.value+60*m.value+s.value
  | ddhhmmss d h m s => 86400*d.value+3600*h.value+60*m.value+s.value

structure Exact (calendar : Calendar) (now : Int) (i : Increment) : Prop where
  checked : ∃ t, checkDateFormat calendar now i.text = .ok t ∧ atoll t = i.seconds
  agrees : ∀ n u, i = .unit n u → ∃ t, checkDateFormat calendar now i.text = .ok t ∧
    getOffsetTimeStr now i.text = .ok (decimalText (now+atoll t))

def Increment.Fits : Increment → Prop
  | unit n u => n.value*u.seconds < 2^31
  | ddhhmmss d _ _ _ => d.tens = 0
  | _ => True

theorem atollDecimal {v} (fits : isInt v) : atoll (decimalText v) = v := by
  unfold isInt at fits
  rw [atoll,(readsBack v).value,clamp]
  omega

theorem digitsStop {l} (all : ∀ c ∈ l, c.isDigit = true) {c} (stop : c.isDigit = false) (acc) :
    digits acc (l ++ [c]) = digits acc l := by
  induction l generalizing acc with
  | nil => simp [digits,stop]
  | cons d l ih =>
    obtain ⟨first,rest⟩ := forall_mem_cons.mp all
    rw [cons_append,digits,digits,if_pos first,if_pos first,ih rest]

theorem leadingDigits {c} (digit : c.isDigit = true) (rest : Text) :
    (c::rest).dropWhile isSpace = c::rest ∧ leadingInteger (c::rest) = digits 0 (c::rest) := by
  obtain ⟨_,_,_⟩ := digitChars digit
  unfold leadingInteger
  split <;> simp_all

theorem smallRead {t} {n : Nat} (read : leadingInteger t = n) (small : n < 2^31) : atoll t = n ∧ atoi t = n := by
  have long : atoll t = n := by
    rw [atoll,clamp]
    omega
  exact ⟨long,by rw [atoi,long]; exact int32Same.mpr small⟩

theorem numberRead (n : Number) : atoll n.text = n.value ∧ atoi n.text = n.value := by
  obtain ⟨c,rest,shape⟩ := exists_cons_of_ne_nil n.some
  refine smallRead ?_ n.small
  rw [Number.value,shape]
  exact (leadingDigits (n.all c (shape ▸ mem_cons_self)) rest).2

theorem numberChecked (calendar now) {s} (all : ∀ c ∈ s, c.isDigit = true) : checkDateFormat calendar now s = .ok s :=
  if_pos (all_eq_true.mpr all)

theorem letterFacts (u : TimeUnit) : u.letter.isDigit = false ∧ multiplier u.letter = some (u.seconds : Int) ∧
    u.letter ≠ '.' ∧ 1 ≤ u.seconds := by
  cases u <;> decide

theorem unitChecked (calendar now) (n : Number) (u : TimeUnit) :
    checkDateFormat calendar now (n.text ++ [u.letter]) = .ok (decimalText (int32 (n.value*u.seconds : Nat))) := by
  have other : isInteger (n.text ++ [u.letter]) = false := by simp [isInteger,letterFacts u]
  unfold checkDateFormat
  rw [other,List.getLast?_concat,dropLast_concat,Option.bind_some,(letterFacts u).2.1,(numberRead n).2]
  simp

theorem unitOffset (now) (n : Number) (u : TimeUnit) :
    getOffsetTimeStr now (n.text ++ [u.letter]) = .ok (decimalText (now+(n.value*u.seconds : Nat))) := by
  obtain ⟨stop,unit,dot,_⟩ := letterFacts u
  obtain ⟨c,rest,shape⟩ := exists_cons_of_ne_nil n.some
  have head := leadingDigits (n.all c (shape ▸ mem_cons_self)) (rest ++ [u.letter])
  rw [← cons_append,← shape] at head
  have value : atoll (n.text ++ [u.letter]) = n.value :=
    (smallRead (head.2.trans (congrArg _ (digitsStop n.all stop 0))) n.small).1
  have number : (n.text ++ [u.letter]).takeWhile fun c => c.isDigit || c == '.' = n.text := by
    rw [takeWhile_append_of_pos fun c mem => by simp [n.all c mem]]
    simp [stop,dot]
  have whole : '.' ∉ n.text ++ [u.letter] := by
    rw [mem_append,mem_singleton,not_or]
    exact ⟨fun mem => absurd (n.all '.' mem) (by decide),Ne.symm dot⟩
  unfold getOffsetTimeStr
  simp only [head.1,number,drop_left,List.head?_cons,unit,Option.getD_some,value]
  rw [if_neg]
  · rw [max_eq_right (by omega),Nat.cast_mul]
  · simp [n.some,unit,whole]

theorem offsetChecked (calendar now) {s v} (mark : (s.take 4).all Char.isDigit = false) (short : s.length < 19)
    {c} (last : s.getLast? = some c) (digit : c.isDigit = true) (scanned : scanLoop s.length s.reverse = some v) :
    checkDateFormat calendar now s = .ok (decimalText (int32 v)) := by
  have other : isInteger s = false := by
    rw [all_eq_false] at mark
    obtain ⟨x,mem,bad⟩ := mark
    exact all_eq_false.mpr ⟨x,mem_of_mem_take mem,bad⟩
  have none : multiplier c = none := by
    unfold multiplier
    split <;> first | rfl | exact absurd digit (by decide)
  unfold checkDateFormat
  rw [other,last,Option.bind_some,none,scanned]
  simp [short,mark]

theorem pairFacts (d : Fin 10) : d.val.digitChar.isDigit = true ∧ d.val.digitChar.toNat-48 = d.val := by
  revert d
  decide

/- The tens of the days are read once more, as seconds. -/
theorem pairsChecked (calendar now d h m s) :
    checkDateFormat calendar now (Increment.mmss m s).text = .ok (decimalText (int32 (60*m.value+s.value : Nat))) ∧
    checkDateFormat calendar now
      (Increment.hhmmss h m s).text = .ok (decimalText (int32 (3600*h.value+60*m.value+s.value : Nat))) ∧
    checkDateFormat calendar now (Increment.ddhhmmss d h m s).text =
      .ok (decimalText (int32 (86400*d.value+3600*h.value+60*m.value+s.value+d.tens.val : Nat))) := by
  refine ⟨?_,?_,?_⟩ <;> refine offsetChecked calendar now ?_ ?_ rfl (pairFacts s.ones).1 ?_ <;> simp [Increment.text,
      Pair.text] <;>
    simp [scanLoop,scanRound,places,pairFacts,Pair.value] <;> omega

theorem checkedValue {calendar now} {s} {v : Nat}
    (checked : checkDateFormat calendar now s = .ok (decimalText (int32 v))) (n : Nat) :
    (∃ t, checkDateFormat calendar now s = .ok t ∧ atoll t = n) ↔ int32 v = n := by
  rw [checked]
  simp [atollDecimal (int32Range v)]

theorem pairBound (p : Pair) : p.value < 100 ∧ p.tens.val < 10 := by
  unfold Pair.value
  omega

theorem exactFits (calendar : Calendar) (now : Int) (i : Increment) : Exact calendar now i ↔ i.Fits := by
  cases i with
  | number n => exact iff_of_true ⟨⟨_,numberChecked calendar now n.all,(numberRead n).1⟩,by simp⟩ trivial
  | unit n u =>
    have value := checkedValue (unitChecked calendar now n u) (n.value*u.seconds)
    rw [int32Same] at value
    constructor
    · exact fun exact => value.mp exact.checked
    intro fits
    obtain ⟨t,checked,offset⟩ := value.mpr fits
    refine ⟨⟨t,checked,offset⟩,fun _ _ _ => ⟨t,checked,?_⟩⟩
    rw [offset]
    exact unitOffset now n u
  | ss s =>
    have all : ∀ c ∈ s.text, c.isDigit = true := by simp [Pair.text]
    have read : leadingInteger s.text = s.value :=
      (leadingDigits (pairFacts s.tens).1 _).2.trans (by simp [digits,pairFacts,Pair.value])
    have range := pairBound s
    exact iff_of_true ⟨⟨s.text,numberChecked calendar now all,(smallRead read (by omega)).1⟩,by simp⟩ trivial
  | mmss m s =>
    have ranges := And.intro (pairBound m) (pairBound s)
    exact iff_of_true ⟨(checkedValue (pairsChecked calendar now m m m s).1 _).mpr (int32Same.mpr (by omega)),
        by simp⟩ trivial
  | hhmmss h m s =>
    have ranges := And.intro (pairBound h) (And.intro (pairBound m) (pairBound s))
    exact iff_of_true ⟨(checkedValue (pairsChecked calendar now h h m s).2.1 _).mpr (int32Same.mpr (by omega)),
        by simp⟩ trivial
  | ddhhmmss d h m s =>
    have ranges := And.intro (And.intro (pairBound d) (pairBound h)) (And.intro (pairBound m) (pairBound s))
    have value := checkedValue (pairsChecked calendar now d h m s).2.2 (86400*d.value+3600*h.value+60*m.value+s.value)
    rw [int32Same.mpr (by omega)] at value
    have tens : d.tens = 0 ↔ d.tens.val = 0 := Fin.ext_iff
    constructor
    · intro exact
      have same := value.mp exact.checked
      exact tens.mpr (by omega)
    · intro fits
      have none := tens.mp fits
      exact ⟨value.mpr (by omega),by simp⟩

theorem tenDays : ¬Exact ⟨fun _ => 0,fun _ _ => 0⟩ 0 (.ddhhmmss ⟨1,0⟩ ⟨0,0⟩ ⟨0,0⟩ ⟨0,0⟩) := by
  rintro ⟨⟨t,checked,value⟩,-⟩
  cases (show checkDateFormat ⟨fun _ => 0,
      fun _ _ => 0⟩ 0 (lit "10.00:00:00") = .ok (lit "864001") by decide +kernel).symm.trans checked
  exact absurd value (by decide)

end Irods.DateFormat
