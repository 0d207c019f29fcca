import Irods.RepeatTime

/-! Runs of getNextRepeatTime: which directives set the next time, and how a number of times is counted
down in a frequency that every run writes anew. -/
namespace Irods.RepeatCount
open CText RepeatTime List Option Int Nat Delay Char
open ReplicaStateTable (decimalText decimalDigits digitsHead digitChars readsBack isInt)

variable {convertDateFormat : Text → Int → Text} {current : Int} {directive needle delay s : Text}

theorem behindNone : behind directive needle = none ↔ ¬needle <:+: directive := by
  rw [← strstrSome,behind,map_eq_none_iff,not_isSome_iff_eq_none]

def Known (directive : Text) : Prop := directive = [] ∨ lit "REPEAT " <:+: directive ∨ lit "DOUBLE " <:+: directive

instance : Decidable (Known directive) := by unfold Known; infer_instance

/- The number and the unit as they are written; the code reads them into 64 bits. -/
def number (delay : Text) : Nat := digits 0 (delay.takeWhile Char.isDigit)

def denoted (delay : Text) : Nat := number delay*unitSeconds (delay.dropWhile Char.isDigit).head?

def Timed (convertDateFormat : Text → Int → Text) (current : Int) (delay : Text) : Prop :=
  let r := getNextRepeatTime convertDateFormat current delay
  r.status ∈ [0,1,3,4] → r.next = decimalText (current+denoted delay)

instance : Decidable (Timed convertDateFormat current delay) := by unfold Timed; infer_instance

/- The number and the time it leads to are 64-bit integers. -/
structure Representable (current : Int) (delay : Text) : Prop where
  number : number delay < 2^63
  time : current+denoted delay < 2^63

section chain
variable {found : Text → Repeat} {otherwise : Repeat}

theorem decimalSome {v} : decimalText v ≠ [] := by
  unfold decimalText
  split <;> simp

theorem onNone (missing : ¬needle <:+: directive) :
    (match behind directive needle with | some s => found s | none => otherwise) = otherwise := by
  rw [behindNone.mpr missing]

theorem onNext {t} (here : ∀ s, (found s).next = t) (later : ¬needle <:+: directive → otherwise.next = t) :
    (match behind directive needle with | some s => found s | none => otherwise).next = t := by
  by_cases there : needle <:+: directive
  · obtain ⟨s,rest⟩ := ne_none_iff_exists'.mp (mt behindNone.mp (not_not_intro there))
    rw [rest]
    exact here s
  · rw [onNone there]
    exact later there

end chain

theorem knownNext (known : Known (read delay).directive) :
    (getNextRepeatTime convertDateFormat current delay).next = decimalText (nextTime current (read delay)) := by
  unfold getNextRepeatTime
  extract_lets d next on
  split
  · rfl
  rename_i given
  split
  · rfl
  iterate 9 refine onNext (fun _ => rfl) fun _ => ?_
  refine onNext (fun _ => rfl) fun single => onNext (fun _ => rfl) fun double => ?_
  rcases known with empty | found | found
  · exact absurd (.inl empty) given
  · contradiction
  · contradiction

theorem unknownNext (unknown : ¬Known (read delay).directive) :
    getNextRepeatTime convertDateFormat current delay = { status := 0, delay, next := [] } := by
  -- all the words looked for start with one of the two
  have missing : ∀ words, lit "REPEAT " <+: words ∨ lit "DOUBLE " <+: words → ¬words <:+: (read delay).directive :=
    fun words start there => unknown (.inr (start.imp (·.isInfix.trans there) (·.isInfix.trans there)))
  have other : ∀ words, lit "REPEAT " <+: words ∨ lit "DOUBLE " <+: words → (read delay).directive ≠ words :=
    fun words start same => missing words start (same ▸ infix_rfl)
  unfold getNextRepeatTime
  rw [if_neg (not_or.mpr ⟨fun empty => unknown (.inl empty),other _ (by decide)⟩),if_neg (other _ (by decide))]
  iterate 11 refine (onNone (missing _ (by decide))).trans ?_
  rfl

theorem countRead (delay) : (read delay).count = clamp (number delay) := by
  have signless : leadingInteger (delay.takeWhile isDigit) = number delay := by
    unfold number
    cases shape : delay.takeWhile isDigit with
    | nil => rfl
    | cons c rest =>
      have digit : c.isDigit = true := mem_takeWhile_imp (shape ▸ mem_cons_self)
      obtain ⟨_,_,_⟩ := digitChars digit
      unfold leadingInteger
      split <;> simp_all
  exact congrArg clamp signless

theorem decimalInj {v w} (same : decimalText v = decimalText w) : v = w := by
  rw [← (readsBack v).value,same,(readsBack w).value]

theorem nextRepresentable (low : -2^63 ≤ current) (high : current < 2^63) :
    nextTime current (read delay) = current+denoted delay ↔ Representable current delay := by
  have sum : nextTime current (read delay) =
      int64 (clamp (number delay)*unitSeconds (read delay).unit+current) := by
    rw [nextTime,seconds,int64Twice,countRead]
  have shape : (denoted delay : Int) = number delay*unitSeconds (read delay).unit := Nat.cast_mul _ _
  have unit : unitSeconds (read delay).unit = 1 ∨ 60 ≤ unitSeconds (read delay).unit := by
    unfold unitSeconds
    split <;> decide
  have least : (number delay : Int) ≤ denoted delay := by
    rw [shape]
    exact le_mul_of_one_le_right (by omega) (by omega)
  constructor
  · intro same
    have range := int64Range (clamp (number delay)*unitSeconds (read delay).unit+current)
    rw [← sum,same] at range
    refine ⟨?_,range.2⟩
    by_contra large
    -- a number that was cut is too small for the sum
    have cut : clamp (number delay) = 2^63-1 := by
      unfold clamp
      omega
    rw [sum,cut] at same
    rcases unit with one | more
    · rw [one] at same shape
      rw [int64Same] at same <;> omega
    · have most : (number delay : Int)*60 ≤ denoted delay := by
        rw [shape]
        exact mul_le_mul_of_nonneg_left (by omega) (by omega)
      omega
  · intro ⟨number,time⟩
    have whole : clamp (RepeatCount.number delay) = RepeatCount.number delay := by
      unfold clamp
      omega
    rw [sum,whole,← shape,int64Same] <;> omega

theorem timedKnown (convertDateFormat : Text → Int → Text) (current : Int) (delay : Text)
    (low : -2^63 ≤ current) (high : current < 2^63) :
    Timed convertDateFormat current delay ↔ (getNextRepeatTime convertDateFormat current delay).status = 2 ∨
      Known (Delay.read delay).directive ∧ Representable current delay := by
  rw [← nextRepresentable low high]
  constructor
  · intro timed
    by_cases ended : (getNextRepeatTime convertDateFormat current delay).status = 2
    · exact .inl ended
    have same := timed (by simpa [ended] using repeatKnown convertDateFormat current delay)
    refine .inr ?_
    by_cases known : Known (read delay).directive
    · exact ⟨known,decimalInj ((knownNext known).symm.trans same)⟩
    · rw [unknownNext known] at same
      exact absurd same.symm decimalSome
  · rintro (ended | ⟨known,same⟩) continues
    · simp [ended] at continues
    · rw [knownNext known,same]

theorem timedDouble : -2^63 ≤ (1700000000 : Int) ∧ (1700000000 : Int) < 2^63 ∧
    Timed (fun s _ => s) 1700000000 (lit "2h DOUBLE 3 TIMES") := by
  refine ⟨by decide,by decide,(timedKnown _ _ _ (by decide) (by decide)).mpr (.inr ⟨by decide,?_,?_⟩)⟩ <;> decide

theorem unknownDirective : ¬Timed (fun s _ => s) 1700000000 (lit "1h FOO") := by decide

inductive TimeUnit
  | second | minute | hour | day | year

def TimeUnit.letter : TimeUnit → Char
  | second => 's' | minute => 'm' | hour => 'h' | day => 'd' | year => 'y'

def TimeUnit.seconds : TimeUnit → Nat
  | second => 1 | minute => 60 | hour => 3600 | day => 3600*24 | year => 3600*24*365

def frequency (words : Text) (c : Nat) (u : TimeUnit) (s : Text) : Text :=
  decimalText c ++ (u.letter:: ' '::(words ++ s))

structure Words (words : Text) : Prop where
  solid : words.head?.any (!isSpace ·) = true
  finite : 'F' ∉ words

structure Tail (s : Text) : Prop where
  solid : s.dropWhile isSpace = s
  plain : ∀ c ∈ lit "UPF", c ∉ s

variable {w : Text} {u : TimeUnit} {c : Nat}

theorem eachOf {t : Text} {P} [DecidablePred P] (all : t.all P = true) : ∀ c ∈ t, P c :=
  fun c mem => of_decide_eq_true (all_eq_true.mp all c mem)

theorem decimalNat (n : Nat) : decimalText n = toDigits 10 n := if_neg (by omega)

theorem decimalAll (n : Nat) : ∀ x ∈ decimalText n, x.isDigit = true := decimalNat n ▸ (decimalDigits n).1

theorem readFrequency (ready : Words w) (s) :
    Delay.read (frequency w c u s) = ⟨clamp c,some u.letter,w ++ s⟩ := by
  have stop : u.letter.isDigit = false := by cases u <;> rfl
  have ends : ∀ a, (u.letter::a).takeWhile isDigit = [] ∧ (u.letter::a).dropWhile isDigit = u.letter::a := by
    simp [stop]
  have solid : (w ++ s).dropWhile isSpace = w ++ s := by
    cases w with
    | nil => exact absurd ready.solid (by simp)
    | cons x _ => exact dropWhile_cons_of_neg (by simpa using ready.solid)
  unfold Delay.read frequency
  rw [takeWhile_append_of_pos (decimalAll c),dropWhile_append_of_pos (decimalAll c),(ends _).1,(ends _).2]
  have number : atoll (decimalText c ++ []) = clamp c := by rw [append_nil,atoll,(readsBack c).value]
  rw [number]
  exact congrArg _ ((dropWhile_cons_of_pos rfl).trans solid)

theorem missing (tail : Tail s) (more : (lit "UPF").any fun x => w.count x < needle.count x = true) :
    ¬needle <:+: w ++ s := by
  obtain ⟨x,rare,more⟩ := any_eq_true.mp more
  have fewer := of_decide_eq_true more
  intro there
  have most := there.sublist.count_le x
  rw [count_append,count_eq_zero_of_not_mem (tail.plain x rare)] at most
  omega

theorem behindHead (tail : Tail s) (w) : behind (w ++ s) w = some s := by
  have first : strstr (w ++ s) w = some 0 := strstrFirst.mpr ⟨zero_le _,prefix_append _ _,by simp⟩
  rw [behind,first,map_some,zero_add,drop_left,tail.solid]

theorem bounded (ready : Words w) (tail : Tail s) : w ++ s ≠ [] ∧ ∀ ever, 'F' ∈ ever → w ++ s ≠ ever := by
  constructor
  · intro empty
    exact absurd ready.solid (by simp [(append_eq_nil_iff.mp empty).1])
  · rintro _ there rfl
    exact (mem_append.mp there).elim ready.finite (tail.plain 'F' (by decide))

structure Form where
  double : Bool
  untilSuccess : Bool

def Form.words (f : Form) : Text :=
  (if f.double then lit "DOUBLE " else lit "REPEAT ") ++ if f.untilSuccess then lit "UNTIL SUCCESS OR " else []

def Form.factor (f : Form) : Nat := if f.double then 2 else 1
def Form.keep (f : Form) : Int := if f.untilSuccess then 4 else 3

variable {f : Form}

theorem formReady : Words f.words := by
  obtain ⟨_ | _,_ | _⟩ := f <;> exact ⟨rfl,by decide⟩

theorem counted (small : c < 2^63) (tail : Tail s) :
    getNextRepeatTime convertDateFormat current (frequency f.words c u s) =
      timesLeft current ⟨c,some u.letter,f.words ++ s⟩ f.words (c*f.factor : Nat) f.keep s := by
  obtain ⟨full,ends⟩ := bounded formReady tail
  unfold getNextRepeatTime
  have whole : clamp c = c := by
    unfold clamp
    omega
  rw [readFrequency formReady,whole]
  extract_lets d next on
  rw [if_neg (not_or.mpr ⟨full,ends _ (by decide)⟩),if_neg (ends _ (by decide))]
  have once : (c : Int) = (c*1 : Nat) := by omega
  have twice : (c : Int)*2 = (c*2 : Nat) := by omega
  obtain ⟨_ | _,_ | _⟩ := f
  · iterate 9 refine (onNone (missing tail rfl)).trans ?_
    have here : behind d.directive (lit "REPEAT ") = some s := behindHead tail (lit "REPEAT ")
    dsimp only [on]
    rw [here]
    exact congrArg (timesLeft current d _ · 3 s) once
  · iterate 2 refine (onNone (missing tail rfl)).trans ?_
    have here : behind d.directive (lit "REPEAT UNTIL SUCCESS OR ") = some s :=
      behindHead tail (lit "REPEAT UNTIL SUCCESS OR ")
    dsimp only [on]
    rw [here]
    exact congrArg (timesLeft current d _ · 4 s) once
  · iterate 10 refine (onNone (missing tail rfl)).trans ?_
    have here : behind d.directive (lit "DOUBLE ") = some s := behindHead tail (lit "DOUBLE ")
    dsimp only [on]
    rw [here]
    exact congrArg (timesLeft current d _ · 3 s) twice
  · iterate 3 refine (onNone (missing tail rfl)).trans ?_
    have here : behind d.directive (lit "DOUBLE UNTIL SUCCESS OR ") = some s :=
      behindHead tail (lit "DOUBLE UNTIL SUCCESS OR ")
    dsimp only [on]
    rw [here]
    exact congrArg (timesLeft current d _ · 4 s) twice

def given (n : Nat) : Text := decimalText n ++ lit " TIMES"

def recorded (original : Int) : Text := lit " TIMES. ORIGINAL TIMES=" ++ decimalText original

def left (m : Nat) (original : Int) : Text := decimalText m ++ recorded original

def times (n : Nat) : Int := atoi ((tstr (given n)).takeWhile Char.isDigit)

/- A call with m runs to come, this one included. -/
def round (now : Int) (f : Form) (u : TimeUnit) (c m : Nat) (original : Int) : Repeat where
  status := if m ≤ 1 then 2 else f.keep
  delay := frequency f.words (c*f.factor) u (left (m-1) original)
  next := decimalText (int64 (now+c*u.seconds))

theorem foreign (v : Int) {x} (letter : x.isDigit = false) (sign : x ≠ '-') : x ∉ decimalText v := by
  have none : x ∉ toDigits 10 v.natAbs := by
    intro there
    simp [(decimalDigits v.natAbs).1 x there] at letter
  unfold decimalText
  split
  · exact not_mem_cons_of_ne_of_not_mem sign none
  · exact none

theorem rareForeign (v : Int) : ∀ x ∈ lit "UPF", x ∉ decimalText v := by
  have letters : ∀ x ∈ lit "UPF", x.isDigit = false ∧ x ≠ '-' := eachOf rfl
  exact fun x rare => foreign v (letters x rare).1 (letters x rare).2

theorem countTail (n : Nat) {tail} (plain : ∀ x ∈ lit "UPF", x ∉ tail) : Tail (decimalText n ++ tail) := by
  constructor
  · obtain ⟨x,rest,shape,digit⟩ := digitsHead n
    rw [decimalNat,shape,cons_append,dropWhile_cons_of_neg (by simp [(digitChars digit).1])]
  intro x rare there
  rcases mem_append.mp there with number | rest
  · exact rareForeign n x rare number
  · exact plain x rare rest

theorem secondsOf (v a) : nextTime current ⟨v,some u.letter,a⟩ = int64 (current+v*u.seconds) := by
  have unit : unitSeconds (some u.letter) = u.seconds := by cases u <;> rfl
  rw [nextTime,seconds,int64Twice,unit,add_comm]

theorem writtenFrequency (small : c < 2^63) (v a) :
    written c ⟨v,some u.letter,a⟩ (f.words ++ s) = frequency f.words c u s := by
  rw [written,int64Same (by omega) (by omega)]
  simp [frequency,lit]

variable {n : Nat}

theorem numberRead (small : n < 2^32) (tail) (short : tail.length ≤ 100) :
    tstr (decimalText n ++ tail) = decimalText n ++ tail := by
  have width : (toDigits 10 n).length ≤ 10 := (length_toDigits_le_iff (by decide) (by decide)).mpr (by omega)
  refine boundedCopyFits ?_
  rw [decimalNat,length_append]
  omega

theorem atoiDecimal (small : n < 2^32) : atoi (decimalText n) = int32 n := by
  rw [atoi,atoll,(readsBack n).value,clamp,int32]
  congr 1
  omega

theorem int32Range (v) : isInt (int32 v) := by
  have low := le_bmod (x := v) (m := 2^32) (by decide)
  have high := bmod_lt (x := v) (m := 2^32) (by decide)
  unfold int32 isInt
  omega

theorem int32Same {n : Nat} : int32 n = n ↔ n < 2^31 := by
  constructor
  · intro _
    have range := int32Range n
    rw [isInt] at range
    omega
  · exact fun small => bmod_eq_of_le (by omega) (by omega)

-- What is subtracted from an int and added again is gone.
theorem int32Back (v : Int) (fits : isInt v) : int32 (int32 (v-1)+1) = v := by
  unfold isInt at fits
  unfold int32
  rw [bmod_add_bmod,sub_add_cancel]
  exact bmod_eq_of_le (by omega) (by omega)

variable {a : Text} {m : Nat} {original : Int}

theorem timesLeftRound (positive : 1 ≤ m) (small : c*f.factor < 2^63)
    (number : int32 (atoi ((tstr s).takeWhile isDigit)-1) = (m-1 : Nat))
    (kept : (if (strstr (((tstr s).dropWhile isDigit).drop 1) (lit "ORIGINAL TIMES")).isSome
      then lit " " ++ ((tstr s).dropWhile isDigit).drop 1
      else lit " TIMES. ORIGINAL TIMES=" ++ decimalText (int32 ((m-1 : Nat)+1))) = recorded original) :
    timesLeft current ⟨c,some u.letter,a⟩ f.words (c*f.factor : Nat) f.keep s = round current f u c m original := by
  have last : ((m-1 : Nat) : Int) ≤ 0 ↔ m ≤ 1 := by omega
  unfold timesLeft
  simp only [number,kept,last,secondsOf,append_assoc,writtenFrequency small]
  rfl

theorem recordedShort (fits : isInt original) : (recorded original).length ≤ 100 := by
  have digits : (toDigits 10 original.natAbs).length ≤ 10 :=
    (length_toDigits_le_iff (by decide) (by decide)).mpr (by unfold isInt at fits; omega)
  have width : (decimalText original).length ≤ 11 := by
    unfold decimalText
    split
    · exact Nat.succ_le_succ digits
    · omega
  rw [recorded,length_append]
  exact (Nat.add_le_add_left width _).trans (by decide)

theorem leftRound (positive : 1 ≤ m) (small : m < 2^31) (fits : isInt original) (count : c*f.factor < 2^63) :
    timesLeft current ⟨c,some u.letter,a⟩ f.words (c*f.factor : Nat) f.keep (left m original) =
      round current f u c m original := by
  have marked : lit "ORIGINAL TIMES" <:+: lit "TIMES. ORIGINAL TIMES=" ++ decimalText original :=
    (by decide : lit "ORIGINAL TIMES" <:+: lit "TIMES. ORIGINAL TIMES=").trans (prefix_append _ _).isInfix
  have whole : tstr (left m original) = left m original := numberRead (by omega) _ (recordedShort fits)
  have number : (left m original).takeWhile isDigit = decimalText m := by
    rw [left,takeWhile_append_of_pos (decimalAll m)]
    exact append_nil _
  have rest : (left m original).dropWhile isDigit = recorded original := dropWhile_append_of_pos (decimalAll m)
  refine timesLeftRound positive count ?_ ?_
  · have one : (m : Int)-1 = (m-1 : Nat) := by omega
    rw [whole,number,atoiDecimal (by omega),int32Same.mpr small,one,int32Same.mpr (by omega)]
  · rw [whole,rest]
    exact if_pos (strstrSome.mpr marked)

theorem timesInt (n) : isInt (times n) := by
  have range := int32Range (atoll ((tstr (given n)).takeWhile isDigit))
  exact range

theorem givenRound (positive : 1 ≤ m) (number : int32 (times n-1) = (m-1 : Nat)) (count : c*f.factor < 2^63) :
    timesLeft current ⟨c,some u.letter,a⟩ f.words (c*f.factor : Nat) f.keep (given n) =
      round current f u c m (times n) := by
  refine timesLeftRound positive count number ?_
  rw [← number,int32Back _ (timesInt n)]
  refine if_neg ?_
  rw [strstrSome]
  intro marked
  have there := marked.subset (show 'O' ∈ lit "ORIGINAL TIMES" by decide)
  have whole := mem_of_mem_take ((dropWhile_suffix _).subset (mem_of_mem_drop there))
  rcases mem_append.mp whole with digit | word
  · exact foreign n rfl (by decide) digit
  · exact absurd word (by decide)

theorem timesLow (low : n < 2^32) : times n = int32 n := by
  rw [times,given,numberRead low _ (by decide),takeWhile_append_of_pos (decimalAll n)]
  exact (congrArg atoi (append_nil _)).trans (atoiDecimal low)

theorem givenLast {v keep} (last : int32 (times n-1) ≤ 0) :
    (timesLeft current ⟨v,some u.letter,a⟩ f.words (c*f.factor : Nat) keep (given n)).status = 2 :=
  if_pos last

section run
variable (convertDateFormat : Text → Int → Text) (now : Nat → Int)

def delayAt (start : Text) : Nat → Text
  | 0 => start
  | i+1 => (getNextRepeatTime convertDateFormat (now i) (delayAt start i)).delay

def callAt (start : Text) (i : Nat) : Repeat :=
  getNextRepeatTime convertDateFormat (now i) (delayAt convertDateFormat now start i)

/- The n calls: their answers and next times, and one recorded number in all of them. -/
def Honoured (f : Form) (d : Nat) (u : TimeUnit) (n : Nat) : Prop :=
  ∃ original : Int, ∀ i < n, let r := callAt convertDateFormat now (frequency f.words d u (given n)) i
    r.status = (if i+1 < n then f.keep else 2) ∧ r.next = decimalText (now i+d*u.seconds*f.factor^i) ∧
      recorded original <:+ r.delay

end run

variable {now : Nat → Int} {n m d : Nat}

theorem givenTail : Tail (given n) := countTail n (eachOf rfl)

theorem leftTail : Tail (left m original) := by
  have words : ∀ x ∈ lit "UPF", x ∉ lit " TIMES. ORIGINAL TIMES=" := eachOf rfl
  refine countTail m fun x rare there => ?_
  exact (mem_append.mp there).elim (words x rare) (rareForeign original x rare)

theorem leftRecorded : recorded original <:+ frequency f.words c u (left m original) :=
  ⟨decimalText c ++ (u.letter:: ' '::(f.words ++ decimalText m)),by simp [frequency,left]⟩

theorem factorBounds (f : Form) : 1 ≤ f.factor ∧ f.factor ≤ 2 := by
  unfold Form.factor
  split <;> decide

theorem keepContinues (f : Form) : f.keep ≠ 2 := by
  unfold Form.keep
  split <;> decide

theorem callRound (positive : 1 ≤ m) (number : int32 (times n-1) = (m-1 : Nat))
    (fits : ∀ i < m, d*f.factor^i*f.factor < 2^63) (i) (later : i < m) :
    callAt convertDateFormat now (frequency f.words d u (given n)) i =
      round (now i) f u (d*f.factor^i) (m-i) (times n) := by
  have small : m-1 < 2^31 := by
    have range := int32Range (times n-1)
    rw [number,isInt] at range
    omega
  have single : ∀ i < m, d*f.factor^i < 2^63 := fun i before =>
    (Nat.le_mul_of_pos_right _ (factorBounds f).1).trans_lt (fits i before)
  induction i with
  | zero =>
    have first := fits 0 later
    have start := single 0 later
    rw [Nat.pow_zero,Nat.mul_one] at first start ⊢
    exact (counted start givenTail).trans (givenRound positive number first)
  | succ i ih =>
    have before : delayAt convertDateFormat now (frequency f.words d u (given n)) (i+1) =
        frequency f.words (d*f.factor^(i+1)) u (left (m-(i+1)) (times n)) := by
      show (callAt convertDateFormat now (frequency f.words d u (given n)) i).delay = _
      rw [ih (by omega),round,Nat.sub_sub,Nat.pow_succ,Nat.mul_assoc]
    rw [callAt,before]
    exact (counted (single _ later) leftTail).trans
      (leftRound (by omega) (by omega) (timesInt n) (fits _ later))

theorem countGrows (fits : d*u.seconds*2^n < 2^63) (i) (before : i < n) : d*f.factor^i*f.factor < 2^63 := by
  have single : 1 ≤ u.seconds := by cases u <;> decide
  calc d*f.factor^i*f.factor = d*f.factor^(i+1) := by rw [Nat.mul_assoc,Nat.pow_succ]
    _ ≤ d*2^n := Nat.mul_le_mul_left d
      ((Nat.pow_le_pow_left (factorBounds f).2 _).trans (Nat.pow_le_pow_right (by decide) before))
    _ ≤ d*u.seconds*2^n := Nat.mul_le_mul_right _ (Nat.le_mul_of_pos_right d single)
    _ < 2^63 := fits

/- The number that was read is smaller than a large one, and so is the number of runs. -/
theorem honouredSmall (positive : 1 ≤ n) (grows : ∀ i < n, d*f.factor^i*f.factor < 2^63)
    (honoured : Honoured convertDateFormat now f d u n) : n ≤ 2^31 := by
  obtain ⟨_,honoured⟩ := honoured
  by_contra large
  by_cases last : int32 (times n-1) ≤ 0
  · have first := grows 0 positive
    rw [Nat.pow_zero,Nat.mul_one] at first
    have start : d < 2^63 := (Nat.le_mul_of_pos_right d (factorBounds f).1).trans_lt first
    have status := (honoured 0 positive).1
    rw [if_pos (by omega),callAt,delayAt,counted start givenTail,givenLast last] at status
    exact keepContinues f status.symm
  · obtain ⟨k,number⟩ := eq_ofNat_of_zero_le (show 0 ≤ int32 (times n-1) by omega)
    have range := int32Range (times n-1)
    unfold isInt at range
    have status := (honoured k (by omega)).1
    rw [if_pos (by omega),callRound (m := k+1) (by omega) (by simpa using number)
      (fun i before => grows i (by omega)) k (by omega)] at status
    exact keepContinues f (status.symm.trans (if_pos (by omega)))

theorem countHonoured (convertDateFormat : Text → Int → Text) (now : Nat → Int) (f : Form) (u : TimeUnit) (d n : Nat)
    (positive : 1 ≤ n) (fits : d*u.seconds*2^n < 2^63)
    (times : ∀ i < n, 0 ≤ now i ∧ now i+d*u.seconds*f.factor^i < 2^63) :
    Honoured convertDateFormat now f d u n ↔ n ≤ 2^31 := by
  refine ⟨honouredSmall positive (countGrows fits),fun small => ?_⟩
  have number : int32 (RepeatCount.times n-1) = (n-1 : Nat) := by
    have one : (n : Int)-1 = (n-1 : Nat) := by omega
    rw [timesLow (by omega),int32,int32,bmod_sub_bmod,one]
    exact int32Same.mpr (by omega)
  refine ⟨RepeatCount.times n,fun i before => ?_⟩
  rw [callRound positive number (countGrows fits) i before]
  obtain ⟨low,high⟩ := times i before
  have sum : (now i : Int)+(d*f.factor^i : Nat)*u.seconds = now i+d*u.seconds*f.factor^i := by
    push_cast
    ring
  refine ⟨?_,?_,leftRecorded⟩
  · show (if n-i ≤ 1 then 2 else f.keep) = _
    by_cases last : i+1 < n
    · rw [if_neg (by omega),if_pos last]
    · rw [if_pos (by omega),if_neg last]
  · show decimalText (int64 _) = _
    rw [sum,int64Same _ high]
    have added : (0 : Int) ≤ d*u.seconds*f.factor^i := by positivity
    omega

theorem countHonouredTwice : 1 ≤ 2 ∧ 5*3600*2^2 < 2^63 ∧
    Honoured (fun s _ => s) (fun i => 1700000000+i) ⟨true,true⟩ 5 .hour 2 :=
  ⟨by decide,by decide,(countHonoured _ _ _ _ _ _ (by decide) (by decide) (by decide)).mpr (by decide)⟩

theorem countTruncated : ¬Honoured (fun s _ => s) (fun i => 1700000000+i) ⟨false,false⟩ 0 .second 2147483649 := by
  rintro ⟨_,honoured⟩
  exact absurd (honoured 0 (by decide)).1 (by decide)

end Irods.RepeatCount
