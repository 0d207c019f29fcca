import Irods.CText

/-! The scrambled password file of obf.cpp: what obfSavePw writes and what
obfGetPw makes of it. The file holds a C string and its NUL. -/
namespace Irods.Obfuscation
open CText List Nat

def MAX_PASSWORD_LEN : Nat := 50
def NO_PASSWORD_ENTERED : Int := -909000
def PASSWORD_EXCEEDS_MAX_SIZE : Int := -903000
def AUTH_FILE_NOT_ENCRYPTED : Int := -906000
def UNABLE_TO_STAT_FILE : Int := -905000
def FILE_OPEN_ERR : Int := -900000
def FILE_WRITE_ERR : Int := -902000
def TMP_FLAG : Text := lit "%TEMPORARY_PW%"

def letters (first : Char) (count : Nat) : Text := (List.range count).map fun i => Char.ofNat (first.toNat+i)
def wheel : Text := letters '0' 10 ++ letters 'A' 26 ++ letters 'a' 26 ++ letters '!' 15

def seqs : List Nat := [0xd768b678,0xedfdaf56,0x2420231b,0x987098d8,0xc1bdfeee,0xf572341f,0x478def3a,0xa830d343,
  0x774dfa2a,0x6720731e,0x346fa320,0x6ffdf43a,0x7723a320,0xdf67d02e,0x86ad240a,0xe76d342e]

def obfiGetEnvKey : Nat := 0

-- What is added on the wheel: five bits of the pattern, the environment's key and part of the uid.
def addin (uid rval addin_i : Nat) : Nat := ((seqs.getD rval 0 >>> addin_i) &&& 0x1f)+obfiGetEnvKey+(uid &&& 0xf5f)
def nextAddin (addin_i : Nat) : Nat := if addin_i+3 > 28 then 0 else addin_i+3

def turn (add : Nat) (c : Char) : Char :=
  if c ∈ wheel then wheel.getD ((wheel.idxOf c+add)%wheel.length) c else c

-- Adding the length while j is negative leaves the remainder.
def turnBack (add : Nat) (c : Char) : Char :=
  if c ∈ wheel then wheel.getD (((wheel.idxOf c : Int)-add)%wheel.length).toNat c else c

def turned (f : Nat → Char → Char) (uid rval : Nat) : Nat → Text → Text
  | _,[] => []
  | i,c::rest => f (addin uid rval i) c::turned f uid rval (nextAddin i) rest

def afterHead : Nat := nextAddin (nextAddin (nextAddin (nextAddin (nextAddin 0))))

def checkChar (rval : Nat) : Char := Char.ofNat (83-rval%8*2)
def hexLetter (n : Nat) : Char := Char.ofNat (n%16+97)

def headstring (rval now : Nat) : Text :=
  [checkChar rval,hexLetter (now/16),hexLetter now,hexLetter (now/4096),hexLetter (now/256)]

def keyChar (rval : Nat) : Char := Char.ofNat (rval+101)

-- A timeVal of 0 stands for no time: the clock is taken instead.
def stamp (timeVal clock : Nat) : Nat := if timeVal ≠ 0 then timeVal else clock

def obfiEncode (uid rval timeVal clock : Nat) (s : Text) : Text :=
  '.'::(turned turn uid rval 0 (headstring rval (stamp timeVal clock)) ++
    keyChar rval::turned turn uid rval afterHead s)

def obfiTimeCheck (time1 time2 : Int) : Bool :=
  let near (a b : Int) : Bool := if a-b < 0 then 0-(a-b) < 20 else a-b < 20
  let later (t : Int) : Int := if t < 65000 then t+65535 else t
  near time1 time2 || near (later time1) (later time2)

def letterHex (c : Char) : Int := (c.toNat : Int)-97

def encodedTime : Text → Int
  | [_,a,b,c,d] => letterHex a*16+letterHex b+letterHex c*4096+letterHex d*256
  | _ => 0

-- Seven characters are needed: with six the key read is the NUL.
def obfiDecode (uid timeVal : Nat) (s : Text) : Except Int Text :=
  let key : Int := ((s.getD 6 (Char.ofNat 0)).toNat : Int)-101
  if s.length < 6 ∨ key > 15 ∨ key < 0 then .error AUTH_FILE_NOT_ENCRYPTED
  else
    let rval := key.toNat
    let head := turned turnBack uid rval 0 ((s.drop 1).take 5)
    if s.head? ≠ some '.' ∨ head.head? ≠ some (checkChar rval) ∨ !obfiTimeCheck (encodedTime head) timeVal then
      .error AUTH_FILE_NOT_ENCRYPTED
    else .ok (turned turnBack uid rval afterHead (s.drop 7))

inductive Opened where
  | failed
  | cancelled
  | opened
  deriving DecidableEq, Repr

structure SaveEnv where
  uid : Nat
  rval : Fin 16
  clock : Int
  typed : Option Text
  out : Opened
  mtime : Except Int Int
  writes : Bool

def low16 (t : Int) : Nat := (t%65536).toNat
def withoutNewline (s : Text) : Text := if s.getLast? = some '\n' then s.dropLast else s
def flagged (doTemp : Bool) (s : Text) : Text := if doTemp then s ++ TMP_FLAG else s

def saveInput (e : SaveEnv) (doTemp : Bool) (s : Text) : Int × Option Text :=
  if s.length < 1 then (NO_PASSWORD_ENTERED,none)
  else if s.length > MAX_PASSWORD_LEN-8 then (PASSWORD_EXCEEDS_MAX_SIZE,none)
  else match e.out with
    | .failed => (FILE_OPEN_ERR,none)
    | .cancelled => (0,none)
    | .opened =>
      match e.mtime with
      | .error code => (code,none)
      | .ok mtime =>
        if e.writes then
          (0,some (obfiEncode e.uid e.rval (low16 mtime) (low16 e.clock) (flagged doTemp (withoutNewline s))))
        else (FILE_WRITE_ERR,none)

/- The status, and what the file holds if it was written. Without pwArg a line is
asked for. strncpy takes fifty characters, more than are allowed. -/
def obfSavePw (e : SaveEnv) (doTemp : Bool) (pwArg : Text) : Int × Option Text :=
  if pwArg = [] then
    match e.typed with
    | none => (NO_PASSWORD_ENTERED,none)
    | some line => if line.length < 2 then (NO_PASSWORD_ENTERED,none) else saveInput e doTemp
        (line.take (MAX_PASSWORD_LEN+49))
  else saveInput e doTemp (pwArg.take MAX_PASSWORD_LEN)

/-! Reading. At most fifty bytes are read, and fifty are too many. -/
def obfiGetPw (file : Text) : Except Int Text :=
  if (file.take MAX_PASSWORD_LEN).length ≥ MAX_PASSWORD_LEN then .error PASSWORD_EXCEEDS_MAX_SIZE
  else .ok (boundedCopy MAX_PASSWORD_LEN (file.take MAX_PASSWORD_LEN))

structure Password where
  pw : Text
  isTemp : Bool
  deriving DecidableEq, Repr

def cutFlag (s : Text) : Password :=
  match strstr s TMP_FLAG with
  | some i => ⟨s.take i,true⟩
  | none => ⟨s,false⟩

def obfGetPw (uid : Nat) (mtime : Option Int) (file : Option Text) : Except Int Password :=
  match mtime with
  | none => .error UNABLE_TO_STAT_FILE
  | some mtime =>
    match file with
    | none => .error FILE_OPEN_ERR
    | some file =>
      match obfiGetPw file with
      | .error code => .error code
      | .ok myPw =>
        match obfiDecode uid (low16 mtime) myPw with
        | .error code => .error code
        | .ok myPwD => .ok (cutFlag myPwD)

theorem wheelLength : wheel.length = 77 := rfl

theorem wheelNodup : wheel.Nodup := by decide +kernel

theorem wheelAt {j} (inside : j < 77) (c) : wheel.getD j c ∈ wheel ∧ wheel.idxOf (wheel.getD j c) = j := by
  have bound : j < wheel.length := by rw [wheelLength]; exact inside
  have here : wheel.getD j c = wheel[j] := by simp [bound]
  rw [here]
  exact ⟨getElem_mem bound,wheelNodup.idxOf_getElem j bound⟩

theorem turnBackTurn (add c) : turnBack add (turn add c) = c := by
  unfold turn
  split
  · rename_i member
    have inside := wheelLength ▸ idxOf_lt_length_iff.mpr member
    obtain ⟨again,place⟩ := wheelAt (mod_lt (wheel.idxOf c+add) (show 0 < 77 by decide)) c
    rw [wheelLength,turnBack,if_pos again,place,wheelLength]
    have back : (((wheel.idxOf c+add)%77 : Nat) - add)%((77 : Nat) : Int) = wheel.idxOf c := by omega
    have bound := idxOf_lt_length_iff.mpr member
    rw [back]
    simp [bound]
  · rename_i outside
    rw [turnBack,if_neg outside]

theorem turnedBack (uid rval i s) : turned turnBack uid rval i (turned turn uid rval i s) = s := by
  induction s generalizing i with
  | nil => rfl
  | cons c s ih => rw [turned,turned,turnBackTurn,ih]

theorem turnedLength (f uid rval i s) : (turned f uid rval i s).length = s.length := by
  induction s generalizing i with
  | nil => rfl
  | cons c s ih => rw [turned,length_cons,length_cons,ih]

theorem hexLetterBack (n) : letterHex (hexLetter n) = (n%16 : Nat) := by
  have inside : n%16 < 16 := mod_lt _ (by decide)
  have all : ∀ m : Fin 16, letterHex (Char.ofNat (m.1+97)) = (m.1 : Int) := by decide
  exact all ⟨n%16,inside⟩

theorem headTime (rval) {now} (inside : now < 65536) : encodedTime (headstring rval now) = now := by
  simp only [encodedTime,headstring,hexLetterBack]
  omega

theorem keyBack (rval : Fin 16) : ((keyChar rval).toNat : Int)-101 = rval.1 := by
  revert rval
  decide

theorem low16Bound (t) : low16 t < 65536 := by unfold low16; omega

theorem decodeParts (uid readTime) (rval : Fin 16) {head} (five : head.length = 5) (body) :
    obfiDecode uid readTime ('.'::(head ++ keyChar rval::body)) =
      if (turned turnBack uid rval 0 head).head? = some (checkChar rval) ∧
          obfiTimeCheck (encodedTime (turned turnBack uid rval 0 head)) readTime
      then .ok (turned turnBack uid rval afterHead body) else .error AUTH_FILE_NOT_ENCRYPTED := by
  obtain ⟨a,b,c,d,e,rfl⟩ : ∃ a b c d e, head = [a,b,c,d,e] := by
    match head,five with
    | [a,b,c,d,e],_ => exact ⟨a,b,c,d,e,rfl⟩
  have key : (('.'::([a,b,c,d,e] ++ keyChar rval::body)).getD 6 (Char.ofNat 0)) = keyChar rval := rfl
  have valid : ¬(('.'::([a,b,c,d,e] ++ keyChar rval::body)).length < 6 ∨ (rval.1 : Int) > 15 ∨ (rval.1 : Int) < 0) := by
    simp only [length_cons,length_append]
    omega
  have front : (('.'::([a,b,c,d,e] ++ keyChar rval::body)).drop 1).take 5 = [a,b,c,d,e] := rfl
  have back : ('.'::([a,b,c,d,e] ++ keyChar rval::body)).drop 7 = body := rfl
  unfold obfiDecode
  simp only [key,keyBack,front,Int.toNat_natCast]
  rw [if_neg valid]
  by_cases check : (turned turnBack uid rval 0 [a,b,c,d,e]).head? = some (checkChar rval)
  · cases time : obfiTimeCheck (encodedTime (turned turnBack uid rval 0 [a,b,c,d,e])) readTime <;> simp
  · simp [check]

theorem decodeEncode (uid) (rval : Fin 16) {timeVal clock} (file : timeVal < 65536) (system : clock < 65536)
    (readTime s) : obfiDecode uid readTime (obfiEncode uid rval timeVal clock s) =
      if obfiTimeCheck (stamp timeVal clock) readTime then .ok s else .error AUTH_FILE_NOT_ENCRYPTED := by
  have bound : stamp timeVal clock < 65536 := by unfold stamp; split <;> assumption
  have five : (turned turn uid rval 0 (headstring rval (stamp timeVal clock))).length = 5 := by
    rfl
  unfold obfiEncode
  rw [decodeParts uid readTime rval five,turnedBack,turnedBack,headTime _ bound]
  simp [headstring]

/-! The flag. Its only border is the one character at both ends. -/
def TMP_FLAG_BORDER : Text := lit "%TEMPORARY_PW"

theorem flagOverlap {k} (low : 0 < k) (high : k < 14) (again : TMP_FLAG.drop k <+: TMP_FLAG) : k = 13 := by
  have all : ∀ m : Fin 14, 0 < m.1 → (TMP_FLAG.drop m.1).isPrefixOf TMP_FLAG = true → m.1 = 13 := by decide
  exact all ⟨k,high⟩ low ( isPrefixOf_iff_prefix.mpr again)

theorem flagLength : TMP_FLAG.length = 14 := rfl

theorem flagInside (s) : (∃ j < s.length, TMP_FLAG <+: (s ++ TMP_FLAG).drop j) ↔
    TMP_FLAG <:+: s ∨ TMP_FLAG_BORDER <:+ s := by
  constructor
  · rintro ⟨j,inside,start⟩
    rw [drop_append_of_le_length (le_of_lt inside)] at start
    by_cases whole : TMP_FLAG.length ≤ (s.drop j).length
    · have here := prefix_of_prefix_length_le start (prefix_append _ _) whole
      exact .inl (here.isInfix.trans (drop_suffix j s).isInfix)
    have part := prefix_of_prefix_length_le (prefix_append (s.drop j) TMP_FLAG) start (by omega)
    obtain ⟨v,shape⟩ := part
    have again : v <+: TMP_FLAG := by
      rw [← shape] at start
      have behind := (prefix_append_right_inj _).mp start
      rwa [shape] at behind
    have size : (s.drop j).length = s.length-j := length_drop
    have tail : TMP_FLAG.drop (s.length-j) = v := by rw [← shape,← size,drop_left]
    have last := flagOverlap (by omega) (by rw [flagLength] at whole; omega) (tail ▸ again)
    have front : s.drop j = TMP_FLAG_BORDER := by
      have cut : TMP_FLAG.take (s.length-j) = s.drop j := by rw [← shape,← size,take_left]
      rw [← cut,last]
      rfl
    exact .inr (front ▸ drop_suffix j s)
  · rintro (⟨a,b,rfl⟩ | ⟨a,rfl⟩)
    · refine ⟨a.length,by rw [length_append,length_append,flagLength]; omega,?_⟩
      have shape : a ++ TMP_FLAG ++ b ++ TMP_FLAG = a ++ (TMP_FLAG ++ (b ++ TMP_FLAG)) := by simp
      rw [shape,drop_left]
      exact prefix_append _ _
    · refine ⟨a.length,by simp [TMP_FLAG_BORDER,lit],?_⟩
      rw [append_assoc,drop_left]
      exact ⟨lit "TEMPORARY_PW%",rfl⟩

theorem flagFound {s i} (found : strstr s TMP_FLAG = some i) : i+14 ≤ s.length := by
  have start := (strstrFound found).length_le
  rw [length_drop,flagLength] at start
  omega

theorem cutPlain (s) : (cutFlag s).pw = s ↔ ¬TMP_FLAG <:+: s := by
  rw [← strstrSome]
  unfold cutFlag
  cases found : strstr s TMP_FLAG with
  | none => simp
  | some i =>
    have early := flagFound found
    refine iff_of_false ?_ (by simp)
    intro same
    have size := congrArg length same
    rw [length_take] at size
    omega

theorem flagFirst (s) : ∃ i ≤ s.length, strstr (s ++ TMP_FLAG) TMP_FLAG = some i := by
  have there := (suffix_append s TMP_FLAG).isInfix
  obtain ⟨i,found⟩ := Option.isSome_iff_exists.mp (strstrSome.mpr there)
  have early := flagFound found
  rw [length_append,flagLength] at early
  exact ⟨i,by omega,found⟩

theorem cutTemp (s) : (cutFlag (s ++ TMP_FLAG)).pw = s ↔ ¬TMP_FLAG <:+: s ∧ ¬TMP_FLAG_BORDER <:+ s := by
  rw [← not_or,← flagInside]
  obtain ⟨i,early,found⟩ := flagFirst s
  obtain ⟨-,here,before⟩ := strstrFirst.mp found
  have cut : (cutFlag (s ++ TMP_FLAG)).pw = s.take i := by
    unfold cutFlag
    rw [found]
    exact take_append_of_le_length early
  rw [cut]
  constructor
  · rintro same ⟨j,_,start⟩
    have size := congrArg length same
    rw [length_take] at size
    exact before j (by omega) start
  · intro none
    have last : i = s.length := by
      by_contra other
      exact none ⟨i,by omega,here⟩
    rw [last,take_length]

def Near (written read : Int) : Prop := ∃ d : Int, -19 ≤ d ∧ d ≤ 19 ∧ read%65536 = (written+d)%65536

theorem timeNear {written read} (near : Near written read) : obfiTimeCheck (low16 written) (low16 read) = true := by
  obtain ⟨d,_,_,_⟩ := near
  have first : (low16 written : Int) = written%65536 := by unfold low16; omega
  have second : (low16 read : Int) = read%65536 := by unfold low16; omega
  unfold obfiTimeCheck
  rw [Bool.or_eq_true]
  -- either no wrap lies between the two times, or one is at the end and the other at the start
  by_cases wrapped : -19 ≤ written%65536-read%65536 ∧ written%65536-read%65536 ≤ 19
  · left
    dsimp only
    split <;> exact decide_eq_true (by omega)
  · right
    dsimp only
    split <;> split <;> split <;> exact decide_eq_true (by omega)

structure Keeps (e : SaveEnv) (doTemp : Bool) (pw : Text) (written read : Int) : Prop where
  line : pw.getLast? ≠ some '\n'
  short : doTemp = true → pw.length ≤ 28
  plain : ¬TMP_FLAG <:+: pw
  border : doTemp = true → ¬TMP_FLAG_BORDER <:+ pw
  time : written%65536 ≠ 0 ∨ obfiTimeCheck (low16 e.clock) (low16 read) = true

structure Saved (e : SaveEnv) (doTemp : Bool) (pw file : Text) (written : Int) : Prop where
  short : pw.length ≤ 42
  some : 1 ≤ pw.length
  time : e.mtime = .ok written
  text : file = obfiEncode e.uid e.rval (low16 written) (low16 e.clock) (flagged doTemp (withoutNewline pw))

theorem savedSource {e doTemp pw file} (given : pw ≠ [])
    (ok : obfSavePw e doTemp pw = (0,some file)) : ∃ written, Saved e doTemp pw file written := by
  unfold obfSavePw at ok
  rw [if_neg given] at ok
  unfold saveInput at ok
  split at ok
  · cases ok
  split at ok
  · cases ok
  rename_i full short
  have size : (pw.take MAX_PASSWORD_LEN).length = min 50 pw.length := length_take
  have whole : pw.take MAX_PASSWORD_LEN = pw := take_of_length_le (by simp only [MAX_PASSWORD_LEN] at *; omega)
  rw [whole] at ok full short
  split at ok
  · cases ok
  · cases ok
  split at ok
  · cases ok
  rename_i written time
  split at ok
  · cases ok
    exact ⟨written,by simp only [MAX_PASSWORD_LEN] at short; omega,by omega,time,rfl⟩
  · cases ok

theorem readSaved {e doTemp pw file written} (saved : Saved e doTemp pw file written) (read) :
    obfGetPw e.uid (some read) (some file) =
      if (flagged doTemp (withoutNewline pw)).length+7 ≥ 50 then .error PASSWORD_EXCEEDS_MAX_SIZE
      else if obfiTimeCheck (stamp (low16 written) (low16 e.clock)) (low16 read) then
        .ok (cutFlag (flagged doTemp (withoutNewline pw)))
      else .error AUTH_FILE_NOT_ENCRYPTED := by
  have size : file.length = (flagged doTemp (withoutNewline pw)).length+7 := by
    rw [saved.text,obfiEncode]
    simp only [length_cons,length_append,turnedLength,headstring,length_nil]
    omega
  have cut : (file.take MAX_PASSWORD_LEN).length = min 50 file.length := length_take
  unfold obfGetPw obfiGetPw
  dsimp only
  by_cases long : (flagged doTemp (withoutNewline pw)).length+7 ≥ 50
  · rw [if_pos long,if_pos (by simp only [MAX_PASSWORD_LEN] at *; omega)]
  have whole : file.take MAX_PASSWORD_LEN = file := take_of_length_le (by simp only [MAX_PASSWORD_LEN]; omega)
  have kept : boundedCopy MAX_PASSWORD_LEN file = file := boundedCopyFits (by simp only [MAX_PASSWORD_LEN]; omega)
  rw [if_neg long,if_neg (by simp only [MAX_PASSWORD_LEN] at *; omega),whole,kept]
  dsimp only
  rw [saved.text,decodeEncode e.uid e.rval (low16Bound written) (low16Bound e.clock)]
  cases obfiTimeCheck (stamp (low16 written) (low16 e.clock)) (low16 read) <;> rfl

theorem cutShort (doTemp s) : (cutFlag (flagged doTemp s)).pw.length ≤ s.length := by
  cases doTemp with
  | false =>
    unfold flagged cutFlag
    split
    · exact length_take_le' _ _
    · exact le_refl _
  | true =>
    obtain ⟨i,early,found⟩ := flagFirst s
    unfold flagged cutFlag
    simp only [if_true,found]
    exact (length_take_le _ _).trans early

theorem cutExactly (doTemp s) : (cutFlag (flagged doTemp s)).pw = s ↔
    ¬TMP_FLAG <:+: s ∧ (doTemp = true → ¬TMP_FLAG_BORDER <:+ s) := by
  cases doTemp with
  | false => simpa [flagged] using cutPlain s
  | true => simpa [flagged] using cutTemp s

theorem stampGood (e : SaveEnv) {written read} (near : Near written read) :
    obfiTimeCheck (stamp (low16 written) (low16 e.clock)) (low16 read) = true ↔
      written%65536 ≠ 0 ∨ obfiTimeCheck (low16 e.clock) (low16 read) = true := by
  have zero : low16 written = 0 ↔ written%65536 = 0 := by unfold low16; omega
  unfold stamp
  by_cases none : low16 written = 0
  · simp [none,zero.mp none]
  · simp only [if_pos none]
    exact iff_of_true (timeNear near) (.inl fun same => none (zero.mpr same))

theorem savedReadBack {e : SaveEnv} {doTemp : Bool} {pw file : Text} {written read : Int} (given : pw ≠ [])
    (ok : obfSavePw e doTemp pw = (0,some file)) (time : e.mtime = .ok written) (near : Near written read) :
    (obfGetPw e.uid (some read) (some file)).map Password.pw = .ok pw ↔ Keeps e doTemp pw written read := by
  obtain ⟨_,saved⟩ := savedSource given ok
  cases Except.ok.inj (time.symm.trans saved.time)
  rw [readSaved saved read]
  by_cases line : pw.getLast? = some '\n'
  · refine iff_of_false ?_ fun keeps => keeps.line line
    have less : (withoutNewline pw).length < pw.length := by
      unfold withoutNewline
      rw [if_pos line,length_dropLast]
      have := saved.some
      omega
    have back := cutShort doTemp (withoutNewline pw)
    intro same
    split at same
    · cases same
    split at same
    · have whole := Except.ok.inj same
      rw [whole] at back
      omega
    · cases same
  · have kept : withoutNewline pw = pw := if_neg line
    have size : (flagged doTemp pw).length+7 ≥ 50 ↔ ¬(doTemp = true → pw.length ≤ 28) := by
      have := saved.short
      cases doTemp with
      | false => simp [flagged]; omega
      | true => simp [flagged,flagLength]; omega
    rw [kept]
    by_cases long : (flagged doTemp pw).length+7 ≥ 50
    · rw [if_pos long]
      exact iff_of_false (fun same => nomatch same) fun keeps => size.mp long keeps.short
    rw [if_neg long]
    by_cases early : obfiTimeCheck (stamp (low16 written) (low16 e.clock)) (low16 read) = true
    · rw [if_pos early]
      have cut : (Except.ok (cutFlag (flagged doTemp pw)) : Except Int Password).map Password.pw = .ok pw ↔
          (cutFlag (flagged doTemp pw)).pw = pw := ⟨Except.ok.inj,congrArg Except.ok⟩
      rw [cut,cutExactly]
      constructor
      · rintro ⟨plain,border⟩
        exact ⟨line,Classical.not_not.mp fun other => long (size.mpr other),plain,border,(stampGood e near).mp early⟩
      · exact fun keeps => ⟨keeps.plain,keeps.border⟩
    · rw [if_neg early]
      exact iff_of_false (fun same => nomatch same) fun keeps => early ((stampGood e near).mpr keeps.time)

def someEnv (written clock : Int) : SaveEnv := ⟨1000,3,clock,none,.opened,.ok written,true⟩

def savedFile (written clock : Int) (doTemp : Bool) (pw : Text) : Text :=
  obfiEncode 1000 3 (low16 written) (low16 clock) (flagged doTemp pw)

theorem rodsReadBack :
    (obfGetPw 1000 (some 65546) (some (savedFile 65530 7 true (lit "rods")))).map Password.pw = .ok (lit "rods") :=
  (@savedReadBack (someEnv 65530 7) true (lit "rods") (savedFile 65530 7 true (lit "rods")) 65530 65546 (by decide)
    (by decide +kernel) rfl ⟨16,by decide,by decide,by decide⟩).mpr
      ⟨by decide,by decide,by decide,by decide,.inl (by decide)⟩

theorem savedNotReadBack :
    (obfSavePw (someEnv 1 7) true (List.replicate 29 'a') = (0,some (savedFile 1 7 true (List.replicate 29 'a'))) ∧
      obfGetPw 1000 (some 1) (some (savedFile 1 7 true (List.replicate 29 'a'))) = .error PASSWORD_EXCEEDS_MAX_SIZE) ∧
    (obfSavePw (someEnv 65536 300) false (lit "rods") = (0,some (savedFile 65536 300 false (lit "rods"))) ∧
      obfGetPw 1000 (some 65536) (some (savedFile 65536 300 false (lit "rods"))) = .error AUTH_FILE_NOT_ENCRYPTED) ∧
    (obfSavePw (someEnv 1 7) true (lit "a%TEMPORARY_PW") = (0,some (savedFile 1 7 true (lit "a%TEMPORARY_PW"))) ∧
      obfGetPw 1000 (some 1) (some (savedFile 1 7 true (lit "a%TEMPORARY_PW"))) = .ok ⟨lit "a",true⟩) := by
  decide +kernel

end Irods.Obfuscation
