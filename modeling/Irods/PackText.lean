import Irods.StringOpr

/-! The XML texts of packStruct.cpp: tags, the value between two tags, escapes
and numbers. A pointer into a message is the text from there to the NUL. -/
namespace Irods.PackStruct
open CText StringOpr List

def SYS_PACK_INSTRUCT_FORMAT_ERR : Int := -15000
def USER_PACKSTRUCT_INPUT_ERR : Int := -308000
def MAX_PI_LEN : Nat := 1024

structure Version where
  major : Nat
  minor : Nat
  patch : Nat
  deriving DecidableEq, Repr

def useCorrectXmlEncoding : Option Version → Bool
  | none => false
  | some v => 4 < v.major ∨ v.major = 4 ∧ (2 < v.minor ∨ v.minor = 2 ∧ 9 ≤ v.patch)

/-! Tags. START_TAG_FL with and without LF_FL, and END_TAG_FL, which the readers
always give together with LF_FL. -/
inductive TagFlag where
  | start
  | startLine
  | finish
  deriving DecidableEq, Repr

def endTag (name : Text) : Text := '<' :: '/' :: (name ++ ['>'])

-- What packXmlTag prints; its five extra bytes hold the longest form.
def tagText (name : Text) : TagFlag → Text
  | .finish => endTag name ++ ['\n']
  | .startLine => '<'::(name ++ ['>','\n'])
  | .start => '<'::(name ++ ['>'])

def lineFeed (rest : Text) : Nat := if rest.head? = some '\n' then 1 else 0

-- The length of the tag, and how much stands in front of it.
def parseXmlTag (rest name : Text) : TagFlag → Except Int (Nat × Nat)
  | .finish =>
    match strstr rest (boundedCopy MAX_NAME_LEN (endTag name)) with
    | none => .error SYS_PACK_INSTRUCT_FORMAT_ERR
    | some skip => .ok (name.length+3+lineFeed (rest.drop (skip+name.length+3)),skip)
  | flag =>
    match strstr rest ['<'] with
    | none => .error SYS_PACK_INSTRUCT_FORMAT_ERR
    | some skip =>
      if name.isPrefixOf (rest.drop (skip+1)) ∧ (rest.drop (skip+1+name.length)).head? = some '>' then
        .ok (name.length+2+(if flag = .startLine then lineFeed (rest.drop (skip+name.length+2)) else 0),skip)
      else .error SYS_PACK_INSTRUCT_FORMAT_ERR

-- The pointer is moved behind the start tag also when the end tag is not found.
def parseXmlValue (rest name : Text) : Text × Except Int (Nat × Nat) :=
  match parseXmlTag rest name .start with
  | .error e => (rest,.error e)
  | .ok (tagLen,skip) =>
    (rest.drop (tagLen+skip),
      match parseXmlTag (rest.drop (tagLen+skip)) name .finish with
      | .error e => .error e
      | .ok (endTagLen,strLen) => .ok (strLen,endTagLen))

def strToXmlChar (correct : Bool) (c : Char) : Text :=
  if c = '&' then lit "&amp;"
  else if c = '<' then lit "&lt;"
  else if c = '>' then lit "&gt;"
  else if c = '"' then lit "&quot;"
  else if c = '\'' ∧ correct then lit "&apos;"
  else if c = Char.ofNat 96 ∧ !correct then lit "&apos;"
  else [c]

def strToXmlStr (s : Text) (peer : Option Version) : Text := s.flatMap (strToXmlChar (useCorrectXmlEncoding peer))

def entity (correct : Bool) (rest : Text) : Option (Char × Nat) :=
  if (lit "amp;").isPrefixOf rest then some ('&',4)
  else if (lit "lt;").isPrefixOf rest then some ('<',3)
  else if (lit "gt;").isPrefixOf rest then some ('>',3)
  else if (lit "quot;").isPrefixOf rest then some ('"',5)
  else if (lit "apos;").isPrefixOf rest then some (if correct then '\'' else Char.ofNat 96,5)
  else none

/- The value up to its end tag. What follows it begins with the end tag, and no
entity holds a '<', so looking behind the value finds nothing. After an ampersand
that starts no entity the loop is left with copy_from where it was: what stood
in front of the ampersand is written twice. -/
def xmlStrLoop (correct : Bool) (pending : Text) : Nat → Text → Text
  | _,[] => pending
  | skip+1,_::rest => xmlStrLoop correct pending skip rest
  | 0,c::rest =>
    if c = '&' then
      match entity correct rest with
      | some (d,width) => pending ++ d::xmlStrLoop correct [] width rest
      | none => pending ++ (pending ++ c::rest)
    else xmlStrLoop correct (pending ++ [c]) 0 rest

def xmlStrToStr (value : Text) (peer : Option Version) : Text := xmlStrLoop (useCorrectXmlEncoding peer) [] 0 value

def atoiShort (a : Text) : Int := (atoi a).bmod (2^16)

def digitOf (base : Nat) (c : Char) : Option Nat :=
  let v := if c.isDigit then c.toNat-48 else if 'a' ≤ c ∧ c ≤ 'f' then c.toNat-87 else if 'A' ≤ c ∧
    c ≤ 'F' then c.toNat-55 else base
  if v < base then some v else none

def digitsIn (base acc : Nat) : Text → Nat
  | [] => acc
  | c::cs =>
    match digitOf base c with
    | some v => digitsIn base (base*acc+v) cs
    | none => acc

-- With base 0 a leading 0x or 0 chooses the base.
def magnitude0 : Text → Nat
  | '0'::x::h::rest => if (x = 'x' ∨ x = 'X') ∧
      (digitOf 16 h).isSome then digitsIn 16 0 (h::rest) else digitsIn 8 0 (x::h::rest)
  | '0'::rest => digitsIn 8 0 rest
  | rest => digits 0 rest

def strtoll0 (a : Text) : Int :=
  clamp (match a.dropWhile isSpace with
    | '-'::rest => -(magnitude0 rest : Int)
    | '+'::rest => magnitude0 rest
    | rest => magnitude0 rest)

/- unpackXmlIntToOutPtr and its like: the pointer, the numbers stored, the error that ended the loop. -/
def unpackXmlNumbers (number : Text → Int) (name : Text) : Nat → Text → Text × List Int × Option Int
  | 0,rest => (rest,[],none)
  | n+1,rest =>
    match parseXmlValue rest name with
    | (rest,.error e) => (rest,[],some e)
    | (rest,.ok (myStrlen,endTagLen)) =>
      if myStrlen ≥ NAME_LEN then (rest,[],some USER_PACKSTRUCT_INPUT_ERR)
      else
        let tail := unpackXmlNumbers number name n (rest.drop (myStrlen+endTagLen))
        (tail.1,number (rest.take myStrlen)::tail.2.1,tail.2.2)

def unpackXmlDoubleToOutPtr (rest : Text) (numElement : Nat) (name : Text) :=
  unpackXmlNumbers strtoll0 name numElement rest

theorem tagError {rest name flag e} (failed : parseXmlTag rest name flag = .error e) : e < 0 := by
  unfold parseXmlTag at failed
  split at failed
  · split at failed
    · cases failed
      decide
    · contradiction
  · split at failed
    · cases failed
      decide
    split at failed
    · contradiction
    · cases failed
      decide

theorem valueError {rest name rest' e} (failed : parseXmlValue rest name = (rest',.error e)) : e < 0 := by
  unfold parseXmlValue at failed
  split at failed
  · rename_i start
    cases failed
    exact tagError start
  simp only [Prod.mk.injEq] at failed
  obtain ⟨-,failed⟩ := failed
  split at failed
  · rename_i finish
    cases failed
    exact tagError finish
  · contradiction

theorem strstrHead {c value} (solid : c ∉ value) (needle rest) :
    strstr (value ++ (c::needle ++ rest)) (c::needle) = some value.length := by
  have here : strstr (c::needle ++ rest) (c::needle) = some 0 := by simp [strstr]
  rw [strstrBehind solid,here,Option.map_some,Nat.zero_add]

theorem startTagFound {front} (plain : '<' ∉ front) (name rest) :
    parseXmlTag (front ++ (tagText name .start ++ rest)) name .start = .ok (name.length+2,front.length) := by
  have found := strstrHead plain [] (name ++ '>'::rest)
  have shape : tagText name .start ++ rest = ['<'] ++ (name ++ '>'::rest) := by simp [tagText]
  have named : (front ++ (['<'] ++ (name ++ '>'::rest))).drop (front.length+1) = name ++ '>'::rest := by
    rw [← drop_drop,drop_left]
    rfl
  have closed : (front ++ (['<'] ++ (name ++ '>'::rest))).drop (front.length+1+name.length) = '>'::rest := by
    rw [← drop_drop,named,drop_left]
  rw [shape]
  simp only [parseXmlTag,found,closed]
  simp

theorem endTagFound {name value} (plain : '<' ∉ value) (short : name.length < MAX_PI_LEN) (rest) :
    parseXmlTag (value ++ (tagText name .finish ++ rest)) name .finish = .ok (name.length+4,value.length) := by
  have fits : boundedCopy MAX_NAME_LEN (endTag name) = endTag name := by
    refine boundedCopyFits ?_
    simp only [endTag,length_cons,length_append,length_nil,MAX_NAME_LEN,MAX_PI_LEN] at short ⊢
    omega
  have found : strstr (value ++ (tagText name .finish ++ rest)) (endTag name) = some value.length := by
    have here := strstrHead plain ('/'::(name ++ ['>'])) ('\n'::rest)
    have shape : tagText name .finish ++ rest = endTag name ++ '\n'::rest := by simp [tagText]
    rw [shape]
    exact here
  have behind : (value ++ (tagText name .finish ++ rest)).drop (value.length+name.length+3) = '\n'::rest := by
    have shape : value ++ (tagText name .finish ++ rest) = (value ++ endTag name) ++ '\n'::rest := by simp [tagText]
    have size : value.length+name.length+3 = (value ++ endTag name).length := by simp [endTag]; omega
    rw [shape,size,drop_left]
  simp [parseXmlTag,fits,found,behind,lineFeed]

theorem valueFound {name front value} (before : '<' ∉ front) (plain : '<' ∉ value) (short : name.length < MAX_PI_LEN)
    (rest) : parseXmlValue (front ++ (tagText name .start ++ (value ++ (tagText name .finish ++ rest)))) name =
      (value ++ (tagText name .finish ++ rest),.ok (value.length,name.length+4)) := by
  have behind :
    (front ++ (tagText name .start ++ (value ++ (tagText name .finish ++ rest)))).drop (name.length+2+front.length) =
      value ++ (tagText name .finish ++ rest) := by
    have size : name.length+2+front.length = (front ++ tagText name .start).length := by simp [tagText]; omega
    rw [← append_assoc,size,drop_left]
  simp [parseXmlValue,startTagFound before,behind,endTagFound plain short]

theorem valuePassed (name value rest) :
    (value ++ (tagText name .finish ++ rest)).drop (value.length+(name.length+4)) = rest := by
  have size : value.length+(name.length+4) = (value ++ tagText name .finish).length := by simp [tagText,endTag]
  rw [← append_assoc,size,drop_left]

end Irods.PackStruct
