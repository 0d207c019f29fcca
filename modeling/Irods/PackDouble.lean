import Irods.PackText
import Irods.ReplicaStateTable

/-! 64-bit integers in the XML protocol. packDouble prints into a window of twenty
bytes, one of them the NUL, and the longest values have twenty characters. -/
namespace Irods.PackStruct
open CText StringOpr List
open ReplicaStateTable (decimalText decimalDigits digitChars digitsHead)

abbrev Long := { v : Int // -2^63 ≤ v ∧ v ≤ 2^63-1 }

structure FieldName where
  name : Text
  short : name.length < MAX_PI_LEN

def packXmlNumbers (window : Nat) (name : Text) (vs : List Int) : Text :=
  vs.flatMap fun v => tagText name .start ++ (boundedCopy window (decimalText v) ++ tagText name .finish)

def packXmlDouble (name : Text) (vs : List Int) : Text := packXmlNumbers 20 name vs

theorem noLeadingZero {n} (positive : 0 < n) (t) : Nat.toDigits 10 n ≠ '0'::t := by
  intro shape
  obtain ⟨all,value⟩ := decimalDigits n
  rw [shape] at all value
  have small : digits 0 t < 10^t.length := by
    have bound := digitsBelow (forall_mem_cons.mp all).2 0
    simpa using bound
  have same : digits 0 t = n := value
  cases t with
  | nil => exact absurd same (by simp only [digits]; omega)
  | cons c t =>
    have short := (Nat.length_toDigits_le_iff (by decide) (Nat.zero_lt_succ t.length)).mpr (same ▸ small)
    rw [shape] at short
    simp at short

theorem magnitudePlain {c} (plain : c ≠ '0') (t) : magnitude0 (c::t) = digits 0 (c::t) := by
  unfold magnitude0
  split
  · rename_i same; exact absurd (cons.inj same).1 plain
  · rename_i same; exact absurd (cons.inj same).1 plain
  · rfl

theorem magnitudeDecimal (n) : magnitude0 (Nat.toDigits 10 n) = n := by
  rcases Nat.eq_zero_or_pos n with rfl | positive
  · rfl
  obtain ⟨c,t,shape,-⟩ := digitsHead n
  have value := (decimalDigits n).2
  rw [shape] at value ⊢
  rw [magnitudePlain _ t,value]
  rintro rfl
  exact noLeadingZero positive t shape

theorem strtollMinus (t) : strtoll0 ('-'::t) = clamp (-(magnitude0 t : Int)) := rfl

theorem strtollDigit {c} (digit : c.isDigit = true) (t) : strtoll0 (c::t) = clamp (magnitude0 (c::t)) := by
  obtain ⟨solid,minus,plus⟩ := digitChars digit
  have kept : (c::t).dropWhile isSpace = c::t := by rw [dropWhile_cons,solid]; rfl
  unfold strtoll0
  rw [kept]
  split
  · rename_i same; exact absurd (cons.inj same).1 minus
  · rename_i same; exact absurd (cons.inj same).1 plus
  · rfl

theorem strtollDecimal (v : Long) : strtoll0 (decimalText v.1) = v.1 := by
  obtain ⟨v,_,_⟩ := v
  have value := magnitudeDecimal v.natAbs
  show strtoll0 (decimalText v) = v
  unfold decimalText
  split
  · rw [strtollMinus]
    unfold clamp
    omega
  · obtain ⟨c,t,shape,digit⟩ := digitsHead v.natAbs
    rw [shape,strtollDigit digit,← shape]
    unfold clamp
    omega

def readBack (v : Int) : Int := strtoll0 (boundedCopy 20 (decimalText v))

theorem decimalFits {v : Long} (inside : -10^18 < v.1) : (decimalText v.1).length < 20 := by
  obtain ⟨v,_,_⟩ := v
  have width : ∀ k, 0 < k → v.natAbs < 10^k → (Nat.toDigits 10 v.natAbs).length ≤ k := fun k some small =>
    (Nat.length_toDigits_le_iff (by decide) some).mpr small
  show (decimalText v).length < 20
  unfold decimalText
  have inside : -10^18 < v := inside
  split
  · have short := width 18 (by decide) (by omega)
    rw [length_cons]
    omega
  · have short := width 19 (by decide) (by omega)
    omega

theorem readBackCut {v} (below : v ≤ -10^18) : readBack v ≠ v := by
  have negative : v < 0 := by omega
  obtain ⟨c,t,shape,_⟩ := digitsHead v.natAbs
  have plain : c ≠ '0' := by
    rintro rfl
    exact noLeadingZero (by omega) t shape
  have text : boundedCopy 20 (decimalText v) = '-'::c::t.take 17 := by
    unfold decimalText boundedCopy
    rw [if_pos negative,shape]
    rfl
  have all : ∀ d ∈ c::t.take 17, d.isDigit = true := by
    intro d mem
    refine (decimalDigits v.natAbs).1 d ?_
    rw [shape]
    rcases mem_cons.mp mem with rfl | later
    · exact mem_cons_self
    · exact mem_cons_of_mem _ (mem_of_mem_take later)
  have small : digits 0 (c::t.take 17) < 10^18 := by
    calc digits 0 (c::t.take 17) < (0+1)*10^(c::t.take 17).length := digitsBelow all 0
      _ ≤ (0+1)*10^18 := Nat.mul_le_mul_left _ (Nat.pow_le_pow_right (by decide) (by simp))
  unfold readBack
  rw [text,strtollMinus,magnitudePlain plain]
  unfold clamp
  omega

theorem readBackExactly (v : Long) : readBack v.1 = v.1 ↔ -10^18 < v.1 := by
  constructor
  · intro same
    by_contra below
    exact readBackCut (by omega) same
  · intro inside
    unfold readBack
    rw [boundedCopyFits (decimalFits inside)]
    exact strtollDecimal v

theorem decimalPlain (v) : '<' ∉ decimalText v := by
  have digit : '<' ∉ Nat.toDigits 10 v.natAbs := fun mem => absurd ((decimalDigits v.natAbs).1 '<' mem) (by decide)
  unfold decimalText
  split
  · simpa using digit
  · exact digit

theorem numbersRead (number) {window} (narrow : window ≤ NAME_LEN) {name} (short : name.length < MAX_PI_LEN)
    (vs rest) : unpackXmlNumbers number name vs.length (packXmlNumbers window name vs ++ rest) =
      (rest,vs.map fun v => number (boundedCopy window (decimalText v)),none) := by
  induction vs with
  | nil => rfl
  | cons v vs ih =>
    have plain : '<' ∉ boundedCopy window (decimalText v) := fun mem => decimalPlain v (mem_of_mem_take mem)
    have width : (boundedCopy window (decimalText v)).length < NAME_LEN := by
      have cut : (boundedCopy window (decimalText v)).length ≤ window-1 := length_take_le _ _
      simp only [NAME_LEN] at narrow ⊢
      omega
    have shape : packXmlNumbers window name (v::vs) ++ rest = [] ++ (tagText name .start ++
        (boundedCopy window (decimalText v) ++ (tagText name .finish ++ (packXmlNumbers window name vs ++ rest)))) := by
      simp [packXmlNumbers]
    rw [shape,length_cons,unpackXmlNumbers,valueFound (by simp) plain short]
    simp only [valuePassed,ih,take_left,map_cons]
    rw [if_neg (by omega)]

theorem doublesSurvive (field : FieldName) (vs : List Long) (rest : Text) :
    unpackXmlDoubleToOutPtr (packXmlDouble field.name (vs.map Subtype.val) ++ rest) vs.length field.name =
      (rest,vs.map Subtype.val,none) ↔ ∀ v ∈ vs, -10^18 < v.1 := by
  have read := numbersRead strtoll0 (show 20 ≤ NAME_LEN by decide) field.short (vs.map Subtype.val) rest
  rw [length_map] at read
  unfold unpackXmlDoubleToOutPtr packXmlDouble
  rw [read]
  simp only [Prod.mk.injEq,true_and,and_true,map_map]
  rw [map_inj_left]
  exact forall₂_congr fun v _ => readBackExactly v

theorem smallestLost : (unpackXmlDoubleToOutPtr (packXmlDouble (lit "a") [-9223372036854775808]) 1 (lit "a")).2 =
    ([-922337203685477580],none) := rfl

end Irods.PackStruct
