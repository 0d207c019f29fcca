import Mathlib

/-! Texts of C strings. A text is the list of bytes before the terminating NUL,
one character a byte. Only the routines whose result does not depend on what
lies behind the NUL are here; a buffer is bounded where it is written. -/
namespace Irods.CText
open List

abbrev Text := List Char
def text (s : String) : Text := s.toList

inductive Spelled : String → String → Type
  | refl (s) : Spelled s s

/- The characters of a string literal, found when it is read and not decoded later. -/
def lit (s : String) {l : Text} (_ : Spelled s (String.ofList l) := by exact .refl _) : Text := l

instance : LawfulBEq Text := inferInstance

-- strncmp(a,b,n) == 0. Both texts are NUL-free, so the bytes before the end of
-- the shorter one decide, and a text that ends inside the bound must end in both.
def strncmpZero (n : Nat) (a b : Text) : Bool := a.take n == b.take n

theorem strncmpZeroIff {n a b} : strncmpZero n a b = true ↔ a.take n = b.take n := by
  simp [strncmpZero]

theorem strncmpShort {n a b} (short : b.length < n) :
    strncmpZero n a b = true ↔ a = b := by
  rw [strncmpZeroIff]
  constructor
  · intro same
    have full := take_of_length_le (Nat.le_of_lt short)
    rw [full] at same
    have size : min n a.length = b.length := by rw [← length_take,same]
    have inside : a.length ≤ n := by omega
    rwa [take_of_length_le inside] at same
  · rintro rfl; rfl

theorem strncmpShortLeft {n a b} (short : a.length < n) :
    strncmpZero n a b = true ↔ a = b := by
  rw [strncmpZeroIff,eq_comm,← strncmpZeroIff,strncmpShort short,eq_comm]

-- snprintf(dest,size,"%s",a): at most size-1 bytes and the NUL.
def boundedCopy (size : Nat) (a : Text) : Text := a.take (size-1)

theorem boundedCopyFits {size a} (fits : a.length < size) : boundedCopy size a = a :=
  take_of_length_le (by omega)

def isSpace (c : Char) : Bool := c == ' ' || (9 ≤ c.toNat && c.toNat ≤ 13)

def digits (acc : Nat) : Text → Nat
  | [] => acc
  | c::cs => if c.isDigit then digits (10*acc+(c.toNat-48)) cs else acc

theorem digitBounds {c : Char} (digit : c.isDigit = true) : 48 ≤ c.toNat ∧ c.toNat ≤ 57 := by
  simp only [Char.isDigit,Bool.and_eq_true,decide_eq_true_eq] at digit
  exact digit

theorem digitsBelow {x} (digitX : ∀ c ∈ x, c.isDigit = true) (a) : digits a x < (a+1)*10^x.length := by
  induction x generalizing a with
  | nil =>
    rw [digits]
    simp
  | cons c x ih =>
    have bound := digitBounds (digitX c mem_cons_self)
    rw [digits,if_pos (digitX c mem_cons_self)]
    refine lt_of_lt_of_le (ih (forall_mem_cons.mp digitX).2 _) ?_
    rw [length_cons,Nat.pow_succ,← Nat.mul_assoc,Nat.mul_right_comm]
    exact Nat.mul_le_mul_right _ (by omega)

/- The number strtoll reads at the head of a text: blanks, one sign, the longest
run of digits. No digits is zero. -/
def leadingInteger (a : Text) : Int :=
  match a.dropWhile isSpace with
  | '-'::rest => -(digits 0 rest : Int)
  | '+'::rest => digits 0 rest
  | rest => digits 0 rest

def clamp (v : Int) : Int := max (-2^63) (min (2^63-1) v)
def atoll (a : Text) : Int := clamp (leadingInteger a)

-- As the C library does it: strtol, of which an int keeps the low 32 bits.
def atoi (a : Text) : Int := (atoll a).bmod (2^32)

theorem atollPositive {a} : 0 < atoll a ↔ 0 < leadingInteger a := by unfold atoll clamp; omega

theorem atollLess {a n} (positive : 0 < leadingInteger a) (bound : n < 2^63) :
    atoll a < n ↔ leadingInteger a < n := by unfold atoll clamp; omega

def strstr : Text → Text → Option Nat
  | [],needle => if needle.isEmpty then some 0 else none
  | c::t,needle => if needle.isPrefixOf (c::t) then some 0 else (strstr t needle).map (·+1)

theorem strstrFound {t needle i} (found : strstr t needle = some i) : needle <+: t.drop i := by
  induction t generalizing i with
  | nil =>
    unfold strstr at found
    split at found
    · rename_i empty
      rw [isEmpty_iff.mp empty]
      exact nil_prefix
    · contradiction
  | cons c t ih =>
    unfold strstr at found
    split at found
    · rename_i here
      cases found
      exact isPrefixOf_iff_prefix.mp here
    · obtain ⟨j,later,rfl⟩ := Option.map_eq_some_iff.mp found
      exact ih later

theorem strstrFirst {t needle i} : strstr t needle = some i ↔
    i ≤ t.length ∧ needle <+: t.drop i ∧ ∀ j < i, ¬needle <+: t.drop j := by
  induction t generalizing i with
  | nil =>
    unfold strstr
    cases needle with
    | nil => simp +contextual [eq_comm]
    | cons c needle => simp
  | cons c t ih =>
    unfold strstr
    split
    · rename_i here
      have start := isPrefixOf_iff_prefix.mp here
      cases i with
      | zero => simpa using start
      | succ i =>
        refine iff_of_false (by simp) ?_
        rintro ⟨-,-,earlier⟩
        exact earlier 0 (Nat.succ_pos i) start
    · rename_i other
      rw [ isPrefixOf_iff_prefix] at other
      cases i with
      | zero =>
        refine iff_of_false (by simp) ?_
        rintro ⟨-,start,-⟩
        exact other start
      | succ i =>
        have rest : (strstr t needle).map (·+1) = some (i+1) ↔ strstr t needle = some i := by simp
        rw [rest,ih,length_cons,Nat.add_le_add_iff_right]
        refine and_congr_right fun _ => and_congr_right fun _ => ?_
        constructor
        · intro earlier j before
          cases j with
          | zero => exact other
          | succ j => exact earlier j (by omega)
        · intro earlier j _
          exact earlier (j+1) (by omega)

theorem strstrSome {t needle} : (strstr t needle).isSome = true ↔ needle <:+: t := by
  induction t with
  | nil =>
    unfold strstr
    split
    · rename_i empty
      simp [isEmpty_iff.mp empty]
    · rename_i full
      simpa using full
  | cons c t ih =>
    unfold strstr
    rw [infix_cons_iff,← isPrefixOf_iff_prefix,← ih]
    split
    all_goals
      rename_i here
      simp [here]

theorem strstrBehind {front c} (free : c ∉ front) (t needle) :
    strstr (front ++ t) (c::needle) = (strstr t (c::needle)).map (·+front.length) := by
  induction front with
  | nil => simp
  | cons d front ih =>
    simp only [mem_cons,not_or] at free
    have other : ¬(c::needle).isPrefixOf (d::(front ++ t)) := by
      rw [ isPrefixOf_iff_prefix,cons_prefix_cons]
      exact fun both => free.1 both.1
    rw [cons_append,strstr,if_neg other,ih free.2,Option.map_map]
    rfl

theorem prefixBefore {needle a b} {c : Char} (solid : c ∉ needle) : needle <+: a ++ c::b ↔ needle <+: a := by
  constructor
  · intro start
    by_cases short : needle.length ≤ a.length
    · exact prefix_of_prefix_length_le start (prefix_append a _) short
    have whole : a ++ [c] <+: a ++ c::b := ⟨b,by simp⟩
    have longer := prefix_of_prefix_length_le whole start (by simp; omega)
    exact absurd (longer.subset (by simp)) solid
  · exact fun start => start.trans (prefix_append a _)

theorem infixAcrossBlank {needle a b} (solid : ' ' ∉ needle) :
    needle <:+: a ++ ' '::b ↔ needle <:+: a ∨ needle <:+: b := by
  have front : ∀ a, needle <+: a ++ ' '::b → needle <+: a := fun _ => (prefixBefore solid).mp
  induction a with
  | nil =>
    rw [nil_append,infix_cons_iff]
    constructor
    · rintro (start | later)
      · exact .inl (front [] start).isInfix
      · exact .inr later
    · rintro (empty | later)
      · rw [infix_nil.mp empty]
        exact .inl nil_prefix
      · exact .inr later
  | cons c a ih =>
    rw [cons_append,infix_cons_iff,infix_cons_iff]
    rw [show needle <:+: a ++ ' '::b ↔ needle <:+: a ∨ needle <:+: b from ih]
    constructor
    · rintro (start | left | right)
      · exact .inl (.inl (front (c::a) start))
      · exact .inl (.inr left)
      · exact .inr right
    · rintro ((start | left) | right)
      · exact .inl (start.trans (prefix_append _ _))
      · exact .inr (.inl left)
      · exact .inr (.inr right)

end Irods.CText

/-! Texts in which an escape character stands before every special one. -/
namespace Irods.EscapedText
open CText

def escaped (special : Char → Bool) (e : Char) (t : Text) : Text := t.flatMap fun c => if special c then [e,c] else [c]

theorem scanEscaped {σ ρ : Type} {scan : σ → Text → ρ} {special e} {raw plain : σ → Char → σ}
    (escapes : ∀ s c rest, special c = true → scan s (e::c::rest) = scan (raw s c) rest)
    (passes : ∀ s c rest, special c = false → scan s (c::rest) = scan (plain s c) rest) (s t rest) :
    scan s (escaped special e t ++ rest) = scan
      (t.foldl (fun s c => if special c then raw s c else plain s c) s) rest := by
  induction t generalizing s with
  | nil => rfl
  | cons c t ih =>
    rw [List.foldl_cons,← ih,escaped,List.flatMap_cons]
    cases kind : special c with
    | true => exact escapes s c _ kind
    | false => exact passes s c _ kind

end Irods.EscapedText
