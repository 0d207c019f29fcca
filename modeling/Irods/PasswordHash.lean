import Irods.Base64

/-! hash_password: the scrypt key of a password, written in base64. -/
namespace Irods.PasswordHash
open CText Base64 List Option

def SYS_INVALID_INPUT_PARAM : Int := -130000
def SYS_NOT_SUPPORTED : Int := -66000
def PASSWORD_EXCEEDS_MAX_SIZE : Int := -903000
def maximumKeyLength : Int := 2025
def maximumPasswordLength : Nat := 1024*1024

/- The members of the JSON object as get<std::int32_t> returns them, none where one is missing or of another type. -/
structure Parameters where
  keyLength : Option Int
  N : Option Int
  r : Option Int
  p : Option Int

structure ScryptKdf where
  keylen : Nat
  workFactor : Nat
  resources : Nat
  parallelism : Nat

def positive (value : Option Int) : Option Nat := (value.filter (1 ≤ ·)).map Int.toNat

def scryptKdf (params : Parameters) : Option ScryptKdf := do
  some ⟨← positive (params.keyLength.filter (· ≤ maximumKeyLength)),← positive params.N,← positive params.r,
    ← positive params.p⟩

/- EVP_KDF_derive. -/
structure Scrypt where
  key : ScryptKdf → List UInt8 → List UInt8 → List UInt8
  size : ∀ kdf password salt, (key kdf password salt).length = kdf.keylen

/- The bytes that strncpy leaves in a buffer of zeros. -/
def copied (s : List UInt8) : List UInt8 := s.takeWhile (· ≠ 0) ++ replicate (s.dropWhile (· ≠ 0)).length 0

def deriveKey (scrypt : Scrypt) (kdf : ScryptKdf) (password salt : List UInt8) : List UInt8 :=
  scrypt.key kdf (copied password) (copied salt)

def hashPassword (scrypt : Scrypt) (password salt : List UInt8) (algorithm : Text) (params : Parameters) :
    Except Int Text :=
  if password = [] ∨ salt = [] then .error SYS_INVALID_INPUT_PARAM
  else if password.length > maximumPasswordLength then .error PASSWORD_EXCEEDS_MAX_SIZE
  else if algorithm ≠ lit "scrypt" then .error SYS_NOT_SUPPORTED
  else match scryptKdf params with
    | none => .error SYS_INVALID_INPUT_PARAM
    | some kdf =>
      let derivedKey := deriveKey scrypt kdf password salt
      base64Encode derivedKey (derivedKey.length*2)

/- Behind a NUL there are only NULs. -/
abbrev Plain (s : List UInt8) : Prop := ∀ c ∈ s.dropWhile (· ≠ 0), c = 0

theorem copiedSame {s} : copied s = s ↔ Plain s := by
  have whole := @takeWhile_append_dropWhile _ (· ≠ 0) s
  rw [copied,Plain,← eq_replicate_length]
  constructor
  · intro same
    exact (append_cancel_left (same.trans whole.symm)).symm
  · intro zeros
    rw [← zeros]
    exact whole

theorem encodeInj {a b : List UInt8} (same : encode (a.map UInt8.toNat) = encode (b.map UInt8.toNat)) : a = b := by
  have left := @decodeEncode a (a.length+b.length) (by omega)
  rw [same,decodeEncode (by omega)] at left
  exact (map_injective_iff.mpr fun _ _ => UInt8.toNat_inj.mp) (Prod.mk.inj left).1.symm

theorem acceptedLength {params kdf} (accepted : scryptKdf params = some kdf) : 1 ≤ kdf.keylen ∧ kdf.keylen ≤ 2025 := by
  simp only [scryptKdf,positive,maximumKeyLength,bind,bind_eq_some_iff,map_eq_some_iff,filter_eq_some_iff,
      decide_eq_true_eq] at accepted
  obtain ⟨_,⟨k,⟨⟨_,high⟩,_⟩,rfl⟩,_,_,_,_,_,_,⟨⟩⟩ := accepted
  have high := of_decide_eq_true high
  dsimp only
  omega

section Hash
variable {params kdf} {password salt : List UInt8} (accepted : scryptKdf params = some kdf)
  (some : password ≠ [] ∧ salt ≠ []) (short : password.length ≤ maximumPasswordLength)
include accepted some short

theorem hashIs (scrypt) : hashPassword scrypt password salt (lit "scrypt") params =
    base64Encode (deriveKey scrypt kdf password salt) (kdf.keylen*2) := by
  simp [hashPassword,some,Nat.not_lt.mpr short,accepted,deriveKey,scrypt.size]

theorem hashExactly : (∀ scrypt, hashPassword scrypt password salt (lit "scrypt") params =
      .ok (encode ((scrypt.key kdf password salt).map UInt8.toNat)) ∧
      (encode ((scrypt.key kdf password salt).map UInt8.toNat)).length ≤ 2700) ↔
    kdf.keylen ∉ [1,2,4] ∧ Plain password ∧ Plain salt := by
  have range := acceptedLength accepted
  simp only [hashIs accepted some short,encodeIff,encodeLength,length_map,deriveKey,Scrypt.size,mem_cons,not_mem_nil,
      or_false]
  constructor
  · intro all
    -- A key that tells the copies from every other pair.
    obtain ⟨⟨_,same⟩,-⟩ := all ⟨fun kdf p s =>
      replicate kdf.keylen (if p = copied password ∧ s = copied salt then 0 else 1),by simp⟩
    have both : password = copied password ∧ salt = copied salt := by
      by_contra other
      have key := encodeInj same
      simp [other] at key
      omega
    exact ⟨by omega,copiedSame.mp both.1.symm,copiedSame.mp both.2.symm⟩
  · rintro ⟨_,plain,plainSalt⟩ _
    rw [copiedSame.mpr plain,copiedSame.mpr plainSalt]
    exact ⟨⟨by omega,rfl⟩,by omega⟩

end Hash

def someParameters (keyLength : Int) : Parameters := ⟨some keyLength,some 16384,some 8,some 1⟩
def zeroKeys : Scrypt := ⟨fun kdf _ _ => replicate kdf.keylen 0,by simp⟩

theorem plainHashed : hashPassword zeroKeys [1,0] [2] (lit "scrypt") (someParameters 3) = .ok (lit "AAAA") :=
  ((@hashExactly (someParameters 3) _ _ _ rfl (by decide) (by decide)).mpr ⟨by decide,copiedSame.mp rfl,
    copiedSame.mp rfl⟩ zeroKeys).1

theorem shortKeyFails : scryptKdf (someParameters 4) ≠ none ∧
    hashPassword zeroKeys [1] [2] (lit "scrypt") (someParameters 4) = .error BASE64_BUFFER_OVERFLOW := by decide

end Irods.PasswordHash
