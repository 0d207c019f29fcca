import Irods.Obfuscation

/-! Passwords obfuscated with a key (obf.cpp). The digests are arbitrary functions of bytes. -/
namespace Irods.ObfuscationByKey
open CText List
open Obfuscation (wheel turn turnBack wheelAt wheelLength turnBackTurn MAX_PASSWORD_LEN)

inductive HashType where
  | md5
  | sha1
  deriving DecidableEq, Repr

abbrev Bytes := List UInt8
abbrev Digest := HashType → Bytes → Bytes

section Keyed
variable (digest : Digest)

-- The key in a buffer of zeros, of which one hundred bytes are hashed.
def keyBuf (key : Text) : Bytes :=
  ((key.take 100).map fun c => UInt8.ofNat c.toNat) ++ List.replicate (100-(key.take 100).length) 0

def write (buffer : Bytes) (position : Nat) (bytes : Bytes) : Bytes :=
  buffer.take position ++ bytes ++ buffer.drop (position+bytes.length)

-- Four digests of sixteen bytes; the last two are of the same bytes.
def keyBytes (type : HashType) (key : Text) : Bytes :=
  let one := write (List.replicate 65 0) 0 (digest type (keyBuf key))
  let two := write one 16 (digest type (one.take 16))
  let three := write two 32 (digest type (two.take 32))
  write three 48 (digest type (three.take 32))

def nextKey (i : Nat) : Nat := if i+1 > 60 then 0 else i+1

-- The previous character is the one of the obfuscated text, if it is on the wheel.
def chained (chaining : Bool) (pc : Nat) (c : Char) : Nat := if chaining && decide (c ∈ wheel) then c.toNat%256 else pc

def encodeFrom (chaining : Bool) (buffer : Bytes) : Nat → Nat → Text → Text
  | _,_,[] => []
  | i,pc,c::rest =>
    turn ((buffer.getD i 0).toNat+pc) c::encodeFrom chaining buffer (nextKey i)
      (chained chaining pc (turn ((buffer.getD i 0).toNat+pc) c)) rest

def decodeFrom (chaining : Bool) (buffer : Bytes) : Nat → Nat → Text → Text
  | _,_,[] => []
  | i,pc,c::rest =>
      turnBack ((buffer.getD i 0).toNat+pc) c::decodeFrom chaining buffer (nextKey i) (chained chaining pc c) rest

def SHA1 : Text := lit "sha1"

def obfEncodeByKey (default : HashType) (chaining : Bool) (s key : Text) : Text :=
  (if default = .sha1 then SHA1 else []) ++ encodeFrom chaining (keyBytes digest default key) 0 0 s

def obfDecodeByKey (chaining : Bool) (s key : Text) : Text :=
  if strncmpZero 4 s SHA1 then decodeFrom chaining (keyBytes digest .sha1 key) 0 0 (s.drop 4)
  else decodeFrom chaining (keyBytes digest .md5 key) 0 0 s

def hexDigit (n : Nat) : Char := (lit "0123456789abcdef").getD n '0'

def obfGetMD5Hash (default : HashType) (s : Text) : Text :=
  ((digest default (keyBuf s) ++ List.replicate 16 0).take 16).flatMap fun (b : UInt8) =>
    [hexDigit (b.toNat/16),hexDigit (b.toNat%16)]

def V2_Prefix : Text := lit "A.ObfV2"
def myKey (key key2 : Text) : Text := key.take 90 ++ key2.take 100
def myIn (rval : Fin 32) (s : Text) : Text := Char.ofNat ('A'.toNat+rval)::(V2_Prefix.drop 1 ++ s.take 150)

def obfEncodeByKeyV2 (default : HashType) (rval : Fin 32) (s key key2 : Text) : Text :=
  obfEncodeByKey digest default true (myIn rval s) (obfGetMD5Hash digest default (myKey key key2))

-- The leading character is not compared; without the others the text is taken as one of version 1.
def obfDecodeByKeyV2 (default : HashType) (s key key2 : Text) : Text :=
  let myOut := obfDecodeByKey digest true s (obfGetMD5Hash digest default (myKey key key2))
  if (V2_Prefix.drop 1).isPrefixOf (myOut.drop 1) then (myOut.drop V2_Prefix.length).take MAX_PASSWORD_LEN
  else obfDecodeByKey digest false s key

end Keyed

section Loops
variable {chaining : Bool} {buffer : Bytes}

theorem turnTurnBack (add c) : turn add (turnBack add c) = c := by
  unfold turnBack
  split
  · rename_i member
    have inside := wheelLength ▸ idxOf_lt_length_iff.mpr member
    have place : (((wheel.idxOf c : Int)-add)%((77 : Nat) : Int)).toNat < 77 := by omega
    obtain ⟨again,found⟩ := wheelAt place c
    rw [wheelLength,turn,if_pos again,found,wheelLength]
    have back : ((((wheel.idxOf c : Int)-add)%((77 : Nat) : Int)).toNat+add)%77 = wheel.idxOf c := by omega
    have bound := idxOf_lt_length_iff.mpr member
    rw [back]
    simp [bound]
  · rename_i outside
    rw [turn,if_neg outside]

theorem decodeEncode (i pc s) : decodeFrom chaining buffer i pc (encodeFrom chaining buffer i pc s) = s := by
  induction s generalizing i pc with
  | nil => rfl
  | cons c s ih => rw [encodeFrom,decodeFrom,turnBackTurn,ih]

theorem encodeDecode (i pc s) : encodeFrom chaining buffer i pc (decodeFrom chaining buffer i pc s) = s := by
  induction s generalizing i pc with
  | nil => rfl
  | cons c s ih => rw [decodeFrom,encodeFrom,turnTurnBack,ih]

theorem decodeLength (i pc s) : (decodeFrom chaining buffer i pc s).length = s.length := by
  induction s generalizing i pc with
  | nil => rfl
  | cons c s ih => rw [decodeFrom,length_cons,length_cons,ih]

theorem encodeLength (i pc s) : (encodeFrom chaining buffer i pc s).length = s.length := by
  rw [← @decodeLength chaining buffer i pc,decodeEncode]

theorem decodePrefix (i pc a b) : decodeFrom chaining buffer i pc a <+: decodeFrom chaining buffer i pc (a ++ b) := by
  induction a generalizing i pc with
  | nil => exact nil_prefix
  | cons c a ih =>
    exact (prefix_append_right_inj [_]).mpr (ih _ _)

theorem encodePrefix (i pc a b) : encodeFrom chaining buffer i pc a <+: encodeFrom chaining buffer i pc (a ++ b) := by
  induction a generalizing i pc with
  | nil => exact nil_prefix
  | cons c a ih =>
    exact (prefix_append_right_inj [_]).mpr (ih _ _)

end Loops

def mimic (digest : Digest) (chaining : Bool) (key : Text) : Text :=
  decodeFrom chaining (keyBytes digest .md5 key) 0 0 SHA1

section Back
variable (digest : Digest) (chaining : Bool) (key s : Text)

theorem markedIff : strncmpZero 4 (obfEncodeByKey digest .md5 chaining s key) SHA1 = true ↔
    mimic digest chaining key <+: s := by
  have plain : obfEncodeByKey digest .md5 chaining s key = encodeFrom chaining (keyBytes digest .md5 key) 0 0 s := rfl
  have mark : strncmpZero 4 (obfEncodeByKey digest .md5 chaining s key) SHA1 = true ↔
    SHA1 <+: obfEncodeByKey digest .md5 chaining s key := by
    rw [strncmpZeroIff,prefix_iff_eq_take,eq_comm]
    rfl
  rw [mark,plain,mimic]
  constructor
  · rintro ⟨rest,same⟩
    have cut := @decodePrefix chaining (keyBytes digest .md5 key) 0 0 SHA1 rest
    rwa [same,decodeEncode] at cut
  · rintro ⟨rest,same⟩
    have cut := @encodePrefix chaining (keyBytes digest .md5 key) 0 0
      (decodeFrom chaining (keyBytes digest .md5 key) 0 0 SHA1) rest
    rwa [same,encodeDecode] at cut

theorem unmarkedBack (unmarked : ¬mimic digest chaining key <+: s) :
    obfDecodeByKey digest chaining (obfEncodeByKey digest .md5 chaining s key) key = s := by
  rw [obfDecodeByKey,if_neg (mt (markedIff digest chaining key s).mp unmarked)]
  exact decodeEncode 0 0 s

theorem markedShort (other another) (marked : mimic digest chaining key <+: s) :
    (obfDecodeByKey digest another (obfEncodeByKey digest .md5 chaining s key) other).length+4 = s.length := by
  have four : 4 ≤ s.length := by
    have size := marked.length_le
    rwa [mimic,decodeLength] at size
  rw [obfDecodeByKey,if_pos ((markedIff digest chaining key s).mpr marked),decodeLength,length_drop]
  have size : (obfEncodeByKey digest .md5 chaining s key).length = s.length := encodeLength 0 0 s
  omega

end Back

theorem backIff (digest chaining key s) :
    obfDecodeByKey digest chaining (obfEncodeByKey digest .md5 chaining s key) key = s ↔
    ¬mimic digest chaining key <+: s := by
  refine ⟨fun back marked => ?_,unmarkedBack digest chaining key s⟩
  have short := markedShort digest chaining key s key chaining marked
  rw [back] at short
  omega

theorem backV2Iff (digest rval) {s} (key key2) (short : s.length < MAX_PASSWORD_LEN) :
    obfDecodeByKeyV2 digest .md5 (obfEncodeByKeyV2 digest .md5 rval s key key2) key key2 = s ↔
      ¬mimic digest true (obfGetMD5Hash digest .md5 (myKey key key2)) <+: myIn rval s := by
  have whole : s.take 150 = s := take_of_length_le (by unfold MAX_PASSWORD_LEN at short; omega)
  unfold obfDecodeByKeyV2 obfEncodeByKeyV2
  constructor
  · -- a marked text comes back four characters short, as either version
    intro back marked
    have size := fun other chaining =>
      markedShort digest true (obfGetMD5Hash digest .md5 (myKey key key2)) (myIn rval s) other chaining marked
    have inside : (myIn rval s).length = s.length+7 := by simp [myIn,whole,V2_Prefix,lit]
    dsimp only at back
    split at back
    · have one := size (obfGetMD5Hash digest .md5 (myKey key key2)) true
      have two := congrArg List.length back
      rw [length_take] at two
      rename_i matched
      have long := ( isPrefixOf_iff_prefix.mp matched).length_le
      simp only [length_drop,V2_Prefix,lit,length_cons] at two long
      omega
    · have one := size key false
      rw [back] at one
      omega
  · intro unmarked
    rw [unmarkedBack digest true _ _ unmarked]
    have fits := take_of_length_le (Nat.le_of_lt short)
    show (s.take 150).take MAX_PASSWORD_LEN = s
    rw [whole,fits]

theorem invertibleUnless (digest : Digest) (rval : Fin 32) (s key key2 : Text) :
    (∀ chaining, obfDecodeByKey digest chaining (obfEncodeByKey digest .md5 chaining s key) key = s ↔
      ¬mimic digest chaining key <+: s) ∧
    (s.length < MAX_PASSWORD_LEN →
      (obfDecodeByKeyV2 digest .md5 (obfEncodeByKeyV2 digest .md5 rval s key key2) key key2 = s ↔
      ¬mimic digest true (obfGetMD5Hash digest .md5 (myKey key key2)) <+: myIn rval s)) :=
  ⟨fun chaining => backIff digest chaining key s,backV2Iff digest rval key key2⟩

theorem plainPassword : obfDecodeByKeyV2 (fun _ b => b.take 16) .md5
      (obfEncodeByKeyV2 (fun _ b => b.take 16) .md5 3 (lit "secret") (lit "k") (lit "j")) (lit "k")
      (lit "j") = lit "secret" ∧
    obfDecodeByKey (fun _ b => b.take 16) true
      (obfEncodeByKey (fun _ b => b.take 16) .md5 true (lit "secret") (lit "k")) (lit "k") = lit "secret" :=
  ⟨((invertibleUnless (fun _ b => b.take 16) 3 (lit "secret") (lit "k") (lit "j")).2 (by decide)).mpr
    (by decide +kernel),
    ((invertibleUnless (fun _ b => b.take 16) 3 (lit "secret") (lit "k") (lit "j")).1 true).mpr (by decide +kernel)⟩

theorem markedPassword : obfEncodeByKey (fun _ _ => []) .md5 false (lit "sha1pass") (lit "k") = lit "sha1pass" ∧
    obfDecodeByKey (fun _ _ => []) false (obfEncodeByKey (fun _ _ => []) .md5 false (lit "sha1pass") (lit "k"))
      (lit "k") = lit "pass" := by
  decide +kernel

end Irods.ObfuscationByKey
