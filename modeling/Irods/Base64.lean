import Irods.CText

/-! base64_encode and base64_decode of base64.cpp. In reading, characters outside the
alphabet are passed over; every full group of four is written at once. -/
namespace Irods.Base64
open CText List UInt8

def BASE64_BUFFER_OVERFLOW : Int := -324000
def BASE64_INVALID_PACKET : Int := -325000
def codes : Text := lit "ABCDEFGHIJKLMNOPQRSTUVWXYZabcdefghijklmnopqrstuvwxyz0123456789+/"

def codeAt (v : Nat) : Char := codes.getD (v%64) 'A'

def encode : List Nat → Text
  | a::b::c::rest => codeAt (a/4)::codeAt (a%4*16+b/16)::codeAt (b%16*4+c/64)::codeAt c::encode rest
  | [a,b] => [codeAt (a/4),codeAt (a%4*16+b/16),codeAt (b%16*4),'=']
  | [a] => [codeAt (a/4),codeAt (a%4*16),'=','=']
  | [] => []

/- A NUL is written behind the text. -/
def base64Encode (input : List UInt8) (outlen : Nat) : Except Int Text :=
  if outlen < 4*((input.length+2)/3)+1 then .error BASE64_BUFFER_OVERFLOW else .ok (encode (input.map UInt8.toNat))

inductive Code where
  | skipped
  | padding
  | value (v : Nat)
  deriving DecidableEq, Repr

def mymap (c : Char) : Code :=
  if c = '=' then .padding else if c ∈ codes then .value (codes.idxOf c) else .skipped

structure Decoder where
  y : Nat
  t : Nat
  g : Nat
  out : List Nat
  deriving DecidableEq, Repr

-- The first byte of a group is written also when g has come down to 0.
def group (g t : Nat) : List Nat :=
  t/65536%256::((if 1 < g then [t/256%256] else []) ++ if 2 < g then [t%256] else [])

def take (outlen : Nat) (d : Decoder) (g v : Nat) : Except Int Decoder :=
  let t := d.t*64+v
  if d.y+1 = 4 then
    if d.out.length+g > outlen then .error BASE64_BUFFER_OVERFLOW
    else .ok ⟨0,0,g,d.out ++ group g t⟩
  else .ok ⟨d.y+1,t,g,d.out⟩

def decodeChar (outlen : Nat) (d : Decoder) (c : Char) : Except Int Decoder :=
  match mymap c with
  | .skipped => .ok d
  | .padding => if d.g = 0 then .error BASE64_INVALID_PACKET else take outlen d (d.g-1) 0
  | .value v => if d.g ≠ 3 then .error BASE64_INVALID_PACKET else take outlen d d.g v

-- The bytes written, also those before an error, and the status.
def decodeLoop (outlen : Nat) (d : Decoder) : Text → List Nat × Int
  | [] => (d.out,if d.y ≠ 0 then BASE64_INVALID_PACKET else 0)
  | c::rest =>
    match decodeChar outlen d c with
    | .error e => (d.out,e)
    | .ok d => decodeLoop outlen d rest

def decode (input : Text) (outlen : Nat) : List Nat × Int := decodeLoop outlen ⟨0,0,3,[]⟩ input

example : decode (lit "AAAAA===") 3 = ([0,0,0,0],0) := rfl

section Reads
variable {outlen y t : Nat} {out : List Nat}

theorem taken {g left v c} (cs) (read : decodeChar outlen ⟨y,t,g,out⟩ c = take outlen ⟨y,t,g,out⟩ left v) :
    decodeLoop outlen ⟨y,t,g,out⟩ (c::cs) =
      if y+1 = 4 then if out.length+left > outlen then (out,BASE64_BUFFER_OVERFLOW)
        else decodeLoop outlen ⟨0,0,left,out ++ group left (t*64+v)⟩ cs
      else decodeLoop outlen ⟨y+1,t*64+v,left,out⟩ cs := by
  by_cases four : y+1 = 4
  · by_cases full : out.length+left > outlen <;> simp [decodeLoop,read,take,four,full]
  · simp [decodeLoop,read,take,four]

theorem padTaken {g} : decodeChar outlen ⟨y,t,g+1,out⟩ '=' = take outlen ⟨y,t,g+1,out⟩ g 0 := rfl

theorem plainTaken {c v} (plain : mymap c = .value v) :
    decodeChar outlen ⟨y,t,3,out⟩ c = take outlen ⟨y,t,3,out⟩ 3 v := by
  simp [decodeChar,plain]

theorem kinds {c} (read : mymap c ≠ .skipped) : c = '=' ∨ c ≠ '=' ∧ ∃ v, mymap c = .value v := by
  unfold mymap at read ⊢
  split at read <;> simp_all

theorem groupLength {g} (some : g ≠ 0) (few : g ≤ 3) (t) : (group g t).length = g := by
  obtain rfl | rfl | rfl : g = 1 ∨ g = 2 ∨ g = 3 := by omega
  all_goals rfl

theorem spentWrites (cs) : (decodeLoop outlen ⟨y,t,0,out⟩ cs).1 = out := by
  induction cs with
  | nil => rfl
  | cons c _ ih =>
    rw [decodeLoop,decodeChar]
    cases mymap c
    · exact ih
    all_goals rfl

/- Behind the first padding there is one way to write past the end: the third one completes four symbols. -/
theorem paddedWrites {g cs} (few : g < 3) (inside : y < 4) (within : out.length ≤ outlen)
    (read : ∀ c ∈ cs, mymap c ≠ .skipped) : outlen < (decodeLoop outlen ⟨y,t,g,out⟩ cs).1.length ↔
      0 < g ∧ y+g = 4 ∧ out.length = outlen ∧ replicate g '=' <+: cs := by
  induction cs generalizing g y t out with
  | nil => simp [decodeLoop]; omega
  | cons c cs ih =>
    obtain ⟨here,more⟩ := forall_mem_cons.mp read
    cases g with
    | zero => simp [spentWrites]; omega
    | succ g =>
      obtain rfl | ⟨other,v,plain⟩ := kinds here
      · rw [taken cs padTaken,replicate_succ,cons_prefix_cons]
        split
        · split
          · simp; omega
          cases g with
          | zero => simp [spentWrites,group]; omega
          | succ g =>
            rw [ih (by omega) (by omega) (by rw [length_append,groupLength] <;> omega) more]
            omega
        · rw [ih (by omega) (by omega) within more]
          exact ⟨fun ⟨_,four,full,rest⟩ => ⟨by omega,by omega,full,rfl,rest⟩,
            fun ⟨_,four,full,_,rest⟩ => ⟨by omega,by omega,full,rest⟩⟩
      · have early : g+1 ≠ 3 := by omega
        simp [decodeLoop,decodeChar,plain,early,replicate_succ,other.symm]
        omega

theorem plainWrites {cs} (inside : y < 4) (within : out.length ≤ outlen) (read : ∀ c ∈ cs, mymap c ≠ .skipped) :
    outlen < (decodeLoop outlen ⟨y,t,3,out⟩ cs).1.length ↔
      (y+(cs.takeWhile (· ≠ '=')).length)%4 = 1 ∧ out.length+3*((y+(cs.takeWhile (· ≠ '=')).length)/4) = outlen ∧
        replicate 3 '=' <+: cs.dropWhile (· ≠ '=') := by
  induction cs generalizing y t out with
  | nil => simp [decodeLoop]; omega
  | cons c cs ih =>
    obtain ⟨here,rest⟩ := forall_mem_cons.mp read
    obtain rfl | ⟨other,v,plain⟩ := kinds here
    · rw [taken cs padTaken,takeWhile_cons_of_neg (by simp),dropWhile_cons_of_neg (by simp),replicate_succ,
          cons_prefix_cons,length_nil]
      split
      · split
        · simp only; omega
        · rw [paddedWrites (by omega) (by omega) (by rw [length_append,groupLength] <;> omega) rest]
          omega
      · rw [paddedWrites (by omega) (by omega) within rest]
        exact ⟨fun ⟨_,four,full,more⟩ => ⟨by omega,by omega,rfl,more⟩,
          fun ⟨one,full,_,more⟩ => ⟨by omega,by omega,by omega,more⟩⟩
    · rw [taken cs (plainTaken plain),takeWhile_cons_of_pos (by simpa using other),
          dropWhile_cons_of_pos (by simpa using other),
        length_cons]
      split
      · split
        · simp only; omega
        have wide : (out ++ group 3 (t*64+v)).length = out.length+3 := by rw [length_append,groupLength] <;> omega
        rw [ih (by omega) (by omega) rest,wide]
        exact and_congr (by omega) (and_congr_left fun _ => by omega)
      · rw [ih (by omega) within rest]
        exact and_congr (by omega) (and_congr_left fun _ => by omega)

/- One byte is the most that is written past the end. -/
theorem writesNear {g} (few : g ≤ 3) (within : out.length ≤ outlen) (cs) :
    (decodeLoop outlen ⟨y,t,g,out⟩ cs).1.length ≤ outlen+1 := by
  induction cs generalizing g y t out with
  | nil => exact within.trans (Nat.le_succ _)
  | cons c cs ih =>
    have next : ∀ left v, left ≤ 3 → decodeChar outlen ⟨y,t,g,out⟩ c = take outlen ⟨y,t,g,out⟩ left v →
        (decodeLoop outlen ⟨y,t,g,out⟩ (c::cs)).1.length ≤ outlen+1 := by
      intro left v few read
      rw [taken cs read]
      split
      · split
        · exact within.trans (Nat.le_succ _)
        by_cases last : left = 0
        · subst last
          rw [spentWrites,length_append]
          exact Nat.succ_le_succ within
        · exact ih few (by rw [length_append,groupLength last few]; omega)
      · exact ih few within
    cases kind : mymap c with
    | skipped =>
      rw [decodeLoop,decodeChar,kind]
      exact ih few within
    | padding =>
      by_cases spent : g = 0
      · rw [decodeLoop,decodeChar,kind]
        simpa [spent] using within.trans (Nat.le_succ _)
      · exact next (g-1) 0 (by omega) (by simp [decodeChar,kind,spent])
    | value v =>
      by_cases full : g = 3
      · exact next g v few (by simp [decodeChar,kind,full])
      · rw [decodeLoop,decodeChar,kind]
        simpa [full] using within.trans (Nat.le_succ _)

end Reads

/- The input without the characters that are passed over. -/
def symbols (input : Text) : Text := input.filter (mymap · ≠ .skipped)

theorem symbolsRead (d outlen input) : decodeLoop outlen d input = decodeLoop outlen d (symbols input) := by
  induction input generalizing d with
  | nil => rfl
  | cons c _ ih =>
    by_cases skip : mymap c = .skipped
    · rw [symbols,filter_cons_of_neg (by simpa using skip),← symbols,← ih,decodeLoop,decodeChar,skip]
    · rw [symbols,filter_cons_of_pos (by simpa using skip),← symbols,decodeLoop,decodeLoop]
      simp only [ih]

def Overruns (input : Text) (outlen : Nat) : Prop :=
  3*((symbols input).takeWhile (· ≠ '=')).length = 4*outlen+3 ∧ replicate 3 '=' <+: (symbols input).dropWhile (· ≠ '=')

theorem overrunExactly (input : Text) (outlen : Nat) :
    outlen < (decode input outlen).1.length ↔ Overruns input outlen := by
  have writes := @plainWrites outlen 0 0 [] (symbols input) (by omega) (Nat.zero_le _) (by simp [symbols])
  rw [decode,symbolsRead,writes,Overruns,← and_assoc]
  refine and_congr_left fun _ => ?_
  rw [length_nil]
  omega

theorem writesInside (input : Text) (outlen : Nat) :
    ((∀ i < (decode input outlen).1.length, i < outlen) ∧
      ((decode input outlen).2 = 0 → (decode input outlen).1.length ≤ outlen)) ↔ ¬Overruns input outlen := by
  rw [← overrunExactly]
  constructor
  · intro sound past
    exact absurd (sound.1 outlen past) (Nat.lt_irrefl _)
  · intro _
    exact ⟨fun i before => by omega,fun _ => by omega⟩

theorem threePadsOverrun : (decode (lit "A===") 0).1 = [0] := rfl

theorem codeMapped (v) : mymap (codeAt v) = .value (v%64) := by
  have each : ∀ k < 64, mymap (codes.getD k 'A') = .value k := by decide
  exact each _ (Nat.mod_lt _ (by decide))

theorem decodesBack {outlen} (bytes) {out : List Nat} (room : out.length+bytes.length ≤ outlen)
    (small : ∀ b ∈ bytes, b < 256) :
    decodeLoop outlen ⟨0,0,3,out⟩ (encode bytes) = (out ++ bytes,0) := by
  have code := fun y t out v cs => @taken outlen y t out _ _ _ _ cs (plainTaken (codeMapped v))
  have pad := fun y t out g cs => @taken outlen y t out _ g _ _ cs padTaken
  have done : ∀ g out, decodeLoop outlen ⟨0,0,g,out⟩ [] = (out,0) := fun _ _ => rfl
  induction bytes using encode.induct generalizing out with
  | case1 a b c _ ih =>
    simp only [length_cons,forall_mem_cons] at room small
    have whole : group 3 ((((a/4%64)*64+(a%4*16+b/16)%64)*64+(b%16*4+c/64)%64)*64+c%64) = [a,b,c] := by
      simp [group]
      omega
    have here := @ih (out ++ [a,b,c]) (by simp; omega) small.2.2.2
    simp [encode,code,whole,here]
    omega
  | case2 a b =>
    simp only [length_cons,length_nil,forall_mem_cons] at room small
    have whole : group 2 ((((a/4%64)*64+(a%4*16+b/16)%64)*64+(b%16*4)%64)*64) = [a,b] := by
      simp [group]
      omega
    simp [encode,code,pad,whole,done]
    omega
  | case3 a =>
    simp only [length_cons,length_nil,forall_mem_cons] at room small
    have whole : group 1 ((((a/4%64)*64+(a%4*16)%64)*64)*64) = [a] := by
      simp [group]
      omega
    simp [encode,code,pad,whole,done]
    omega
  | case4 => simp [encode,done]

theorem encodeLength (bytes) : (encode bytes).length = 4*((bytes.length+2)/3) := by
  induction bytes using encode.induct with
  | case1 a b c _ ih =>
    simp only [encode,length_cons,ih]
    omega
  | case2 a b => simp [encode]
  | case3 a => simp [encode]
  | case4 => rfl

theorem encodeIff {input outlen text} : base64Encode input outlen = .ok text ↔
    4*((input.length+2)/3) < outlen ∧ text = encode (input.map toNat) := by
  unfold base64Encode
  split
  · simp only [reduceCtorEq,false_iff]
    omega
  · simp only [Except.ok.injEq,eq_comm,iff_and_self]
    omega

theorem decodeEncode {bytes : List UInt8} {cap} (fits : bytes.length ≤ cap) :
    decode (encode (bytes.map toNat)) cap = (bytes.map toNat,0) :=
  decodesBack _ (by simpa using fits) (forall_mem_map.mpr fun b _ => b.toNat_lt)

theorem roundTrip (bytes : List UInt8) (outlen : Nat) :
    ((∃ text, base64Encode bytes outlen = .ok text) ↔ outlen > 4*((bytes.length+2)/3)) ∧
      ∀ text, base64Encode bytes outlen = .ok text → ∀ cap, bytes.length ≤ cap →
        decode text cap = (bytes.map UInt8.toNat,0) := by
  simp only [encodeIff,exists_and_left,exists_eq,and_true]
  refine ⟨trivial,?_⟩
  rintro _ ⟨-,rfl⟩ _ fits
  exact decodeEncode fits

end Irods.Base64
