import Irods.PackText
import Irods.Base64

/-! The growing buffer of packStruct.cpp. Positions are offsets from the base of
the buffer, which malloc and realloc align to eight bytes. Every writer reserves,
aligns, writes and moves the length on by its own numbers. -/
namespace Irods.PackStruct
open CText StringOpr List Nat

def PACKED_OUT_ALLOC_SZ : Nat := 16*1024
def MAX_PACKED_OUT_ALLOC_SZ : Nat := 1024*1024

structure PackedOutput where
  len : Nat
  bufSize : Nat
  deriving DecidableEq, Repr

/- Bytes start to stop, written while the buffer had this capacity. -/
structure Span where
  start : Nat
  stop : Nat
  capacity : Nat
  deriving DecidableEq, Repr

abbrev Effect := PackedOutput × List Span

def initPackedOutput (len : Nat) : PackedOutput := ⟨0,len⟩

def grownSize (o : PackedOutput) (newOutLen : Nat) : Nat :=
  if o.bufSize+o.bufSize ≤ newOutLen ∨ o.bufSize > MAX_PACKED_OUT_ALLOC_SZ then newOutLen+PACKED_OUT_ALLOC_SZ
  else o.bufSize+o.bufSize

-- The new part of a grown buffer is set to 0.
def extendPackedOutput (o : PackedOutput) (extLen : Nat) : Effect :=
  if o.len+extLen ≤ o.bufSize then (o,[])
  else (⟨o.len,grownSize o (o.len+extLen)⟩,[⟨o.len,grownSize o (o.len+extLen),grownSize o (o.len+extLen)⟩])

def alignAddrToBoundary (p boundary : Nat) : Nat := if p%boundary = 0 then p else p+boundary-p%boundary
def alignInt (p : Nat) := alignAddrToBoundary p 4
def alignDouble (p : Nat) := alignAddrToBoundary p 8
def ialignAddr (p : Nat) := alignDouble p

/- Reserve, write count bytes at outPtr and set the length to outPtr plus advance. -/
def store (o : PackedOutput) (reserve outPtr count advance : Nat) : Effect :=
  (⟨outPtr+advance,(extendPackedOutput o reserve).1.bufSize⟩,
    (extendPackedOutput o reserve).2 ++ [⟨outPtr,outPtr+count,(extendPackedOutput o reserve).1.bufSize⟩])

def Effect.then (e : Effect) (f : PackedOutput → Effect) : Effect := ((f e.1).1,e.2 ++ (f e.1).2)
def unchanged (o : PackedOutput) : Effect := (o,[])

/-! The writers. A pointer that may be NULL is an optional text; a maxStrLen
below 0 stands for a string that ends at its NUL. -/
inductive Prot where
  | native
  | xml
  deriving DecidableEq, Repr

inductive ByteType where
  | char
  | bin
  deriving DecidableEq, Repr

def packNatString (o : PackedOutput) (inPtr : Option Text) (maxStrLen : Int) : Effect :=
  let myStrlen := (inPtr.getD []).length
  if 0 ≤ maxStrLen ∧ maxStrLen ≤ myStrlen then unchanged o
  else store o (myStrlen+1) o.len (myStrlen+1) (myStrlen+1)

def packXmlTag (o : PackedOutput) (name : Text) (flag : TagFlag) : Effect :=
  store o (name.length+5) o.len ((tagText name flag).length+1) (tagText name flag).length

def packXmlString (o : PackedOutput) (inPtr : Option Text) (maxStrLen : Int) (name : Text) (peer : Option Version) :
    Effect :=
  match inPtr with
  | none => unchanged o
  | some s =>
    let xmlLen := (strToXmlStr s peer).length
    if 0 ≤ maxStrLen ∧ maxStrLen ≤ s.length then unchanged o
    else ((packXmlTag o name .start).then fun o => store o (xmlLen+1) o.len (xmlLen+1) xmlLen).then fun o =>
      packXmlTag o name .finish

def unpackNatString (o : PackedOutput) (inPtr : Option Text) (maxStrLen : Int) : Effect :=
  let myStrlen := (inPtr.getD []).length
  if maxStrLen ≤ myStrlen then
    if 0 ≤ maxStrLen then unchanged o
    else store o (myStrlen+1) o.len (myStrlen+1) (myStrlen+1)
  else store o maxStrLen.toNat o.len (myStrlen+1) maxStrLen.toNat

def xmlString (inPtr name : Text) (peer : Option Version) : Option Text :=
  match parseXmlValue inPtr name with
  | (_,.error _) => none
  | (value,.ok (origStrLen,_)) => some (xmlStrToStr (value.take origStrLen) peer)

def unpackXmlString (o : PackedOutput) (inPtr : Option Text) (maxStrLen : Int) (name : Text) (peer : Option Version) :
    Effect :=
  match inPtr.bind (xmlString · name peer) with
  | none => unchanged o
  | some s =>
    if maxStrLen ≤ s.length then
      if 0 ≤ maxStrLen then unchanged o
      -- one byte is written and counted that was not reserved
      else store o s.length o.len (s.length+1) (s.length+1)
    else store o maxStrLen.toNat o.len (s.length+1) maxStrLen.toNat

/- All, but in an XML message those before the first bad element. -/
def storedNumbers (inPtr : Option Text) (numElement : Nat) (name : Text) (number : Text → Int) : Prot → Nat
  | .native => numElement
  | .xml => (inPtr.map fun rest => (unpackXmlNumbers number name numElement rest).2.1.length).getD numElement

def unpackInt (o : PackedOutput) (inPtr : Option Text) (numElement : Nat) (name : Text) (prot : Prot) : Effect :=
  if numElement = 0 then unchanged o
  else store o (4*(numElement+1)) (alignInt o.len) (4*storedNumbers inPtr numElement name atoi prot) (4*numElement)

def unpackDouble (o : PackedOutput) (inPtr : Option Text) (numElement : Nat) (name : Text) (prot : Prot) : Effect :=
  if numElement = 0 then unchanged o
  else store o (8*(numElement+1)) (alignDouble o.len) (8*storedNumbers inPtr numElement name strtoll0 prot)
    (8*numElement)

def writtenBytes (inPtr : Option Text) (len : Nat) (name : Text) (type : ByteType) : Prot → Nat
  | .native => len
  | .xml =>
    match inPtr with
    | none => len
    | some rest =>
      match parseXmlValue rest name with
      | (_,.error _) => 0
      | (value,.ok (inLen,_)) =>
        match type with
        | .bin => (Base64.decode (value.take inLen) len).1.length
        | .char => if inLen > len then 0 else inLen

def unpackChar (o : PackedOutput) (inPtr : Option Text) (len : Nat) (name : Text) (type : ByteType) (prot : Prot) :
    Effect :=
  if len = 0 then unchanged o
  else store o len o.len (writtenBytes inPtr len name type prot) len

-- sizeof(void*) is reserved, and then the slot is aligned.
def addPointerToPackedOut (o : PackedOutput) : Effect := store o 8 (ialignAddr o.len) 8 8

inductive Op where
  | packNatString (inPtr : Option Text) (maxStrLen : Int)
  | packXmlString (inPtr : Option Text) (maxStrLen : Int) (name : Text) (peer : Option Version)
  | packXmlTag (name : Text) (flag : TagFlag)
  | unpackNatString (inPtr : Option Text) (maxStrLen : Int)
  | unpackXmlString (inPtr : Option Text) (maxStrLen : Int) (name : Text) (peer : Option Version)
  | unpackInt (inPtr : Option Text) (numElement : Nat) (name : Text) (prot : Prot)
  | unpackDouble (inPtr : Option Text) (numElement : Nat) (name : Text) (prot : Prot)
  | unpackChar (inPtr : Option Text) (len : Nat) (name : Text) (type : ByteType) (prot : Prot)
  | addPointerToPackedOut

def apply (o : PackedOutput) : Op → Effect
  | .packNatString inPtr maxStrLen => packNatString o inPtr maxStrLen
  | .packXmlString inPtr maxStrLen name peer => packXmlString o inPtr maxStrLen name peer
  | .packXmlTag name flag => packXmlTag o name flag
  | .unpackNatString inPtr maxStrLen => unpackNatString o inPtr maxStrLen
  | .unpackXmlString inPtr maxStrLen name peer => unpackXmlString o inPtr maxStrLen name peer
  | .unpackInt inPtr numElement name prot => unpackInt o inPtr numElement name prot
  | .unpackDouble inPtr numElement name prot => unpackDouble o inPtr numElement name prot
  | .unpackChar inPtr len name type prot => unpackChar o inPtr len name type prot
  | .addPointerToPackedOut => addPointerToPackedOut o

def Fits (o : PackedOutput) : Prop := o.len ≤ o.bufSize
def Inside (s : Span) : Prop := s.stop ≤ s.capacity
def Sound (e : Effect) : Prop := Fits e.1 ∧ ∀ s ∈ e.2, Inside s

def SoundRun (o : PackedOutput) : List Op → Prop
  | [] => True
  | op::ops => Sound (apply o op) ∧ SoundRun (apply o op).1 ops

instance (o) : Decidable (Fits o) := inferInstanceAs (Decidable (_ ≤ _))

instance (s) : Decidable (Inside s) := inferInstanceAs (Decidable (_ ≤ _))

instance (e) : Decidable (Sound e) := inferInstanceAs (Decidable (_ ∧ _))

instance decidableSoundRun (o : PackedOutput) : (ops : List Op) → Decidable (SoundRun o ops)
  | [] => inferInstanceAs (Decidable True)
  | op::ops =>
    have : Decidable (SoundRun (apply o op).1 ops) := decidableSoundRun (apply o op).1 ops
    inferInstanceAs (Decidable (Sound (apply o op) ∧ SoundRun (apply o op).1 ops))

/- The element is Base64 text whose decoding writes one byte more than the field has. -/
def Overlong (inPtr : Option Text) (len : Nat) (name : Text) : Prop :=
  ∃ rest ∈ inPtr, ∃ value inLen skipLen, parseXmlValue rest name = (value,.ok (inLen,skipLen)) ∧
    Base64.Overruns (value.take inLen) len

def Meets (o : PackedOutput) : Op → Prop
  | .unpackXmlString inPtr maxStrLen name peer =>
    maxStrLen < 0 → ∀ s, inPtr.bind (xmlString · name peer) = some s → o.len+s.length ≠ o.bufSize
  | .unpackChar inPtr len name type prot =>
    len ≠ 0 → type = .bin → prot = .xml → Overlong inPtr len name → o.len+len ≠ o.bufSize
  | .addPointerToPackedOut =>
    if o.len+8 ≤ o.bufSize then ialignAddr o.len+8 ≤ o.bufSize
    else o.len+8 < 2*o.bufSize → o.bufSize ≤ MAX_PACKED_OUT_ALLOC_SZ → ialignAddr o.len+8 ≤ 2*o.bufSize
  | _ => True

def MeetsRun (o : PackedOutput) : List Op → Prop
  | [] => True
  | op::ops => Meets o op ∧ MeetsRun (apply o op).1 ops

theorem extendInside (o extLen) : ∀ s ∈ (extendPackedOutput o extLen).2, Inside s := by
  intro s mem
  unfold extendPackedOutput at mem
  split at mem
  · contradiction
  · rw [mem_singleton.mp mem]
    exact le_refl _

theorem extendRoom (o extLen) : o.len+extLen ≤ (extendPackedOutput o extLen).1.bufSize := by
  unfold extendPackedOutput grownSize
  split
  · assumption
  · dsimp only
    split <;> omega

theorem extendMore (o extLen) :
    o.len+extLen+1 ≤ (extendPackedOutput o extLen).1.bufSize ↔ o.len+extLen ≠ o.bufSize := by
  unfold extendPackedOutput grownSize PACKED_OUT_ALLOC_SZ
  split
  · dsimp only
    omega
  · dsimp only
    split <;> omega

theorem unchangedSound {o} (fits : Fits o) : Sound (unchanged o) :=
  ⟨fits,fun _ mem => absurd mem not_mem_nil⟩

theorem storeSound (o reserve outPtr count advance) : Sound (store o reserve outPtr count advance) ↔
    outPtr+advance ≤ (extendPackedOutput o reserve).1.bufSize ∧
    outPtr+count ≤ (extendPackedOutput o reserve).1.bufSize := by
  constructor
  · rintro ⟨fits,inside⟩
    exact ⟨fits,inside _ (mem_append_right _ mem_cons_self)⟩
  rintro ⟨fits,last⟩
  refine ⟨fits,?_⟩
  intro s mem
  rcases mem_append.mp mem with grown | here
  · exact extendInside o reserve s grown
  · rw [mem_singleton.mp here]
    exact last

theorem storeWithin {o reserve outPtr count advance} (counted : outPtr+count ≤ o.len+reserve)
    (advanced : outPtr+advance ≤ o.len+reserve) : Sound (store o reserve outPtr count advance) :=
  (storeSound ..).mpr ⟨advanced.trans (extendRoom o reserve),counted.trans (extendRoom o reserve)⟩

theorem thenSound {e f} (first : Sound e) (second : Sound (f e.1)) : Sound (e.then f) := by
  refine ⟨second.1,?_⟩
  intro s mem
  rcases mem_append.mp mem with early | late
  · exact first.2 s early
  · exact second.2 s late

theorem alignBound (p) {boundary} (positive : 0 < boundary) : alignAddrToBoundary p boundary ≤ p+boundary := by
  unfold alignAddrToBoundary
  split <;> omega

theorem tagLength (name flag) : (tagText name flag).length+1 ≤ name.length+5 := by
  cases flag <;> simp [tagText,endTag]

theorem storedBound (inPtr numElement name number prot) :
    storedNumbers inPtr numElement name number prot ≤ numElement := by
  have loop : ∀ n rest, (unpackXmlNumbers number name n rest).2.1.length ≤ n := by
    intro n
    induction n with
    | zero => exact fun rest => le_refl _
    | succ n ih =>
      intro rest
      unfold unpackXmlNumbers
      split
      · exact zero_le _
      split
      · exact zero_le _
      · exact succ_le_succ (ih _)
  cases prot with
  | native => exact le_refl _
  | xml =>
    cases inPtr with
    | none => exact le_refl _
    | some rest => exact loop numElement rest

theorem writtenLong {inPtr len name type prot} : len < writtenBytes inPtr len name type prot ↔
    type = .bin ∧ prot = .xml ∧ Overlong inPtr len name := by
  unfold writtenBytes Overlong
  cases prot with
  | native => simp
  | xml =>
    cases inPtr with
    | none => simp
    | some rest =>
      rcases parsed : parseXmlValue rest name with ⟨value,_ | ⟨inLen,skip⟩⟩
      · simp [parsed]
      cases type with
      | bin => simp [parsed,Base64.overrunExactly]
      | char =>
        simp only [parsed]
        split <;> simp_all

theorem writtenNear {inPtr len name type prot} : writtenBytes inPtr len name type prot ≤ len+1 := by
  unfold writtenBytes
  split
  · exact le_succ len
  split
  · exact le_succ len
  split
  · exact zero_le _
  split
  · exact Base64.writesNear (Nat.le_refl 3) (zero_le _) _
  · split <;> omega

theorem slotRoom (o) : ialignAddr o.len+8 ≤ (extendPackedOutput o 8).1.bufSize ↔
    Meets o .addPointerToPackedOut := by
  have near := alignBound o.len (show 0 < 8 by decide)
  unfold Meets extendPackedOutput grownSize ialignAddr alignDouble MAX_PACKED_OUT_ALLOC_SZ PACKED_OUT_ALLOC_SZ
  split
  · exact .rfl
  · dsimp only
    split <;> omega

theorem packXmlTagSound (o name flag) : Sound (packXmlTag o name flag) := by
  have short := tagLength name flag
  exact storeWithin (by omega) (by omega)

theorem applySound {o} (fits : Fits o) (op) : Sound (apply o op) ↔ Meets o op := by
  cases op with
  | packNatString inPtr maxStrLen =>
    refine iff_of_true ?_ trivial
    unfold apply packNatString
    dsimp only
    split
    · exact unchangedSound fits
    · exact storeWithin (Nat.le_refl _) (Nat.le_refl _)
  | packXmlString inPtr maxStrLen name peer =>
    refine iff_of_true ?_ trivial
    unfold apply packXmlString
    dsimp only
    split
    · exact unchangedSound fits
    split
    · exact unchangedSound fits
    · refine thenSound (thenSound (packXmlTagSound o name .start) ?_) (packXmlTagSound _ name .finish)
      exact storeWithin (Nat.le_refl _) (by omega)
  | packXmlTag name flag => exact iff_of_true (packXmlTagSound o name flag) trivial
  | unpackNatString inPtr maxStrLen =>
    refine iff_of_true ?_ trivial
    unfold apply unpackNatString
    dsimp only
    split
    · split
      · exact unchangedSound fits
      · exact storeWithin (Nat.le_refl _) (Nat.le_refl _)
    · exact storeWithin (by omega) (Nat.le_refl _)
  | unpackXmlString inPtr _ name peer =>
    unfold apply unpackXmlString Meets
    dsimp only
    split
    · rename_i unread
      refine iff_of_true (unchangedSound fits) ?_
      intro _ s read
      rw [unread] at read
      contradiction
    · rename_i s read
      have only : ∀ t, inPtr.bind (xmlString · name peer) = some t → t = s := by
        intro t same
        rw [read] at same
        exact (Option.some.inj same).symm
      split
      · split
        · exact iff_of_true (unchangedSound fits) (by omega)
        rw [storeSound,and_self,← Nat.add_assoc,extendMore]
        constructor
        · intro other _ t same
          rw [only t same]
          exact other
        · intro other
          exact other (by omega) s read
      · exact iff_of_true (storeWithin (by omega) (Nat.le_refl _)) (by omega)
  | unpackInt inPtr numElement name prot =>
    refine iff_of_true ?_ trivial
    have bound := storedBound inPtr numElement name atoi prot
    have near := alignBound o.len (show 0 < 4 by decide)
    unfold apply unpackInt
    dsimp only
    split
    · exact unchangedSound fits
    · exact storeWithin (by unfold alignInt; omega) (by unfold alignInt; omega)
  | unpackDouble inPtr numElement name prot =>
    refine iff_of_true ?_ trivial
    have bound := storedBound inPtr numElement name strtoll0 prot
    have near := alignBound o.len (show 0 < 8 by decide)
    unfold apply unpackDouble
    dsimp only
    split
    · exact unchangedSound fits
    · exact storeWithin (by unfold alignDouble; omega) (by unfold alignDouble; omega)
  | unpackChar inPtr len name type prot =>
    unfold apply unpackChar Meets
    dsimp only
    split
    · rename_i empty
      exact iff_of_true (unchangedSound fits) fun other => absurd empty other
    · rename_i full
      rw [storeSound,and_iff_right (extendRoom o len)]
      by_cases long : len < writtenBytes inPtr len name type prot
      · have more : writtenBytes inPtr len name type prot = len+1 := by
          have near := @writtenNear inPtr len name type prot
          omega
        obtain ⟨bin,xml,overlong⟩ := writtenLong.mp long
        rw [more,← Nat.add_assoc,extendMore]
        exact ⟨fun other _ _ _ _ => other,fun other => other full bin xml overlong⟩
      · refine iff_of_true ?_ fun _ bin xml overlong => absurd (writtenLong.mpr ⟨bin,xml,overlong⟩) long
        exact (Nat.add_le_add_left (Nat.not_lt.mp long) o.len).trans (extendRoom o len)
  | addPointerToPackedOut => exact (storeSound ..).trans (and_self_iff.trans (slotRoom o))

theorem runSound {o} (fits : Fits o) (ops) : SoundRun o ops ↔ MeetsRun o ops := by
  induction ops generalizing o with
  | nil => exact .rfl
  | cons op _ ih =>
    unfold SoundRun MeetsRun
    rw [applySound fits op]
    refine and_congr_right fun met => ?_
    exact ih ((applySound fits op).mpr met).1

theorem bufferSound (capacity : Nat) (ops : List Op) :
    SoundRun (initPackedOutput capacity) ops ↔ MeetsRun (initPackedOutput capacity) ops :=
  runSound (show Fits (initPackedOutput capacity) from Nat.zero_le capacity) ops

theorem writtenOutside :
    ¬SoundRun (initPackedOutput 2) [.unpackXmlString (some (lit "<a>xy</a>")) (-1) (lit "a") none] ∧
    ¬SoundRun (initPackedOutput 9) [.packNatString (some []) (-1),.addPointerToPackedOut] ∧
    ¬SoundRun (initPackedOutput 3) [.unpackChar (some (lit "<a>AAAAA===</a>")) 3 (lit "a") .bin .xml] := by
  decide

end Irods.PackStruct
