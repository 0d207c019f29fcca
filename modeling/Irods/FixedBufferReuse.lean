import Irods.FixedBufferSound

/-! Giving a block back and asking for the same again. -/
namespace Irods.FixedBuffer
open List Nat

/- A larger block is cut; a block of just the size asked for serves only when the space behind the
stored pointer wraps. -/
def Fits (bytes alignment : Nat) (h : Header) : Prop :=
  h.used = false ∧ ((h.size ≠ bytes ∧ sizeofPointer+bytes+alignment-1 ≤ h.size) ∨
    (h.size = bytes ∧ bytes < sizeofPointer ∧ roundUp alignment (addressOfDataSegment h+sizeofPointer) < wordSize))

instance (bytes alignment h) : Decidable (Fits bytes alignment h) := by unfold Fits; infer_instance

theorem stdAlignFits {a size ptr space} (positive : 0 < a) (some : 0 < ptr) (below : roundUp a ptr < wordSize)
    (room : size+(roundUp a ptr-ptr) ≤ space) :
    stdAlign a size ptr space = .some (roundUp a ptr,space-(roundUp a ptr-ptr)) := by
  have up := roundUpSpec positive ptr
  unfold stdAlign
  rw [if_neg (by omega)]
  dsimp only
  rw [mod_eq_of_lt below,wrapSmall up.2.1 (by omega),if_neg (by omega),if_neg (by omega)]

theorem stdAlignZero {a size ptr space} (top : roundUp a ptr = wordSize) : stdAlign a size ptr space = none := by
  unfold stdAlign
  split
  · rfl
  dsimp only
  rw [top]
  split
  · rfl
  · rfl

section Taking
variable {h : Header} {stop bytes k : Nat} (power : k < 64) (fits : addressOfDataSegment h+h.size ≤ stop)
  (top : stop+sizeofPointer ≤ wordSize)
include power fits top

theorem exactTaken (same : bytes = h.size) : (∃ found, alignedPointer bytes (2^k) h = some found) ↔
    bytes < sizeofPointer ∧ roundUp (2^k) (addressOfDataSegment h+sizeofPointer) < wordSize := by
  have positive := Nat.two_pow_pos k
  have multiple : 2^k ∣ wordSize := pow_dvd_pow 2 (Nat.le_of_lt power)
  have high := roundUpLe positive multiple (show addressOfDataSegment h+sizeofPointer ≤ wordSize by omega)
  have low : sizeofHeader ≤ addressOfDataSegment h := Nat.le_add_left _ _
  by_cases small : bytes < sizeofPointer
  · have space : wrap ((h.size : Int)-sizeofPointer) = wordSize-(sizeofPointer-bytes) := by
      unfold wrap wordSize sizeofPointer at *
      omega
    unfold alignedPointer
    rcases Nat.lt_or_eq_of_le high with below | zero
    · rw [stdAlignFits positive (by unfold sizeofPointer; omega) below
          (by unfold sizeofHeader sizeofPointer at *; omega)]
      dsimp only
      rw [if_neg (by unfold sizeofHeader sizeofPointer at *; omega)]
      exact ⟨fun _ => ⟨small,below⟩,fun _ => ⟨_,rfl⟩⟩
    · rw [stdAlignZero zero]
      refine ⟨?_,fun both => absurd zero (Nat.ne_of_lt both.2)⟩
      rintro ⟨_,found⟩
      cases found
  · constructor
    · rintro ⟨_,aligned⟩
      exact absurd (exactSmall fits (by omega) same aligned) small
    · exact fun both => absurd both.1 small

omit power in
theorem splitTaken (large : sizeofPointer+bytes+2^k-1 ≤ h.size) :
    ∃ ptr left, alignedPointer bytes (2^k) h = some (ptr,left) ∧ bytes ≤ left ∧
    (sizeofHeader+alignofHeader-1 < left-bytes →
      ∃ found, stdAlign alignofHeader sizeofHeader (ptr+bytes) (left-bytes) = some found) := by
  have positive := Nat.two_pow_pos k
  have up := roundUpSpec positive (addressOfDataSegment h+sizeofPointer)
  have low : sizeofHeader ≤ addressOfDataSegment h := Nat.le_add_left _ _
  have word : sizeofPointer = 8 := rfl
  have space : wrap ((h.size : Int)-sizeofPointer) = h.size-sizeofPointer :=
    wrapSmall (by omega) (by omega)
  have aligned := @stdAlignFits (2^k) bytes (addressOfDataSegment h+sizeofPointer) (h.size-sizeofPointer) positive
    (by unfold sizeofPointer; omega) (by omega) (by omega)
  have pointer : alignedPointer bytes (2^k) h = some (roundUp (2^k) (addressOfDataSegment h+sizeofPointer),
      h.size-sizeofPointer-(roundUp (2^k)
        (addressOfDataSegment h+sizeofPointer)-(addressOfDataSegment h+sizeofPointer))) := by
    unfold alignedPointer
    rw [space,aligned]
    dsimp only
    rw [if_neg (by omega)]
  refine ⟨_,_,pointer,?_,?_⟩
  · omega
  intro room
  have next := roundUpSpec (show 0 < alignofHeader by decide)
    (roundUp (2^k) (addressOfDataSegment h+sizeofPointer)+bytes)
  unfold alignofHeader at room next
  refine ⟨_,stdAlignFits (by decide) (by unfold sizeofHeader at low; omega) ?_ ?_⟩
  · unfold alignofHeader
    omega
  · unfold alignofHeader
    omega

theorem allocateBlockFits (unwrapped : sizeofPointer+bytes+2^k-1 < wordSize) (yes : Fits bytes (2^k) h) :
    ∃ given, allocateBlock bytes (2^k) h = (some given,bytes) := by
  obtain ⟨free,large | ⟨same,small⟩⟩ := yes
  · unfold allocateBlock
    obtain ⟨_,left,found,_,next⟩ := splitTaken fits top large.2
    rw [if_neg (by rw [free]; decide),if_neg (Ne.symm large.1),mod_eq_of_lt unwrapped,if_pos large.2,found]
    dsimp only
    by_cases tight : left-bytes ≤ sizeofHeader+alignofHeader-1
    · rw [if_pos tight]
      exact ⟨_,rfl⟩
    · obtain ⟨found,moved⟩ := next (by omega)
      rw [if_neg tight,moved]
      exact ⟨_,rfl⟩
  · obtain ⟨_,aligned⟩ := (exactTaken power fits top same.symm).mpr small
    unfold allocateBlock
    rw [if_neg (by rw [free]; decide),if_pos same.symm,aligned]
    exact ⟨_,rfl⟩

theorem allocateBlockRefuses (unwrapped : sizeofPointer+bytes+2^k-1 < wordSize) (no : ¬ Fits bytes (2^k) h) :
    allocateBlock bytes (2^k) h = (none,0) := by
  unfold allocateBlock
  by_cases used : h.used = true
  · rw [if_pos used]
  rw [if_neg used]
  have free : h.used = false := by simpa using used
  by_cases same : bytes = h.size
  · rw [if_pos same]
    cases aligned : alignedPointer bytes (2^k) h with
    | none => rfl
    | some found => exact absurd ⟨free,.inr ⟨same.symm,(exactTaken power fits top same).mp ⟨found,aligned⟩⟩⟩ no
  · rw [if_neg same,mod_eq_of_lt unwrapped]
    split
    · rename_i large
      exact absurd ⟨free,.inl ⟨Ne.symm same,large⟩⟩ no
    · rfl

end Taking

theorem allocateFromFits {stop bytes k headers} (power : k < 64) (top : stop+sizeofPointer ≤ wordSize)
    (unwrapped : sizeofPointer+bytes+2^k-1 < wordSize)
    (room : ∀ h ∈ headers, h.used = false → addressOfDataSegment h+h.size ≤ stop) :
    ((∃ h ∈ headers, Fits bytes (2^k) h) → ∃ given, allocateFrom bytes (2^k) headers = (some given,bytes)) ∧
    ((¬ ∃ h ∈ headers, Fits bytes (2^k) h) → allocateFrom bytes (2^k) headers = (none,0)) := by
  induction headers with
  | nil => exact ⟨by simp,fun _ => rfl⟩
  | cons h _ ih =>
    obtain ⟨here,later⟩ := forall_mem_cons.mp room
    obtain ⟨some,none⟩ := ih later
    by_cases yes : Fits bytes (2^k) h
    · obtain ⟨given,taken⟩ := allocateBlockFits power (here yes.1) top unwrapped yes
      refine ⟨fun _ => ?_,fun no => absurd ⟨h,mem_cons_self,yes⟩ no⟩
      rw [allocateFrom,taken]
      exact ⟨_,rfl⟩
    · have refused : allocateBlock bytes (2^k) h = (.none,0) := by
        by_cases used : h.used = true
        · unfold allocateBlock
          rw [if_pos used]
        · exact allocateBlockRefuses power (here (by simpa using used)) top unwrapped yes
      rw [allocateFrom,refused]
      constructor
      · rintro ⟨x,mem,fits⟩
        rcases mem_cons.mp mem with rfl | mem
        · contradiction
        obtain ⟨given,taken⟩ := some ⟨x,mem,fits⟩
        rw [taken]
        exact ⟨{given with headers := h::given.headers},by simp only [Option.map_some,zero_add]⟩
      · intro no
        rw [none fun some => no (some.imp fun x both => both.imp_left (mem_cons_of_mem _))]
        rfl

def joinNext (stop : Nat) (h : Header) : List Header → Header × List Header
  | [] => (h,[])
  | next::later => if next.used then
      (h,next::later) else ({h with size := endOf stop later-addressOfDataSegment h},later)

def freed (stop : Nat) (h : Header) (rest : List Header) : List Header → List Header
  | [] => (joinNext stop {h with used := false} rest).1::(joinNext stop {h with used := false} rest).2
  | p::earlier =>
    let (joined,later) := joinNext stop {h with used := false} rest
    if p.used then joined::later ++ p::earlier
    else {p with size := endOf stop later-addressOfDataSegment p}::later ++ earlier

theorem joinUnused {stop h rest} (free : h.used = false) :
    (joinNext stop h rest).1.used = false ∧ (joinNext stop h rest).1.addr = h.addr := by
  cases rest with
  | nil => exact ⟨free,rfl⟩
  | cons _ _ =>
    rw [joinNext]
    split <;> exact ⟨free,rfl⟩

theorem coalesceNext {stop} (top : stop ≤ wordSize) {h rest} (free : h.used = false)
    (laid : Laid stop (h::rest)) : coalesce stop (h::rest) = (joinNext stop h rest).1::(joinNext stop h rest).2 := by
  cases rest with
  | nil => rfl
  | cons next _ =>
    rw [coalesce,joinNext,free,Bool.false_or]
    split
    · rfl
    obtain ⟨⟨before,-⟩,tail⟩ := laidCons.mp laid
    obtain ⟨⟨after,-⟩,last⟩ := laidCons.mp tail
    have ending := laidEnd last
    change addressOfDataSegment h ≤ next.addr at before
    unfold addressOfDataSegment at after
    rw [wrapSmall (by omega) (by unfold addressOfDataSegment sizeofHeader at *; omega)]

theorem coalescePrev {stop} (top : stop ≤ wordSize) {p m later} (free : m.used = false)
    (laid : Laid stop (m::later)) (before : addressOfDataSegment p ≤ m.addr) :
    coalesce stop (p::m::later) = if p.used then p::m::later
      else {p with size := endOf stop later-addressOfDataSegment p}::later := by
  obtain ⟨⟨after,-⟩,last⟩ := laidCons.mp laid
  have ending := laidEnd last
  unfold addressOfDataSegment at after
  rw [coalesce,free,Bool.or_false,wrapSmall (by omega) (by unfold addressOfDataSegment sizeofHeader at *; omega)]

theorem releaseAt {stop addr p h front rest} (here : h.addr = addr)
    (others : ∀ x ∈ front ++ [p], x.addr ≠ addr) : release stop addr (front ++ p::h::rest) =
      front ++ coalesce stop (p::coalesce stop ({h with used := false}::rest)) := by
  induction front with
  | nil =>
    have apart := others p (by simp)
    have next : endOf stop (h::rest) = addr := here
    rw [nil_append,release,if_neg apart,if_pos next,release,if_pos here]
    rfl
  | cons x front ih =>
    have apart := others x (by simp)
    have next : endOf stop (front ++ p::h::rest) ≠ addr := by
      cases front with
      | nil => exact others p (by simp)
      | cons y _ => exact others y (by simp)
    rw [cons_append,release,if_neg apart,if_neg next,ih (forall_mem_cons.mp others).2]
    rfl

theorem releaseFreed {stop addr} (top : stop ≤ wordSize) {h front rest} (here : h.addr = addr)
    (others : ∀ x ∈ front, x.addr ≠ addr) (laid : Laid stop (front.reverse ++ {h with used := false}::rest)) (x) :
    x ∈ release stop addr (front.reverse ++ h::rest) ↔ x ∈ freed stop h rest front := by
  obtain ⟨earlier,tail⟩ := laidAppend.mp laid
  have joined := coalesceNext top rfl tail
  cases front with
  | nil =>
    rw [reverse_nil,nil_append,release,if_pos here,joined]
    exact .rfl
  | cons p front =>
    rw [reverse_cons] at earlier ⊢
    have split : front.reverse ++ [p] ++ h::rest = front.reverse ++ p::h::rest := by simp
    have laid' := (@coalesceKeeps stop addr _ top tail).laid
    have unused := @joinUnused stop {h with used := false} rest rfl
    have before : addressOfDataSegment p ≤ (joinNext stop {h with used := false} rest).1.addr := by
      rw [unused.2]
      exact (laidCons.mp (laidAppend.mp earlier).2).1.1
    rw [joined] at laid'
    rw [split,releaseAt here fun y mem => others y (by simpa [or_comm] using mem),joined,
        coalescePrev top unused.1 laid' before]
    unfold freed
    by_cases used : p.used = true
    · simp only [if_pos used,mem_append,mem_cons,mem_reverse]
      tauto
    · simp only [if_neg used,mem_append,mem_reverse]
      tauto

theorem segmentSplit {stop headers g} (mem : g ∈ segments stop headers) :
    ∃ front rest, headers = front ++ g.1::rest ∧ g.2 = endOf stop rest := by
  induction headers with
  | nil => cases mem
  | cons h rest ih =>
    rcases mem_cons.mp mem with rfl | mem
    · exact ⟨[],rest,rfl,rfl⟩
    · obtain ⟨front,later,shape,ending⟩ := ih mem
      exact ⟨h::front,later,by rw [shape]; rfl,ending⟩

theorem frontBelow {stop front rest h x} (laid : Laid stop (front ++ h::rest)) (mem : x ∈ front) :
    x.addr < h.addr := by
  obtain ⟨earlier,-⟩ := laidAppend.mp laid
  obtain ⟨stop',found⟩ := @segmentOf (endOf stop (h::rest)) front x mem
  have fits := (earlier _ found).1
  have below := (segmentBounds earlier found).2
  change stop' ≤ h.addr at below
  change addressOfDataSegment x ≤ stop' at fits
  unfold addressOfDataSegment sizeofHeader at fits
  omega

structure Asked (s : State) : Prop where
  requests : ∀ b ∈ s.live, ∃ k < 64, b.alignment = 2^k ∧ sizeofPointer+b.bytes+b.alignment-1 < wordSize
  counted : s.resource.allocated < wordSize

theorem askedStep {s op} (asked : Asked s) (legal : Legal s op) (meets : Meets s op) : Asked (step s op) := by
  have positive : 0 < wordSize := by decide
  cases op with
  | allocate bytes _ =>
    obtain ⟨-,k,power,rfl⟩ := legal
    change Asked (doAllocate s bytes (2^k))
    unfold doAllocate
    split
    · exact ⟨asked.requests,mod_lt _ positive⟩
    refine ⟨?_,mod_lt _ positive⟩
    intro b mem
    rcases mem_cons.mp mem with rfl | old
    · exact ⟨k,power,rfl,meets.1⟩
    · exact asked.requests b old
  | deallocate b =>
    refine ⟨fun c mem => asked.requests c (mem_of_mem_erase mem),?_⟩
    change wrap _ < wordSize
    unfold wrap wordSize
    omega

theorem askedRun {s ops} (asked : Asked s) (legal : LegalRun s ops) (meets : MeetsRun s ops) :
    Asked (run s ops) := by
  induction ops generalizing s with
  | nil => exact asked
  | cons _ _ ih => exact ih (askedStep asked legal.1 meets.1) legal.2 meets.2

theorem stepPlace (s op) : (step s op).base = s.base ∧ (step s op).resource.buffer_size = s.resource.buffer_size := by
  cases op with
  | allocate bytes alignment =>
    change (doAllocate s bytes alignment).base = _ ∧ (doAllocate s bytes alignment).resource.buffer_size = _
    unfold doAllocate
    split <;> exact ⟨rfl,rfl⟩
  | deallocate b => exact ⟨rfl,rfl⟩

theorem runPlace (s ops) : (run s ops).base = s.base ∧ (run s ops).resource.buffer_size = s.resource.buffer_size := by
  induction ops generalizing s with
  | nil => exact ⟨rfl,rfl⟩
  | cons op _ ih =>
    obtain ⟨base,size⟩ := stepPlace s op
    obtain ⟨base',size'⟩ := ih (step s op)
    exact ⟨base'.trans base,size'.trans size⟩

structure Reclaimed (s : State) (b : Block) : Prop where
  given : (allocateFrom b.bytes b.alignment (doDeallocate s b).resource.headers).1.isSome = true
  counted : (doAllocate (doDeallocate s b) b.bytes b.alignment).resource.allocated = s.resource.allocated

def Serves (s : State) (b : Block) : Prop :=
  ∃ front h rest, s.resource.headers = front.reverse ++ h::rest ∧ addressOfDataSegment h = b.data ∧
    ∃ x ∈ freed (s.base+s.resource.buffer_size) h rest front, Fits b.bytes b.alignment x

theorem servesReleased {s} (inv : Inv s) {b} (live : b ∈ s.live) :
    Serves s b ↔ ∃ x ∈ (doDeallocate s b).resource.headers, Fits b.bytes b.alignment x := by
  have split : ∀ {front h rest}, s.resource.headers = front.reverse ++ h::rest → addressOfDataSegment h = b.data →
      ∀ x, x ∈ (doDeallocate s b).resource.headers ↔ x ∈ freed (s.base+s.resource.buffer_size) h rest front := by
    intro front h rest shape data x
    obtain ⟨mine,found,holds⟩ := inv.held b live
    have laid := inv.laid
    rw [shape] at laid found
    have listed : (h,endOf (s.base+s.resource.buffer_size) rest) ∈
      segments (s.base+s.resource.buffer_size) (front.reverse ++ h::rest) := by
      rw [segmentsAppend]
      exact mem_append_right _ mem_cons_self
    have same := segmentUnique laid found listed (add_right_cancel (holds.data.trans data.symm))
    subst same
    have within := holds.within
    have behind := holds.behind
    have size := holds.size
    dsimp only at within size
    have address : h.addr = b.data-sizeofHeader := by
      unfold addressOfDataSegment at data
      omega
    have laid' : Laid (s.base+s.resource.buffer_size) (front.reverse ++ {h with used := false}::rest) := by
      obtain ⟨earlier,tail⟩ := laidAppend.mp laid
      obtain ⟨⟨before,-⟩,last⟩ := laidCons.mp tail
      refine laidAppend.mpr ⟨earlier,laidCons.mpr ⟨⟨before,fun _ => ?_⟩,last⟩⟩
      change addressOfDataSegment h+h.size ≤ endOf (s.base+s.resource.buffer_size) rest
      omega
    have below : ∀ y ∈ front, y.addr ≠ b.data-sizeofHeader := by
      intro y mem
      have less := frontBelow laid (mem_reverse.mpr mem)
      omega
    have result := releaseFreed inv.top address below laid' x
    unfold doDeallocate
    rw [inv.start,shape]
    exact result
  constructor
  · rintro ⟨front,h,rest,shape,data,x,mem,fits⟩
    exact ⟨x,(split shape data x).mpr mem,fits⟩
  rintro ⟨x,mem,fits⟩
  obtain ⟨mine,found,holds⟩ := inv.held b live
  obtain ⟨front,rest,shape,-⟩ := segmentSplit found
  rw [← reverse_reverse front] at shape
  exact ⟨front.reverse,mine.1,rest,shape,holds.data,x,(split shape holds.data x).mp mem,fits⟩

theorem reclaimedServed {s} (inv : Inv s) (asked : Asked s)
    (top : s.base+s.resource.buffer_size+sizeofPointer ≤ wordSize)
    {b} (live : b ∈ s.live) : Reclaimed s b ↔ Serves s b := by
  rw [servesReleased inv live]
  obtain ⟨k,power,alignment,unwrapped⟩ := asked.requests b live
  rw [alignment] at unwrapped
  have after := invDeallocate inv live
  have room : ∀ h ∈ (doDeallocate s b).resource.headers, h.used = false →
      addressOfDataSegment h+h.size ≤ s.base+s.resource.buffer_size := by
    intro h mem free
    obtain ⟨_,found⟩ := @segmentOf (s.base+s.resource.buffer_size) _ h mem
    have fits := (after.laid _ found).2 free
    have below := (segmentBounds after.laid found).2
    exact le_trans fits below
  obtain ⟨some,none⟩ := allocateFromFits power top unwrapped room
  rw [← alignment] at some none
  constructor
  · intro reclaimed
    by_contra no
    have failed := reclaimed.given
    rw [none no] at failed
    cases failed
  · intro serves
    obtain ⟨_,taken⟩ := some serves
    refine ⟨by rw [taken]; rfl,?_⟩
    unfold doAllocate
    rw [taken]
    change (wrap ((s.resource.allocated : Int)-b.bytes)+b.bytes) % wordSize = s.resource.allocated
    have counted := asked.counted
    unfold wrap wordSize at *
    omega

theorem reclaimedExactly {buffer buffer_size : Nat} {r : Resource} (aligned : alignofHeader ∣ buffer)
    (top : buffer+buffer_size+sizeofPointer ≤ wordSize) (made : construct buffer buffer_size = some r) {ops : List Op}
    (legal : LegalRun ⟨buffer,r,[]⟩ ops) (meets : MeetsRun ⟨buffer,r,[]⟩ ops) {b : Block}
    (live : b ∈ (run ⟨buffer,r,[]⟩ ops).live) :
    Reclaimed (run ⟨buffer,r,[]⟩ ops) b ↔ Serves (run ⟨buffer,r,[]⟩ ops) b := by
  have size : r.buffer_size = buffer_size ∧ r.allocated = 0 := by
    unfold construct at made
    split at made
    · cases made
    split at made
    · cases made
    split at made
    · cases made
    · cases made
      exact ⟨rfl,rfl⟩
  have inv := invRun (invConstructed aligned (le_of_add_right_le top) made) legal meets
  have start : Asked ⟨buffer,r,[]⟩ := ⟨nofun,by rw [size.2]; decide⟩
  refine reclaimedServed inv (askedRun start legal meets) ?_ live
  obtain ⟨base,whole⟩ := runPlace ⟨buffer,r,[]⟩ ops
  rw [base,whole]
  rw [size.1]
  exact top

def roomyOps : List Op := [.allocate 16 16,.allocate 8 8]
def fullOps : List Op := [.allocate 16 16,.allocate 8 8,.allocate 100 1]
def firstBlock : Block := ⟨4144,16,16,4128⟩

theorem roomyReclaimed : firstBlock ∈ (run ⟨4096,page,[]⟩ roomyOps).live ∧
    Reclaimed (run ⟨4096,page,[]⟩ roomyOps) firstBlock := by
  have live : firstBlock ∈ (run ⟨4096,page,[]⟩ roomyOps).live := by decide +kernel
  have made : construct 4096 256 = some page := by decide +kernel
  refine ⟨live,(reclaimedExactly (by decide) (by decide +kernel) made (by decide +kernel) (by decide +kernel) live).mpr
      ?_⟩
  exact ⟨[],⟨4096,16,true⟩,[⟨4160,8,true⟩,⟨4208,112,false⟩],by decide +kernel,by decide +kernel,⟨4208,112,false⟩,
    by decide +kernel,by decide +kernel⟩

theorem blockLost : construct 4096 256 = some page ∧ LegalRun ⟨4096,page,[]⟩ fullOps ∧ MeetsRun ⟨4096,page,[]⟩ fullOps ∧
    firstBlock ∈ (run ⟨4096,page,[]⟩ fullOps).live ∧
    (allocateFrom 16 16 (doDeallocate (run ⟨4096,page,[]⟩ fullOps) firstBlock).resource.headers).1 = none := by
      decide +kernel

end Irods.FixedBuffer
