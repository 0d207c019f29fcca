import Irods.FixedBuffer

/-! On a buffer aligned for the headers every block stays in the segment behind
its header, up to the next one. -/
namespace Irods.FixedBuffer
open List Nat

theorem roundUpSpec {a} (positive : 0 < a) (p) : a ∣ roundUp a p ∧ p ≤ roundUp a p ∧ roundUp a p < p+a := by
  unfold roundUp
  have parts := div_add_mod (p+a-1) a
  have small := mod_lt (p+a-1) positive
  rw [mul_comm] at parts
  exact ⟨dvd_mul_left _ _,by omega,by omega⟩

theorem roundUpLe {a p n} (positive : 0 < a) (multiple : a ∣ n) (below : p ≤ n) : roundUp a p ≤ n := by
  obtain ⟨m,rfl⟩ := multiple
  have quotient : (p+a-1)/a ≤ m := by
    rw [div_le_iff_le_mul_add_pred positive]
    omega
  calc roundUp a p ≤ m*a := mul_le_mul_right a quotient
    _ = a*m := mul_comm m a

theorem wrapSmall {a b} (below : b ≤ a) (bound : a-b < wordSize) : wrap (a-b) = a-b := by
  unfold wrap wordSize at *
  omega

theorem stdAlignPointer {a size ptr space p left} (positive : 0 < a) (top : roundUp a ptr ≤ wordSize)
    (found : stdAlign a size ptr space = some (p,left)) :
    p = roundUp a ptr ∧ size+(roundUp a ptr-ptr) ≤ space ∧ left = space-(roundUp a ptr-ptr) := by
  have up := roundUpSpec positive ptr
  unfold stdAlign at found
  split at found
  · contradiction
  dsimp only at found
  split at found
  · contradiction
  split at found
  · contradiction
  rename_i room nonzero
  have below : roundUp a ptr < wordSize := by
    rcases lt_or_eq_of_le top with less | same
    · exact less
    · rw [same] at nonzero
      contradiction
  rw [mod_eq_of_lt below,wrapSmall up.2.1 (by omega)] at found room
  obtain ⟨rfl,rfl⟩ := found
  exact ⟨rfl,by omega,rfl⟩

theorem stdAlignSpec {k size ptr space p left} (power : k < 64) (top : ptr+space ≤ wordSize)
    (found : stdAlign (2^k) size ptr space = some (p,left)) :
    2^k ∣ p ∧ ptr ≤ p ∧ p+left = ptr+space ∧ size ≤ left := by
  have positive := Nat.two_pow_pos k
  have up := roundUpSpec positive ptr
  have multiple := pow_dvd_pow 2 (Nat.le_of_lt power)
  obtain ⟨rfl,_,rfl⟩ := stdAlignPointer positive (roundUpLe positive multiple (by omega)) found
  exact ⟨up.1,up.2.1,by omega,by omega⟩

theorem alignedPointerFound {bytes alignment h p left} (found : alignedPointer bytes alignment h = some (p,left)) :
    stdAlign alignment bytes (addressOfDataSegment h+sizeofPointer) (wrap (h.size-sizeofPointer)) = some (p,left) := by
  unfold alignedPointer at found
  split at found
  · contradiction
  rename_i aligned
  split at found
  · contradiction
  · rw [aligned,found]

theorem endOfAppend (stop a b) : endOf stop (a ++ b) = endOf (endOf stop b) a := by
  cases a with
  | nil => rfl
  | cons h a => rfl

theorem segmentsAppend (stop a b) :
    segments stop (a ++ b) = segments (endOf stop b) a ++ segments stop b := by
  induction a with
  | nil => rfl
  | cons h a ih => rw [cons_append,segments,segments,ih,endOfAppend,cons_append]

def Laid (stop : Nat) (headers : List Header) : Prop :=
  ∀ g ∈ segments stop headers, addressOfDataSegment g.1 ≤ g.2 ∧
    (g.1.used = false → addressOfDataSegment g.1+g.1.size ≤ g.2)

theorem laidCons {stop h rest} : Laid stop (h::rest) ↔
    (addressOfDataSegment h ≤ endOf stop rest ∧ (h.used = false → addressOfDataSegment h+h.size ≤ endOf stop rest)) ∧
      Laid stop rest := by
  simp [Laid,segments]

theorem laidAppend {stop a b} : Laid stop (a ++ b) ↔ Laid (endOf stop b) a ∧ Laid stop b := by
  simp only [Laid,segmentsAppend,forall_mem_append]

section
variable {stop headers} (laid : Laid stop headers)
include laid

theorem laidEnd : endOf stop headers ≤ stop := by
  induction headers with
  | nil => exact le_refl _
  | cons h _ ih =>
    obtain ⟨⟨fits,-⟩,later⟩ := laidCons.mp laid
    have ending := ih later
    unfold addressOfDataSegment at fits
    change h.addr ≤ stop
    omega

theorem segmentBounds {g} (mem : g ∈ segments stop headers) : endOf stop headers ≤ g.1.addr ∧ g.2 ≤ stop := by
  induction headers with
  | nil => contradiction
  | cons h _ ih =>
    obtain ⟨⟨fits,-⟩,later⟩ := laidCons.mp laid
    have ending := laidEnd later
    rcases mem_cons.mp mem with rfl | behind
    · exact ⟨le_refl _,ending⟩
    obtain ⟨_,high⟩ := ih later behind
    unfold addressOfDataSegment at fits
    exact ⟨by change h.addr ≤ g.1.addr; omega,high⟩

theorem segmentsApart {a b} (left : a ∈ segments stop headers) (right : b ∈ segments stop headers) :
    a = b ∨ a.2 ≤ b.1.addr ∨ b.2 ≤ a.1.addr := by
  induction headers with
  | nil => contradiction
  | cons h _ ih =>
    obtain ⟨-,later⟩ := laidCons.mp laid
    rcases mem_cons.mp left with rfl | left
    · rcases mem_cons.mp right with rfl | right
      · exact .inl rfl
      · exact .inr (.inl (segmentBounds later right).1)
    · rcases mem_cons.mp right with rfl | right
      · exact .inr (.inr (segmentBounds later left).1)
      · exact ih later left right

theorem segmentUnique {a b} (left : a ∈ segments stop headers) (right : b ∈ segments stop headers)
    (same : a.1.addr = b.1.addr) : a = b := by
  have one := (laid a left).1
  have two := (laid b right).1
  unfold addressOfDataSegment sizeofHeader at one two
  rcases segmentsApart laid left right with equal | _ | _
  · exact equal
  · omega
  · omega

end

theorem segmentOf {stop headers h} (mem : h ∈ headers) : ∃ stop', (h,stop') ∈ segments stop headers := by
  induction headers with
  | nil => contradiction
  | cons _ _ ih =>
    rcases mem_cons.mp mem with rfl | later
    · exact ⟨_,mem_cons_self⟩
    · obtain ⟨stop',found⟩ := ih later
      exact ⟨stop',mem_cons_of_mem _ found⟩

structure Placed (h : Header) (stop bytes alignment ptr : Nat) (new : List Header) : Prop where
  multiple : alignment ∣ ptr
  behind : addressOfDataSegment h+sizeofPointer ≤ ptr
  shape : ∃ extra, new = {h with size := bytes,used := true}::extra ∧ ptr+bytes ≤ endOf stop extra ∧ Laid stop extra

section Taking
variable {h : Header} {stop bytes k : Nat} (power : k < 64) (fits : addressOfDataSegment h+h.size ≤ stop)
    (top : stop ≤ wordSize)
include power fits top

omit power in
/- A block of just this size: the space behind the stored pointer is too small unless the difference wraps. -/
theorem exactSmall {found} (same : bytes = h.size) (aligned : alignedPointer bytes (2^k) h = some found) :
    bytes < sizeofPointer := by
  by_contra large
  have moved := alignedPointerFound aligned
  have space : wrap ((h.size : Int)-sizeofPointer) = h.size-sizeofPointer :=
    wrapSmall (by omega) (by unfold addressOfDataSegment sizeofHeader at fits; omega)
  rw [stdAlign,if_pos (by unfold sizeofPointer at *; omega)] at moved
  contradiction
omit power in
theorem exactPlaced {ptr left} (same : bytes = h.size)
    (room : bytes < sizeofPointer → roundUp (2^k) (addressOfDataSegment h+sizeofPointer)+bytes ≤ stop)
    (found : alignedPointer bytes (2^k) h = some (ptr,left)) :
    Placed h stop bytes (2^k) ptr [{h with used := true}] := by
  have positive := Nat.two_pow_pos k
  have up := roundUpSpec positive (addressOfDataSegment h+sizeofPointer)
  have aligned := alignedPointerFound found
  have enough := room (exactSmall fits top same found)
  obtain ⟨rfl,-⟩ := stdAlignPointer positive (by omega) aligned
  exact ⟨up.1,up.2.1,[],by rw [same],enough,nofun⟩

theorem splitSpace {ptr left} (large : sizeofPointer ≤ h.size)
    (found : alignedPointer bytes (2^k) h = some (ptr,left)) :
    2^k ∣ ptr ∧ addressOfDataSegment h+sizeofPointer ≤ ptr ∧ ptr+left ≤ stop ∧ bytes ≤ left := by
  have space := wrapSmall large (by unfold addressOfDataSegment sizeofHeader at fits; omega)
  have aligned := alignedPointerFound found
  obtain ⟨multiple,behind,_,enough⟩ := stdAlignSpec power (by omega) aligned
  exact ⟨multiple,behind,by omega,enough⟩

omit power fits top in
theorem allocateBlockUnused {alignment ptr added new}
    (taken : allocateBlock bytes alignment h = (some (ptr,new),added)) : h.used = false := by
  by_contra used
  rw [allocateBlock,if_pos (by simpa using used)] at taken
  cases taken

theorem allocateBlockPlaced {ptr added new} (unwrapped : sizeofPointer+bytes+2^k-1 < wordSize)
    (room : h.used = false → h.size = bytes → bytes < sizeofPointer →
      roundUp (2^k) (addressOfDataSegment h+sizeofPointer)+bytes ≤ stop)
    (taken : allocateBlock bytes (2^k) h = (some (ptr,new),added)) : Placed h stop bytes (2^k) ptr new := by
  have positive := Nat.two_pow_pos k
  have free := allocateBlockUnused taken
  unfold allocateBlock at taken
  split at taken
  · cases taken
  split at taken
  · rename_i same
    split at taken
    · cases taken
    rename_i found
    cases taken
    exact exactPlaced fits top same (room free same.symm) found
  · split at taken
    · rename_i large
      rw [Nat.mod_eq_of_lt unwrapped] at large
      split at taken
      · cases taken
      rename_i found
      obtain ⟨multiple,behind,_,_⟩ := splitSpace power fits top (by omega) found
      split at taken
      · cases taken
        refine ⟨multiple,behind,[],rfl,?_,nofun⟩
        change ptr+bytes ≤ stop
        omega
      · split at taken
        · cases taken
        rename_i storage left next
        cases taken
        obtain ⟨-,after,_,_⟩ := stdAlignSpec (k := 3) (by decide) (by omega) next
        have whole : storage+sizeofHeader+(left-sizeofHeader) ≤ stop := by omega
        exact ⟨multiple,behind,_,rfl,after,laidCons.mpr ⟨⟨Nat.le_of_add_right_le whole,fun _ => whole⟩,nofun⟩⟩
    · cases taken

end Taking

structure Keeps (stop freed : Nat) (before after : List Header) : Prop where
  laid : Laid stop after
  start : endOf stop after = endOf stop before
  kept : ∀ g ∈ segments stop before, g.1.used = true → g.1.addr ≠ freed → g ∈ segments stop after

theorem keepsTrans {stop freed a b c} (first : Keeps stop freed a b) (second : Keeps stop freed b c) :
    Keeps stop freed a c :=
  ⟨second.laid,second.start.trans first.start,
    fun g mem used other => second.kept g (first.kept g mem used other) used other⟩

theorem keepsCons {stop freed h rest rest'} (laid : Laid stop (h::rest))
    (keeps : Keeps stop freed rest rest') : Keeps stop freed (h::rest) (h::rest') := by
  obtain ⟨here,-⟩ := laidCons.mp laid
  refine ⟨laidCons.mpr ⟨by rw [keeps.start]; exact here,keeps.laid⟩,rfl,?_⟩
  intro g mem used other
  rw [segments,keeps.start]
  rcases mem_cons.mp mem with rfl | later
  · exact mem_cons_self
  · exact mem_cons_of_mem _ (keeps.kept g later used other)

theorem coalesceKeeps {stop freed headers} (top : stop ≤ wordSize) (laid : Laid stop headers) :
    Keeps stop freed headers (coalesce stop headers) := by
  have same : Keeps stop freed headers headers := ⟨laid,rfl,fun _ mem _ _ => mem⟩
  unfold coalesce
  split
  · rename_i h next rest
    split
    · exact same
    rename_i unused
    simp only [Bool.or_eq_true,not_or,Bool.not_eq_true] at unused
    obtain ⟨⟨before,-⟩,later⟩ := laidCons.mp laid
    obtain ⟨⟨after,-⟩,last⟩ := laidCons.mp later
    have ending := laidEnd last
    change addressOfDataSegment h ≤ next.addr at before
    have order : addressOfDataSegment h ≤ endOf stop rest := by
      unfold addressOfDataSegment at after
      omega
    have size := wrapSmall order (by unfold addressOfDataSegment sizeofHeader at *; omega)
    refine ⟨laidCons.mpr ⟨⟨order,fun _ => ?_⟩,last⟩,rfl,?_⟩
    · change addressOfDataSegment h+wrap ((endOf stop rest : Int)-addressOfDataSegment h) ≤ endOf stop rest
      omega
    intro g mem used _
    rcases mem_cons.mp mem with rfl | mem
    · exact absurd used (by rw [unused.1]; decide)
    rcases mem_cons.mp mem with rfl | mem
    · exact absurd used (by rw [unused.2]; decide)
    · exact mem_cons_of_mem _ mem
  · exact same

theorem releaseKeeps {stop freed headers} (top : stop ≤ wordSize) (laid : Laid stop headers)
    (fits : ∀ g ∈ segments stop headers, g.1.addr = freed → addressOfDataSegment g.1+g.1.size ≤ g.2) :
    Keeps stop freed headers (release stop freed headers) := by
  induction headers with
  | nil => exact ⟨laid,rfl,fun _ mem _ _ => mem⟩
  | cons h rest ih =>
    obtain ⟨⟨before,-⟩,later⟩ := laidCons.mp laid
    rw [release]
    split
    · rename_i here
      have free : Keeps stop freed (h::rest) ({h with used := false}::rest) := by
        refine ⟨laidCons.mpr ⟨⟨before,fun _ => fits _ mem_cons_self here⟩,later⟩,rfl,?_⟩
        intro g mem _ other
        rcases mem_cons.mp mem with rfl | mem
        · contradiction
        · exact mem_cons_of_mem _ mem
      exact keepsTrans free (coalesceKeeps top free.laid)
    · have remainder := keepsCons laid (ih later (forall_mem_cons.mp fits).2)
      split
      · exact keepsTrans remainder (coalesceKeeps top remainder.laid)
      · exact remainder

structure Holds (g : Header × Nat) (b : Block) : Prop where
  used : g.1.used = true
  data : addressOfDataSegment g.1 = b.data
  size : g.1.size = b.bytes
  behind : b.data+sizeofPointer ≤ b.ptr
  within : b.ptr+b.bytes ≤ g.2

structure Inv (s : State) : Prop where
  start : s.resource.buffer = s.base
  top : s.base+s.resource.buffer_size ≤ wordSize
  laid : Laid (s.base+s.resource.buffer_size) s.resource.headers
  first : s.base ≤ endOf (s.base+s.resource.buffer_size) s.resource.headers
  held : ∀ b ∈ s.live, ∃ g ∈ segments (s.base+s.resource.buffer_size) s.resource.headers, Holds g b
  apart : s.live.Pairwise (fun a b => a.data ≠ b.data)
  aligned : ∀ b ∈ s.live, b.alignment ∣ b.ptr

theorem heldApart {s} (inv : Inv s) {a b} (left : a ∈ s.live) (right : b ∈ s.live) (other : a.data ≠ b.data) :
    a.ptr+a.bytes+sizeofPointer ≤ b.ptr ∨ b.ptr+b.bytes+sizeofPointer ≤ a.ptr := by
  obtain ⟨g,found,holds⟩ := inv.held a left
  obtain ⟨_,found',holds'⟩ := inv.held b right
  have one := holds.data
  have two := holds'.data
  have behind := holds.behind
  have behind' := holds'.behind
  have within := holds.within
  have within' := holds'.within
  unfold addressOfDataSegment at one two
  rcases segmentsApart inv.laid found found' with rfl | _ | _
  · exact absurd (holds.data.symm.trans holds'.data) other
  · exact .inl (by omega)
  · exact .inr (by omega)

theorem heldClear {s} (inv : Inv s) {b} (mem : b ∈ s.live) {h} (header : h ∈ s.resource.headers) :
    b.ptr+b.bytes ≤ h.addr ∨ h.addr+sizeofHeader+sizeofPointer ≤ b.ptr := by
  obtain ⟨g,found,holds⟩ := inv.held b mem
  obtain ⟨stop,other⟩ := @segmentOf (s.base+s.resource.buffer_size) _ h header
  have fits : addressOfDataSegment h ≤ stop := (inv.laid _ other).1
  have data := holds.data
  have behind := holds.behind
  have within := holds.within
  unfold addressOfDataSegment at data fits
  rcases segmentsApart inv.laid found other with same | (before : g.2 ≤ h.addr) | after
  · subst same
    dsimp only at data
    exact .inr (by omega)
  · exact .inl (by omega)
  · exact .inr (by omega)

theorem invSound {s} (inv : Inv s) : Sound s := by
  refine ⟨?_,inv.aligned,?_,?_⟩
  · intro b mem
    obtain ⟨g,found,holds⟩ := inv.held b mem
    have inside := segmentBounds inv.laid found
    have first := inv.first
    have data := holds.data
    have behind := holds.behind
    have within := holds.within
    unfold addressOfDataSegment at data
    omega
  · refine inv.apart.imp_of_mem ?_
    intro a b left right other
    rcases heldApart inv left right other with before | after
    · exact .inl (le_of_add_right_le before)
    · exact .inr (.inl (le_of_add_right_le after))
  · intro b mem h header
    rcases heldClear inv mem header with before | after
    · exact .inl before
    · exact .inr (.inl (le_of_add_right_le after))

theorem allocateFromTaken {bytes alignment headers g added}
    (found : allocateFrom bytes alignment headers = (some g,added)) :
    ∃ front h rest new added', headers = front ++ h::rest ∧
    allocateBlock bytes alignment h = (some (g.ptr,new),added') ∧
      g.data = addressOfDataSegment h ∧ g.headers = front ++ (new ++ rest) := by
  induction headers generalizing g added with
  | nil => cases found
  | cons h rest ih =>
    rw [allocateFrom] at found
    split at found
    · rename_i new _ taken
      cases found
      exact ⟨[],h,rest,new,_,rfl,taken,rfl,rfl⟩
    simp only [Prod.mk.injEq] at found
    obtain ⟨given,-⟩ := found
    obtain ⟨_,later,rfl⟩ := Option.map_eq_some_iff.mp given
    obtain ⟨front,h',rest',new,added',shape,taken,data,headers⟩ := ih (Prod.ext later rfl)
    exact ⟨h::front,h',rest',new,added',by rw [shape]; rfl,taken,data,by rw [headers]; rfl⟩

theorem placedKeeps {stop bytes alignment ptr front rest new h}
    (laid : Laid stop (front ++ h::rest)) (free : h.used = false)
    (placed : Placed h (endOf stop rest) bytes alignment ptr new) :
    Laid stop (front ++ (new ++ rest)) ∧ endOf stop (front ++ (new ++ rest)) = endOf stop (front ++ h::rest) ∧
    (∀ g ∈ segments stop (front ++ h::rest), g.1.used = true → g ∈ segments stop (front ++ (new ++ rest))) ∧
    ∃ g ∈ segments stop (front ++ (new ++ rest)), Holds g ⟨ptr,bytes,alignment,addressOfDataSegment h⟩ := by
  obtain ⟨earlier,here⟩ := laidAppend.mp laid
  obtain ⟨-,later⟩ := laidCons.mp here
  obtain ⟨extra,rfl,within,between⟩ := placed.shape
  have behind := placed.behind
  rw [← endOfAppend] at within
  rw [cons_append]
  have order : addressOfDataSegment h ≤ endOf stop (extra ++ rest) := by omega
  refine ⟨laidAppend.mpr ⟨earlier,laidCons.mpr ⟨⟨order,nofun⟩,laidAppend.mpr ⟨between,later⟩⟩⟩,?_,?_,?_⟩
  · rw [endOfAppend,endOfAppend stop front (h::rest)]
    rfl
  · intro g mem used
    rw [segmentsAppend] at mem ⊢
    rcases mem_append.mp mem with before | mem
    · exact mem_append_left _ before
    rcases mem_cons.mp mem with rfl | after
    · exact absurd used (by rw [free]; decide)
    · rw [segments,segmentsAppend]
      exact mem_append_right _ (mem_cons_of_mem _ (mem_append_right _ after))
  · refine ⟨({h with size := bytes,used := true},endOf stop (extra ++ rest)),?_,rfl,rfl,rfl,behind,within⟩
    rw [segmentsAppend]
    exact mem_append_right _ mem_cons_self

theorem invAllocate {s} (inv : Inv s) {bytes k} (power : k < 64)
    (meets : Meets s (.allocate bytes (2^k))) : Inv (doAllocate s bytes (2^k)) := by
  unfold doAllocate
  split
  · exact ⟨inv.start,inv.top,inv.laid,inv.first,inv.held,inv.apart,inv.aligned⟩
  rename_i _ found
  obtain ⟨front,h,rest,_,_,shape,taken,data,headers⟩ := allocateFromTaken found
  obtain ⟨unwrapped,room⟩ := meets
  have laid := inv.laid
  have first := inv.first
  have held := inv.held
  rw [inv.start] at room
  rw [shape] at laid first held room
  have mine : (h,endOf (s.base+s.resource.buffer_size) rest) ∈
    segments (s.base+s.resource.buffer_size) (front ++ h::rest) := by
    rw [segmentsAppend]
    exact mem_append_right _ mem_cons_self
  have inside := segmentBounds laid mine
  have free := allocateBlockUnused taken
  have fits := (laid _ mine).2 free
  have placed := allocateBlockPlaced power fits (le_trans inside.2 inv.top) unwrapped (room _ mine) taken
  obtain ⟨laid',start,kept,g',mem',holds⟩ := placedKeeps laid free placed
  rw [← headers] at laid' start kept mem'
  refine ⟨inv.start,inv.top,laid',?_,?_,?_,?_⟩
  · rw [start]
    exact first
  · intro b mem
    rcases mem_cons.mp mem with rfl | old
    · rw [data]
      exact ⟨g',mem',holds⟩
    · obtain ⟨g,found,holds⟩ := held b old
      exact ⟨g,kept g found holds.used,holds⟩
  · refine pairwise_cons.mpr ⟨?_,inv.apart⟩
    intro b old same
    obtain ⟨g,found,holds⟩ := held b old
    have shared := data.symm.trans (same.trans holds.data.symm)
    have equal := segmentUnique laid found mine (add_right_cancel shared.symm)
    rw [equal] at holds
    exact absurd holds.used (by rw [free]; decide)
  · intro b mem
    rcases mem_cons.mp mem with rfl | old
    · exact placed.multiple
    · exact inv.aligned b old

theorem invDeallocate {s} (inv : Inv s) {b} (live : b ∈ s.live) : Inv (doDeallocate s b) := by
  obtain ⟨mine,found,holds⟩ := inv.held b live
  have data := holds.data
  have address : mine.1.addr = b.data-sizeofHeader := by
    unfold addressOfDataSegment at data
    omega
  have keeps : Keeps (s.base+s.resource.buffer_size) (b.data-sizeofHeader) s.resource.headers
      (release (s.base+s.resource.buffer_size) (b.data-sizeofHeader) s.resource.headers) := by
    refine releaseKeeps inv.top inv.laid ?_
    intro g mem same
    have one := holds.behind
    have two := holds.within
    rw [segmentUnique inv.laid mem found (same.trans address.symm),holds.size]
    omega
  unfold doDeallocate
  rw [inv.start]
  refine ⟨inv.start,inv.top,keeps.laid,?_,?_,inv.apart.sublist erase_sublist,?_⟩
  · rw [keeps.start]
    exact inv.first
  · intro a mem
    have old := mem_of_mem_erase mem
    obtain ⟨g,found',holds'⟩ := inv.held a old
    refine ⟨g,keeps.kept g found' holds'.used ?_,holds'⟩
    intro freed
    have distinct : s.live.Nodup := inv.apart.imp fun other same => other (congrArg Block.data same)
    have other := (distinct.mem_erase_iff.mp mem).1
    have equal := segmentUnique inv.laid found' found (freed.trans address.symm)
    have symm : Std.Symm fun a b : Block => a.data ≠ b.data := ⟨fun _ _ => Ne.symm⟩
    exact inv.apart.forall old live other (by rw [← holds'.data,equal,holds.data])
  · exact fun a mem => inv.aligned a (mem_of_mem_erase mem)

theorem invStep {s} (inv : Inv s) {op} (legal : Legal s op) (meets : Meets s op) : Inv (step s op) := by
  cases op with
  | allocate _ _ =>
    obtain ⟨-,k,power,rfl⟩ := legal
    exact invAllocate inv power meets
  | deallocate b => exact invDeallocate inv legal

theorem invRun {s} (inv : Inv s) {ops} (legal : LegalRun s ops) (meets : MeetsRun s ops) : Inv (run s ops) := by
  induction ops generalizing s with
  | nil => exact inv
  | cons _ _ ih => exact ih (invStep inv legal.1 meets.1) legal.2 meets.2

theorem invConstructed {buffer buffer_size r} (aligned : alignofHeader ∣ buffer)
    (top : buffer+buffer_size ≤ wordSize) (made : construct buffer buffer_size = some r) : Inv ⟨buffer,r,[]⟩ := by
  unfold construct at made
  split at made
  · contradiction
  split at made
  · contradiction
  rename_i _ moved
  have up := roundUpLe (by decide) aligned (le_refl buffer)
  have low := (roundUpSpec (by decide : 0 < alignofHeader) buffer).2.1
  obtain ⟨rfl,-,rfl⟩ := stdAlignPointer (by decide) (by omega) moved
  have same : roundUp alignofHeader buffer = buffer := by omega
  rw [same] at made
  split at made
  · contradiction
  cases made
  refine ⟨rfl,top,laidCons.mpr ⟨⟨?_,fun _ => ?_⟩,nofun⟩,le_refl _,nofun,List.Pairwise.nil,nofun⟩
  · change buffer+sizeofHeader ≤ buffer+buffer_size
    omega
  · change buffer+sizeofHeader+(buffer_size-(buffer-buffer)-sizeofHeader) ≤ buffer+buffer_size
    omega

theorem disjointMemory {buffer buffer_size : Nat} {r : Resource} (aligned : alignofHeader ∣ buffer)
    (top : buffer+buffer_size ≤ wordSize) (made : construct buffer buffer_size = some r) {ops : List Op}
    (legal : LegalRun ⟨buffer,r,[]⟩ ops) (meets : MeetsRun ⟨buffer,r,[]⟩ ops) : Sound (run ⟨buffer,r,[]⟩ ops) :=
  invSound (invRun (invConstructed aligned top made) legal meets)

def page : Resource := ⟨4096,256,0,[⟨4096,224,false⟩]⟩
def pageOps : List Op := [.allocate 16 16,.allocate 8 8,.deallocate ⟨4144,16,16,4128⟩,.allocate 2 2]

theorem pageDisjoint : construct 4096 256 = some page ∧ (run ⟨4096,page,[]⟩ pageOps).live.length = 2 ∧
    Sound (run ⟨4096,page,[]⟩ pageOps) := by
  have made : construct 4096 256 = some page := by decide +kernel
  have legal : LegalRun ⟨4096,page,[]⟩ pageOps := by decide +kernel
  have meets : MeetsRun ⟨4096,page,[]⟩ pageOps := by decide +kernel
  exact ⟨made,by decide +kernel,disjointMemory (by decide) (by decide +kernel) made legal meets⟩

def shifted : Resource := ⟨4104,200,0,[⟨4097,161,false⟩]⟩
def reuseOps : List Op := [.allocate 1 1,.allocate 1 1,.deallocate ⟨4136,1,1,4128⟩,.allocate 1 64]
def growOps : List Op := [.allocate 16 1,.deallocate ⟨4137,16,1,4129⟩,.allocate 160 8]

theorem handedOutTwice :
    (construct 4096 256 = some page ∧ LegalRun ⟨4096,page,[]⟩ reuseOps ∧ ¬Sound (run ⟨4096,page,[]⟩ reuseOps)) ∧
    (construct 4097 200 = some shifted ∧ LegalRun ⟨4097,shifted,[]⟩ growOps ∧
      ¬Sound (run ⟨4097,shifted,[]⟩ growOps)) := by
  have block : (⟨4160,1,64,4128⟩ : Block) ∈ (run ⟨4096,page,[]⟩ reuseOps).live := by decide +kernel
  have header : (⟨4144,1,true⟩ : Header) ∈ (run ⟨4096,page,[]⟩ reuseOps).resource.headers := by decide +kernel
  have long : (⟨4144,160,8,4129⟩ : Block) ∈ (run ⟨4097,shifted,[]⟩ growOps).live := by decide +kernel
  refine ⟨⟨by decide +kernel,by decide +kernel,?_⟩,⟨by decide +kernel,by decide +kernel,?_⟩⟩
  · intro sound
    exact absurd (sound.clear _ block _ header) (by decide)
  · intro sound
    have ending := (sound.inside _ long).2
    exact absurd ending (by decide)

end Irods.FixedBuffer
