import Mathlib

/-! Parallel transfers of miscServerFunct.cpp: the ranges svrPortalPutGet and sameHostCopy hand to
their threads, from the dataOprInp_t that initDataOprInp of objDesc.cpp fills. -/
namespace Irods.ParallelTransfer
open Int Set

structure Span where
  offset : Int
  size : Int
  deriving DecidableEq, Repr

def Span.bytes (r : Span) : Set Int := Set.Ico r.offset (r.offset+r.size)

def Tiles (rs : List Span) (whole : Set Int) : Prop :=
  rs.Pairwise (fun a b => Disjoint a.bytes b.bytes) ∧ (⋃ r ∈ rs, r.bytes) = whole

inductive EndToEnd : Int → List Span → Int → Prop where
  | nil {a} : EndToEnd a [] a
  | cons {r rs stop} : 0 ≤ r.size → EndToEnd (r.offset+r.size) rs stop → EndToEnd r.offset (r::rs) stop

theorem endToEndOrdered {a b rs} (line : EndToEnd a rs b) : a ≤ b ∧ ∀ r ∈ rs, a ≤ r.offset ∧ r.offset+r.size ≤ b := by
  induction line with
  | nil => simp
  | @cons r _ _ _ _ ih =>
    refine ⟨by omega,?_⟩
    intro x mem
    rcases List.mem_cons.mp mem with rfl | later
    · exact ⟨by omega,ih.1⟩
    · have := ih.2 x later
      omega

theorem endToEndTiles {a b rs} (line : EndToEnd a rs b) : Tiles rs (Set.Ico a b) := by
  induction line with
  | nil => simp [Tiles]
  | @cons r rs _ _ rest ih =>
    obtain ⟨apart,whole⟩ := ih
    have ordered := endToEndOrdered rest
    refine ⟨List.pairwise_cons.mpr ⟨?_,apart⟩,?_⟩
    · intro x mem
      have bounds := ordered.2 x mem
      refine disjoint_left.mpr ?_
      intro y here there
      have := here.2
      have := there.1
      omega
    · have union : (⋃ x ∈ r::rs, x.bytes) = r.bytes ∪ ⋃ x ∈ rs, x.bytes := by simp
      rw [union,whole]
      exact Set.Ico_union_Ico_eq_Ico (by omega) ordered.1

theorem tilesPerm {rs ss whole} (same : rs.Perm ss) (tiles : Tiles rs whole) : Tiles ss whole := by
  refine ⟨(same.pairwise_iff fun a => a.symm).mp tiles.1,?_⟩
  rw [← tiles.2]
  ext x
  simp only [mem_iUnion]
  exact exists_congr fun r => by rw [same.mem_iff]

def PUT_OPR : Int := 1
def GET_OPR : Int := 2
def SAME_HOST_COPY_OPR : Int := 3
def COPY_TO_LOCAL_OPR : Int := 4
def COPY_TO_REM_OPR : Int := 5
def MAX_NUM_CONFIG_TRAN_THR : Int := 64
def STREAMING_FLAG : Nat := 0x1
def NO_CHK_COPY_LEN_FLAG : Nat := 0x2
def SYS_INTERNAL_NULL_INPUT_ERR : Int := -24000
def SYS_COPY_LEN_ERR : Int := -27000
def SYS_INVALID_PORTAL_OPR : Int := -33000

structure CondInput where
  streaming : Bool
  noParaOp : Bool
  veryVerbose : Bool
  noChkCopyLen : Bool
  deriving DecidableEq, Repr

structure DataObjInp where
  numThreads : Int
  offset : Int
  dataSize : Int
  condInput : CondInput
  deriving DecidableEq, Repr

/- An L1desc entry, with the size in its dataObjInfo. -/
structure L1desc where
  dataObjInp : DataObjInp
  infoDataSize : Int
  l3descInx : Int
  srcL1descInx : Nat
  deriving DecidableEq, Repr

structure DataOprInp where
  oprType : Int
  numThreads : Int
  srcL3descInx : Int
  destL3descInx : Int
  srcRescTypeInx : Int
  destRescTypeInx : Int
  offset : Int
  dataSize : Int
  condInput : CondInput
  deriving DecidableEq, Repr

def initDataOprInp (descs : Nat → L1desc) (l1descInx : Nat) (oprType : Int) : DataOprInp :=
  let d := descs l1descInx
  let inp := d.dataObjInp
  let src := descs d.srcL1descInx
  let start : DataOprInp := ⟨oprType,inp.numThreads,0,0,0,0,inp.offset,0,
    ⟨inp.condInput.streaming,inp.condInput.noParaOp,inp.condInput.veryVerbose,false⟩⟩
  if oprType = PUT_OPR then
    { start with dataSize := if inp.dataSize > 0 then inp.dataSize else 0, destL3descInx := d.l3descInx }
  else if oprType = GET_OPR then
    { start with dataSize := if d.infoDataSize > 0 then d.infoDataSize else inp.dataSize, srcL3descInx := d.l3descInx }
  else if oprType = SAME_HOST_COPY_OPR then
    { start with dataSize := src.infoDataSize, destL3descInx := d.l3descInx, srcL3descInx := src.l3descInx }
  else if oprType = COPY_TO_REM_OPR then { start with dataSize := src.infoDataSize, srcL3descInx := src.l3descInx }
  else if oprType = COPY_TO_LOCAL_OPR then { start with dataSize := src.infoDataSize, destL3descInx := d.l3descInx }
  else start

structure PortalTransferInp where
  srcFd : Int
  destFd : Int
  srcRescTypeInx : Int
  destRescTypeInx : Int
  threadNum : Nat
  size : Int
  offset : Int
  flags : Nat
  deriving DecidableEq, Repr

def PortalTransferInp.span (t : PortalTransferInp) : Span := ⟨t.offset,t.size⟩
def spans (ts : List PortalTransferInp) : List Span := ts.map PortalTransferInp.span

/- The connection and the descriptors of each thread, and the status and byte count it ends with. -/
structure Host where
  acceptSrvPortal : Nat → Int
  openDest : Nat → Int
  openSrc : Nat → Int
  status : PortalTransferInp → Int
  bytesWritten : PortalTransferInp → Int

structure Transfer where
  answer : Int
  started : List PortalTransferInp

def lastError (h : Host) (retVal : Int) (ts : List PortalTransferInp) : Int :=
  ts.foldl (fun r t => if h.status t < 0 then h.status t else r) retVal

def portalInp (h : Host) (d : DataOprInp) (flags i : Nat) (size offset : Int) : PortalTransferInp :=
  let portalFd := h.acceptSrvPortal i
  if d.oprType = PUT_OPR then
    ⟨portalFd,if i = 0 then d.destL3descInx else h.openDest i,0,d.destRescTypeInx,i,size,offset,flags⟩
  else ⟨if i = 0 then d.srcL3descInx else h.openSrc i,portalFd,d.srcRescTypeInx,0,i,size,offset,flags⟩

def threadSize (size0 size1 : Int) (n i : Nat) : Int := if i+1 < n then size0 else size1

/- Threads i and on; the offset is counted up before it is used. A connection that is not
accepted ends the call with what was started. -/
def portalThreads (h : Host) (d : DataOprInp) (flags n : Nat) (size0 size1 : Int) :
    Nat → Nat → Int → List PortalTransferInp → Option Int × List PortalTransferInp
  | 0,_,_,started => (none,started)
  | k+1,i,myOffset,started =>
    if h.acceptSrvPortal i < 0 then (some (h.acceptSrvPortal i),started)
    else portalThreads h d flags n size0 size1 k (i+1) (myOffset+size0)
      (started ++ [portalInp h d flags i (threadSize size0 size1 n i) (myOffset+size0)])

def svrPortalPutGet (h : Host) (d : DataOprInp) : Transfer :=
  let flags := if d.condInput.streaming then STREAMING_FLAG else 0
  if d.numThreads ≤ 0 ∨ d.numThreads > MAX_NUM_CONFIG_TRAN_THR then ⟨SYS_INTERNAL_NULL_INPUT_ERR,[]⟩
  else
    let size0 := d.dataSize.tdiv d.numThreads
    let size1 := d.dataSize-size0*(d.numThreads-1)
    if h.acceptSrvPortal 0 < 0 then ⟨h.acceptSrvPortal 0,[]⟩
    else
      let first := portalInp h d flags 0 size0 d.offset
      if d.numThreads = 1 then ⟨h.status first,[first]⟩
      else
        let n := d.numThreads.toNat
        match portalThreads h d flags n size0 size1 (n-1) 1 0 [] with
        | (some error,started) => ⟨error,started⟩
        | (none,started) => ⟨lastError h 0 (first::started),started ++ [first]⟩

def copyInp (h : Host) (d : DataOprInp) (i : Nat) (size offset : Int) : PortalTransferInp :=
  ⟨if i = 0 then d.srcL3descInx else h.openSrc i,if i = 0 then d.destL3descInx else h.openDest i,
    d.srcRescTypeInx,d.destRescTypeInx,i,size,offset,0⟩

/- A file that cannot be opened leaves its thread out. -/
def copyThreads (h : Host) (d : DataOprInp) (n : Nat) (size0 size1 : Int) :
    Nat → Nat → Int → Int → List PortalTransferInp → Int × List PortalTransferInp
  | 0,_,_,retVal,started => (retVal,started)
  | k+1,i,myOffset,retVal,started =>
    if h.openDest i < 0 then copyThreads h d n size0 size1 k (i+1) (myOffset+size0) (h.openDest i) started
    else if h.openSrc i < 0 then copyThreads h d n size0 size1 k (i+1) (myOffset+size0) (h.openSrc i) started
    else copyThreads h d n size0 size1 k (i+1) (myOffset+size0) retVal
      (started ++ [copyInp h d i (threadSize size0 size1 n i) (myOffset+size0)])

def sameHostCopy (h : Host) (d : DataOprInp) : Transfer :=
  let numThreads := if d.numThreads = 0 then 1 else d.numThreads
  if numThreads > MAX_NUM_CONFIG_TRAN_THR ∨ numThreads < 0 then ⟨SYS_INVALID_PORTAL_OPR,[]⟩
  else
    let size0 := d.dataSize.tdiv numThreads
    let size1 := d.dataSize-size0*(numThreads-1)
    let first := copyInp h d 0 size0 d.offset
    if numThreads = 1 then
      let whole := { first with flags := if d.condInput.noChkCopyLen then NO_CHK_COPY_LEN_FLAG else 0 }
      ⟨h.status whole,[whole]⟩
    else
      let n := numThreads.toNat
      let threads := copyThreads h d n size0 size1 (n-1) 1 0 0 []
      let started := threads.2 ++ [first]
      let total := ((first::threads.2).map h.bytesWritten).sum
      if threads.1 < 0 then ⟨threads.1,started⟩
      else if lastError h threads.1 (first::threads.2) < 0 then ⟨lastError h threads.1 (first::threads.2),started⟩
      else if d.dataSize ≤ 0 ∨ total = d.dataSize then ⟨0,started⟩ else ⟨SYS_COPY_LEN_ERR,started⟩

def laterSpans (size0 size1 : Int) (n : Nat) : Nat → Nat → Int → List Span
  | 0,_,_ => []
  | k+1,i,myOffset => ⟨myOffset+size0,threadSize size0 size1 n i⟩::laterSpans size0 size1 n k (i+1) (myOffset+size0)

theorem portalSpan (h d flags i size offset) :
    (portalInp h d flags i size offset).span = ⟨offset,size⟩ := by
  unfold portalInp
  split <;> rfl

theorem portalThreadsSpans {h} (accepted : ∀ i, 0 ≤ h.acceptSrvPortal i) (d flags n size0 size1 k i myOffset started) :
    ∃ all, portalThreads h d flags n size0 size1 k i myOffset started = (none,all) ∧
      spans all = spans started ++ laterSpans size0 size1 n k i myOffset := by
  induction k generalizing i myOffset started with
  | zero => exact ⟨started,rfl,(List.append_nil _).symm⟩
  | succ k ih =>
    have go := not_lt.mpr (accepted i)
    obtain ⟨all,run,same⟩ := ih (i+1) (myOffset+size0)
      (started ++ [portalInp h d flags i (threadSize size0 size1 n i) (myOffset+size0)])
    refine ⟨all,by rw [portalThreads,if_neg go,run],?_⟩
    rw [same,spans,List.map_append,List.append_assoc,List.map_singleton,portalSpan]
    rfl

theorem copyThreadsSpans {h} (dest : ∀ i, 0 ≤ h.openDest i) (src : ∀ i, 0 ≤ h.openSrc i)
    (d n size0 size1 k i myOffset retVal started) :
    ∃ all, copyThreads h d n size0 size1 k i myOffset retVal started = (retVal,all) ∧
      spans all = spans started ++ laterSpans size0 size1 n k i myOffset := by
  induction k generalizing i myOffset started with
  | zero => exact ⟨started,rfl,(List.append_nil _).symm⟩
  | succ k ih =>
    have one := not_lt.mpr (dest i)
    have two := not_lt.mpr (src i)
    obtain ⟨all,run,same⟩ :=
      ih (i+1) (myOffset+size0) (started ++ [copyInp h d i (threadSize size0 size1 n i) (myOffset+size0)])
    refine ⟨all,by rw [copyThreads,if_neg one,if_neg two,run],?_⟩
    rw [same,spans,List.map_append,List.append_assoc]
    rfl

theorem laterEndToEnd {size0 size1 n} (small : 0 ≤ size0) (last : 0 ≤ size1) {k i} (whole : i+(k+1) = n)
    (myOffset) :
    EndToEnd (myOffset+size0) (laterSpans size0 size1 n (k+1) i myOffset) (myOffset+size0*(k+1 : Nat)+size1) := by
  induction k generalizing i myOffset with
  | zero =>
    have size : threadSize size0 size1 n i = size1 := if_neg (by omega)
    have stop : myOffset+size0*(0+1 : Nat)+size1 = myOffset+size0+size1 := by simp
    rw [laterSpans,size,stop]
    exact @EndToEnd.cons ⟨myOffset+size0,size1⟩ _ _ last .nil
  | succ k ih =>
    have size : threadSize size0 size1 n i = size0 := if_pos (by omega)
    have rest := ih (by omega : i+1+(k+1) = n) (myOffset+size0)
    have stop : myOffset+size0+size0*(k+1 : Nat)+size1 = myOffset+size0*(k+1+1 : Nat)+size1 := by
      push_cast
      rw [mul_add size0 (k+1) 1]
      omega
    rw [stop] at rest
    rw [laterSpans,size]
    exact @EndToEnd.cons ⟨myOffset+size0,size0⟩ _ _ small rest

theorem tilesEmpty {rs} (empty : ∀ r ∈ rs, r.size ≤ 0) : Tiles rs ∅ := by
  have none : ∀ r ∈ rs, r.bytes = ∅ := fun r mem => Set.Ico_eq_empty (by have := empty r mem; omega)
  refine ⟨?_,?_⟩
  · refine List.pairwise_of_forall_mem_list ?_
    intro a mem b _
    rw [none a mem]
    exact disjoint_bot_left
  · refine eq_empty_of_forall_notMem ?_
    intro x mem
    obtain ⟨r,inside,here⟩ := mem_iUnion₂.mp mem
    rwa [none r inside] at here

structure Division (dataSize numThreads size0 size1 : Int) : Prop where
  small : 0 ≤ size0
  ordered : size0 ≤ size1
  whole : size0*(numThreads-1)+size1 = dataSize

theorem division {dataSize numThreads} (positive : 0 ≤ dataSize) (some : 0 < numThreads) :
    Division dataSize numThreads (dataSize.tdiv numThreads) (dataSize-dataSize.tdiv numThreads*(numThreads-1)) := by
  rw [Int.tdiv_eq_ediv_of_nonneg positive]
  have most : dataSize/numThreads*numThreads ≤ dataSize := Int.ediv_mul_le _ (by omega)
  have same : dataSize/numThreads*(numThreads-1) = dataSize/numThreads*numThreads-dataSize/numThreads := mul_sub_one _ _
  exact ⟨Int.ediv_nonneg positive (by omega),by omega,by omega⟩

theorem severalTile {dataSize offset size0 size1} {n : Nat} (positive : 0 ≤ dataSize) (behind : 0 ≤ offset)
    (several : 2 ≤ n)
    (sizes : Division dataSize n size0 size1) :
    Tiles (laterSpans size0 size1 n (n-1) 1 0 ++ [⟨offset,size0⟩]) (Set.Ico offset (offset+dataSize)) ↔
      offset = 0 ∨ dataSize = 0 := by
  obtain ⟨k,rfl⟩ : ∃ k, n = k+2 := ⟨n-2,by omega⟩
  have total := sizes.whole
  have grown : size0*((k+2 : Nat)-1) = size0*(k+1 : Nat) := by
    congr 1
    omega
  have later := laterEndToEnd sizes.small (sizes.small.trans sizes.ordered) (by omega : 1+(k+1) = k+2) 0
  have stop : 0+size0*(k+1 : Nat)+size1 = dataSize := by omega
  rw [stop] at later
  have bounds := endToEndOrdered later
  have apart : 0 ≤ size0*k := mul_nonneg sizes.small (by omega)
  have twice : size0+size0 ≤ dataSize := by
    have : size0*(k+1 : Nat) = size0*k+size0 := by push_cast; exact mul_add_one _ _
    have := sizes.ordered
    omega
  constructor
  · intro tiles
    by_contra neither
    have last : offset+dataSize-1 ∈ Set.Ico offset (offset+dataSize) := ⟨by omega,by omega⟩
    rw [← tiles.2] at last
    obtain ⟨r,mem,here⟩ := mem_iUnion₂.mp last
    have inside := here.2
    rcases List.mem_append.mp mem with early | first
    · have := bounds.2 r early
      omega
    · rw [List.mem_singleton.mp first] at inside
      have : offset+dataSize-1 < offset+size0 := inside
      omega
  · rintro (start | none)
    · subst start
      have line := @EndToEnd.cons ⟨0,size0⟩ _ _ sizes.small later
      rw [zero_add dataSize]
      exact tilesPerm (List.perm_append_singleton _ _).symm (endToEndTiles line)
    · have nothing : ∀ r ∈ laterSpans size0 size1 (k+2) (k+2-1) 1 0 ++ [⟨offset,size0⟩], r.size ≤ 0 := by
        intro r mem
        rcases List.mem_append.mp mem with early | first
        · have := bounds.2 r early
          have := sizes.small
          omega
        · rw [List.mem_singleton.mp first]
          show size0 ≤ 0
          omega
      rw [none,add_zero,Set.Ico_self]
      exact tilesEmpty nothing

theorem oneTiles {dataSize offset} (positive : 0 ≤ dataSize) :
    Tiles [⟨offset,dataSize.tdiv 1⟩] (Set.Ico offset (offset+dataSize)) := by
  rw [Int.tdiv_one]
  exact endToEndTiles (@EndToEnd.cons ⟨offset,dataSize⟩ _ _ positive .nil)

def requested (d : DataOprInp) : Set Int := Set.Ico d.offset (d.offset+d.dataSize)

structure Ready (h : Host) : Prop where
  accepted : ∀ i, 0 ≤ h.acceptSrvPortal i
  dest : ∀ i, 0 ≤ h.openDest i
  src : ∀ i, 0 ≤ h.openSrc i

structure InRange (d : DataOprInp) : Prop where
  some : 1 ≤ d.numThreads
  most : d.numThreads ≤ MAX_NUM_CONFIG_TRAN_THR
  size : 0 ≤ d.dataSize
  offset : 0 ≤ d.offset

theorem threadsTile {d} (range : InRange d) (several : ¬d.numThreads = 1) {later}
    {first} (front : first.span = ⟨d.offset,d.dataSize.tdiv d.numThreads⟩)
    (same : spans later =
      laterSpans (d.dataSize.tdiv d.numThreads) (d.dataSize-d.dataSize.tdiv d.numThreads*(d.numThreads-1))
      d.numThreads.toNat (d.numThreads.toNat-1) 1 0) :
    Tiles (spans (later ++ [first])) (requested d) ↔ d.numThreads = 1 ∨ d.offset = 0 ∨ d.dataSize = 0 := by
  have some := range.some
  have number : ((d.numThreads.toNat : Nat) : Int) = d.numThreads := toNat_of_nonneg (by omega)
  have sizes : Division d.dataSize (d.numThreads.toNat : Nat) (d.dataSize.tdiv d.numThreads)
      (d.dataSize-d.dataSize.tdiv d.numThreads*(d.numThreads-1)) := by
    rw [number]
    exact division range.size (by omega)
  have tile := severalTile range.size range.offset (by omega : 2 ≤ d.numThreads.toNat) sizes
  have started : spans (later ++ [first]) = spans later ++ [⟨d.offset,d.dataSize.tdiv d.numThreads⟩] := by
    rw [spans,List.map_append,List.map_singleton,front]
    rfl
  rw [started,same,or_iff_right several]
  exact tile

theorem portalTiles {h d} (ready : Ready h) (range : InRange d) :
    Tiles (spans (svrPortalPutGet h d).started) (requested d) ↔ d.numThreads = 1 ∨ d.offset = 0 ∨ d.dataSize = 0 := by
  have some := range.some
  have most := range.most
  have go : ¬(d.numThreads ≤ 0 ∨ d.numThreads > MAX_NUM_CONFIG_TRAN_THR) := by omega
  have first := not_lt.mpr (ready.accepted 0)
  unfold svrPortalPutGet
  dsimp only
  rw [if_neg go,if_neg first]
  split
  · rename_i one
    simp only [spans,List.map_singleton,portalSpan,one,true_or,iff_true]
    exact oneTiles range.size
  rename_i several
  obtain ⟨_,run,same⟩ := portalThreadsSpans ready.accepted d (if d.condInput.streaming then STREAMING_FLAG else 0)
    d.numThreads.toNat (d.dataSize.tdiv d.numThreads) (d.dataSize-d.dataSize.tdiv d.numThreads*(d.numThreads-1))
    (d.numThreads.toNat-1) 1 0 []
  rw [run]
  exact threadsTile range several (portalSpan _ _ _ _ _ _) same

theorem copyTiles {h d} (ready : Ready h) (range : InRange d) :
    Tiles (spans (sameHostCopy h d).started) (requested d) ↔ d.numThreads = 1 ∨ d.offset = 0 ∨ d.dataSize = 0 := by
  have some := range.some
  have most := range.most
  have number : (if d.numThreads = 0 then 1 else d.numThreads) = d.numThreads := if_neg (by omega)
  have go : ¬(d.numThreads > MAX_NUM_CONFIG_TRAN_THR ∨ d.numThreads < 0) := by omega
  unfold sameHostCopy
  dsimp only
  rw [number,if_neg go]
  split
  · rename_i one
    simp only [one,true_or,iff_true]
    exact oneTiles range.size
  rename_i several
  obtain ⟨all,run,same⟩ := copyThreadsSpans ready.dest ready.src d d.numThreads.toNat (d.dataSize.tdiv d.numThreads)
    (d.dataSize-d.dataSize.tdiv d.numThreads*(d.numThreads-1)) (d.numThreads.toNat-1) 1 0 0 []
  have tile : Tiles (spans (all ++ [copyInp h d 0 (d.dataSize.tdiv d.numThreads) d.offset])) (requested d) ↔ _ :=
    threadsTile range several rfl same
  rw [run]
  repeat' split
  all_goals exact tile

theorem transfersTileExactly {h : Host} {descs : Nat → L1desc} {l1descInx : Nat} {oprType : Int} (ready : Ready h)
    (range : InRange (initDataOprInp descs l1descInx oprType)) :
    let d := initDataOprInp descs l1descInx oprType
    (Tiles (spans (svrPortalPutGet h d).started) (requested d) ↔ d.numThreads = 1 ∨ d.offset = 0 ∨ d.dataSize = 0) ∧
    (Tiles (spans (sameHostCopy h d).started) (requested d) ↔ d.numThreads = 1 ∨ d.offset = 0 ∨ d.dataSize = 0) :=
  ⟨portalTiles ready range,copyTiles ready range⟩

def quietHost : Host := ⟨fun i => i+3,fun i => i+10,fun i => i+20,fun _ => 0,fun t => t.size⟩

theorem quietReady : Ready quietHost :=
  ⟨fun i => by show (0 : Int) ≤ i+3; omega,fun i => by show (0 : Int) ≤ i+10; omega,
    fun i => by show (0 : Int) ≤ i+20; omega⟩

def noKeywords : CondInput := ⟨false,false,false,false⟩
def getRequest (offset : Int) : Nat → L1desc := fun _ => ⟨⟨4,offset,0,noKeywords⟩,1002,7,0⟩

theorem getRange (offset) (behind : 0 ≤ offset) : InRange (initDataOprInp (getRequest offset) 3 GET_OPR) :=
  ⟨(by decide : (1 : Int) ≤ 4),(by decide : (4 : Int) ≤ 64),(by decide : (0 : Int) ≤ 1002),behind⟩

theorem wholeObjectTiles : Tiles (spans (svrPortalPutGet quietHost (initDataOprInp (getRequest 0) 3 GET_OPR)).started)
    (Set.Ico 0 1002) ∧
    Tiles (spans (sameHostCopy quietHost (initDataOprInp (getRequest 0) 3 GET_OPR)).started) (Set.Ico 0 1002) := by
  have exactly := transfersTileExactly quietReady (getRange 0 (le_refl 0))
  exact ⟨exactly.1.mpr (.inr (.inl rfl)),exactly.2.mpr (.inr (.inl rfl))⟩

theorem offsetForgotten :
    spans (svrPortalPutGet quietHost (initDataOprInp (getRequest 500) 3 GET_OPR)).started =
      [⟨250,250⟩,⟨500,250⟩,⟨750,252⟩,⟨500,250⟩] ∧
    spans (sameHostCopy quietHost (initDataOprInp (getRequest 500) 3 GET_OPR)).started =
      [⟨250,250⟩,⟨500,250⟩,⟨750,252⟩,⟨500,250⟩] ∧
    ¬Tiles [⟨250,250⟩,⟨500,250⟩,⟨750,252⟩,⟨500,250⟩] (requested (initDataOprInp (getRequest 500) 3 GET_OPR)) := by
  refine ⟨rfl,rfl,?_⟩
  intro tiles
  have apart := tiles.1
  simp only [List.pairwise_cons] at apart
  have both := apart.2.1 ⟨500,250⟩ (by simp)
  exact disjoint_left.mp both (show 500 ∈ Set.Ico 500 (500+250) by decide) (by show 500 ∈ Set.Ico 500 (500+250); decide)

end Irods.ParallelTransfer
