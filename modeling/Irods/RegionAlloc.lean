import Mathlib

/-! region.cpp: memory handed out from blocks that are filled one after the other. -/
namespace Irods.RegionAlloc
open List

def DEFAULT_BLOCK_SIZE : Nat := 1024
def REGION_ALIGNMENT : Nat := 8

def roundToAlignment (x : Nat) : Nat :=
  if x%REGION_ALIGNMENT = 0 then x else (x/REGION_ALIGNMENT+1)*REGION_ALIGNMENT

/- CACHE_SIZE(RegionDesc,1): a pointer, a size_t and an int. -/
def descSize : Nat := roundToAlignment 24

structure Block where
  base : Nat
  size : Nat
  used : Nat

structure Region where
  active : Block
  filled : List Block

def Region.blocks (r : Region) : List Block := r.active::r.filled

/- The addresses are those malloc returns. -/
def makeRegion (is base : Nat) : Region := ⟨⟨base,if is = 0 then DEFAULT_BLOCK_SIZE else is,0⟩,[]⟩

-- int blocksize, a size_t again in make_region_node
def blockSize (s : Nat) : Nat :=
  if s > DEFAULT_BLOCK_SIZE then (((s : Int).bmod (2^32))%2^64).toNat else DEFAULT_BLOCK_SIZE

def withRoom (r : Region) (s base : Nat) : Region :=
  if s > r.active.size-r.active.used then ⟨⟨base,blockSize s,0⟩,r.blocks⟩ else r

def allocSize (s : Nat) : Nat := if s > DEFAULT_BLOCK_SIZE then s else roundToAlignment s
def advanced (r : Region) (s : Nat) : Region := {r with active := {r.active with used := r.active.used+allocSize s}}

def regionAllocNodesc (r : Region) (s base : Nat) : Region × Nat :=
  let r := withRoom r s base
  (advanced r s,r.active.base+r.active.used)

def regionAlloc (r : Region) (size base : Nat) : Region × Nat :=
  let (r,mem) := regionAllocNodesc r (size+descSize) base
  (r,mem+descSize)

structure Chunk where
  addr : Nat
  size : Nat

abbrev Disjoint (base size : Nat) (b : Block) : Prop := base+size ≤ b.base ∨ b.base+b.size ≤ base

/- Neither the chunks nor the descriptors in front of them meet. -/
def Apart (c d : Chunk) : Prop := c.addr+c.size+descSize ≤ d.addr ∨ d.addr+d.size+descSize ≤ c.addr

structure Inside (c : Chunk) (b : Block) : Prop where
  above : b.base ≤ c.addr
  below : c.addr+c.size ≤ b.base+b.size
  aligned : REGION_ALIGNMENT ∣ c.addr-b.base

inductive Runs : Region → List Chunk → Prop where
  | start (base) : Runs (makeRegion 0 base) []
  | alloc {r chunks} (size base) (run : Runs r chunks) (small : size < 2^30)
      (fresh : ∀ b ∈ r.blocks, Disjoint base (blockSize (size+descSize)) b) :
      Runs (regionAlloc r size base).1 (⟨(regionAlloc r size base).2,size⟩::chunks)

/- A block with room left has the default size. -/
def Spare (b : Block) : Prop := b.used = b.size ∨ b.size = DEFAULT_BLOCK_SIZE ∧ b.used ≤ b.size ∧
    REGION_ALIGNMENT ∣ b.used

def Fits (b : Block) (s : Nat) : Prop :=
  b.used+s ≤ b.size ∧
    (b.used = 0 ∧ b.size = s ∧ DEFAULT_BLOCK_SIZE < s ∨ b.size = DEFAULT_BLOCK_SIZE ∧ REGION_ALIGNMENT ∣ b.used)

def Placed (c : Chunk) (b : Block) : Prop :=
  b.base+descSize ≤ c.addr ∧ c.addr+c.size ≤ b.base+b.used ∧ b.used ≤ b.size ∧ REGION_ALIGNMENT ∣ c.addr-b.base

structure Inv (r : Region) (chunks : List Chunk) : Prop where
  blocks : ∀ b ∈ r.filled, Disjoint r.active.base r.active.size b
  placed : ∀ c ∈ chunks, ∃ b ∈ r.blocks, Placed c b
  apart : chunks.Pairwise Apart

theorem blockSizeSmall {s} (small : s < 2^31) :
    blockSize s = if s > DEFAULT_BLOCK_SIZE then s else DEFAULT_BLOCK_SIZE := by
  have same : (s : Int).bmod (2^32) = s := Int.bmod_eq_of_le (by omega) (by omega)
  unfold blockSize
  split <;> omega

theorem roomFits {r s base} (spare : Spare r.active) (some : 0 < s) (small : s < 2^31) :
    Fits (withRoom r s base).active s := by
  have wide := blockSizeSmall small
  unfold Spare at spare
  unfold withRoom Fits
  split
  · dsimp only [REGION_ALIGNMENT]
    rw [wide]
    split <;> omega
  · simp only [DEFAULT_BLOCK_SIZE] at *
    omega

theorem roomInv {r chunks s base} (inv : Inv r chunks) (fresh : ∀ b ∈ r.blocks, Disjoint base (blockSize s) b) :
    Inv (withRoom r s base) chunks := by
  unfold withRoom
  split
  · refine ⟨fresh,fun c mem => ?_,inv.apart⟩
    obtain ⟨b,position,placed⟩ := inv.placed c mem
    exact ⟨b,mem_cons_of_mem _ position,placed⟩
  · exact inv

theorem advancedSpare {r s} (fits : Fits r.active s) :
    Spare (advanced r s).active ∧ r.active.used+s ≤ (advanced r s).active.used ∧
    (advanced r s).active.used ≤ r.active.size := by
  have size : s ≤ allocSize s ∧ (s > DEFAULT_BLOCK_SIZE → allocSize s = s) ∧
      (s ≤ DEFAULT_BLOCK_SIZE → REGION_ALIGNMENT ∣ allocSize s ∧ allocSize s < s+REGION_ALIGNMENT) := by
    unfold allocSize roundToAlignment REGION_ALIGNMENT
    split
    · omega
    · split <;> omega
  simp only [Spare,Fits,advanced,DEFAULT_BLOCK_SIZE,REGION_ALIGNMENT] at *
  omega

theorem advancedInv {r chunks size} (inv : Inv r chunks) (fits : Fits r.active (size+descSize)) :
    Inv (advanced r (size+descSize)) (⟨r.active.base+r.active.used+descSize,size⟩::chunks) := by
  have desc : descSize = 24 := rfl
  obtain ⟨-,more,within⟩ := advancedSpare fits
  have aligned : REGION_ALIGNMENT ∣ r.active.used := by
    rcases fits.2 with ⟨none,-,-⟩ | ⟨-,aligned⟩
    · rw [none]
      exact Nat.dvd_zero _
    · exact aligned
  refine ⟨inv.blocks,fun c mem => ?_,pairwise_cons.mpr ⟨fun c mem => ?_,inv.apart⟩⟩
  · rcases mem_cons.mp mem with rfl | old
    · refine ⟨_,mem_cons_self,?_,?_,within,?_⟩ <;> simp only [advanced,REGION_ALIGNMENT] at * <;> omega
    · obtain ⟨b,position,above,below,room,dvd⟩ := inv.placed c old
      rcases mem_cons.mp position with rfl | filled
      · refine ⟨_,mem_cons_self,above,?_,within,dvd⟩
        simp only [advanced] at more ⊢
        omega
      · exact ⟨b,mem_cons_of_mem _ filled,above,below,room,dvd⟩
  · obtain ⟨b,position,above,below,room,-⟩ := inv.placed c mem
    rcases mem_cons.mp position with rfl | filled
    · exact .inr (by simp only; omega)
    · rcases inv.blocks b filled with before | after
      · exact .inl (by simp only; omega)
      · exact .inr (by simp only; omega)

theorem runsInv {r chunks} (run : Runs r chunks) : Spare r.active ∧ Inv r chunks := by
  induction run with
  | start base => exact ⟨.inr (by simp [makeRegion]),nofun,nofun,.nil⟩
  | @alloc r chunks size base _ small fresh ih =>
    have desc : descSize = 24 := rfl
    have fits := @roomFits r _ base ih.1 (Nat.add_pos_right _ (by omega))
      (Nat.add_lt_add small (by omega : descSize < 2^30))
    exact ⟨(advancedSpare fits).1,advancedInv (roomInv ih.2 fresh) fits⟩

theorem chunksDisjoint {r chunks} (run : Runs r chunks) :
    (∀ c ∈ chunks, ∃ b ∈ r.blocks, Inside c b) ∧ chunks.Pairwise Apart := by
  obtain ⟨-,inv⟩ := runsInv run
  refine ⟨fun c mem => ?_,inv.apart⟩
  obtain ⟨b,position,above,below,room,aligned⟩ := inv.placed c mem
  exact ⟨b,position,by omega,by omega,aligned⟩

theorem largeRequestApart : Apart ⟨10024,2000⟩ ⟨4120,100⟩ := by
  have first := Runs.alloc 100 0 (.start 4096) (by decide) (by decide)
  have run := first.alloc 2000 10000 (by decide) (by decide)
  exact (pairwise_cons.mp (chunksDisjoint run).2).1 _ mem_cons_self

end Irods.RegionAlloc
