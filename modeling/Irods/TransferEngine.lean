import Mathlib

/-! parallel_transfer_engine.hpp: the channels of a transfer, each a loop that reads, writes and
counts. A channel shares the stop flag, the list of errors and the latch with the others, and
looks at them once in a round of its loop; a turn is one such round. -/
namespace Irods.TransferEngine
open List Function Bool

structure Request where
  total : Int
  channels : Nat
  offset : Int
  bufferSize : Int
  deriving DecidableEq, Repr

structure Progress where
  chunkSize : Int
  sent : Int
  deriving DecidableEq, Repr

inductive Phase where
  | starting
  | looping
  | leaving
  | finished
  deriving DecidableEq, Repr

inductive TransferError where
  | streamRead
  | streamWrite
  | exception
  deriving DecidableEq, Repr

structure Move where
  source : Int
  sink : Int
  count : Int
  deriving DecidableEq, Repr

structure Channel where
  progress : Progress
  inBad : Bool
  outBad : Bool
  inPosition : Int
  outPosition : Int
  phase : Phase
  moves : List Move
  deriving DecidableEq, Repr

structure Engine where
  channels : Nat → Channel
  stop : Bool
  errors : List TransferError
  latch : Int

/- How many bytes a read gives at most, whether the streams are bad after it, or an exception. -/
structure Outcome where
  gcount : Nat
  inFails : Bool
  outFails : Bool
  throws : Bool
  deriving DecidableEq, Repr

inductive Event where
  | stop
  | turn (channel : Nat) (outcome : Outcome)
  deriving DecidableEq, Repr

section engine
variable (r : Request)

def chunkSize : Int := r.total.tdiv r.channels

/- The bytes that remain go to the last channel. -/
def initTransferProgressState (i : Nat) : Progress where
  chunkSize := chunkSize r + if i+1 = r.channels then r.total.tmod r.channels else 0
  sent := 0

def streamOffset (i : Nat) (p : Progress) : Int := i*chunkSize r + r.offset + p.sent

def startChannel (i : Nat) (p : Progress) : Channel :=
  ⟨p,false,false,streamOffset r i p,streamOffset r i p,.starting,[]⟩

def startTransfer (progress : Nat → Progress) : Engine :=
  ⟨fun i => startChannel r i (progress i),false,[],r.channels-1⟩

def wanted (p : Progress) : Int := min (min (p.chunkSize-p.sent) r.bufferSize) p.chunkSize
def taken (p : Progress) (o : Outcome) : Int := max 0 (min o.gcount (wanted r p))

/- The counter moves whether or not the write succeeds. -/
def moved (c : Channel) (o : Outcome) : Channel :=
  let g := taken r c.progress o
  { c with
    progress := { c.progress with sent := c.progress.sent+g }
    inPosition := c.inPosition+g
    inBad := o.inFails
    outPosition := if o.outFails then c.outPosition else c.outPosition+g
    outBad := o.outFails
    moves := if o.outFails then c.moves else c.moves ++ [⟨c.inPosition,c.outPosition,g⟩] }

def Engine.put (e : Engine) (i : Nat) (c : Channel) : Engine := { e with channels := Function.update e.channels i c }
def Engine.fail (e : Engine) (error : TransferError) : Engine := { e with errors := e.errors ++ [error] }

def close (e : Engine) (i : Nat) (c : Channel) (o : Outcome) : Engine :=
  let e := e.put i { c with phase := .finished }
  if o.throws then e.fail .exception else e

/- The first channel waits for the others before it closes its sink. -/
def turn (e : Engine) (i : Nat) (o : Outcome) : Engine :=
  let c := e.channels i
  match c.phase with
  | .starting =>
    if r.bufferSize < 0 ∨ o.throws then (e.put i { c with phase := .finished }).fail .exception
    else e.put i { c with phase := .looping }
  | .looping =>
    if e.stop = false ∧ c.progress.sent < c.progress.chunkSize then
      if c.inBad then (e.put i { c with phase := .leaving }).fail .streamRead
      else if c.outBad then (e.put i { c with phase := .leaving }).fail .streamWrite
      else if o.throws then (e.put i { c with phase := .finished }).fail .exception
      else e.put i (moved r c o)
    else e.put i { c with phase := .leaving }
  | .leaving =>
    if i = 0 then if e.latch = 0 then close e i c o else e
    else close { e with latch := e.latch-1 } i c o
  | .finished => e

def step (e : Engine) : Event → Engine
  | .stop => { e with stop := true }
  | .turn i o => if i < r.channels then turn r e i o else e

def run (e : Engine) (events : List Event) : Engine := events.foldl (step r) e

def success (e : Engine) : Prop :=
  e.errors = [] ∧ ∀ i < r.channels, (e.channels i).phase = .finished ∧
    (e.channels i).progress.sent = (e.channels i).progress.chunkSize

structure Moves (e : Engine) (i : Nat) (o : Outcome) : Prop where
  looping : (e.channels i).phase = .looping
  going : e.stop = false
  more : (e.channels i).progress.sent < (e.channels i).progress.chunkSize
  inOk : (e.channels i).inBad = false
  outOk : (e.channels i).outBad = false
  quiet : o.throws = false

end engine

section turns
variable {r : Request} {e : Engine} {i : Nat} {o : Outcome}

def SameWork (a b : Channel) : Prop :=
  b.progress = a.progress ∧ b.inBad = a.inBad ∧ b.outBad = a.outBad ∧ b.inPosition = a.inPosition ∧
    b.outPosition = a.outPosition ∧
  b.moves = a.moves

theorem putSame (phase j) : SameWork (e.channels j) ((e.put i { e.channels i with phase }).channels j) := by
  unfold Engine.put
  by_cases same : j = i
  · subst same
    dsimp only
    rw [update_self]
    exact ⟨rfl,rfl,rfl,rfl,rfl,rfl⟩
  · dsimp only
    rw [update_of_ne same]
    exact ⟨rfl,rfl,rfl,rfl,rfl,rfl⟩

theorem closeSame (j) : SameWork (e.channels j) ((close e i (e.channels i) o).channels j) := by
  unfold close
  split <;> exact putSame .finished j

theorem turnCases : (Moves e i o ∧ turn r e i o = e.put i (moved r (e.channels i) o)) ∨
    (¬ Moves e i o ∧ ∀ j, SameWork (e.channels j) ((turn r e i o).channels j)) := by
  unfold turn
  dsimp only
  cases phase : (e.channels i).phase with
  | starting =>
    refine .inr ⟨fun m => absurd (m.looping.symm.trans phase) nofun,?_⟩
    dsimp only
    split
    · exact putSame .finished
    · exact putSame .looping
  | looping =>
    dsimp only
    split
    · rename_i going
      split
      · rename_i bad
        exact .inr ⟨fun m => absurd (m.inOk.symm.trans bad) nofun,putSame .leaving⟩
      rename_i inOk
      split
      · rename_i bad
        exact .inr ⟨fun m => absurd (m.outOk.symm.trans bad) nofun,putSame .leaving⟩
      rename_i outOk
      split
      · rename_i thrown
        exact .inr ⟨fun m => absurd (m.quiet.symm.trans thrown) nofun,putSame .finished⟩
      · rename_i quiet
        exact .inl ⟨⟨phase,going.1,going.2,not_eq_true _ ▸ inOk,not_eq_true _ ▸ outOk,not_eq_true _ ▸ quiet⟩,rfl⟩
    · rename_i out
      exact .inr ⟨fun m => out ⟨m.going,m.more⟩,putSame .leaving⟩
  | leaving =>
    refine .inr ⟨fun m => absurd (m.looping.symm.trans phase) nofun,?_⟩
    dsimp only
    split
    · split
      · exact closeSame
      · exact fun j => ⟨rfl,rfl,rfl,rfl,rfl,rfl⟩
    · exact fun j => @closeSame { e with latch := e.latch-1 } i o j
  | finished => exact .inr ⟨fun m => absurd (m.looping.symm.trans phase) nofun,fun j => ⟨rfl,rfl,rfl,rfl,rfl,rfl⟩⟩

theorem stepCases (ev) :
    (∃ i o, ev = .turn i o ∧ i < r.channels ∧ Moves e i o ∧ step r e ev = e.put i (moved r (e.channels i) o)) ∨
    ((∀ i o, ev = .turn i o → i < r.channels → ¬ Moves e i o) ∧
      ∀ j, SameWork (e.channels j) ((step r e ev).channels j)) := by
  cases ev with
  | stop => exact .inr ⟨nofun,fun j => ⟨rfl,rfl,rfl,rfl,rfl,rfl⟩⟩
  | turn i o =>
    by_cases inside : i < r.channels
    · have here : step r e (.turn i o) = turn r e i o := if_pos inside
      rw [here]
      rcases @turnCases r e i o with ⟨moves,same⟩ | ⟨still,same⟩
      · exact .inl ⟨i,o,rfl,inside,moves,same⟩
      refine .inr ⟨?_,same⟩
      rintro i' o' equal -
      cases equal
      exact still
    · have here : step r e (.turn i o) = e := if_neg inside
      rw [here]
      refine .inr ⟨?_,fun j => ⟨rfl,rfl,rfl,rfl,rfl,rfl⟩⟩
      rintro _ _ equal inside'
      cases equal
      contradiction

theorem putOther {c j} (other : j ≠ i) : (e.put i c).channels j = e.channels j := update_of_ne other _ _

theorem putHere {c} : (e.put i c).channels i = c := update_self _ _ _

end turns

def Tiles : List Move → Int → Int → Prop
  | [],a,b => a = b
  | m::ms,a,b => m.source = a ∧ m.sink = a ∧ 0 ≤ m.count ∧ Tiles ms (a+m.count) b

def Move.covers (m : Move) (k : Int) : Prop := m.source ≤ k ∧ k < m.source+m.count

instance (m : Move) (k : Int) : Decidable (m.covers k) := by unfold Move.covers; infer_instance

theorem tilesAppend {ms ns a b c} (left : Tiles ms a b) (right : Tiles ns b c) : Tiles (ms ++ ns) a c := by
  induction ms generalizing a with
  | nil =>
    cases left
    exact right
  | cons m _ ih =>
    obtain ⟨source,sink,count,rest⟩ := left
    exact ⟨source,sink,count,ih rest⟩

section
variable {ms a b} (tiles : Tiles ms a b)
include tiles

theorem tilesLe : a ≤ b := by
  induction ms generalizing a with
  | nil => exact le_of_eq tiles
  | cons m _ ih =>
    obtain ⟨-,-,_,rest⟩ := tiles
    have later := ih rest
    omega

theorem tilesSame : ∀ m ∈ ms, m.sink = m.source := by
  induction ms generalizing a with
  | nil => exact fun m none => absurd none not_mem_nil
  | cons m _ ih =>
    obtain ⟨source,sink,-,rest⟩ := tiles
    intro n mem
    rcases mem_cons.mp mem with rfl | later
    · exact sink.trans source.symm
    · exact ih rest n later

theorem tilesCount (k) :
    ms.countP (·.covers k) = if a ≤ k ∧ k < b then 1 else 0 := by
  induction ms generalizing a with
  | nil =>
    cases tiles
    rw [if_neg (by omega)]
    rfl
  | cons m _ ih =>
    obtain ⟨source,-,_,rest⟩ := tiles
    have later := tilesLe rest
    have covers : m.covers k ↔ a ≤ k ∧ k < a+m.count := by
      unfold Move.covers
      rw [source]
    rw [countP_cons,ih rest]
    simp only [decide_eq_true_eq,covers]
    by_cases here : a ≤ k ∧ k < a+m.count
    · rw [if_pos here,if_neg (by omega),if_pos (by omega)]
    split
    · rw [if_pos (by omega)]
    · rw [if_neg (by omega)]

theorem tilesCover {k} : (∃ m ∈ ms, m.covers k) ↔ a ≤ k ∧ k < b := by
  have count := tilesCount tiles k
  constructor
  · rintro ⟨m,mem,covers⟩
    by_contra outside
    rw [if_neg outside] at count
    exact countP_eq_zero.mp count m mem (decide_eq_true covers)
  · intro inside
    rw [if_pos inside] at count
    obtain ⟨m,mem,covers⟩ := countP_pos_iff.mp (by omega : 0 < ms.countP (·.covers k))
    exact ⟨m,mem,of_decide_eq_true covers⟩

end

section ranges
variable {r : Request}

def edge (r : Request) (j : Nat) : Int := if j = r.channels then r.offset+r.total else j*chunkSize r + r.offset

theorem chunkTotal (r) : (r.channels : Int)*chunkSize r + r.total.tmod r.channels = r.total := Int.mul_tdiv_add_tmod _ _

theorem edgeNext {i} (inside : i < r.channels) :
    edge r i + (initTransferProgressState r i).chunkSize = edge r (i+1) := by
  have whole := chunkTotal r
  unfold edge initTransferProgressState
  rw [if_neg (Nat.ne_of_lt inside)]
  by_cases last : i+1 = r.channels
  · have count : (r.channels : Int) = i+1 := by omega
    dsimp only
    rw [count,add_mul] at whole
    rw [count]
    omega
  · rw [if_neg last,if_neg last]
    push_cast
    ring

theorem edgeStart {i} (inside : i < r.channels) : edge r i = streamOffset r i (initTransferProgressState r i) := by
  unfold edge streamOffset initTransferProgressState
  rw [if_neg (Nat.ne_of_lt inside)]
  ring

theorem sizeNonneg (whole : 0 ≤ r.total) (i) : 0 ≤ (initTransferProgressState r i).chunkSize := by
  have chunk : 0 ≤ chunkSize r := Int.tdiv_nonneg whole (Int.natCast_nonneg _)
  have rest : 0 ≤ r.total.tmod r.channels := Int.tmod_nonneg _ whole
  unfold initTransferProgressState
  dsimp only
  split <;> omega

theorem edgeMono (whole : 0 ≤ r.total) {i j} (below : i ≤ j) (inside : j ≤ r.channels) : edge r i ≤ edge r j := by
  induction j with
  | zero =>
    cases Nat.le_zero.mp below
    exact le_refl _
  | succ j _ =>
    rcases Nat.eq_or_lt_of_le below with rfl | _
    · exact le_refl _
    have next := @edgeNext r j inside
    have size := sizeNonneg whole j
    omega

theorem edgeZero (some : 0 < r.channels) : edge r 0 = r.offset := by
  unfold edge
  rw [if_neg (Nat.ne_of_lt some)]
  simp

theorem edgeLast : edge r r.channels = r.offset+r.total := if_pos rfl

end ranges

/-! A channel that began at some count has moved the bytes from there to its count, up to the
first write that failed. -/

section placing
variable {r : Request}

structure Placed (r : Request) (i : Nat) (start : Int) (c : Channel) : Prop where
  size : c.progress.chunkSize = (initTransferProgressState r i).chunkSize
  inAt : c.inPosition = edge r i + c.progress.sent
  outAt : c.outBad = false → c.outPosition = edge r i + c.progress.sent ∧
    Tiles c.moves (edge r i + start) (edge r i + c.progress.sent)
  stuck : c.outBad = true → ∃ w, w ≤ c.progress.sent ∧ Tiles c.moves (edge r i + start) (edge r i + w)

theorem takenNonneg (p o) : 0 ≤ taken r p o := le_max_left _ _

theorem takenLe {p} (more : p.sent < p.chunkSize) (o) : p.sent + taken r p o ≤ p.chunkSize := by
  unfold taken wanted
  omega

theorem startPlaced {i} (inside : i < r.channels) {p} (size : p.chunkSize = (initTransferProgressState r i).chunkSize) :
    Placed r i p.sent (startChannel r i p) := by
  have here : streamOffset r i p = edge r i + p.sent := by
    rw [edgeStart inside]
    unfold streamOffset initTransferProgressState
    ring
  exact ⟨size,here,fun _ => ⟨here,rfl⟩,nofun⟩

theorem samePlaced {i start a b} (placed : Placed r i start a) (same : SameWork a b) : Placed r i start b := by
  obtain ⟨progress,-,outBad,inPosition,outPosition,moves⟩ := same
  refine ⟨?_,?_,?_,?_⟩
  · rw [progress]
    exact placed.size
  · rw [progress,inPosition]
    exact placed.inAt
  · rw [progress,outBad,outPosition,moves]
    exact placed.outAt
  · rw [progress,outBad,moves]
    exact placed.stuck

theorem movedPlaced {i start c} (placed : Placed r i start c) (ok : c.outBad = false) (o) :
    Placed r i start (moved r c o) := by
  obtain ⟨outAt,tiles⟩ := placed.outAt ok
  have nonneg := @takenNonneg r c.progress o
  refine ⟨placed.size,?_,?_,?_⟩
  · show c.inPosition + taken r c.progress o = _
    rw [placed.inAt]
    exact add_assoc _ _ _
  · intro good
    have fine : o.outFails = false := good
    unfold moved
    dsimp only
    rw [fine,outAt,placed.inAt,← add_assoc]
    exact ⟨rfl,tilesAppend tiles ⟨rfl,rfl,nonneg,rfl⟩⟩
  · intro bad
    have failed : o.outFails = true := bad
    unfold moved
    dsimp only
    rw [if_pos failed]
    exact ⟨c.progress.sent,by omega,tiles⟩

theorem stepPlaced {e j start} (placed : Placed r j start (e.channels j)) (ev) :
    Placed r j start ((step r e ev).channels j) := by
  rcases @stepCases r e ev with ⟨i,o,-,-,moves,same⟩ | ⟨-,same⟩
  · rw [same]
    by_cases here : j = i
    · subst here
      rw [putHere]
      exact movedPlaced placed moves.outOk o
    · rw [putOther here]
      exact placed
  · exact samePlaced placed (same j)

end placing
end Irods.TransferEngine
