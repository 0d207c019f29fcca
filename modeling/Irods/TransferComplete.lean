import Irods.TransferEngine

/-! What success() says of the bytes. A write that fails is seen at the top of the next round of
the loop, if there is one. -/
namespace Irods.TransferEngine
open Nat

section complete
variable {r : Request}

def begin (r : Request) : Engine := startTransfer r (initTransferProgressState r)

def Complete (r : Request) (e : Engine) : Prop :=
  ∀ k, r.offset ≤ k → k < r.offset+r.total → ∃ i < r.channels, ∃ m ∈ (e.channels i).moves, m.covers k ∧
    m.sink = m.source

def Unnoticed (r : Request) (e : Engine) : Event → Prop
  | .stop => False
  | .turn i o => i < r.channels ∧ Moves e i o ∧ o.outFails = true ∧
      (e.channels i).progress.sent + taken r (e.channels i).progress o = (e.channels i).progress.chunkSize

def NoticedRun (r : Request) : Engine → List Event → Prop
  | _,[] => True
  | e,ev::events => ¬ Unnoticed r e ev ∧ NoticedRun r (step r e ev) events

def Caught (c : Channel) : Prop := c.outBad = true → c.progress.sent < c.progress.chunkSize

theorem stepCaught {e j} (caught : Caught (e.channels j)) {ev} (noticed : ¬ Unnoticed r e ev) :
    Caught ((step r e ev).channels j) := by
  rcases @stepCases r e ev with ⟨i,o,rfl,inside,moves,same⟩ | ⟨-,same⟩
  · rw [same]
    by_cases here : j = i
    · subst here
      rw [putHere]
      intro bad
      have least := @takenLe r _ moves.more o
      have apart : (e.channels j).progress.sent + taken r (e.channels j).progress o ≠
        (e.channels j).progress.chunkSize :=
        fun equal => noticed ⟨inside,moves,bad,equal⟩
      exact lt_of_le_of_ne least apart
    · rw [putOther here]
      exact caught
  · obtain ⟨progress,-,outBad,-⟩ := same j
    intro bad
    rw [progress]
    exact caught (outBad ▸ bad)

theorem runCaught {e j} (caught : Caught (e.channels j)) {events} (noticed : NoticedRun r e events) :
    Caught ((run r e events).channels j) := by
  induction events generalizing e with
  | nil => exact caught
  | cons _ _ ih => exact ih (stepCaught caught noticed.1) noticed.2

theorem runPlaced {e j start} (placed : Placed r j start (e.channels j)) (events) :
    Placed r j start ((run r e events).channels j) := by
  induction events generalizing e with
  | nil => exact placed
  | cons ev _ ih => exact ih (stepPlaced placed ev)

def Lost (r : Request) (i : Nat) (c : Channel) : Prop :=
  c.outBad = true ∧ ∃ w < (initTransferProgressState r i).chunkSize, Tiles c.moves (edge r i) (edge r i + w)

theorem unnoticedLost {e i o} (placed : Placed r i 0 (e.channels i)) (lost : Unnoticed r e (.turn i o)) :
    Lost r i ((step r e (.turn i o)).channels i) := by
  obtain ⟨inside,moves,failed,-⟩ := lost
  rcases @stepCases r e (.turn i o) with ⟨_,_,same,-,-,after⟩ | ⟨still,-⟩
  · cases same
    rw [after,putHere]
    have tiles := (placed.outAt moves.outOk).2
    rw [add_zero] at tiles
    have more := moves.more
    rw [placed.size] at more
    refine ⟨failed,(e.channels i).progress.sent,more,?_⟩
    unfold moved
    dsimp only
    rw [if_pos failed]
    exact tiles
  · exact absurd moves (still i o rfl inside)

theorem stepLost {e j} (lost : Lost r j (e.channels j)) (ev) : Lost r j ((step r e ev).channels j) := by
  rcases @stepCases r e ev with ⟨i,o,-,-,moves,same⟩ | ⟨-,same⟩
  · rw [same]
    by_cases here : j = i
    · subst here
      exact absurd (moves.outOk.symm.trans lost.1) nofun
    · rw [putOther here]
      exact lost
  · obtain ⟨-,-,outBad,-,-,moves⟩ := same j
    exact ⟨outBad.trans lost.1,moves ▸ lost.2⟩

theorem runLost {e j} (lost : Lost r j (e.channels j)) (events) : Lost r j ((run r e events).channels j) := by
  induction events generalizing e with
  | nil => exact lost
  | cons ev _ ih => exact ih (stepLost lost ev)

theorem unnoticedRun {e} (placed : ∀ i < r.channels, Placed r i 0 (e.channels i)) {events}
    (not : ¬ NoticedRun r e events) :
    ∃ i < r.channels, Lost r i ((run r e events).channels i) := by
  induction events generalizing e with
  | nil => exact absurd trivial not
  | cons ev events ih =>
    by_cases lost : Unnoticed r e ev
    · cases ev with
      | stop => exact lost.elim
      | turn i o => exact ⟨i,lost.1,runLost (unnoticedLost (placed i lost.1) lost) events⟩
    · exact ih (fun i inside => stepPlaced (placed i inside) ev) fun noticed => not ⟨lost,noticed⟩

theorem located {k} (low : edge r 0 ≤ k) {j} (inside : j ≤ r.channels) (high : k < edge r j) : ∃ i < j, edge r i ≤ k ∧
    k < edge r (i+1) := by
  induction j with
  | zero => omega
  | succ j ih =>
    by_cases here : edge r j ≤ k
    · exact ⟨j,lt_succ_self j,here,high⟩
    · obtain ⟨i,below,found⟩ := ih (le_of_succ_le inside) (by omega)
      exact ⟨i,lt_succ_of_lt below,found⟩

theorem sizePositive {i} (positive : 0 < (initTransferProgressState r i).chunkSize) : 0 ≤ r.total := by
  by_contra negative
  have below : 0 ≤ -r.total := by omega
  have chunk : 0 ≤ (-r.total).tdiv r.channels := Int.tdiv_nonneg below (Int.natCast_nonneg _)
  have rest : 0 ≤ (-r.total).tmod r.channels := Int.tmod_nonneg _ below
  rw [Int.neg_tdiv] at chunk
  rw [Int.neg_tmod] at rest
  unfold initTransferProgressState chunkSize at positive
  dsimp only at positive
  split at positive <;> omega

theorem completeExactly (some : 1 ≤ r.channels) {events : List Event} (ok : success r (run r (begin r) events)) :
    Complete r (run r (begin r) events) ↔ NoticedRun r (begin r) events := by
  have placed : ∀ i < r.channels, Placed r i 0 ((begin r).channels i) := fun i inside => startPlaced inside rfl
  have after : ∀ i < r.channels, Placed r i 0 ((run r (begin r) events).channels i) :=
    fun i inside => runPlaced (placed i inside) events
  constructor
  · intro complete
    by_contra not
    obtain ⟨i,inside,bad,w,below,tiles⟩ := unnoticedRun placed not
    have up := tilesLe tiles
    have whole := @sizePositive r i (by omega)
    have next := edgeNext inside
    have first := edgeMono whole (zero_le i) inside.le
    have last := edgeMono whole (show i+1 ≤ r.channels from inside) (le_refl _)
    rw [edgeZero some] at first
    rw [edgeLast] at last
    obtain ⟨j,insideJ,m,mem,covers,-⟩ := complete (edge r i + w) (by omega) (by omega)
    by_cases same : j = i
    · subst same
      have inTiles := (tilesCover tiles).mp ⟨m,mem,covers⟩
      omega
    -- the moves of another channel lie in its own range
    have other : edge r j ≤ edge r i + w ∧ edge r i + w < edge r (j+1) := by
      have here := after j insideJ
      have sent := (ok.2 j insideJ).2
      have size := here.size
      have nextJ := edgeNext insideJ
      cases outBad : ((run r (begin r) events).channels j).outBad with
      | false =>
        have tilesJ := (here.outAt outBad).2
        have inTiles := (tilesCover tilesJ).mp ⟨m,mem,covers⟩
        omega
      | true =>
        obtain ⟨v,_,tilesJ⟩ := here.stuck outBad
        have inTiles := (tilesCover tilesJ).mp ⟨m,mem,covers⟩
        omega
    rcases lt_or_gt_of_ne same with lower | upper
    · have mono := edgeMono whole (show j+1 ≤ i from lower) inside.le
      omega
    · have mono := edgeMono whole (show i+1 ≤ j from upper) insideJ.le
      omega
  · intro noticed k _ _
    have start := edgeZero some
    have finish := @edgeLast r
    obtain ⟨i,inside,above,_⟩ := @located r k (by omega) r.channels (le_refl _) (by omega)
    have here := after i inside
    have sent := (ok.2 i inside).2
    have caught : Caught ((run r (begin r) events).channels i) :=
      runCaught (e := begin r) (fun bad => absurd bad nofun) noticed
    have good : ((run r (begin r) events).channels i).outBad = false := by
      cases bad : ((run r (begin r) events).channels i).outBad with
      | false => rfl
      | true =>
        have less := caught bad
        omega
    have tiles := (here.outAt good).2
    rw [add_zero] at tiles
    have next := edgeNext inside
    have size := here.size
    obtain ⟨m,mem,covers⟩ := (tilesCover tiles).mpr ⟨above,by omega⟩
    exact ⟨i,inside,m,mem,covers,tilesSame tiles m mem⟩

end complete

def small : Request := ⟨10,1,0,4⟩
def fine : Outcome := ⟨100,false,false,false⟩
def lastFails : Outcome := ⟨100,false,true,false⟩
def tenBytes : List Event := List.replicate 6 (.turn 0 fine)
def tenBytesLost : List Event := [.turn 0 fine,.turn 0 fine,.turn 0 fine,.turn 0 lastFails,.turn 0 fine,.turn 0 fine]

theorem goodWritesNoticed {r events} (good : ∀ i o, .turn i o ∈ events → o.outFails = false) (e) :
    NoticedRun r e events := by
  induction events generalizing e with
  | nil => trivial
  | cons ev _ ih =>
    refine ⟨?_,ih (fun i o mem => good i o (List.mem_cons_of_mem _ mem)) _⟩
    cases ev with
    | stop => exact fun none => none
    | turn i o => exact fun lost => absurd ((good i o List.mem_cons_self).symm.trans lost.2.2.1) nofun

theorem tenBytesArrive : success small (run small (begin small) tenBytes) ∧
    Complete small (run small (begin small) tenBytes) := by
  have ok : success small (run small (begin small) tenBytes) := by
    unfold success
    decide
  have noticed : NoticedRun small (begin small) tenBytes := by
    refine goodWritesNoticed ?_ _
    intro i o mem
    cases List.eq_of_mem_replicate mem
    rfl
  exact ⟨ok,(completeExactly (by decide) ok).mpr noticed⟩

theorem lastWriteLost : success small (run small (begin small) tenBytesLost) ∧
    ¬ Complete small (run small (begin small) tenBytesLost) := by
  refine ⟨?_,?_⟩
  · unfold success
    decide
  intro complete
  obtain ⟨i,inside,m,mem,covers,-⟩ := complete 8 (by decide) (by decide)
  cases lt_one_iff.mp inside
  have none : ∀ m ∈ [(⟨0,0,4⟩ : Move),⟨4,4,4⟩], ¬ m.covers 8 := by decide
  exact none m mem covers

end Irods.TransferEngine
