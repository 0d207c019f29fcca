import Irods.TransferComplete

/-! Rounds of one transfer. The restart file keeps the request and the counters of the channels;
every round begins with what it holds. -/
namespace Irods.TransferEngine
open List Nat

structure RestartFile where
  totalBytesToTransfer : Int
  numberOfStreams : Nat
  offset : Int
  transferBufferSize : Int
  progress : Nat → Progress

def constructProgressHeader (r : Request) (progress : Nat → Progress) : RestartFile :=
  ⟨r.total,r.channels,r.offset,r.bufferSize,progress⟩

def RestartFile.request (f : RestartFile) : Request :=
  ⟨f.totalBytesToTransfer,f.numberOfStreams,f.offset,f.transferBufferSize⟩

structure Session where
  file : RestartFile
  moves : Nat → List Move

def firstSession (r : Request) : Session := ⟨constructProgressHeader r (initTransferProgressState r),fun _ => []⟩

def roundOf (s : Session) (events : List Event) : Engine :=
  run s.file.request (startTransfer s.file.request s.file.progress) events

/- The counters are in the file, which is mapped into memory. -/
def afterRound (s : Session) (events : List Event) : Session where
  file := { s.file with progress := fun i => ((roundOf s events).channels i).progress }
  moves i := s.moves i ++ ((roundOf s events).channels i).moves

def afterRounds (s : Session) (rounds : List (List Event)) : Session := rounds.foldl afterRound s

def Steady (r : Request) (e : Engine) : Event → Prop
  | .stop => True
  | .turn i o => o.inFails = false ∧ o.outFails = false ∧ o.throws = false ∧ wanted r (e.channels i).progress ≤ o.gcount

def SteadyRun (r : Request) : Engine → List Event → Prop
  | _,[] => True
  | e,ev::events => Steady r e ev ∧ SteadyRun r (step r e ev) events

def SteadyRounds : Session → List (List Event) → Prop
  | _,[] => True
  | s,events::rounds => SteadyRun s.file.request (startTransfer s.file.request s.file.progress) events ∧
      SteadyRounds (afterRound s events) rounds

def times (r : Request) (s : Session) (k : Int) : Nat :=
  ((List.range r.channels).map (fun i => (s.moves i).countP (·.covers k))).sum

section rounds
variable {r : Request}

def Fresh (c : Channel) : Prop := c.outBad = false

theorem stepFresh {e j} (fresh : Fresh (e.channels j)) {ev} (steady : Steady r e ev) :
    Fresh ((step r e ev).channels j) := by
  rcases @stepCases r e ev with ⟨i,o,rfl,-,-,same⟩ | ⟨-,same⟩
  · rw [same]
    by_cases here : j = i
    · subst here
      rw [putHere]
      exact steady.2.1
    · rw [putOther here]
      exact fresh
  · exact (same j).2.2.1.trans fresh

theorem runFresh {e j} (fresh : Fresh (e.channels j)) {events} (steady : SteadyRun r e events) :
    Fresh ((run r e events).channels j) := by
  induction events generalizing e with
  | nil => exact fresh
  | cons _ _ ih => exact ih (stepFresh fresh steady.1) steady.2

structure Kept (r : Request) (s : Session) : Prop where
  request : s.file.request = r
  size : ∀ i < r.channels, (s.file.progress i).chunkSize = (initTransferProgressState r i).chunkSize
  tiles : ∀ i < r.channels, Tiles (s.moves i) (edge r i) (edge r i + (s.file.progress i).sent)

theorem firstKept (r) : Kept r (firstSession r) where
  request := rfl
  size _ _ := rfl
  tiles i _ := (add_zero (edge r i)).symm

theorem roundKept {s} (kept : Kept r s) {events}
    (steady : SteadyRun s.file.request (startTransfer s.file.request s.file.progress) events) :
    Kept r (afterRound s events) := by
  have request := kept.request
  have placed : ∀ i < r.channels, Placed r i (s.file.progress i).sent ((roundOf s events).channels i) := by
    intro i inside
    unfold roundOf
    rw [request]
    exact runPlaced (startPlaced inside (kept.size i inside)) events
  have fresh : ∀ i, Fresh ((roundOf s events).channels i) :=
    fun i => runFresh (e := startTransfer s.file.request s.file.progress) rfl steady
  exact ⟨request,fun i inside => (placed i inside).size,
      fun i inside => tilesAppend (kept.tiles i inside) ((placed i inside).outAt (fresh i)).2⟩

theorem roundsKept {s} (kept : Kept r s) {rounds} (steady : SteadyRounds s rounds) : Kept r (afterRounds s rounds) := by
  induction rounds generalizing s with
  | nil => exact kept
  | cons _ _ ih => exact ih (roundKept kept steady.1) steady.2

theorem countTo (whole : 0 ≤ r.total) {counts k}
    (each : ∀ i < r.channels, counts i = if edge r i ≤ k ∧ k < edge r (i+1) then 1 else 0) {j}
    (inside : j ≤ r.channels) :
    ((range j).map counts).sum = if edge r 0 ≤ k ∧ k < edge r j then 1 else 0 := by
  induction j with
  | zero =>
    rw [if_neg (by omega)]
    rfl
  | succ j ih =>
    have low := edgeMono whole (zero_le j) (le_of_succ_le inside)
    have high := edgeMono whole (show j ≤ j+1 from le_succ j) inside
    rw [range_succ,map_append,sum_append_nat,ih (le_of_succ_le inside),map_singleton,sum_singleton,each j inside]
    by_cases before : k < edge r j
    · rw [if_neg fun both : edge r j ≤ k ∧ _ => by omega]
      by_cases from0 : edge r 0 ≤ k
      · rw [if_pos ⟨from0,before⟩,if_pos ⟨from0,by omega⟩]
      · rw [if_neg fun both => from0 both.1,if_neg fun both => from0 both.1]
    · rw [if_neg fun both : edge r 0 ≤ k ∧ _ => before both.2]
      by_cases inside' : k < edge r (j+1)
      · rw [if_pos ⟨by omega,inside'⟩,if_pos ⟨by omega,inside'⟩]
      · rw [if_neg fun both => inside' both.2,if_neg fun both => inside' both.2]

theorem eachByteOnce (whole : 0 ≤ r.total) (some : 1 ≤ r.channels) {rounds : List (List Event)} {last : List Event}
    (steady : SteadyRounds (firstSession r) (rounds ++ [last]))
    (completes : success r (roundOf (afterRounds (firstSession r) rounds) last)) :
    (∀ k, times r (afterRounds (firstSession r) (rounds ++ [last])) k = if r.offset ≤ k ∧
      k < r.offset+r.total then 1 else 0) ∧
    ∀ i < r.channels, ∀ m ∈ (afterRounds (firstSession r) (rounds ++ [last])).moves i, m.sink = m.source := by
  have kept := roundsKept (firstKept r) steady
  have ended : ∀ i < r.channels, ((afterRounds (firstSession r) (rounds ++ [last])).file.progress i).sent =
      (initTransferProgressState r i).chunkSize := by
    intro i inside
    have size := kept.size i inside
    unfold afterRounds at *
    rw [foldl_append] at *
    exact (completes.2 i inside).2.trans size
  have tiles : ∀ i < r.channels,
    Tiles ((afterRounds (firstSession r) (rounds ++ [last])).moves i) (edge r i) (edge r (i+1)) := by
    intro i inside
    have here := kept.tiles i inside
    rwa [ended i inside,edgeNext inside] at here
  refine ⟨?_,fun i inside => tilesSame (tiles i inside)⟩
  intro k
  have sum := countTo whole (fun i inside => tilesCount (tiles i inside) k) (le_refl r.channels)
  rwa [edgeZero some,edgeLast] at sum

abbrev Within (c : Channel) : Prop := c.progress.sent ≤ c.progress.chunkSize

theorem stepWithin {e j} (within : Within (e.channels j)) (ev) : Within ((step r e ev).channels j) := by
  rcases @stepCases r e ev with ⟨i,o,-,-,moves,same⟩ | ⟨-,same⟩
  · rw [same]
    by_cases here : j = i
    · subst here
      rw [putHere]
      exact takenLe moves.more o
    · rwa [putOther here]
  · rwa [Within,(same j).1]

theorem runWithin {e j} (within : Within (e.channels j)) (events) : Within ((run r e events).channels j) := by
  induction events generalizing e with
  | nil => exact within
  | cons ev _ ih => exact ih (stepWithin within ev)

/- In any interleaving, whatever fails. -/
theorem neverTwice (whole : 0 ≤ r.total) (events : List Event) :
    (∀ k, ((range r.channels).map fun i => ((run r (begin r) events).channels i).moves.countP (·.covers k)).sum ≤
      if r.offset ≤ k ∧ k < r.offset+r.total then 1 else 0) ∧
    ∀ i < r.channels, ∀ m ∈ ((run r (begin r) events).channels i).moves, m.sink = m.source := by
  have tiles : ∀ i < r.channels, ∃ b ≤ edge r (i+1),
    Tiles ((run r (begin r) events).channels i).moves (edge r i+0) b := by
    intro i inside
    have here := runPlaced (e := begin r) (startPlaced inside rfl) events
    have within := @runWithin r (begin r) i (sizeNonneg whole i) events
    have next := here.size ▸ edgeNext inside
    cases bad : ((run r (begin r) events).channels i).outBad with
    | false => exact ⟨_,by omega,(here.outAt bad).2⟩
    | true =>
      obtain ⟨_,_,tiles⟩ := here.stuck bad
      exact ⟨_,by omega,tiles⟩
  refine ⟨fun k => ?_,fun i inside => tilesSame (tiles i inside).choose_spec.2⟩
  have each : ∀ i ∈ range r.channels, ((run r (begin r) events).channels i).moves.countP (·.covers k) ≤
      if edge r i ≤ k ∧ k < edge r (i+1) then 1 else 0 := by
    intro i mem
    obtain ⟨_,_,tiled⟩ := tiles i (mem_range.mp mem)
    rw [tilesCount tiled k]
    split_ifs <;> omega
  refine (sum_le_sum each).trans ((countTo whole (fun _ _ => rfl) le_rfl).trans_le ?_)
  rw [edgeLast,edge]
  split_ifs <;> omega

end rounds

def threeChannels : Request := ⟨10,3,5,2⟩

-- A write of the second channel fails, and the transfer is stopped before the first has ended.
def lossyTurns : List Event :=
  [.turn 2 fine,.turn 0 fine,.turn 1 lastFails,.turn 2 fine,.turn 1 fine,.stop,.turn 0 fine]

theorem lostOnce :
    ((run threeChannels (begin threeChannels) lossyTurns).channels 2).moves.countP (·.covers 12) = 1 ∧
    (∀ k, ((List.range 3).map fun i =>
      ((run threeChannels (begin threeChannels) lossyTurns).channels i).moves.countP (·.covers k)).sum ≤
      if 5 ≤ k ∧ k < 15 then 1 else 0) ∧
    ∀ i < 3, ∀ m ∈ ((run threeChannels (begin threeChannels) lossyTurns).channels i).moves, m.sink = m.source :=
  ⟨by decide,neverTwice (by decide) lossyTurns⟩

def stoppedRound : List Event := [.turn 2 fine,.turn 2 fine,.stop,.turn 2 fine,.turn 1 fine]

def lastRound : List Event :=
  List.replicate 4 (.turn 2 fine) ++ List.replicate 5 (.turn 1 fine) ++ List.replicate 5 (.turn 0 fine)

def isFine : Event → Bool
  | .stop => true
  | .turn _ o => o = fine

theorem fineSteady {r events} (buffer : r.bufferSize ≤ 100) (all : events.all isFine = true) (e) :
    SteadyRun r e events := by
  induction events generalizing e with
  | nil => trivial
  | cons ev _ ih =>
    obtain ⟨head,tail⟩ := Bool.and_eq_true_iff.mp ((all_cons).symm.trans all)
    refine ⟨?_,ih tail _⟩
    cases ev with
    | stop => trivial
    | turn i o =>
      cases of_decide_eq_true head
      refine ⟨rfl,rfl,rfl,?_⟩
      have least : wanted r (e.channels i).progress ≤ r.bufferSize := (min_le_left _ _).trans (min_le_right _ _)
      show wanted r (e.channels i).progress ≤ 100
      omega

theorem tenBytesInTwoRounds :
    success threeChannels (roundOf (afterRounds (firstSession threeChannels) [stoppedRound]) lastRound) ∧
    ∀ k, times threeChannels (afterRounds (firstSession threeChannels) [stoppedRound,lastRound]) k = if 5 ≤ k ∧
    k < 15 then 1 else 0 := by
  have completes :
    success threeChannels (roundOf (afterRounds (firstSession threeChannels) [stoppedRound]) lastRound) := by
    unfold success
    decide
  have steady : SteadyRounds (firstSession threeChannels) ([stoppedRound] ++ [lastRound]) :=
    ⟨fineSteady (show (2 : Int) ≤ 100 by decide) rfl _,fineSteady (show (2 : Int) ≤ 100 by decide) rfl _,trivial⟩
  exact ⟨completes,(eachByteOnce (by decide) (by decide) steady completes).1⟩

end Irods.TransferEngine
