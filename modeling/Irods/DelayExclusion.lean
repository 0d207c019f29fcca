import Irods.DelaySteps

/-! One executor at a time: whoever has locked a rule is alone until the rule is deleted or its lock is
cleared. Only the condition of the lock statement is used; the queues of the servers are not. -/
namespace Irods.DelayServer
open CText RepeatTime List

structure Exclusive (w : World) (events : List Event) : Prop where
  ahead : ∀ id, w.nextId ≤ id → Absent w.catalog id
  single : ∀ id, (holders id events).length ≤ 1
  guarded : ∀ id, holders id events ≠ [] → id < w.nextId ∧ AllLocked w.catalog id
  owners : ∀ e id, (w.phase e).holding = some id → id < w.nextId ∧ (e ∈ holders id events ∨ Absent w.catalog id)
  alone : ∀ e e' id, (w.phase e).holding = some id → (w.phase e').holding = some id → e = e'

theorem absentLocked {c id} (absent : Absent c id) : AllLocked c id := fun row mem same => absurd same (absent row mem)

theorem singletonOf {l} (short : l.length ≤ 1) {e : Executor} (mem : e ∈ l) : l = [e] := by
  match l,short with
  | [x],_ => rw [mem_singleton.mp mem]

section
variable {w events} (inv : Exclusive w events)
include inv

theorem quietExclusive {w' seen} (keeps : Keeps w.catalog w'.catalog) (next : w'.nextId = w.nextId)
    (silent : Silent seen)
    (threads : ∀ e id, (w'.phase e).holding = some id → (w.phase e).holding = some id) :
    Exclusive w' (seen.toList ++ events) where
  ahead id bound := keeps.absent id (inv.ahead id (next ▸ bound))
  single id := by rw [silent]; exact inv.single id
  guarded id nonempty := by
    rw [silent] at nonempty
    obtain ⟨known,locked⟩ := inv.guarded id nonempty
    exact ⟨next ▸ known,keeps.locked id locked⟩
  owners e id held := by
    obtain ⟨known,owner⟩ := inv.owners e id (threads e id held)
    rw [silent,next]
    exact ⟨known,owner.imp_right (keeps.absent id)⟩
  alone e e' id held held' := inv.alone e e' id (threads e id held) (threads e' id held')

theorem submittedExclusive {w' seen cells} (catalog : w'.catalog = w.catalog ++ [⟨w.nextId,cells⟩])
    (next : w'.nextId = w.nextId+1) (silent : Silent seen) (threads : ∀ e, w'.phase e = w.phase e) :
    Exclusive w' (seen.toList ++ events) := by
  have absent : ∀ id, id ≠ w.nextId → Absent w.catalog id → Absent w'.catalog id := by
    intro id other absent row mem
    rw [catalog] at mem
    rcases mem_append.mp mem with old | new
    · exact absent row old
    · rw [mem_singleton.mp new]
      exact other.symm
  refine ⟨?_,?_,?_,?_,fun e e' id => by rw [threads,threads]; exact inv.alone e e' id⟩
  · intro id _
    exact absent id (by omega) (inv.ahead id (by omega))
  · intro id
    rw [silent]
    exact inv.single id
  · intro id nonempty
    rw [silent] at nonempty
    obtain ⟨known,locked⟩ := inv.guarded id nonempty
    refine ⟨by omega,?_⟩
    intro row mem same
    rw [catalog] at mem
    rcases mem_append.mp mem with old | new
    · exact locked row old same
    rw [mem_singleton.mp new] at same
    have this : w.nextId = id := same
    omega
  · intro e id held
    rw [threads] at held
    obtain ⟨_,owner⟩ := inv.owners e id held
    rw [silent]
    exact ⟨by omega,owner.imp_right (absent id (by omega))⟩

theorem lockedExclusive {w' e id x t} (free : ∃ row ∈ w.catalog, row.id = id ∧ row.free)
    (keeps : Keeps w.catalog w'.catalog)
    (taken : AllLocked w'.catalog id) (next : w'.nextId = w.nextId) (threads : ∀ e', e' ≠ e → w'.phase e' = w.phase e')
    (mine : (w'.phase e).holding = some id) :
    Exclusive w' (.locked e id x t::events) := by
  obtain ⟨row,there,same,unclosed⟩ := free
  have known : id < w.nextId := by
    by_contra beyond
    exact inv.ahead id (by omega) row there same
  -- a free row has no holder
  have nobody : holders id events = [] := by
    by_contra nonempty
    exact (inv.guarded id nonempty).2 row there same unclosed
  have here : holders id (.locked e id x t::events) = [e] := by rw [holders,if_pos rfl,nobody]
  have others : ∀ i, i ≠ id → holders i (.locked e id x t::events) = holders i events := fun i other => by
    rw [holders,if_neg other.symm]
  have unheld : ∀ e', e' ≠ e → (w'.phase e').holding ≠ some id := by
    intro e' other held
    rw [threads e' other] at held
    have owner := (inv.owners e' id held).2
    rw [nobody] at owner
    rcases owner with nowhere | absent
    · contradiction
    · exact absent row there same
  refine ⟨?_,?_,?_,?_,?_⟩
  · intro i bound
    exact keeps.absent i (inv.ahead i (next ▸ bound))
  · intro i
    by_cases this : i = id
    · rw [this,here]
      exact le_refl 1
    · rw [others i this]
      exact inv.single i
  · intro i nonempty
    by_cases this : i = id
    · rw [this,next]
      exact ⟨known,taken⟩
    · rw [others i this] at nonempty
      obtain ⟨known,locked⟩ := inv.guarded i nonempty
      exact ⟨next ▸ known,keeps.locked i locked⟩
  · intro e' i held
    by_cases me : e' = e
    · rw [me,mine] at held
      cases held
      rw [me,here,next]
      exact ⟨known,.inl mem_cons_self⟩
    · have this : i ≠ id := fun this => unheld e' me (this ▸ held)
      rw [threads e' me] at held
      obtain ⟨known,owner⟩ := inv.owners e' i held
      rw [others i this]
      exact ⟨next ▸ known,owner.imp_right (keeps.absent i)⟩
  · intro e₁ e₂ i held₁ held₂
    by_cases this : i = id
    · subst this
      have only : ∀ x, (w'.phase x).holding = some i → x = e := fun x held => by_contra fun other => unheld x other held
      exact (only e₁ held₁).trans (only e₂ held₂).symm
    have before : ∀ x, (w'.phase x).holding = some i → (w.phase x).holding = some i := by
      intro x held
      have other : x ≠ e := by
        rintro rfl
        exact this (Option.some.inj (held.symm.trans mine))
      rwa [threads x other] at held
    exact inv.alone e₁ e₂ i (before e₁ held₁) (before e₂ held₂)

theorem givenBack {w'} {seen} {e id} (held : (w.phase e).holding = some id)
    (locked : ∀ i, i ≠ id → AllLocked w.catalog i → AllLocked w'.catalog i)
    (absent : ∀ i, Absent w.catalog i → Absent w'.catalog i) (next : w'.nextId = w.nextId)
    (threads : ∀ e', e' ≠ e → w'.phase e' = w.phase e')
    (mine : ∀ i, (w'.phase e).holding = some i → i = id ∧ Absent w'.catalog id)
    (here : holders id (seen::events) = (holders id events).erase e)
    (others : ∀ i, i ≠ id → holders i (seen::events) = holders i events) : Exclusive w' (seen::events) := by
  obtain ⟨known,owner⟩ := inv.owners e id held
  -- either nobody is left, or the rule is gone
  have left : (holders id events).erase e = [] ∨ Absent w'.catalog id := by
    rcases owner with mem | gone
    · rw [singletonOf (inv.single id) mem]
      simp
    · exact .inr (absent id gone)
  have before : ∀ x i, (w'.phase x).holding = some i → (w.phase x).holding = some i := by
    intro x i there
    by_cases me : x = e
    · subst me
      rw [(mine i there).1]
      exact held
    · rwa [threads x me] at there
  refine ⟨?_,?_,?_,?_,fun e₁ e₂ i held₁ held₂ => inv.alone e₁ e₂ i (before e₁ i held₁) (before e₂ i held₂)⟩
  · intro i bound
    exact absent i (inv.ahead i (next ▸ bound))
  · intro i
    by_cases this : i = id
    · rw [this,here]
      exact le_trans length_erase_le (inv.single id)
    · rw [others i this]
      exact inv.single i
  · intro i nonempty
    by_cases this : i = id
    · rw [this,here] at nonempty
      rw [this,next]
      exact ⟨known,absentLocked (left.resolve_left nonempty)⟩
    · rw [others i this] at nonempty
      obtain ⟨known,still⟩ := inv.guarded i nonempty
      exact ⟨next ▸ known,locked i this still⟩
  · intro e' i there
    by_cases me : e' = e
    · rw [me] at there
      obtain ⟨same,gone⟩ := mine i there
      rw [same,next]
      exact ⟨known,.inr gone⟩
    · rw [threads e' me] at there
      obtain ⟨known',owner'⟩ := inv.owners e' i there
      refine ⟨next ▸ known',?_⟩
      by_cases this : i = id
      · subst this
        right
        rcases owner' with mem' | gone
        · rcases owner with mem | gone
          · rw [singletonOf (inv.single i) mem] at mem'
            exact absurd (mem_singleton.mp mem') me
          · exact absent i gone
        · exact absent i gone
      · rw [others i this]
        exact owner'.imp_right (absent i)

end

theorem kindExclusive {w w' seen events} (kind : Kind w w' seen) (inv : Exclusive w events) :
    Exclusive w' (seen.toList ++ events) := by
  cases kind with
  | quiet keeps next silent threads => exact quietExclusive inv keeps next silent threads
  | submitted catalog next silent threads => exact submittedExclusive inv catalog next silent threads
  | locked free keeps taken next threads mine event =>
    subst event
    exact lockedExclusive inv free keeps taken next threads mine
  | cleared held others absent next threads mine event =>
    subst event
    refine givenBack inv held others absent next threads ?_ ?_ ?_
    · intro i nonempty
      exact absurd (mine.symm.trans nonempty) nofun
    · exact if_pos rfl
    · exact fun i other => if_neg other.symm
  | deleted held keeps gone next threads mine event =>
    subst event
    refine givenBack inv held (fun i _ => keeps.locked i) keeps.absent next threads ?_ ?_ ?_
    · exact fun i nonempty => ⟨mine i nonempty,gone⟩
    · exact if_pos rfl
    · exact fun i other => if_neg other.symm

theorem initialIdle {w} (initial : Initial w) (e) : w.phase e = .idle := by
  unfold World.phase
  rw [initial.idle e.1]
  rfl

theorem initialExclusive {w} (initial : Initial w) : Exclusive w [] where
  ahead id bound row mem same := by have := initial.ahead row mem; omega
  single _ := Nat.zero_le 1
  guarded _ nonempty := absurd rfl nonempty
  owners e id held := absurd held (by rw [initialIdle initial]; exact nofun)
  alone e _ id held := absurd held (by rw [initialIdle initial]; exact nofun)

theorem reachedExclusive {convertDateFormat start w events} (initial : Initial start)
    (reached : Reached convertDateFormat start w events) : Exclusive w events := by
  induction reached with
  | start => exact initialExclusive initial
  | step _ taken ih => exact kindExclusive (stepSteps taken).1 ih

theorem ruleHeldByOne {convertDateFormat} {start w : World} {events : List Event} (initial : Initial start)
    (reached : Reached convertDateFormat start w events) (id : Nat) :
    (holders id events).length ≤ 1 ∧
    (∀ e e', (w.phase e).holding = some id → (w.phase e').holding = some id → e = e') ∧
    ∀ e, (w.phase e).holding = some id → e ∈ holders id events ∨ Absent w.catalog id :=
  have inv := reachedExclusive initial reached
  ⟨inv.single id,fun e e' => inv.alone e e' id,fun e held => (inv.owners e id held).2⟩

theorem secondServerRefused : ∃ w events, Reached (fun s _ => s) twoServers w events ∧ w.phase (0,0) = .fetching 1 ∧
    w.phase (1,0) = .leaving 1 ∧ holders 1 events = [(0,0)] ∧ (holders 1 events).length ≤ 1 := by
  have ran : (runAll (fun s _ => s) twoServers [] (finds 0 ++ finds 1 ++ [.act (0,0) (.lock .answered),
      .act (1,0) (.lock .answered)])).map
      (fun r => (r.1.phase (0,0),r.1.phase (1,0),holders 1 r.2)) = some (.fetching 1,.leaving 1,[(0,0)]) := by
        decide +kernel
  obtain ⟨⟨w,events⟩,last,seen⟩ := Option.map_eq_some_iff.mp ran
  have reached := runReached _ .start last
  obtain ⟨first,rest⟩ := Prod.mk.inj seen
  obtain ⟨second,held⟩ := Prod.mk.inj rest
  exact ⟨w,events,reached,first,second,held,(ruleHeldByOne twoServersInitial reached 1).1⟩

theorem freeUnheld {convertDateFormat start w events row} (initial : Initial start)
    (reached : Reached convertDateFormat start w events) (mem : row ∈ w.catalog) (free : row.free) (e) :
    (w.phase e).holding ≠ some row.id := by
  intro held
  have inv := reachedExclusive initial reached
  rcases (inv.owners e _ held).2 with holder | absent
  · exact (inv.guarded _ (ne_nil_of_mem holder)).2 row mem rfl free
  · exact absent row mem rfl

theorem releasedUnheld : ∃ w events, Reached (fun s _ => s) twoServers w events ∧
    .locked (0,0) 1 (lit "1699999000") 1700000000 ∈ events ∧ w.phase (1,0) = .starting 1 ∧
    ∃ row ∈ w.catalog, row.id = 1 ∧ row.free ∧ ∀ e, (w.phase e).holding ≠ some row.id := by
  have ran : (runAll (fun s _ => s) twoServers []
      (finds 0 ++ finds 1 ++ runs 0 ++ [.act (0,0) (.settle 0 .answered)])).map
      (fun r => (decide (.locked (0,0) 1 (lit "1699999000") 1700000000 ∈ r.2),r.1.phase (1,0),
        r.1.catalog.any fun row => decide (row.id = 1 ∧ row.free))) = some (true,.starting 1,true) := by decide +kernel
  obtain ⟨⟨w,events⟩,last,seen⟩ := Option.map_eq_some_iff.mp ran
  have reached := runReached _ .start last
  obtain ⟨locked,rest⟩ := Prod.mk.inj seen
  obtain ⟨second,found⟩ := Prod.mk.inj rest
  obtain ⟨row,mem,free⟩ := any_eq_true.mp found
  obtain ⟨first,free⟩ := of_decide_eq_true free
  exact ⟨w,events,reached,of_decide_eq_true locked,second,row,mem,first,free,
      freeUnheld twoServersInitial reached mem free⟩

end Irods.DelayServer
