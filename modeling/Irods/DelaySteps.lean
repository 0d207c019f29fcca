import Irods.DelayServer

/-! What one step of the delay servers can do: which locks and times of rules it changes, and which
threads hold a rule, wait for one or begin one. -/
namespace Irods.DelayServer
open CText RepeatTime List Function World Server ReplicaStateTable

def Phase.holding : Phase → Option Nat
  | .fetching id => some id
  | .running inp => some inp.ruleExecId
  | .migrating inp _ => some inp.ruleExecId
  | .settling inp _ => some inp.ruleExecId
  | .deletingAgain inp => some inp.ruleExecId
  | _ => none

def holders (id : Nat) : List Event → List Executor
  | [] => []
  | .locked e i _ _::before => if i = id then e::holders id before else holders id before
  | .cleared e i _::before => if i = id then (holders id before).erase e else holders id before
  | .deleted e i::before => if i = id then (holders id before).erase e else holders id before
  | .queried _ _::before => holders id before
  | .started _ _::before => holders id before
  | .changed _ _::before => holders id before

def AllLocked (c : Catalog) (id : Nat) : Prop := ∀ row ∈ c, row.id = id → ¬ row.free
def Absent (c : Catalog) (id : Nat) : Prop := ∀ row ∈ c, row.id ≠ id

structure Keeps (c c' : Catalog) : Prop where
  locked : ∀ id, AllLocked c id → AllLocked c' id
  absent : ∀ id, Absent c id → Absent c' id

structure Times (c c' : Catalog) : Prop where
  ids : (c'.map Row.id).Sublist (c.map Row.id)
  same : ∀ row ∈ c', ∃ old ∈ c, row.id = old.id ∧ row.cells .exeTime = old.cells .exeTime

structure Writes (id : Nat) (x : Text) (c c' : Catalog) : Prop where
  ids : (c'.map Row.id).Sublist (c.map Row.id)
  here : ∀ row ∈ c', row.id = id → row.cells .exeTime = x
  others : ∀ row ∈ c', row.id ≠ id → ∃ old ∈ c, row.id = old.id ∧ row.cells .exeTime = old.cells .exeTime

theorem keepsRefl (c) : Keeps c c := ⟨fun _ h => h,fun _ h => h⟩

variable {c : Catalog} {hit : Row → Bool} {params : Params}

theorem rewriteMem {row} (mem : row ∈ c.rewrite hit params) :
    ∃ old ∈ c, row.id = old.id ∧
    (hit old = false ∧ row = old ∨ hit old = true ∧ row.cells = params.apply old.cells) := by
  obtain ⟨old,inside,rfl⟩ := mem_map.mp mem
  refine ⟨old,inside,?_⟩
  cases found : hit old with
  | false => exact ⟨rfl,.inl ⟨rfl,rfl⟩⟩
  | true => exact ⟨rfl,.inr ⟨rfl,rfl⟩⟩

theorem rewriteAbsent {id} (absent : Absent c id) :
    Absent (c.rewrite hit params) id := by
  intro _ mem
  obtain ⟨old,inside,same,-⟩ := rewriteMem mem
  exact same ▸ absent old inside

theorem rewriteOthers {id} (apart : ∀ row ∈ c, row.id = id → hit row = false)
    (locked : AllLocked c id) : AllLocked (c.rewrite hit params) id := by
  intro _ mem this
  obtain ⟨old,inside,same,kept | changed⟩ := rewriteMem mem
  · exact kept.2 ▸ locked old inside (same.symm.trans this)
  · exact absurd (changed.1.symm.trans (apart old inside (same.symm.trans this))) (by decide)

theorem paddedSome (now) : paddedTime now ≠ [] := by
  have digits : decimalText now ≠ [] := by
    unfold decimalText
    split
    · exact cons_ne_nil _ _
    · exact Nat.toDigits_ne_nil
  exact append_ne_nil_of_right_ne_nil _ digits

theorem rewriteNone (c : Catalog) (params) : c.rewrite (fun _ => false) params = c := map_id c

theorem lockRewrites (id host pid now c) :
    ∃ hit, (dbDelayRuleLock id host pid now c).2 = c.rewrite hit (lockParams host pid now) ∧
    ∀ row, hit row = true → row.id = id ∧ row.free := by
  unfold dbDelayRuleLock
  split
  · exact ⟨_,(rewriteNone c _).symm,nofun⟩
  · exact ⟨_,rfl,fun row => of_decide_eq_true⟩

theorem modRewrites (id params c) : ∃ hit, (dbModRuleExecOp id params c).2 = c.rewrite hit params ∧
    ∀ row, hit row = true → row.id = id := by
  unfold dbModRuleExecOp
  split
  · exact ⟨_,(rewriteNone c _).symm,nofun⟩
  split
  · exact ⟨_,(rewriteNone c _).symm,nofun⟩
  · exact ⟨_,rfl,fun row => of_decide_eq_true⟩

theorem lockKeeps (id host pid now c) : Keeps c (dbDelayRuleLock id host pid now c).2 := by
  obtain ⟨_,same,only⟩ := lockRewrites id host pid now c
  rw [same]
  refine ⟨fun i locked => rewriteOthers ?_ locked,fun i => rewriteAbsent⟩
  intro row mem this
  exact Bool.eq_false_iff.mpr fun found => locked row mem this (only row found).2

theorem lockTaken {id} {host pid now} (ok : ¬ (dbDelayRuleLock id host pid now c).1 < 0) :
    (∃ row ∈ c, row.id = id ∧ row.free) ∧ AllLocked (dbDelayRuleLock id host pid now c).2 id := by
  unfold dbDelayRuleLock at ok ⊢
  dsimp only at ok ⊢
  split at ok
  · exact absurd (show SYS_INTERNAL_NULL_INPUT_ERR < 0 by decide) ok
  rename_i process
  rw [if_neg process]
  constructor
  · by_contra absent
    have zero := countP_eq_zero.mpr fun row mem hit => absent ⟨row,mem,of_decide_eq_true hit⟩
    refine ok ?_
    rw [zero]
    show CAT_NO_ROWS_UPDATED < 0
    decide
  · intro row mem this free
    obtain ⟨_,_,same,kept | changed⟩ := rewriteMem mem
    · have out := of_decide_eq_false kept.1
      exact out ⟨same.symm.trans this,kept.2 ▸ free⟩
    · have stamp : row.cells .lockTs = paddedTime now := by rw [changed.2]; rfl
      exact paddedSome now (stamp.symm.trans free.2.2)

theorem modOthers {id i} (other : i ≠ id) (locked : AllLocked c i) :
    AllLocked (dbModRuleExecOp id params c).2 i := by
  obtain ⟨_,same,only⟩ := modRewrites id params c
  rw [same]
  exact rewriteOthers (fun row _ this => Bool.eq_false_iff.mpr fun found => other (this.symm.trans (only row found)))
    locked

theorem modAbsent {id i} (absent : Absent c i) : Absent (dbModRuleExecOp id params c).2 i := by
  obtain ⟨_,same,-⟩ := modRewrites id params c
  exact same ▸ rewriteAbsent absent

theorem lookupOther {col} (apart : ∀ p ∈ params, p.1 ≠ col) (cells) :
    params.apply cells col = cells col := by
  unfold Params.apply
  have nothing := lookup_eq_none_iff.mpr fun p mem => bne_iff_ne.mpr (apart p mem).symm
  rw [nothing]
  rfl

theorem modKeeps {id} (apart : ¬ ∃ p ∈ params, p.1 ∈ lockColumns) :
    Keeps c (dbModRuleExecOp id params c).2 := by
  refine ⟨?_,fun i => modAbsent⟩
  intro i locked row mem this free
  obtain ⟨_,rewritten,-⟩ := modRewrites id params c
  rw [rewritten] at mem
  obtain ⟨old,inside,same,kept | changed⟩ := rewriteMem mem
  · exact locked old inside (same.symm.trans this) (kept.2 ▸ free)
  have column : ∀ col ∈ lockColumns, row.cells col = old.cells col := by
    intro _ mem
    rw [changed.2]
    exact lookupOther (fun p inP eq => apart ⟨p,inP,eq ▸ mem⟩) old.cells
  refine locked old inside (same.symm.trans this) ⟨?_,?_,?_⟩
  · exact (column .lockHost (by decide)).symm.trans free.1
  · exact (column .lockHostPid (by decide)).symm.trans free.2.1
  · exact (column .lockTs (by decide)).symm.trans free.2.2

theorem deleteKeeps (id) (c) : Keeps c (dbDelRuleExecOp id c).2 :=
  ⟨fun _ locked row mem => locked row (mem_of_mem_filter mem),
    fun _ absent row mem => absent row (mem_of_mem_filter mem)⟩

theorem deleteGone (id c) : Absent (dbDelRuleExecOp id c).2 id := by
  intro _ mem
  exact of_decide_eq_true (mem_filter.mp mem).2

theorem timesRefl (c) : Times c c := ⟨List.Sublist.refl _,fun row mem => ⟨row,mem,rfl,rfl⟩⟩

theorem rewriteIds (c : Catalog) (hit params) : (c.rewrite hit params).map Row.id = c.map Row.id := by
  unfold Catalog.rewrite
  rw [map_map]
  refine map_congr_left fun row _ => ?_
  dsimp only [comp]
  split <;> rfl

theorem rewriteTimes (apart : ∀ p ∈ params, p.1 ≠ Column.exeTime) :
    Times c (c.rewrite hit params) := by
  refine ⟨by rw [rewriteIds],?_⟩
  intro _ mem
  obtain ⟨old,inside,same,kept | changed⟩ := rewriteMem mem
  · exact ⟨old,inside,same,by rw [kept.2]⟩
  · exact ⟨old,inside,same,by rw [changed.2,lookupOther apart]⟩

theorem lockTimes (id host pid now c) : Times c (dbDelayRuleLock id host pid now c).2 := by
  obtain ⟨hit,same,-⟩ := lockRewrites id host pid now c
  rw [same]
  refine rewriteTimes ?_
  intro p mem
  simp only [lockParams,mem_cons,not_mem_nil,or_false] at mem
  rcases mem with rfl | rfl | rfl <;> exact nofun

theorem deleteTimes (id c) : Times c (dbDelRuleExecOp id c).2 :=
  ⟨List.Sublist.map _ filter_sublist,fun row mem => ⟨row,mem_of_mem_filter mem,rfl,rfl⟩⟩

theorem modTimes {id} (apart : ∀ p ∈ params, p.1 ≠ Column.exeTime) :
    Times c (dbModRuleExecOp id params c).2 := by
  obtain ⟨_,same,-⟩ := modRewrites id params c
  exact same ▸ rewriteTimes apart

section
variable {params : Params} {x} (valid : (params.lookup .priority).any (fun p => ¬ validPriority p) = false)
    (wrote : params.lookup .exeTime = some x)
include valid wrote

theorem modDone {id} : (dbModRuleExecOp id params c).2 = c.rewrite (·.id = id) params := by
  have nonempty : params ≠ [] := by
    rintro rfl
    contradiction
  unfold dbModRuleExecOp
  rw [if_neg (by rw [valid]; decide),if_neg nonempty]

theorem modWrites {id} : Writes id x c (dbModRuleExecOp id params c).2 := by
  rw [modDone valid wrote]
  refine ⟨by rw [rewriteIds],?_,?_⟩
  · intro row mem this
    obtain ⟨old,-,same,kept | changed⟩ := rewriteMem mem
    · exact absurd (same.symm.trans this) (of_decide_eq_false kept.1)
    · rw [changed.2,Params.apply,wrote]
      rfl
  · intro _ mem other
    obtain ⟨old,inside,same,kept | changed⟩ := rewriteMem mem
    · exact ⟨old,inside,same,by rw [kept.2]⟩
    · exact absurd (same.trans (of_decide_eq_true changed.1)) other

end

theorem phaseTo (w : World) (e e' p) : (w.to e p).phase e' = if e' = e then p else w.phase e' := by
  obtain ⟨s,k⟩ := e
  obtain ⟨s',k'⟩ := e'
  unfold World.to World.put World.phase Server.setPhase
  by_cases server : s' = s
  · subst server
    by_cases thread : k' = k
    · subst thread
      simp
    · have other : ((s',k') : Executor) ≠ (s',k) := fun same => thread (congrArg Prod.snd same)
      rw [if_neg other]
      simp [update_of_ne thread]
  · have other : ((s',k') : Executor) ≠ (s,k) := fun same => server (congrArg Prod.fst same)
    rw [if_neg other]
    simp [update_of_ne server]

theorem phaseSelf (w : World) (e p) : (w.to e p).phase e = p := by rw [phaseTo,if_pos rfl]

theorem phaseOther (w : World) {e e'} (other : e' ≠ e) (p) : (w.to e p).phase e' = w.phase e' := by
  rw [phaseTo,if_neg other]

theorem phaseServer (w : World) (s v e) :
    (w.put s v).phase e = if e.1 = s then v.threads e.2 else w.phase e := by
  unfold put phase
  by_cases server : e.1 = s
  · subst server
    simp
  · rw [if_neg server]
    simp [update_of_ne server]

variable {v : Server}

theorem phasePut {w : World} {s} (same : v.threads = (w.servers s).threads) (e) :
    (w.put s v).phase e = w.phase e := by
  rw [phaseServer]
  split
  · rename_i server
    rw [same,← server]
    rfl
  · rfl

theorem putTo (w : World) (e v p) : w.put e.1 (v.setPhase e.2 p) = (w.put e.1 v).to e p := by
  simp [World.to,World.put]

def Phase.waiting : Phase → Option Nat
  | .offering id => some id
  | .enqueueing id => some id
  | .starting id => some id
  | _ => none

def Phase.begun : Phase → Option Nat
  | .fetching id => some id
  | .running inp => some inp.ruleExecId
  | _ => none

def Task.id : Task → Nat
  | .offer id => id
  | .execute id => id

def Main.rows : Main → List Nat
  | .posting rest => rest
  | _ => []

def Server.pending (v : Server) (id : Nat) : Prop :=
  id ∈ v.main.rows ∨ (∃ t ∈ v.pool, t.id = id) ∨ ∃ k, (v.threads k).waiting = some id

def World.pending (w : World) (id : Nat) : Prop := ∃ s, (w.servers s).pending id

theorem pendingPut {w : World} {s} {P : Nat → Prop}
    (new : ∀ id, v.pending id → (w.servers s).pending id ∨ P id) {id} (waits : (w.put s v).pending id) :
    w.pending id ∨ P id := by
  obtain ⟨s',there⟩ := waits
  unfold put at there
  dsimp only at there
  by_cases server : s' = s
  · subst server
    rw [update_self] at there
    exact (new id there).imp_left fun old => ⟨s',old⟩
  · rw [update_of_ne server] at there
    exact .inl ⟨s',there⟩

theorem pendingAt {k p} {id} (waits : (v.setPhase k p).pending id) : v.pending id ∨ p.waiting = some id := by
  rcases waits with row | task | ⟨k',thread⟩
  · exact .inl (.inl row)
  · exact .inl (.inr (.inl task))
  unfold Server.setPhase at thread
  dsimp only at thread
  by_cases same : k' = k
  · subst same
    rw [update_self] at thread
    exact .inr thread
  · rw [update_of_ne same] at thread
    exact .inl (.inr (.inr ⟨k',thread⟩))

theorem phasePending {w : World} {e id} (waits : (w.phase e).waiting = some id) : w.pending id :=
  ⟨e.1,.inr (.inr ⟨e.2,waits⟩)⟩

theorem mainPut (w : World) (s v s') :
    ((w.put s v).servers s').main = if s' = s then v.main else (w.servers s').main := by
  unfold put
  by_cases server : s' = s
  · subst server
    simp
  · rw [if_neg server]
    simp [update_of_ne server]

theorem pendingTo {w : World} {e p id} (waits : (w.to e p).pending id) : w.pending id ∨ p.waiting = some id :=
  pendingPut (P := fun id => p.waiting = some id) (fun _ new => pendingAt new) waits

theorem mainTo (w : World) (e p s) : ((w.to e p).servers s).main = (w.servers s).main := by
  rw [World.to,mainPut]
  split
  · rename_i server
    rw [server]
    rfl
  · rfl

def Silent (seen : Option Event) : Prop := ∀ id before, holders id (seen.toList ++ before) = holders id before

inductive Kind (w w' : World) (seen : Option Event) : Prop where
  | quiet (keeps : Keeps w.catalog w'.catalog) (next : w'.nextId = w.nextId) (silent : Silent seen)
      (threads : ∀ e id, (w'.phase e).holding = some id → (w.phase e).holding = some id)
  | submitted {cells} (catalog : w'.catalog = w.catalog ++ [⟨w.nextId,cells⟩]) (next : w'.nextId = w.nextId+1)
      (silent : Silent seen)
      (threads : ∀ e, w'.phase e = w.phase e)
  | locked {e id x t} (free : ∃ row ∈ w.catalog, row.id = id ∧ row.free) (keeps : Keeps w.catalog w'.catalog)
      (taken : AllLocked w'.catalog id) (next : w'.nextId = w.nextId)
      (threads : ∀ e', e' ≠ e → w'.phase e' = w.phase e')
      (mine : (w'.phase e).holding = some id) (event : seen = some (.locked e id x t))
  | cleared {e id x} (held : (w.phase e).holding = some id) (others : ∀ i, i ≠ id → AllLocked w.catalog i →
      AllLocked w'.catalog i)
      (absent : ∀ i, Absent w.catalog i → Absent w'.catalog i) (next : w'.nextId = w.nextId)
      (threads : ∀ e', e' ≠ e → w'.phase e' = w.phase e') (mine : (w'.phase e).holding = none)
      (event : seen = some (.cleared e id x))
  | deleted {e id} (held : (w.phase e).holding = some id) (keeps : Keeps w.catalog w'.catalog)
      (gone : Absent w'.catalog id)
      (next : w'.nextId = w.nextId) (threads : ∀ e', e' ≠ e → w'.phase e' = w.phase e')
      (mine : ∀ i, (w'.phase e).holding = some i → i = id) (event : seen = some (.deleted e id))

structure Frame (w w' : World) : Prop where
  now : w.now ≤ w'.now
  pending : ∀ id, w'.pending id → w.pending id
  asked : ∀ s t, (w'.servers s).main = .asked t → (w.servers s).main = .asked t ∨ t = w.now
  begun : ∀ e id, (w'.phase e).begun = some id → (w.phase e).begun = some id

inductive Moves (w w' : World) : Option Event → Prop where
  | still {seen} (frame : Frame w w') (next : w'.nextId = w.nextId) (times : Times w.catalog w'.catalog)
      (unseen : seen = none ∨ ∃ e id, seen = some (.deleted e id)) : Moves w w' seen
  | submitted {cells} (frame : Frame w w') (next : w'.nextId = w.nextId+1)
      (catalog : w'.catalog = w.catalog ++ [⟨w.nextId,cells⟩]) :
      Moves w w' none
  | queried {s time order} (now : w'.now = w.now) (next : w'.nextId = w.nextId) (catalog : w'.catalog = w.catalog)
      (asked : (w.servers s).main = .asked time) (ordered : Ordered w.catalog time order)
      (pending : ∀ id, w'.pending id → w.pending id ∨ id ∈ order)
      (asks : ∀ s t, (w'.servers s).main = .asked t → (w.servers s).main = .asked t)
      (phases : ∀ e, w'.phase e = w.phase e) :
      Moves w w' (some (.queried time (order.map (fun id => (id,exeTimeOf w.catalog id)))))
  | locked {e id} (now : w'.now = w.now) (next : w'.nextId = w.nextId) (times : Times w.catalog w'.catalog)
      (waits : w.pending id)
      (there : ∃ row ∈ w.catalog, row.id = id) (pending : ∀ id, w'.pending id → w.pending id)
      (asks : ∀ s, (w'.servers s).main = (w.servers s).main) (mine : (w'.phase e).begun = some id)
      (others : ∀ e', e' ≠ e → w'.phase e' = w.phase e') :
      Moves w w' (some (.locked e id (exeTimeOf w.catalog id) w.now))
  | started {e id} (frame : Frame w w') (next : w'.nextId = w.nextId) (catalog : w'.catalog = w.catalog)
      (begun : (w.phase e).begun = some id) : Moves w w' (some (.started e id))
  | wrote {id x seen} (frame : Frame w w') (next : w'.nextId = w.nextId) (writes : Writes id x w.catalog w'.catalog)
      (event : (∃ e, seen = some (.cleared e id x)) ∨ seen = some (.changed id x)) : Moves w w' seen

theorem silentNone : Silent none := fun _ _ => rfl

def Steps (w w' : World) (seen : Option Event) : Prop := Kind w w' seen ∧ Moves w w' seen

structure Base (w w' : World) : Prop where
  now : w'.now = w.now
  next : w'.nextId = w.nextId
  phases : ∀ e, w'.phase e = w.phase e
  pending : ∀ id, w'.pending id → w.pending id
  asked : ∀ s t, (w'.servers s).main = .asked t → (w.servers s).main = .asked t ∨ t = w.now
  keeps : Keeps w.catalog w'.catalog
  times : Times w.catalog w'.catalog

structure Follows (w : World) (e : Executor) (p : Phase) : Prop where
  holding : ∀ id, p.holding = some id → (w.phase e).holding = some id
  begun : ∀ id, p.begun = some id → (w.phase e).begun = some id
  waits : ∀ id, p.waiting = some id → w.pending id

theorem baseStore {w} (keeps : Keeps w.catalog c) (times : Times w.catalog c) : Base w (w.store c) :=
  ⟨rfl,rfl,fun _ => rfl,fun _ h => h,fun _ _ => .inl,keeps,times⟩

theorem baseRefl (w) : Base w w := baseStore (keepsRefl _) (timesRefl _)

theorem basePut {w} {s} (threads : v.threads = (w.servers s).threads) (pending : ∀ id, v.pending id → w.pending id)
    (asked : ∀ t, v.main = .asked t → (w.servers s).main = .asked t ∨ t = w.now) : Base w (w.put s v) where
  now := rfl
  next := rfl
  phases := phasePut threads
  pending id waits := or_self_iff.mp (pendingPut (fun id new => .inr (pending id new)) waits)
  asked s' t := by
    rw [mainPut]
    split
    · rename_i server
      subst server
      exact asked t
    · exact .inl
  keeps := keepsRefl _
  times := timesRefl _

theorem baseDequeue (w s id) : Base w (w.dequeueRule s id) := basePut rfl (fun _ h => ⟨s,h⟩) (fun _ => .inl)

theorem baseFrame {w w'} (base : Base w w') : Frame w w' :=
  ⟨le_of_eq base.now.symm,base.pending,base.asked,fun e id begun => by rwa [base.phases] at begun⟩

theorem baseSteps {w w'} (base : Base w w') : Steps w w' none :=
  ⟨.quiet base.keeps base.next silentNone fun e id held => by rwa [base.phases] at held,
    .still (baseFrame base) base.next base.times (.inl rfl)⟩

theorem frameTo {w w'} {e p} (base : Base w w') (follows : Follows w e p) : Frame w (w'.to e p) where
  now := le_of_eq base.now.symm
  pending id there := (pendingTo there).elim (base.pending id) (follows.waits id)
  asked s t := by
    rw [mainTo]
    exact base.asked s t
  begun e' id := by
    rw [phaseTo]
    split
    · rename_i same
      subst same
      exact follows.begun id
    · rw [base.phases]
      exact fun same => same

theorem frameStore {w w'} (c) (frame : Frame w w') : Frame w (w'.store c) :=
  ⟨frame.now,frame.pending,frame.asked,frame.begun⟩

variable {seen : Option Event}

theorem quietTo {w w'} {e p} (base : Base w w') (follows : Follows w e p) (silent : Silent seen) :
    Kind w (w'.to e p) seen := by
  refine .quiet base.keeps base.next silent ?_
  intro _ id held
  rw [phaseTo] at held
  split at held
  · rename_i same
    exact same ▸ follows.holding id held
  · rwa [base.phases] at held

theorem baseTo {w w'} {e p} (base : Base w w') (follows : Follows w e p) : Steps w (w'.to e p) none :=
  ⟨quietTo base follows silentNone,.still (frameTo base follows) base.next base.times (.inl rfl)⟩

theorem restTo {w w'} {e p} (base : Base w w') (rests : p.holding = none ∧ p.begun = none ∧ p.waiting = none) :
    Steps w (w'.to e p) none := by
  obtain ⟨holding,begun,waits⟩ := rests
  exact baseTo base ⟨by simp [holding],by simp [begun],by simp [waits]⟩

theorem lockSteps {w} {e id} (reply) (starting : w.phase e = .starting id) :
    Steps w (lockRule w e id reply).1 (lockRule w e id reply).2 := by
  have after : Base w (w.store (dbDelayRuleLock id (w.servers e.1).host (w.servers e.1).pid w.now w.catalog).2) :=
    baseStore (lockKeeps _ _ _ _ _) (lockTimes _ _ _ _ _)
  unfold lockRule
  cases reply with
  | refused => exact restTo (baseRefl w) ⟨rfl,rfl,rfl⟩
  | lost => exact restTo after ⟨rfl,rfl,rfl⟩
  | answered =>
    dsimp only
    split
    · exact restTo after ⟨rfl,rfl,rfl⟩
    rename_i ok
    obtain ⟨⟨row,mem,same,free⟩,taken⟩ := lockTaken ok
    refine ⟨.locked ⟨row,mem,same,free⟩ after.keeps taken rfl (fun e' other => phaseOther _ other _) ?_ rfl,
      .locked rfl rfl after.times (phasePending (by rw [starting]; rfl)) ⟨row,mem,same⟩ ?_
        (mainTo _ e _) ?_ fun e' other => phaseOther _ other _⟩
    · rw [phaseSelf]
      rfl
    · exact fun i there => (pendingTo there).resolve_right nofun
    · rw [phaseSelf]
      rfl

theorem deleteSteps {w} {e id} (reply) {ok failed} (held : (w.phase e).holding = some id)
    (done : ok.holding = none ∧ ok.begun = none ∧ ok.waiting = none) (again : ∀ i, failed.holding = some i → i = id)
    (rests : failed.begun = none ∧ failed.waiting = none) :
    Steps w (deleteRule w e id reply ok failed).1 (deleteRule w e id reply ok failed).2 := by
  have base : Base w (w.store (dbDelRuleExecOp id w.catalog).2) := baseStore (deleteKeeps _ _) (deleteTimes _ _)
  have kept : ∀ i, failed.holding = some i → (w.phase e).holding = some i := fun i nonempty => again i nonempty ▸ held
  have leaves : Follows w e failed := ⟨kept,by simp [rests.1],by simp [rests.2]⟩
  have gone : ∀ p, (∀ i, p.holding = some i → i = id) → Follows w e p →
      Steps w ((w.store (dbDelRuleExecOp id w.catalog).2).to e p) (some (.deleted e id)) := by
    intro p mine follows
    refine ⟨.deleted held base.keeps (deleteGone _ _) rfl (fun e' other => phaseOther _ other _) ?_ rfl,
      .still (frameTo base follows) rfl base.times (.inr ⟨e,id,rfl⟩)⟩
    rw [phaseSelf]
    exact mine
  unfold deleteRule
  cases reply with
  | refused => exact baseTo (baseRefl w) leaves
  | lost => exact gone failed again leaves
  | answered =>
    dsimp only
    split
    · exact gone failed again leaves
    · exact gone ok (by simp [done.1]) ⟨by simp [done.1],by simp [done.2.1],by simp [done.2.2]⟩

variable {convertDateFormat : Text → Int → Text}

theorem repeatUpdate {inp now status}
    (update : settlement convertDateFormat inp now status = .update params) :
    ∃ next frequency, params = repeatParams inp now next frequency := by
  have kept : ∀ {c : Prop} [Decidable c] {p : Params},
    (if c then .delete false else .update p) = Settlement.update params → params = p := by
    intro c _ p same
    split at same
    · contradiction
    · exact (Settlement.update.inj same).symm
  unfold settlement updateEntryForRepeat at update
  dsimp only at update
  split at update
  · split at update
    · exact ⟨_,_,(Settlement.update.inj update).symm⟩
    split at update
    · exact ⟨_,_,kept update⟩
    split at update
    · contradiction
    split at update
    · exact ⟨_,_,(Settlement.update.inj update).symm⟩
    split at update
    · exact ⟨_,_,kept update⟩
    · contradiction
  · contradiction

theorem repeatLookups (inp now next frequency) :
    ((repeatParams inp now next frequency).lookup .priority).any (fun p => ¬ validPriority p) = false ∧
    (repeatParams inp now next frequency).lookup .exeTime = some next := by
  unfold repeatParams repairedPriority
  split
  all_goals
    cases frequency with
    | none => exact ⟨rfl,rfl⟩
    | some f => exact ⟨rfl,rfl⟩

theorem settleSteps {w} {e inp status} (since) (reply)
    (settling : w.phase e = .settling inp status) :
    Steps w (settleRule convertDateFormat w e inp status since reply).1
      (settleRule convertDateFormat w e inp status since reply).2 := by
  have held : (w.phase e).holding = some inp.ruleExecId := by rw [settling]; rfl
  unfold settleRule
  split
  · exact restTo (baseRefl w) ⟨rfl,rfl,rfl⟩
  · rename_i twice _
    cases twice with
    | true => exact deleteSteps reply held ⟨rfl,rfl,rfl⟩ (fun i same => (Option.some.inj same).symm) ⟨rfl,rfl⟩
    | false => exact deleteSteps reply held ⟨rfl,rfl,rfl⟩ nofun ⟨rfl,rfl⟩
  · rename_i update
    obtain ⟨next,frequency,rfl⟩ := repeatUpdate update
    obtain ⟨valid,wrote⟩ := repeatLookups inp (w.now-since) next frequency
    rw [wrote]
    have clear : Steps w
      ((w.store (dbModRuleExecOp inp.ruleExecId (repeatParams inp (w.now-since) next frequency) w.catalog).2).to e
        (.completing inp.ruleExecId)) (some (.cleared e inp.ruleExecId next)) := by
      refine ⟨.cleared held (fun i other => modOthers other) (fun i => modAbsent) rfl
          (fun e' other => phaseOther _ other _) ?_ rfl,
        .wrote ?_ rfl (modWrites valid wrote) (.inl ⟨e,rfl⟩)⟩
      · rw [phaseSelf]
        rfl
      · exact frameStore _ (frameTo (p := .completing inp.ruleExecId) (baseRefl w) ⟨nofun,nofun,nofun⟩)
    cases reply with
    | refused => exact restTo (baseRefl w) ⟨rfl,rfl,rfl⟩
    | lost => exact clear
    | answered => exact clear

theorem takeSteps {w} {e : Executor} {t rest p} (pool : (w.servers e.1).pool = t::rest) (waits : p.waiting = some t.id)
    (rests : p.holding = none ∧ p.begun = none) :
    Steps w (w.put e.1 (Server.setPhase { w.servers e.1 with pool := rest } e.2 p)) none := by
  rw [putTo]
  refine baseTo (basePut rfl ?_ fun _ => .inl) ⟨by simp [rests.1],by simp [rests.2],?_⟩
  · intro id there
    refine ⟨e.1,?_⟩
    rcases there with row | ⟨t',mem,same⟩ | thread
    · exact .inl row
    · exact .inr (.inl ⟨t',pool ▸ mem_cons_of_mem _ mem,same⟩)
    · exact .inr (.inr thread)
  · intro _ this
    exact ⟨e.1,.inr (.inl ⟨t,pool ▸ mem_cons_self,Option.some.inj (waits.symm.trans this)⟩)⟩

theorem enqueueSteps {w} {e} {id} (enqueueing : w.phase e = .enqueueing id) : Steps w (enqueueRule w e id) none := by
  unfold enqueueRule
  rw [putTo]
  refine restTo (basePut rfl ?_ fun _ => .inl) ⟨rfl,rfl,rfl⟩
  intro i there
  rcases there with row | ⟨t,mem,same⟩ | thread
  · exact ⟨e.1,.inl row⟩
  · rcases mem_append.mp mem with old | new
    · exact ⟨e.1,.inr (.inl ⟨t,old,same⟩)⟩
    · rw [mem_singleton.mp new] at same
      exact phasePending (by rw [enqueueing,← same]; rfl)
  · exact ⟨e.1,.inr (.inr thread)⟩

theorem fetchSteps {w} {e id} (answered) (fetching : w.phase e = .fetching id) :
    Steps w (fetchRule w e id answered) none := by
  unfold fetchRule
  split
  · split
    · rename_i found
      have hit := List.find?_some found
      have same := of_decide_eq_true hit
      refine baseTo (baseRefl w) ⟨?_,?_,nofun⟩
      · rw [fetching,← same]
        exact fun i held => held
      · rw [fetching,← same]
        exact fun i begun => begun
    · exact restTo (baseRefl w) ⟨rfl,rfl,rfl⟩
  · exact restTo (baseRefl w) ⟨rfl,rfl,rfl⟩

theorem runSteps {w} {e inp} (begun status migrates) (running : w.phase e = .running inp) :
    Steps w (runRule w e inp begun status migrates).1 (runRule w e inp begun status migrates).2 := by
  have mine : (w.phase e).holding = some inp.ruleExecId ∧ (w.phase e).begun = some inp.ruleExecId := by
    rw [running]; exact ⟨rfl,rfl⟩
  have starts : ∀ p, p.holding = some inp.ruleExecId → p.begun = none → p.waiting = none →
      Steps w (w.to e p) (some (.started e inp.ruleExecId)) := by
    intro p holding rests waits
    have follows : Follows w e p := ⟨by rw [holding,mine.1]; exact fun i held => held,by simp [rests],by simp [waits]⟩
    exact ⟨quietTo (baseRefl w) follows fun _ _ => rfl,.started (frameTo (baseRefl w) follows) rfl rfl mine.2⟩
  unfold runRule
  split
  · split <;> exact starts _ rfl rfl rfl
  · exact restTo (baseRefl w) ⟨rfl,rfl,rfl⟩

theorem migrateSteps {w} {e inp status} (context reply) (migrating : w.phase e = .migrating inp status) :
    Steps w (migrateRule w e inp status context reply) none := by
  have mine : Follows w e (.settling inp status) := ⟨by rw [migrating]; exact fun i held => held,nofun,nofun⟩
  have columns : ∀ p ∈ migrationParams context, p.1 = .reiFilePath ∨ p.1 = .exeContext := by
    intro p mem
    rcases mem_pair.mp mem with rfl | rfl
    · exact .inl rfl
    · exact .inr rfl
  have base : Base w (w.store (dbModRuleExecOp inp.ruleExecId (migrationParams context) w.catalog).2) := by
    refine baseStore (modKeeps ?_) (modTimes ?_)
    · rintro ⟨p,mem,column⟩
      rcases columns p mem with same | same <;> exact absurd (same ▸ column) (by decide)
    · intro p mem
      rcases columns p mem with same | same <;> exact same ▸ nofun
  cases reply with
  | refused => exact baseTo (baseRefl w) mine
  | lost => exact baseTo base mine
  | answered => exact baseTo base mine

theorem executorSteps {w w'} {e} {a}
    (taken : executorStep convertDateFormat w e a = some (w',seen)) : Steps w w' seen := by
  unfold executorStep at taken
  dsimp only at taken
  split at taken
  · split at taken
    · unfold takeTask at taken
      dsimp only at taken
      split at taken
      · contradiction
      · rename_i pool
        cases taken
        exact takeSteps pool rfl ⟨rfl,rfl⟩
      · rename_i pool
        cases taken
        exact takeSteps pool rfl ⟨rfl,rfl⟩
    · contradiction
  · rename_i offering
    cases taken
    split
    · exact restTo (baseRefl w) ⟨rfl,rfl,rfl⟩
    refine baseTo (baseRefl w) ⟨nofun,nofun,?_⟩
    rintro i same
    exact phasePending (by rw [offering]; exact same)
  · rename_i enqueueing
    cases taken
    exact enqueueSteps enqueueing
  · cases taken
    exact restTo (baseRefl w) ⟨rfl,rfl,rfl⟩
  · rename_i reply id starting
    split at taken
    · cases taken
      exact restTo (baseRefl w) ⟨rfl,rfl,rfl⟩
    · have steps := lockSteps reply starting
      rwa [Option.some.inj taken] at steps
  · rename_i answered _ fetching
    cases taken
    exact fetchSteps answered fetching
  · rename_i begun status migrates inp running
    have steps := runSteps begun status migrates running
    rwa [Option.some.inj taken] at steps
  · rename_i context reply inp status migrating
    cases taken
    exact migrateSteps context reply migrating
  · rename_i since reply inp status settling
    have steps := @settleSteps convertDateFormat w e inp status since reply settling
    rwa [Option.some.inj taken] at steps
  · rename_i reply inp again
    have held : (w.phase e).holding = some inp.ruleExecId := by rw [again]; rfl
    have steps :=
      @deleteSteps w e _ reply (.completing inp.ruleExecId)
        (.completing inp.ruleExecId) held ⟨rfl,rfl,rfl⟩ nofun ⟨rfl,rfl⟩
    rwa [Option.some.inj taken] at steps
  · cases taken
    split
    · exact restTo (baseRefl w) ⟨rfl,rfl,rfl⟩
    · exact restTo (baseDequeue w _ _) ⟨rfl,rfl,rfl⟩
  · cases taken
    exact restTo (baseDequeue w _ _) ⟨rfl,rfl,rfl⟩
  · contradiction

theorem modFailed {id} (failed : (dbModRuleExecOp id params c).1 < 0) : (dbModRuleExecOp id params c).2 = c := by
  unfold dbModRuleExecOp at failed ⊢
  split
  · rfl
  split
  · rfl
  rename_i valid nonempty
  rw [if_neg valid,if_neg nonempty] at failed
  have nowhere : c.any (·.id = id) = false := by
    by_contra there
    rw [Bool.not_eq_false] at there
    rw [there] at failed
    exact absurd failed (show ¬ 0 < 0 by decide)
  refine (map_congr_left fun row mem => ?_).trans (map_id c)
  rw [if_neg (any_eq_false.mp nowhere row mem)]
  rfl

theorem modifySteps {w w' id} (taken : modifyRule w id params = some (w',seen)) : Steps w w' seen := by
  unfold modifyRule at taken
  split at taken
  · contradiction
  rename_i apart
  obtain ⟨rfl,rfl⟩ := Prod.mk.inj (Option.some.inj taken)
  split
  · rename_i failed
    rw [modFailed failed]
    exact baseSteps (baseRefl w)
  rename_i done
  have valid : (params.lookup .priority).any (fun p => ¬ validPriority p) = false := by
    by_contra bad
    rw [Bool.not_eq_false] at bad
    refine done ?_
    unfold dbModRuleExecOp
    rw [if_pos bad]
    show SYS_INVALID_INPUT_PARAM < 0
    decide
  cases written : params.lookup .exeTime with
  | some x =>
    exact ⟨.quiet (modKeeps apart) rfl (fun _ _ => rfl) fun _ _ held => held,
      .wrote (frameStore _ (baseFrame (baseRefl w))) rfl (modWrites valid written) (.inr rfl)⟩
  | none =>
    refine baseSteps (baseStore (modKeeps apart) (modTimes ?_))
    intro p mem same
    have out := lookup_eq_none_iff.mp written p mem
    rw [same] at out
    exact absurd out (by decide)

theorem quietServer {w} {s} (silent : Silent seen)
    (threads : v.threads = (w.servers s).threads) : Kind w (w.put s v) seen :=
  .quiet (keepsRefl _) rfl silent fun e id held => by rwa [phasePut threads] at held

theorem querySteps {w w'} {s order} (taken : queryRules w s order = some (w',seen)) : Steps w w' seen := by
  unfold queryRules at taken
  split at taken
  · rename_i asked
    split at taken
    · rename_i ordered
      obtain ⟨rfl,rfl⟩ := Prod.mk.inj (Option.some.inj taken)
      refine ⟨quietServer (fun _ _ => rfl) rfl,.queried rfl rfl rfl asked ordered ?_ ?_ (phasePut rfl)⟩
      · intro _ there
        refine pendingPut ?_ there
        intro i new
        rcases new with row | other
        · exact .inr row
        · exact .inl (.inr other)
      · intro _ t
        rw [mainPut]
        split
        · exact nofun
        · exact fun same => same
    · contradiction
  · contradiction

theorem freshPending {host pid size id} (waits : (freshServer host pid size).pending id) : False := by
  rcases waits with row | ⟨t,mem,-⟩ | ⟨k,thread⟩
  · contradiction
  · contradiction
  · contradiction

theorem fewerRows {w : World} {s m} (absent : m.rows = []) {id} (waits : pending { w.servers s with main := m } id) :
    w.pending id := by
  rcases waits with row | other
  · rw [absent] at row
    contradiction
  · exact ⟨s,.inr other⟩

theorem stepSteps {w w' action}
    (taken : step convertDateFormat w action = some (w',seen)) : Steps w w' seen := by
  cases action with
  | tick _ =>
    cases taken
    exact ⟨.quiet (keepsRefl _) rfl silentNone fun _ _ held => held,
      .still ⟨by dsimp only; omega,fun _ h => h,fun _ _ => .inl,fun _ _ h => h⟩ rfl (timesRefl _) (.inl rfl)⟩
  | submit _ =>
    simp only [step] at taken
    split at taken
    · cases taken
      exact ⟨.submitted rfl rfl silentNone fun _ => rfl,
          .submitted ⟨le_refl _,fun _ h => h,fun _ _ => .inl,fun _ _ h => h⟩ rfl rfl⟩
    · contradiction
  | remove id =>
    cases taken
    exact baseSteps (baseStore (deleteKeeps _ _) (deleteTimes _ _))
  | modify id _ => exact modifySteps taken
  | ask s =>
    simp only [step] at taken
    split at taken
    · cases taken
      exact baseSteps (basePut rfl (fun _ => fewerRows rfl) fun t same => .inr (Main.asked.inj same).symm)
    · contradiction
  | query s _ => exact querySteps taken
  | queryFails s =>
    simp only [step] at taken
    split at taken
    · cases taken
      exact baseSteps (basePut rfl (fun _ => fewerRows rfl) nofun)
    · contradiction
  | post s =>
    simp only [step] at taken
    split at taken
    · rename_i id rest posting
      cases taken
      refine baseSteps (basePut rfl ?_ nofun)
      intro i there
      have rows : (w.servers s).main.rows = id::rest := by rw [posting]; rfl
      rcases there with row | ⟨t,mem,same⟩ | thread
      · exact ⟨s,.inl (rows ▸ mem_cons_of_mem _ row)⟩
      · rcases mem_append.mp mem with old | new
        · exact ⟨s,.inr (.inl ⟨t,old,same⟩)⟩
        · rw [mem_singleton.mp new] at same
          exact ⟨s,.inl (rows ▸ same ▸ mem_cons_self)⟩
      · exact ⟨s,.inr (.inr thread)⟩
    · contradiction
  | sleep s =>
    simp only [step] at taken
    split at taken
    · cases taken
      exact baseSteps (basePut rfl (fun _ => fewerRows rfl) nofun)
    · contradiction
  | terminate s =>
    cases taken
    exact baseSteps (basePut rfl (fun _ h => ⟨s,h⟩) fun _ => .inl)
  | restart s pid =>
    cases taken
    have fresh : ∀ e, (w.put s (freshServer (w.servers s).host pid (w.servers s).size)).phase e = .idle ∨
        (w.put s (freshServer (w.servers s).host pid (w.servers s).size)).phase e = w.phase e := by
      intro e
      rw [phaseServer]
      split
      · exact .inl rfl
      · exact .inr rfl
    refine ⟨.quiet (keepsRefl _) rfl silentNone ?_,.still ⟨le_refl _,?_,?_,?_⟩ rfl (timesRefl _) (.inl rfl)⟩
    · intro e id held
      rcases fresh e with idle | same
      · exact absurd (idle ▸ held) nofun
      · exact same ▸ held
    · exact fun id waits => (pendingPut (fun id new => .inr (freshPending new)) waits).resolve_right fun never => never
    · intro _ t
      rw [mainPut]
      split
      · exact nofun
      · exact .inl
    · intro e _ begun
      rcases fresh e with idle | same
      · exact absurd (idle ▸ begun) nofun
      · exact same ▸ begun
  | act e a => exact executorSteps taken

end Irods.DelayServer
