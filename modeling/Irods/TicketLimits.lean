import Irods.TicketSoundness

/-! A counter with a limit along a run. A step either pays one unit while there is
room, or is free; a free step may be granted only for an object that was paid for
before. -/
namespace Irods.MeteredRun
open List

variable {α : Type}

structure Entry (α : Type) where
  object : α
  granted : Prop

inductive Ledger (limit : Int) : List α → Int → List (Entry α) → Int → Prop where
  | nil (paid count) : Ledger limit paid count [] count
  | pay {paid count rest last} (o : α) (granted : Prop) (room : count < limit)
      (next : Ledger limit (o::paid) (count+1) rest last) :
      Ledger limit paid count (⟨o,granted⟩::rest) last
  | free {paid count rest last} (o : α) (granted : Prop) (known : granted → o ∈ paid)
      (next : Ledger limit paid count rest last) :
      Ledger limit paid count (⟨o,granted⟩::rest) last

theorem charged {limit paid count entries last} (run : Ledger limit paid count entries last) :
    ∃ bought : List α, (bought.length : Int) = last-count ∧ (last = count ∨ last ≤ limit) ∧
      ∀ e ∈ entries, e.granted → e.object ∈ paid ∨ e.object ∈ bought := by
  induction run with
  | nil => exact ⟨[],by simp,.inl rfl,by simp⟩
  | @pay paid count rest last o granted _ next ih =>
    obtain ⟨bought,size,bound,covers⟩ := ih
    refine ⟨o::bought,by simp only [length_cons]; omega,.inr (by omega),?_⟩
    intro e mem given
    rcases mem_cons.mp mem with rfl | later
    · exact .inr mem_cons_self
    rcases covers e later given with old | new
    · rcases mem_cons.mp old with same | before
      · exact .inr (same ▸ mem_cons_self)
      · exact .inl before
    · exact .inr (mem_cons_of_mem _ new)
  | @free _ _ _ _ o _ known _ ih =>
    obtain ⟨bought,size,bound,covers⟩ := ih
    refine ⟨bought,size,bound,?_⟩
    intro e mem given
    rcases mem_cons.mp mem with rfl | later
    · exact .inl (known given)
    · exact covers e later given

theorem grantedBound [DecidableEq α] {limit count entries last} (run : Ledger limit [] count entries last)
    (objects : Finset α) (given : ∀ o ∈ objects, ∃ e ∈ entries, e.granted ∧ e.object = o) :
    objects.card ≤ (limit-count).toNat := by
  obtain ⟨bought,_,_,covers⟩ := charged run
  have inside : objects ⊆ bought.toFinset := by
    intro o mem
    obtain ⟨e,listed,granted,rfl⟩ := given o mem
    exact mem_toFinset.mpr ((covers e listed granted).resolve_left not_mem_nil)
  have fewer := Nat.le_trans (Finset.card_le_card inside) (toFinset_card_le bought)
  omega

end Irods.MeteredRun

/-! The two counted limits of a ticket over the calls of one agent. A call is an
event with the world before and after it; every update is committed. The limits
are metered by MeteredRun wherever an id is only skipped after it was counted for
the same ticket. -/
namespace Irods.TicketLimits
open CText StringOpr TicketCatalog TicketAccess TicketSoundness MeteredRun List Option Int32

structure Event where
  before : World
  call : Call
  status : Int
  after : World

inductive Run (fs : PathOps) : World → List Event → World → Prop where
  | done (w) : Run fs w [] w
  | step {w c status next events last} (returned : Returns fs w c status next) (rest : Run fs next events last) :
      Run fs w (⟨w,c,status,next⟩::events) last

def Lookup (fs : PathOps) (w : World) (c : Call) (status : Int) (b : Buffers) : Prop :=
  ∃ name fuel, selectCollName w.catalog c.dataId = some name ∧
    search fs w.catalog (isModify c.accessLevel) c.ticketStr c.dataId (zonePath c.userZone) fuel
      (rstrcpy name MAX_NAME_LEN).1 c.status = some (status,b)

def UsesTicket (fs : PathOps) (w : World) (c : Call) (id : Int64) : Prop :=
  ∃ b, Lookup fs w c 0 b ∧ b.ticketId = some id

theorem searchMore {fs cat modify s d zone fuel path status out}
    (found : search fs cat modify s d zone fuel path status = some out) :
    search fs cat modify s d zone (fuel+1) path status = some out := by
  induction fuel generalizing path status with
  | zero => simp [search] at found
  | succ _ ih =>
    rw [search] at found ⊢
    split at found
    · rw [if_pos ‹_›,found]
    rw [if_neg ‹_›]
    split at found
    · exact found
    · exact ih found

theorem searchLarger {fs cat modify s d zone fuel path status out} (extra)
    (found : search fs cat modify s d zone fuel path status = some out) :
    search fs cat modify s d zone (fuel+extra) path status = some out := by
  induction extra with
  | zero => exact found
  | succ _ ih => exact searchMore ih

theorem lookupUnique {fs w c s1 b1 s2 b2} (one : Lookup fs w c s1 b1) (two : Lookup fs w c s2 b2) :
    s1 = s2 ∧ b1 = b2 := by
  obtain ⟨_,fuel,named,found⟩ := one
  obtain ⟨_,fuel',named',found'⟩ := two
  cases some.inj (named.symm.trans named')
  have large := searchLarger fuel' found
  have large' := searchLarger fuel found'
  rw [Nat.add_comm,large] at large'
  cases some.inj large'
  exact ⟨rfl,rfl⟩

theorem returnsCases {fs w c status w'} (returned : Returns fs w c status w') :
    status ≠ 0 ∧ w' = w ∨ ∃ b, Lookup fs w c 0 b ∧ applyTicket w c b = (status,w') := by
  obtain ⟨fuel,run⟩ := returned
  unfold checkObjIdByTicket at run
  split at run
  · cases some.inj run
    exact .inl ⟨by decide,rfl⟩
  rename_i name named
  split at run <;> try contradiction
  rename_i b looked
  split at run
  · cases some.inj run
    exact .inl ⟨by decide,rfl⟩
  · rename_i zero
    rw [not_not.mp zero] at looked
    exact .inr ⟨b,⟨name,fuel,named,looked⟩,some.inj run⟩

theorem lookupBuffers {fs w c b} (found : Lookup fs w c 0 b) :
    b = emptyBuffers ∨ ∃ path, ∃ t ∈ w.catalog.tickets,
      Selected w.catalog (isModify c.accessLevel) c.ticketStr c.dataId path t ∧
      b = fetched (isModify c.accessLevel) t := by
  obtain ⟨name,fuel,_,run⟩ := found
  refine (searchSource run).imp_right ?_
  rintro ⟨n,t,selected,same⟩
  exact ⟨_,t,(selectTicketSource selected).1,(selectTicketSource selected).2,same⟩

def rowOf (cat : Catalog) (id : Int64) : Option TicketRow := cat.tickets.find? (fun t => t.ticketId = id)

theorem rowOfSource {cat id t} (row : rowOf cat id = some t) : t ∈ cat.tickets ∧ t.ticketId = id :=
  ⟨mem_of_find?_eq_some row,by simpa using find?_some row⟩

theorem rowOfListed {cat t} (mem : t ∈ cat.tickets) : rowOf cat t.ticketId = some t := by
  cases found : rowOf cat t.ticketId with
  | none =>
    have absent := find?_eq_none.mp found t mem
    simp at absent
  | some _ =>
    obtain ⟨listed,same⟩ := rowOfSource found
    exact congrArg some (inj_on_of_nodup_map cat.ticketIds listed mem same)

theorem rowOfUpdate {cat target set keepsId keepsString id} :
    rowOf (updateTicket cat target set keepsId keepsString) id =
      (rowOf cat id).map fun t => if some id = target then set t else t := by
  have one : ∀ t, (if some t.ticketId = target then set t else t).ticketId = t.ticketId := by
    intro t; split <;> simp [keepsId]
  unfold rowOf updateTicket
  rw [find?_map]
  have same : (fun t : TicketRow => decide (t.ticketId = id)) ∘
      (fun t => if some t.ticketId = target then set t else t) = fun t => decide (t.ticketId = id) := by
    funext t; simp [one]
  rw [same]
  cases found : cat.tickets.find? fun t => decide (t.ticketId = id) with
  | none => rfl
  | some t =>
    have mine : t.ticketId = id := by simpa using find?_some found
    simp [mine]

-- One of the two counted limits: its columns, the id it remembers, the access levels it counts.
structure Meter where
  limit : TicketRow → Int64
  count : TicketRow → Int64
  previous : Session → Int64
  applies : Text → Bool

def usesMeter : Meter := ⟨TicketRow.usesLimit,TicketRow.usesCount,Session.previousDataId2,fun _ => true⟩
def writeMeter : Meter := ⟨TicketRow.writeFileLimit,TicketRow.writeFileCount,Session.previousDataId1,isModify⟩

def Moves (m : Meter) (fs : PathOps) (w : World) (c : Call) (status : Int) (w' : World) (id : Int64) (t : TicketRow) :
    Prop :=
  ∃ t', rowOf w'.catalog id = some t' ∧ m.limit t' = m.limit t ∧
  ((m.count t' = m.count t ∧ (status = 0 → UsesTicket fs w c id → m.applies c.accessLevel = true →
      (m.limit t).toInt32 ≤ 0 ∨ m.previous w.session = c.dataId)) ∨
   (m.count t' = ((m.count t).toInt32+1).toInt64 ∧ (m.count t).toInt32 < (m.limit t).toInt32))

theorem chargeCases {exceeded limit count previous d stored kept}
    (ok : charge exceeded limit count previous d = .ok (stored,kept)) :
    stored = none ∧ (limit.toInt32 ≤ 0 ∨ previous = d) ∨
    stored = some (count.toInt32+1) ∧ count.toInt32 < limit.toInt32 := by
  unfold charge at ok
  split at ok
  · split at ok
    · split at ok <;> try contradiction
      rename_i room
      cases ok
      exact .inr ⟨rfl,Int32.not_le.mp room⟩
    · rename_i same
      cases ok
      exact .inl ⟨rfl,.inr (not_not.mp same)⟩
  · rename_i unlimited
    cases ok
    exact .inl ⟨rfl,.inl (Int32.not_lt.mp unlimited)⟩

theorem chargeError {exceeded limit count previous d e}
    (err : charge exceeded limit count previous d = .error e) : e = exceeded := by
  unfold charge at err
  split_ifs at err
  cases err
  rfl

theorem chargeWriteError {w b d e} (err : chargeWrite w b d = .error e) : e ≠ 0 := by
  unfold chargeWrite at err
  split at err
  · cases err; decide
  split at err <;> try contradiction
  rename_i refused
  cases err
  rw [chargeError refused]; decide

theorem chargeUsesError {w b d e} (err : chargeUses w b d = .error e) : e ≠ 0 := by
  unfold chargeUses at err
  split at err <;> try contradiction
  rename_i refused
  cases err
  rw [chargeError refused]; decide

def writeStage (w : World) (c : Call) (b : Buffers) : Except Int World :=
  if isModify c.accessLevel then chargeWrite w b c.dataId else .ok w

def remember (w : World) (b : Buffers) : World := ⟨w.catalog,{ w.session with prevTicketId := b.ticketId }⟩

theorem applyCases {w c b status w'} (run : applyTicket w c b = (status,w')) :
    status ≠ 0 ∧ w'.catalog = w.catalog ∨
    ∃ written, writeStage (remember w b) c b = .ok written ∧
      (status ≠ 0 ∧ w' = written ∨ status = 0 ∧ chargeUses written b c.dataId = .ok w') := by
  unfold applyTicket at run
  dsimp only at run
  split at run
  · cases run; exact .inl ⟨by decide,rfl⟩
  split at run
  · rename_i refused
    cases run; exact .inl ⟨refused,rfl⟩
  split at run
  · rename_i err
    cases run
    refine .inl ⟨?_,rfl⟩
    split at err <;> try contradiction
    exact chargeWriteError err
  · rename_i written ok
    refine .inr ⟨written,ok,?_⟩
    split at run
    · rename_i err
      cases run; exact .inl ⟨chargeUsesError err,rfl⟩
    · rename_i ok
      cases run; exact .inr ⟨rfl,ok⟩

theorem chargeUsesRow {w b d w' id t} (ok : chargeUses w b d = .ok w') (row : rowOf w.catalog id = some t) :
    rowOf w'.catalog id = some t ∧ (b.usesLimit.toInt32 ≤ 0 ∨ w.session.previousDataId2 = d) ∨
    b.usesCount.toInt32 < b.usesLimit.toInt32 ∧ rowOf w'.catalog id =
      some (if some id = b.ticketId then { t with usesCount := (b.usesCount.toInt32+1).toInt64 } else t) := by
  unfold chargeUses at ok
  split at ok <;> try contradiction
  rename_i _ charged
  cases ok
  rcases chargeCases charged with ⟨rfl,why⟩ | ⟨rfl,room⟩
  · exact .inl ⟨row,why⟩
  · refine .inr ⟨room,?_⟩
    simp [storeCount,setUsesCount,rowOfUpdate,row]

theorem writeStageRow {w c b w' id t} (ok : writeStage w c b = .ok w') (row : rowOf w.catalog id = some t) :
    w'.session.previousDataId2 = w.session.previousDataId2 ∧
    (rowOf w'.catalog id = some t ∧ (isModify c.accessLevel = true →
        b.writeFileLimit.toInt32 ≤ 0 ∨ w.session.previousDataId1 = c.dataId) ∨
     b.writeFileCount.toInt32 < b.writeFileLimit.toInt32 ∧ rowOf w'.catalog id =
      some (if some id = b.ticketId then
        { t with writeFileCount := (b.writeFileCount.toInt32+1).toInt64 } else t)) := by
  unfold writeStage at ok
  split at ok
  · unfold chargeWrite at ok
    split at ok <;> try contradiction
    split at ok <;> try contradiction
    rename_i _ charged
    cases ok
    refine ⟨rfl,?_⟩
    rcases chargeCases charged with ⟨rfl,why⟩ | ⟨rfl,room⟩
    · exact .inl ⟨row,fun _ => why⟩
    · refine .inr ⟨room,?_⟩
      simp [storeCount,setWriteFileCount,rowOfUpdate,row]
  · rename_i read
    cases ok
    exact ⟨rfl,.inl ⟨row,fun modify => absurd modify read⟩⟩

theorem fetchedUses (modify t) : (fetched modify t).usesLimit = t.usesLimit ∧
    (fetched modify t).usesCount = t.usesCount := by
  unfold fetched; split <;> exact ⟨rfl,rfl⟩

theorem usedRow {fs w c b id t} (found : Lookup fs w c 0 b) (mine : some id = b.ticketId)
    (row : rowOf w.catalog id = some t) : b = fetched (isModify c.accessLevel) t := by
  rcases lookupBuffers found with rfl | ⟨_,_,mem,_,rfl⟩
  · cases mine
  rw [fetchedId] at mine
  cases mine
  rw [rowOfListed mem] at row
  cases row
  rfl

theorem usesSame {fs w c b id} (found : Lookup fs w c 0 b) (uses : UsesTicket fs w c id) : some id = b.ticketId := by
  obtain ⟨_,looked,named⟩ := uses
  rw [(lookupUnique found looked).2,named]

theorem unmoved {m fs w c status w' id t t'} (row : rowOf w'.catalog id = some t')
    (limit : m.limit t' = m.limit t) (count : m.count t' = m.count t) (refused : status ≠ 0) :
    Moves m fs w c status w' id t :=
  ⟨t',row,limit,.inl ⟨count,fun zero => absurd zero refused⟩⟩

theorem writtenUses {w c b written id t} (ok : writeStage w c b = .ok written) (row : rowOf w.catalog id = some t) :
    ∃ t1, rowOf written.catalog id = some t1 ∧ t1.usesLimit = t.usesLimit ∧ t1.usesCount = t.usesCount := by
  rcases (writeStageRow ok row).2 with ⟨same,_⟩ | ⟨_,same⟩
  · exact ⟨t,same,rfl,rfl⟩
  · refine ⟨_,same,?_⟩
    split <;> exact ⟨rfl,rfl⟩

theorem usedWrite {w b d w' id t} (ok : chargeUses w b d = .ok w') (row : rowOf w.catalog id = some t) :
    ∃ t1, rowOf w'.catalog id = some t1 ∧ t1.writeFileLimit = t.writeFileLimit ∧
    t1.writeFileCount = t.writeFileCount := by
  rcases chargeUsesRow ok row with ⟨same,_⟩ | ⟨_,same⟩
  · exact ⟨t,same,rfl,rfl⟩
  · refine ⟨_,same,?_⟩
    split <;> exact ⟨rfl,rfl⟩

theorem usesMoves {fs w c status w' id t} (returned : Returns fs w c status w') (row : rowOf w.catalog id = some t) :
    Moves usesMeter fs w c status w' id t := by
  rcases returnsCases returned with ⟨refused,rfl⟩ | ⟨b,found,run⟩
  · exact unmoved row rfl rfl refused
  rcases applyCases run with ⟨refused,same⟩ | ⟨_,wrote,rest⟩
  · exact unmoved (by rw [same]; exact row) rfl rfl refused
  obtain ⟨t1,row1,limit1,count1⟩ := writtenUses wrote row
  rcases rest with ⟨refused,rfl⟩ | ⟨_,used⟩
  · exact unmoved row1 limit1 count1 refused
  have previous := (writeStageRow wrote row).1
  rcases chargeUsesRow used row1 with ⟨same,why⟩ | ⟨room,same⟩
  · refine ⟨t1,same,limit1,.inl ⟨count1,fun _ uses _ => ?_⟩⟩
    rwa [usedRow found (usesSame found uses) row,(fetchedUses _ t).1,previous] at why
  by_cases mine : some id = b.ticketId
  · rw [if_pos mine] at same
    have buffers := usedRow found mine row
    rw [buffers,(fetchedUses _ t).1,(fetchedUses _ t).2] at room
    refine ⟨_,same,limit1,.inr ⟨?_,room⟩⟩
    rw [buffers,(fetchedUses _ t).2]
    rfl
  · rw [if_neg mine] at same
    exact ⟨t1,same,limit1,.inl ⟨count1,fun _ uses _ => absurd (usesSame found uses) mine⟩⟩

theorem writeMovesStage {fs w c b written id t} (found : Lookup fs w c 0 b)
    (wrote : writeStage (remember w b) c b = .ok written) (row : rowOf w.catalog id = some t) (status) :
    Moves writeMeter fs w c status written id t := by
  rcases (writeStageRow wrote row).2 with ⟨same,why⟩ | ⟨room,same⟩
  · refine ⟨t,same,rfl,.inl ⟨rfl,fun _ uses modify => ?_⟩⟩
    rw [usedRow found (usesSame found uses) row] at why
    rw [show isModify c.accessLevel = true from modify] at why
    exact why rfl
  · by_cases mine : some id = b.ticketId
    · rw [if_pos mine] at same
      have buffers := usedRow found mine row
      cases modify : isModify c.accessLevel with
      | true =>
        rw [modify] at buffers
        subst buffers
        exact ⟨_,same,rfl,.inr ⟨rfl,room⟩⟩
      | false =>
        rw [modify] at buffers
        subst buffers
        exact absurd room (by simp [fetched])
    · rw [if_neg mine] at same
      exact ⟨t,same,rfl,.inl ⟨rfl,fun _ uses _ => absurd (usesSame found uses) mine⟩⟩

theorem writeMoves {fs w c status w' id t} (returned : Returns fs w c status w') (row : rowOf w.catalog id = some t) :
    Moves writeMeter fs w c status w' id t := by
  rcases returnsCases returned with ⟨refused,rfl⟩ | ⟨b,found,run⟩
  · exact unmoved row rfl rfl refused
  rcases applyCases run with ⟨refused,same⟩ | ⟨_,wrote,rest⟩
  · exact unmoved (by rw [same]; exact row) rfl rfl refused
  have moved := writeMovesStage found wrote row status
  rcases rest with ⟨_,rfl⟩ | ⟨_,used⟩
  · exact moved
  obtain ⟨t1,row1,limit1,count1⟩ := moved
  obtain ⟨t2,row2,limit2,count2⟩ := usedWrite used row1
  exact ⟨t2,row2,limit2.trans limit1,by rw [show writeMeter.count t2 = writeMeter.count t1 from count2]; exact count1⟩

def Fits (x : Int64) : Prop := -2^31 ≤ x.toInt ∧ x.toInt < 2^31

def Counted (m : Meter) (id : Int64) (e : Event) : Prop :=
  (rowOf e.before.catalog id).map m.count ≠ (rowOf e.after.catalog id).map m.count

instance (m id e) : Decidable (Counted m id e) := by unfold Counted; infer_instance

def Granted (m : Meter) (fs : PathOps) (id : Int64) (e : Event) : Prop :=
  e.status = 0 ∧ UsesTicket fs e.before e.call id ∧ m.applies e.call.accessLevel = true

/- One id is remembered for all tickets: it must be of an object this ticket was counted for. -/
def SkipsOwn (m : Meter) (fs : PathOps) (id : Int64) (events : List Event) : Prop :=
  ∀ earlier e later, events = earlier++e::later → UsesTicket fs e.before e.call id →
    m.applies e.call.accessLevel = true → m.previous e.before.session = e.call.dataId →
    ∃ p ∈ earlier, p.call.dataId = e.call.dataId ∧ Counted m id p

theorem fitsInt32 {x} (fits : Fits x) : x.toInt32.toInt = x.toInt := by
  obtain ⟨_,_⟩ := fits
  rw [Int64.toInt_toInt32]
  exact Int.bmod_eq_of_le (by omega) (by omega)

theorem nextCount {count limit} (fits : Fits count) (limitFits : Fits limit)
    (room : count.toInt32 < limit.toInt32) :
    count.toInt < limit.toInt ∧ (count.toInt32+1).toInt64.toInt = count.toInt+1 := by
  have less : count.toInt < limit.toInt := by
    rw [← fitsInt32 fits,← fitsInt32 limitFits]
    exact lt_iff_toInt_lt.mp room
  refine ⟨less,?_⟩
  rw [toInt_toInt64,toInt_add,fitsInt32 fits]
  have := fits.1
  have := limitFits.2
  exact Int.bmod_eq_of_le (by simp; omega) (by simp; omega)

theorem positiveInt32 {limit} (fits : Fits limit) (positive : 0 < limit) : ¬limit.toInt32 ≤ 0 := by
  rw [Int32.not_le,Int32.lt_iff_toInt_lt,fitsInt32 fits]
  exact Int64.lt_iff_toInt_lt.mp positive

section
variable {w w' id t fs m events}
    (moves : ∀ {w c status w' id t}, Returns fs w c status w' → rowOf w.catalog id = some t →
      Moves m fs w c status w' id t)
    (run : Run fs w events w')
include moves run

theorem meteredLedger (paid) (row : rowOf w.catalog id = some t) (positive : 0 < m.limit t)
    (limitFits : Fits (m.limit t))
    (countFits : Fits (m.count t))
    (own : ∀ earlier e later, events = earlier++e::later → UsesTicket fs e.before e.call id →
      m.applies e.call.accessLevel = true → m.previous e.before.session = e.call.dataId →
      e.call.dataId ∈ paid ∨ ∃ p ∈ earlier, p.call.dataId = e.call.dataId ∧ Counted m id p) :
    ∃ last, Ledger (m.limit t).toInt paid (m.count t).toInt
      (events.map fun e => ⟨e.call.dataId,Granted m fs id e⟩) last := by
  induction run generalizing paid t with
  | done => exact ⟨_,.nil ..⟩
  | @step w c _ _ events _ returned _ ih =>
    obtain ⟨t',row',limit',moved⟩ := moves returned row
    rw [← limit'] at positive limitFits
    rcases moved with ⟨same,why⟩ | ⟨counted,room⟩
    · obtain ⟨final,ledger⟩ := ih paid row' positive limitFits (by rwa [same]) (by
        intro earlier e later cut uses applies previous
        rcases own (_::earlier) e later (by rw [cut]; rfl) uses applies previous with old | ⟨p,mem,object,changed⟩
        · exact .inl old
        rcases mem_cons.mp mem with rfl | mem
        · exact absurd (by simp [row,row',same]) changed
        · exact .inr ⟨p,mem,object,changed⟩)
      rw [limit',same] at ledger
      refine ⟨final,.free _ _ ?_ ledger⟩
      rintro ⟨zero,uses,applies⟩
      rcases why zero uses applies with unlimited | previous
      · exact absurd unlimited (positiveInt32 (limit' ▸ limitFits) (limit' ▸ positive))
      · exact (own [] _ events rfl uses applies previous).resolve_right (by simp)
    · have limitFits' := limitFits
      rw [limit'] at limitFits'
      obtain ⟨less,value⟩ := nextCount countFits limitFits' room
      have count' : (m.count t').toInt = (m.count t).toInt+1 := by rw [counted,value]
      obtain ⟨final,ledger⟩ := ih (c.dataId::paid) row' positive limitFits (by
        have := countFits.1
        have := limitFits'.2
        exact ⟨by omega,by omega⟩) (by
        intro earlier e later cut uses applies previous
        rcases own (_::earlier) e later (by rw [cut]; rfl) uses applies previous with old | ⟨p,mem,object,changed⟩
        · exact .inl (mem_cons_of_mem _ old)
        rcases mem_cons.mp mem with rfl | mem
        · exact .inl (object ▸ mem_cons_self)
        · exact .inr ⟨p,mem,object,changed⟩)
      rw [limit',count'] at ledger
      exact ⟨final,.pay _ _ less ledger⟩

theorem meterHolds (listed : t ∈ w.catalog.tickets) (positive : 0 < m.limit t) (limitFits : Fits (m.limit t))
    (countFits : Fits (m.count t)) (own : SkipsOwn m fs t.ticketId events) (objects : Finset Int64)
    (given : ∀ d ∈ objects, ∃ e ∈ events, Granted m fs t.ticketId e ∧ e.call.dataId = d) :
    objects.card ≤ ((m.limit t).toInt-(m.count t).toInt).toNat := by
  obtain ⟨_,ledger⟩ := meteredLedger moves run [] (rowOfListed listed) positive limitFits countFits
    fun earlier e later cut uses applies previous => .inr (own earlier e later cut uses applies previous)
  refine grantedBound ledger objects ?_
  intro d mem
  obtain ⟨e,listed,granted,same⟩ := given d mem
  exact ⟨_,mem_map_of_mem listed,granted,same⟩

end

theorem limitsHold {fs w events w'} {t : TicketRow} (run : Run fs w events w') (listed : t ∈ w.catalog.tickets) :
    (0 < t.usesLimit → Fits t.usesLimit → Fits t.usesCount → SkipsOwn usesMeter fs t.ticketId events →
      ∀ objects : Finset Int64, (∀ d ∈ objects, ∃ e ∈ events, e.status = 0 ∧
        UsesTicket fs e.before e.call t.ticketId ∧ e.call.dataId = d) →
      objects.card ≤ (t.usesLimit.toInt-t.usesCount.toInt).toNat) ∧
    (0 < t.writeFileLimit → Fits t.writeFileLimit → Fits t.writeFileCount → SkipsOwn writeMeter fs t.ticketId events →
      ∀ objects : Finset Int64, (∀ d ∈ objects, ∃ e ∈ events, e.status = 0 ∧
        UsesTicket fs e.before e.call t.ticketId ∧ isModify e.call.accessLevel = true ∧ e.call.dataId = d) →
      objects.card ≤ (t.writeFileLimit.toInt-t.writeFileCount.toInt).toNat) := by
  constructor
  · intro positive limitFits countFits own objects given
    refine meterHolds usesMoves run listed positive limitFits countFits own objects ?_
    intro d mem
    obtain ⟨e,listed,zero,uses,same⟩ := given d mem
    exact ⟨e,listed,⟨zero,uses,rfl⟩,same⟩
  · intro positive limitFits countFits own objects given
    refine meterHolds writeMoves run listed positive limitFits countFits own objects ?_
    intro d mem
    obtain ⟨e,listed,zero,uses,modify,same⟩ := given d mem
    exact ⟨e,listed,⟨zero,uses,modify⟩,same⟩

def firstTicket : TicketRow := ⟨5,text "first",text "write",10,1,0,1,0,0,0,[],by decide⟩
def spentTicket : TicketRow := ⟨6,text "spent",text "write",10,1,1,1,1,0,0,[],by decide⟩

def sharedCatalog : Catalog where
  colls := [⟨10,text "/tempZone/home"⟩]
  dataObjs := [⟨20,10⟩,⟨21,10⟩]
  users := []
  userGroups := []
  tickets := [firstTicket,spentTicket]
  allowedHosts := []
  allowedUsers := []
  allowedGroups := []
  ticketIds := by decide
  ticketStrings := by decide

def sharedWorld : World := ⟨sharedCatalog,freshSession⟩

def writeCall (ticketStr : Text) (dataId : Int64) : Call :=
  ⟨7,dataId,text "modify",ticketStr,text "10.0.0.7",text "anonymous",text "tempZone",1700000000⟩

def after (w : World) (c : Call) : World := ((checkObjIdByTicket plainPaths 4 w c).map Prod.snd).getD w
def firstEvent : Event := ⟨sharedWorld,writeCall (text "first") 20,0,after sharedWorld (writeCall (text "first") 20)⟩
def againEvent : Event := ⟨firstEvent.after,firstEvent.call,0,after firstEvent.after firstEvent.call⟩

def spentEvent : Event :=
  ⟨firstEvent.after,writeCall (text "spent") 20,0,after firstEvent.after (writeCall (text "spent") 20)⟩

theorem firstReturns : Returns plainPaths sharedWorld firstEvent.call 0 firstEvent.after := ⟨4,rfl⟩

theorem againRun : Run plainPaths sharedWorld [firstEvent,againEvent] againEvent.after :=
  .step firstReturns (.step ⟨4,rfl⟩ (.done _))

theorem spentRun : Run plainPaths sharedWorld [firstEvent,spentEvent] spentEvent.after :=
  .step firstReturns (.step ⟨4,rfl⟩ (.done _))

theorem spentUses : UsesTicket plainPaths spentEvent.before spentEvent.call 6 := ⟨_,⟨_,4,rfl,rfl⟩,rfl⟩

theorem againOwn {m} (fresh : m.previous freshSession ≠ 20) (counted : Counted m 5 firstEvent) :
    SkipsOwn m plainPaths 5 [firstEvent,againEvent] := by
  intro earlier e _ cut _ _ previous
  match earlier with
  | [] =>
    obtain ⟨rfl,_⟩ := cons.inj cut
    contradiction
  | [p] =>
    obtain ⟨rfl,rest⟩ := cons.inj cut
    obtain ⟨rfl,_⟩ := cons.inj rest
    exact ⟨_,mem_singleton_self _,rfl,counted⟩
  | _::_::rest => simp at cut

theorem limitsHoldAgain :
    (∀ objects : Finset Int64, (∀ d ∈ objects, ∃ e ∈ [firstEvent,againEvent], e.status = 0 ∧
      UsesTicket plainPaths e.before e.call 5 ∧ e.call.dataId = d) → objects.card ≤ 1) ∧
    (∀ objects : Finset Int64, (∀ d ∈ objects, ∃ e ∈ [firstEvent,againEvent], e.status = 0 ∧
      UsesTicket plainPaths e.before e.call 5 ∧ isModify e.call.accessLevel = true ∧ e.call.dataId = d) →
      objects.card ≤ 1) := by
  have held := limitsHold againRun mem_cons_self
  exact ⟨held.1 (by decide) ⟨by decide,by decide⟩ ⟨by decide,by decide⟩ (againOwn (by decide) (by decide)),
    held.2 (by decide) ⟨by decide,by decide⟩ ⟨by decide,by decide⟩ (againOwn (by decide) (by decide))⟩

theorem spentTicketAccepted :
    Run plainPaths sharedWorld [firstEvent,spentEvent] spentEvent.after ∧ spentTicket ∈ sharedWorld.catalog.tickets ∧
    0 < spentTicket.usesLimit ∧ 0 < spentTicket.writeFileLimit ∧
    ¬(∀ objects : Finset Int64, (∀ d ∈ objects, ∃ e ∈ [firstEvent,spentEvent], e.status = 0 ∧
      UsesTicket plainPaths e.before e.call spentTicket.ticketId ∧ e.call.dataId = d) →
      objects.card ≤ (spentTicket.usesLimit.toInt-spentTicket.usesCount.toInt).toNat) ∧
    ¬(∀ objects : Finset Int64, (∀ d ∈ objects, ∃ e ∈ [firstEvent,spentEvent], e.status = 0 ∧
      UsesTicket plainPaths e.before e.call spentTicket.ticketId ∧ isModify e.call.accessLevel = true ∧
      e.call.dataId = d) →
      objects.card ≤ (spentTicket.writeFileLimit.toInt-spentTicket.writeFileCount.toInt).toNat) := by
  refine ⟨spentRun,mem_cons_of_mem _ mem_cons_self,rfl,rfl,fun bound => ?_,fun bound => ?_⟩
  · exact absurd (bound {20} fun d mem => ⟨spentEvent,mem_cons_of_mem _ mem_cons_self,rfl,spentUses,
      (Finset.mem_singleton.mp mem).symm⟩) (by decide)
  · exact absurd (bound {20} fun d mem => ⟨spentEvent,mem_cons_of_mem _ mem_cons_self,rfl,spentUses,rfl,
      (Finset.mem_singleton.mp mem).symm⟩) (by decide)

end Irods.TicketLimits
