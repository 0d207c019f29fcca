import Irods.ReplicaStateTable
import Irods.JsonValue

/-! logical_locking.cpp: locking a data object in the replica state table, with the status each
replica had stashed in its data_status, and unlocking it. -/
namespace Irods.LogicalLocking
open CText ReplicaStateTable List Function JsonReplica
open JsonValue (Json)

def SYS_INTERNAL_ERR : Int := -154000
def unknownReplicaId : Int := -1
def restoreStatus : Int := -1
def STALE_REPLICA : Int := 0
def INTERMEDIATE_REPLICA : Int := 2
def READ_LOCKED : Int := 3
def WRITE_LOCKED : Int := 4
def DATA_STATUS : Text := lit "data_status"
def DATA_IS_DIRTY : Text := lit "data_is_dirty"
def ORIGINAL_STATUS : Text := lit "original_status"

inductive LockType where
  | read
  | write
  deriving DecidableEq, Repr

def LockType.replStatus : LockType → Int
  | .read => READ_LOCKED
  | .write => WRITE_LOCKED

def originalStatus (status : Text) : Json := .object [(ORIGINAL_STATUS,.string status)]

/- Text to JSON and back, as nlohmann::json does it: no text is no JSON, and a status is read as it
was written. -/
structure Library where
  dump : Json → Text
  parse : Text → Option Json
  noText : parse [] = none
  roundTrip : ∀ v : Int, parse (dump (originalStatus (decimalText v))) = some (originalStatus (decimalText v))

section model
variable (lib : Library)

def getOriginalReplicaStatusImpl (r : JsonReplica) : Except Thrown Int := do
  let status ← property r.after DATA_STATUS
  if status = [] then .ok (-1)
  else match lib.parse status with
    | none => .error .standard
    | some j => match JsonValue.find j ORIGINAL_STATUS with
      | none => .ok (-1)
      | some (.string value) => match stoi value with
        | some v => .ok v
        | none => .error .standard
      | some _ => .error .standard

def replicaNumber (r : JsonReplica) : Except Thrown Int := do
  let number ← property r.before DATA_REPL_NUM
  match stoi number with
  | some v => .ok v
  | none => .error .standard

def throwOr {α : Type} (x : Except Thrown α) : Action α := reading (fun _ => x)

/- The property is looked up without a state, which means before. -/
def insertDataStatus (key : Int) : Action Unit := do
  let entry ← reading (atKey key)
  let _ ← reading (getLogicalPath key)
  forEach (fun r => do
    let number ← throwOr (replicaNumber r)
    let original ← throwOr (getOriginalReplicaStatusImpl lib r)
    if original ≠ -1 then pure ()
    else do
      let oldStatus ← reading (getProperty key number DATA_IS_DIRTY .before)
      update key number DATA_STATUS (lib.dump (originalStatus oldStatus))) entry

def removeDataStatus (key : Int) : Action Unit := do
  let entry ← reading (atKey key)
  forEach (fun r => do
    let number ← throwOr (replicaNumber r)
    update key number DATA_STATUS []) entry

def restoreReplicaStatuses (key target : Int) : Action Unit := do
  let entry ← reading (atKey key)
  let _ ← reading (getLogicalPath key)
  forEach (fun r => do
    let number ← throwOr (replicaNumber r)
    if target = number then pure ()
    else do
      let original ← throwOr (getOriginalReplicaStatusImpl lib r)
      if original = -1 then pure () else update key number DATA_IS_DIRTY (decimalText original)) entry

/- The status is also looked up for the log. -/
def setReplicaStatuses (key target status : Int) : Action Unit := do
  let entry ← reading (atKey key)
  forEach (fun r => do
    let number ← throwOr (replicaNumber r)
    let _ ← reading (getProperty key number DATA_STATUS .before)
    if target ≠ number then update key number DATA_IS_DIRTY (decimalText status) else pure ()) entry

def getOriginalReplicaStatus (key number : Int) : Action Int := do
  let r ← reading (atNumber key number)
  throwOr (getOriginalReplicaStatusImpl lib r)

def caught (x : Action Unit) (t : Table) : Int × Table :=
  match x t with
  | (.ok _,t') => (0,t')
  | (.error (.irods code),t') => (code,t')
  | (.error .standard,t') => (SYS_INTERNAL_ERR,t')

/- The target is set apart: intermediate when it is opened for writing. -/
def lockTarget (key target : Int) (type : LockType) : Action Unit :=
  if target = unknownReplicaId then pure ()
  else update key target DATA_IS_DIRTY (decimalText (match type with
    | .write => INTERMEDIATE_REPLICA
    | .read => READ_LOCKED))

def lockImpl (key target : Int) (type : LockType) : Table → Int × Table := caught (do
  insertDataStatus lib key
  lockTarget key target type
  setReplicaStatuses key target type.replStatus)

def unlockTarget (key target status : Int) : Action Unit :=
  if target = unknownReplicaId then pure ()
  else if status = restoreStatus then do
    let original ← getOriginalReplicaStatus lib key target
    update key target DATA_IS_DIRTY (decimalText (if original = -1 then STALE_REPLICA else original))
  else update key target DATA_IS_DIRTY (decimalText status)

def unlockOthers (key target otherStatuses : Int) : Action Unit :=
  if otherStatuses = restoreStatus then
    restoreReplicaStatuses lib key target else setReplicaStatuses key target otherStatuses

def unlockImpl (key target status otherStatuses : Int) : Table → Int × Table := caught (do
  unlockTarget lib key target status
  unlockOthers lib key target otherStatuses
  removeDataStatus key)

def lockAll (key : Int) : List (Int × LockType) → Table → List Int × Table
  | [],t => ([],t)
  | (target,type)::rest,t =>
    let one := lockImpl lib key target type t
    let later := lockAll key rest one.2
    (one.1::later.1,later.2)

end model

def numberOf (r : JsonReplica) : Int := ((r.before DATA_REPL_NUM).bind stoi).getD 0
def statusOf (r : JsonReplica) : Int := ((r.before DATA_IS_DIRTY).bind stoi).getD 0
def Listed (rs : List JsonReplica) : Prop := (∀ r ∈ rs, Numbered r (numberOf r)) ∧ (rs.map numberOf).Nodup
def stash (lib : Library) (r : JsonReplica) : Text := lib.dump (originalStatus (decimalText (statusOf r)))

structure Usable (lib : Library) (r : JsonReplica) : Prop where
  status : isInt (statusOf r)
  dirty : r.before DATA_IS_DIRTY = some (decimalText (statusOf r))
  logged : ∃ value, r.before DATA_STATUS = some value
  stashed : r.after DATA_STATUS = some [] ∨ r.after DATA_STATUS = some (stash lib r)

theorem bindDone {α β} {x} {f : α → Action β} {t t'} {a} (first : x t = (.ok a,t')) :
    (x >>= f) t = f a t' := by
  show Action.bind x f t = _
  unfold Action.bind
  rw [first]

theorem throwOrDone {α} {x} {a : α} (ok : x = .ok a) (t) : throwOr x t = (.ok a,t) := by
  unfold throwOr reading
  rw [ok]

theorem numberDone {r} (numbered : Numbered r (numberOf r)) : replicaNumber r = .ok (numberOf r) := by
  unfold replicaNumber property
  rw [numbered.written]
  show (match stoi (decimalText (numberOf r)) with
    | some v => Except.ok v
    | none => .error Thrown.standard) = _
  rw [stoiDecimal numbered.fits]

theorem stashSome (lib r) : stash lib r ≠ [] := by
  intro empty
  have back := lib.roundTrip (statusOf r)
  rw [show lib.dump (originalStatus (decimalText (statusOf r))) = [] from empty,lib.noText] at back
  cases back

variable {lib : Library}

theorem originalEmpty {r} (empty : r.after DATA_STATUS = some []) :
    getOriginalReplicaStatusImpl lib r = .ok (-1) := by
  unfold getOriginalReplicaStatusImpl property
  rw [empty]
  rfl

theorem originalStashed {r} (fits : isInt (statusOf r)) (stashed : r.after DATA_STATUS = some (stash lib r)) :
    getOriginalReplicaStatusImpl lib r = .ok (statusOf r) := by
  unfold getOriginalReplicaStatusImpl property
  rw [stashed]
  show (if stash lib r = [] then _ else _) = _
  rw [if_neg (stashSome lib r)]
  unfold stash
  rw [lib.roundTrip]
  show (match stoi (decimalText (statusOf r)) with
    | some v => Except.ok v
    | none => .error Thrown.standard) = _
  rw [stoiDecimal fits]

variable {name other : Text} {target : Int} {value : JsonReplica → Text}
section entry
variable (t : Table) (key : Int) (entry : Entry)

theorem thereAfter (rs) : t.withReplicas key entry rs key = some { entry with replicas := rs } :=
  update_self _ _ _

theorem withTwice (rs ss) :
    (t.withReplicas key entry rs).withReplicas key { entry with replicas := rs } ss = t.withReplicas key entry ss :=
  update_idem _ _ _

variable {t key entry}

theorem listedHere {front back r} (listed : Listed (front ++ r::back)) : Numbered r (numberOf r) :=
  listed.1 r (mem_append_right _ mem_cons_self)

theorem listedBefore {rs rs'} (same : rs'.map before = rs.map before) (listed : Listed rs) :
    Listed rs' := by
  have numbers : ∀ l : List JsonReplica,
    l.map numberOf = (l.map before).map fun b => ((b DATA_REPL_NUM).bind stoi).getD 0 :=
    fun l => by rw [map_map]; rfl
  refine ⟨?_,by rw [numbers,same,← numbers]; exact listed.2⟩
  intro x mem
  obtain ⟨r,there,before⟩ := mem_map.mp (same ▸ mem_map_of_mem mem)
  have number : numberOf x = numberOf r := by unfold numberOf; rw [before]
  rw [number]
  exact ⟨(listed.1 r there).fits,before ▸ (listed.1 r there).written⟩

theorem listedMap {g rs} (keeps : ∀ r, (g r).before = r.before) (listed : Listed rs) : Listed (rs.map g) := by
  refine listedBefore ?_ listed
  rw [map_map]
  exact map_congr_left fun r _ => keeps r

section
variable {front r back} (listed : Listed (front ++ r::back))
include listed

theorem othersListed :
    ∀ x ∈ front, ∃ m, Numbered x m ∧ numberOf r ≠ m := by
  intro x mem
  refine ⟨numberOf x,listed.1 x (mem_append_left _ mem),?_⟩
  intro same
  have nodup := listed.2
  rw [map_append,nodup_append] at nodup
  exact nodup.2.2 _ (mem_map_of_mem mem) _ mem_cons_self same.symm

theorem updateHere (name value) :
    update key (numberOf r) name value (t.withReplicas key entry (front ++ r::back)) =
      (.ok (),t.withReplicas key entry (front ++ r.updated name value::back)) := by
  rw [updateFound (thereAfter t key entry _) rfl (othersListed listed)
    (listedHere listed),withTwice]

theorem propertyHere {value} (there : r.before name = some value) :
    reading (getProperty key (numberOf r) name .before) (t.withReplicas key entry (front ++ r::back)) =
      (.ok value,t.withReplicas key entry (front ++ r::back)) := by
  unfold reading getProperty
  rw [atNumberFound (thereAfter t key entry _) rfl (othersListed listed) (listedHere listed)]
  show (property (r.of .before) name,_) = _
  unfold property of
  dsimp only
  rw [there]

end

theorem atKeyDone (rs) : reading (atKey key) (t.withReplicas key entry rs) = (.ok rs,t.withReplicas key entry rs) := by
  unfold reading atKey
  rw [thereAfter]

theorem pathDone (rs) :
    reading (getLogicalPath key)
      (t.withReplicas key entry rs) = (.ok entry.logicalPath,t.withReplicas key entry rs) := by
  unfold reading getLogicalPath
  rw [thereAfter]

def Valid (rs : List JsonReplica) (target : Int) : Prop := target = unknownReplicaId ∨ target ∈ rs.map numberOf

/- What an action makes of each replica, wherever it can go on. -/
def Maps (key target : Int) (P : JsonReplica → Prop) (x : Action Unit) (g : JsonReplica → JsonReplica) : Prop :=
  (∀ r, (g r).before = r.before) ∧ ∀ (t : Table) entry rs, Listed rs → Valid rs target → (∀ r ∈ rs, P r) →
    x (t.withReplicas key entry rs) = (.ok (),t.withReplicas key entry (rs.map g))

def Turns (key : Int) (x : Action Unit) (r r' : JsonReplica) : Prop :=
  ∀ (t : Table) entry front back, Listed (front ++ r::back) →
  x (t.withReplicas key entry (front ++ r::back)) = (.ok (),t.withReplicas key entry (front ++ r'::back))

theorem updateTurns {r} (name value) : Turns key (update key (numberOf r) name value) r (r.updated name value) :=
  fun _ _ _ _ listed => updateHere listed name value

theorem validMap {g rs} (keeps : ∀ r, (g r).before = r.before) (valid : Valid rs target) : Valid (rs.map g) target := by
  have same : numberOf ∘ g = numberOf := funext fun r => by unfold comp numberOf; rw [keeps]
  rwa [Valid,map_map,same]

theorem mapsThen {P x y g h} (first : Maps key target P x g) (kept : ∀ r, P r → P (g r))
    (second : Maps key target P y h) :
    Maps key target P (do x; y) (h ∘ g) := by
  refine ⟨fun r => (second.1 _).trans (first.1 r),fun t entry rs listed valid all => ?_⟩
  have next := forall_mem_map.mpr fun r mem => kept r (all r mem)
  rw [bindDone (first.2 t entry rs listed valid all),
      second.2 t entry _ (listedMap first.1 listed) (validMap first.1 valid) next,map_map]

theorem forEachMaps {P f g} (keeps : ∀ r, (g r).before = r.before) (step : ∀ r, P r → Turns key (f r) r (g r)) :
    Maps key target P (do let entry ← reading (atKey key); forEach f entry) g := by
  refine ⟨keeps,fun t entry rs listed _ all => ?_⟩
  have whole : ∀ front rest, Listed (front ++ rest) → (∀ r ∈ rest, P r) →
      forEach f rest
        (t.withReplicas key entry (front ++ rest)) = (.ok (),t.withReplicas key entry (front ++ rest.map g)) := by
    intro front rest listed all
    induction rest generalizing front with
    | nil => rfl
    | cons r rest ih =>
      have here := step r (all r mem_cons_self) t entry front rest listed
      have still : Listed ((front ++ [g r]) ++ rest) := listedBefore (by simp [keeps]) listed
      have later := ih _ still (forall_mem_cons.mp all).2
      simp only [append_assoc] at later
      rw [forEach,bindDone here]
      exact later
  rw [bindDone (atKeyDone rs)]
  exact whole [] rs listed all

theorem mapsLogged {P f g} (maps : Maps key target P (do let entry ← reading (atKey key); forEach f entry) g) :
    Maps key target P
      (do let entry ← reading (atKey key); let _ ← reading (getLogicalPath key); forEach f entry) g := by
  refine ⟨maps.1,fun t entry rs listed valid all => ?_⟩
  have done := maps.2 t entry rs listed valid all
  rw [bindDone (atKeyDone rs)] at done ⊢
  rw [bindDone (pathDone rs)]
  exact done

def stamped (lib : Library) (r : JsonReplica) : JsonReplica := r.updated DATA_STATUS (stash lib r)

def setUnless (target : Int) (value : Text) (r : JsonReplica) : JsonReplica :=
  if target = numberOf r then r else r.updated DATA_IS_DIRTY value

def restored (target : Int) (r : JsonReplica) : JsonReplica :=
  if target = numberOf r ∨ statusOf r = -1 then r else r.updated DATA_IS_DIRTY (decimalText (statusOf r))

theorem afterUpdated (r : JsonReplica) (name value) : (r.updated name value).after name = some value :=
  update_self name _ r.after

theorem afterOther (r : JsonReplica) (apart : other ≠ name) (value) :
    (r.updated name value).after other = r.after other := update_of_ne apart _ r.after

theorem statusNotDirty : DATA_STATUS ≠ DATA_IS_DIRTY := by decide

theorem updatedSame {r : JsonReplica} {value} (same : r.after name = some value) : r.updated name value = r := by
  unfold updated Properties.set
  rw [← same,update_eq_self]

theorem insertMaps : Maps key target (Usable lib) (insertDataStatus lib key) (stamped lib) := by
  refine mapsLogged (forEachMaps (fun _ => rfl) ?_)
  intro r usable t entry front back listed
  rw [bindDone (throwOrDone (numberDone (listedHere listed)) _)]
  have go : Turns key (do
      let oldStatus ← reading (getProperty key (numberOf r) DATA_IS_DIRTY .before)
      update key (numberOf r) DATA_STATUS (lib.dump (originalStatus oldStatus))) r (stamped lib r) := by
    intro t _ _ _ listed
    rw [bindDone (propertyHere listed usable.dirty)]
    exact updateHere listed _ _
  rcases usable.stashed with empty | full
  · rw [bindDone (throwOrDone (originalEmpty empty) _)]
    exact go _ _ _ _ listed
  rw [bindDone (throwOrDone (originalStashed usable.status full) _)]
  by_cases none : statusOf r = -1
  · rw [none]
    exact go _ _ _ _ listed
  · rw [if_pos none,stamped,updatedSame full]
    rfl

theorem setMaps (status) :
    Maps key target (Usable lib) (setReplicaStatuses key target status) (setUnless target (decimalText status)) := by
  refine forEachMaps (fun r => ?_) ?_
  · unfold setUnless
    split <;> rfl
  intro r usable t _ _ _ listed
  obtain ⟨_,logged⟩ := usable.logged
  rw [bindDone (throwOrDone (numberDone (listedHere listed)) _),bindDone (propertyHere listed logged)]
  unfold setUnless
  by_cases same : target = numberOf r
  · rw [if_neg fun no => no same,if_pos same]
    rfl
  · rw [if_pos same,if_neg same]
    exact updateHere listed _ _

theorem removeMaps {P} : Maps key target P (removeDataStatus key) fun r => r.updated DATA_STATUS [] := by
  refine forEachMaps (fun _ => rfl) ?_
  intro r _ t _ _ _ listed
  rw [bindDone (throwOrDone (numberDone (listedHere listed)) _)]
  exact updateHere listed _ _

def Stashed (lib : Library) (r : JsonReplica) : Prop := isInt (statusOf r) ∧ r.after DATA_STATUS = some (stash lib r)

theorem restoreMaps : Maps key target (Stashed lib) (restoreReplicaStatuses lib key target) (restored target) := by
  refine mapsLogged (forEachMaps (fun r => ?_) ?_)
  · unfold restored
    split <;> rfl
  rintro r ⟨fits,full⟩ t _ _ _ listed
  rw [bindDone (throwOrDone (numberDone (listedHere listed)) _)]
  unfold restored
  by_cases same : target = numberOf r
  · rw [if_pos same,if_pos (.inl same)]
    rfl
  rw [if_neg same,bindDone (throwOrDone (originalStashed fits full) _)]
  by_cases none : statusOf r = -1
  · rw [if_pos none,if_pos (.inr none)]
    rfl
  · rw [if_neg none,if_neg (by rintro (a | b); exact same a; exact none b)]
    exact updateHere listed _ _

theorem mapOnly {g front back r} (listed : Listed (front ++ r::back))
    (other : ∀ x, numberOf r ≠ numberOf x → g x = x) : (front ++ r::back).map g = front ++ g r::back := by
  have nodup := listed.2
  rw [map_append,nodup_append] at nodup
  have early : ∀ x ∈ front, g x = x := fun x mem => other x fun same =>
    nodup.2.2 _ (mem_map_of_mem mem) _ mem_cons_self same.symm
  have late : ∀ x ∈ back, g x = x := fun x mem => other x fun same =>
    (nodup_cons.mp nodup.2.1).1 (same ▸ mem_map_of_mem mem)
  rw [map_append,map_cons,(map_congr_left early).trans (map_id _),(map_congr_left late).trans (map_id _)]

def lockIf (target : Int) (type : LockType) (r : JsonReplica) : JsonReplica :=
  if target ≠ unknownReplicaId ∧ target = numberOf r then r.updated DATA_IS_DIRTY (decimalText (match type with
    | .write => INTERMEDIATE_REPLICA
    | .read => READ_LOCKED))
  else r

def unlockIf (target : Int) (r : JsonReplica) : JsonReplica :=
  if target ≠ unknownReplicaId ∧ target = numberOf r then
    r.updated DATA_IS_DIRTY (decimalText (if statusOf r = -1 then STALE_REPLICA else statusOf r))
  else r

/- An action on the target alone. -/
theorem targetMaps {P x}
    (step : ∀ r, P r → target = numberOf r → Turns key x r (r.updated DATA_IS_DIRTY (value r))) :
    Maps key target P (if target = unknownReplicaId then pure () else x)
      fun r => if target ≠ unknownReplicaId ∧ target = numberOf r then r.updated DATA_IS_DIRTY (value r) else r := by
  refine ⟨fun r => by dsimp only; split <;> rfl,fun t entry rs listed valid all => ?_⟩
  by_cases unknown : target = unknownReplicaId
  · have off : ∀ r, ¬(target ≠ unknownReplicaId ∧ target = numberOf r) := fun r both => both.1 unknown
    simp only [if_pos unknown,off,if_false,map_id']
    rfl
  · obtain ⟨r,mem,same⟩ := mem_map.mp (valid.resolve_left unknown)
    obtain ⟨front,back,rfl⟩ := append_of_mem mem
    rw [if_neg unknown,step r (all r mem) same.symm t entry front back listed,mapOnly listed,if_pos ⟨unknown,same.symm⟩]
    exact fun x other => if_neg fun both => other (same.trans both.2)

theorem lockTargetMaps (type) : Maps key target (Usable lib) (lockTarget key target type) (lockIf target type) :=
  targetMaps fun r _ same => by rw [same]; exact updateTurns _ _

theorem unlockTargetMaps :
    Maps key target (Stashed lib) (unlockTarget lib key target restoreStatus) (unlockIf target) := by
  refine targetMaps fun r ⟨fits,full⟩ same t entry front back listed => ?_
  have found : getOriginalReplicaStatus lib key (numberOf r) (t.withReplicas key entry (front ++ r::back)) =
      (.ok (statusOf r),t.withReplicas key entry (front ++ r::back)) := by
    have there :=
      atNumberFound (thereAfter t key entry (front ++ r::back)) rfl (othersListed listed) (listedHere listed)
    have read : reading (atNumber key (numberOf r)) (t.withReplicas key entry (front ++ r::back)) =
        (.ok r,t.withReplicas key entry (front ++ r::back)) := by
      unfold reading
      rw [there]
    unfold getOriginalReplicaStatus
    rw [bindDone read]
    exact throwOrDone (originalStashed fits full) _
  rw [if_pos rfl,same,bindDone found]
  exact updateHere listed _ _

def lockedReplica (lib : Library) (target : Int) (type : LockType) (r : JsonReplica) : JsonReplica :=
  setUnless target (decimalText type.replStatus) (lockIf target type (stamped lib r))

theorem usableStamped {r} (usable : Usable lib r) : Usable lib (stamped lib r) :=
  ⟨usable.status,usable.dirty,usable.logged,.inr (afterUpdated r _ _)⟩

theorem usableUpdated {r} (usable : Usable lib r) (value) :
    Usable lib (r.updated DATA_IS_DIRTY value) :=
  ⟨usable.status,usable.dirty,usable.logged,by
    rw [afterOther r statusNotDirty]
    exact usable.stashed⟩

theorem lockDone {rs} (listed : Listed rs) (usable : ∀ r ∈ rs, Usable lib r) (valid : Valid rs target) (type) :
    lockImpl lib key target type (t.withReplicas key entry rs) =
      (0,t.withReplicas key entry (rs.map (lockedReplica lib target type))) := by
  have kept : ∀ r, Usable lib r → Usable lib (lockIf target type r) := by
    intro r usable
    unfold lockIf
    split
    · exact usableUpdated usable _
    · exact usable
  have maps : Maps key target _ _ _ :=
    mapsThen insertMaps (fun r => usableStamped) (mapsThen (lockTargetMaps type) kept (setMaps type.replStatus))
  unfold lockImpl caught
  rw [maps.2 t entry rs listed valid usable]
  rfl

def unlockedReplica (target : Int) (r : JsonReplica) : JsonReplica :=
  (restored target (unlockIf target r)).updated DATA_STATUS []

theorem unlockDone {rs} (listed : Listed rs) (stashed : ∀ r ∈ rs, Stashed lib r) (valid : Valid rs target) :
    unlockImpl lib key target restoreStatus restoreStatus (t.withReplicas key entry rs) =
      (0,t.withReplicas key entry (rs.map (unlockedReplica target))) := by
  have kept : ∀ r value, Stashed lib r → Stashed lib (r.updated DATA_IS_DIRTY value) :=
    fun r value stashed => ⟨stashed.1,(afterOther r statusNotDirty _).trans stashed.2⟩
  have unlocked : ∀ r, Stashed lib r → Stashed lib (unlockIf target r) := by
    intro r stashed
    unfold unlockIf
    split
    · exact kept r _ stashed
    · exact stashed
  have back : ∀ r, Stashed lib r → Stashed lib (restored target r) := by
    intro r stashed
    unfold restored
    split
    · exact stashed
    · exact kept r _ stashed
  have maps : Maps key target _ _ _ := mapsThen unlockTargetMaps unlocked (mapsThen restoreMaps back removeMaps)
  unfold unlockImpl caught unlockOthers
  rw [if_pos rfl,maps.2 t entry rs listed valid stashed]
  rfl

end entry

def currentOf (r : JsonReplica) : Text := (r.after DATA_IS_DIRTY).getD []

structure Fresh (r : JsonReplica) : Prop where
  status : isInt (statusOf r)
  dirty : r.before DATA_IS_DIRTY = some (decimalText (statusOf r))
  logged : r.before DATA_STATUS = some []
  current : r.after DATA_IS_DIRTY = some (currentOf r)
  unlocked : r.after DATA_STATUS = some []

def held (lib : Library) (value : Text) (r : JsonReplica) : JsonReplica :=
  (r.updated DATA_STATUS (stash lib r)).updated DATA_IS_DIRTY value

def lockValue (target : Int) (type : LockType) (number : Int) (value : Text) : Text :=
  if target = number then
    if target = unknownReplicaId then value
    else decimalText (match type with
      | .write => INTERMEDIATE_REPLICA
      | .read => READ_LOCKED)
  else decimalText type.replStatus

def unlockValue (target number status : Int) (value : Text) : Text :=
  if target = number then
    if target = unknownReplicaId then value else decimalText (if status = -1 then STALE_REPLICA else status)
  else if status = -1 then value else decimalText status

theorem updatedTwice (r : JsonReplica) (name value value') :
    (r.updated name value).updated name value' = r.updated name value' := by
  unfold updated Properties.set
  rw [update_idem]

theorem stampedFresh {r} (fresh : Fresh r) : stamped lib r = held lib (currentOf r) r :=
  (updatedSame ((afterOther r statusNotDirty.symm _).trans fresh.current)).symm

theorem stampedHeld (lib) (value r) : stamped lib (held lib value r) = held lib value r :=
  updatedSame ((afterOther _ statusNotDirty _).trans (afterUpdated r _ _))

theorem heldLocked (lib) (target type value r) :
    setUnless target (decimalText type.replStatus) (lockIf target type (held lib value r)) =
      held lib (lockValue target type (numberOf r) value) r := by
  have number' : numberOf (lockIf target type (held lib value r)) = numberOf r := by unfold lockIf; split <;> rfl
  unfold setUnless lockValue
  rw [number']
  by_cases same : target = numberOf r
  · rw [if_pos same,if_pos same]
    by_cases unknown : target = unknownReplicaId
    · rw [if_pos unknown]
      exact if_neg fun both => both.1 unknown
    · rw [if_neg unknown]
      exact (if_pos ⟨unknown,same⟩).trans (updatedTwice _ _ _ _)
  · have other : lockIf target type (held lib value r) = held lib value r := if_neg fun both => same both.2
    rw [if_neg same,if_neg same,other]
    exact updatedTwice _ _ _ _

theorem lockedFresh {r} (fresh : Fresh r) (target type) :
    lockedReplica lib target type r = held lib (lockValue target type (numberOf r) (currentOf r)) r := by
  rw [lockedReplica,stampedFresh fresh,heldLocked]

theorem lockedHeld (lib target type value r) :
    lockedReplica lib target type (held lib value r) = held lib (lockValue target type (numberOf r) value) r := by
  rw [lockedReplica,stampedHeld,heldLocked]

theorem unlockedHeld {r} (fresh : Fresh r) (target) (value) :
    unlockedReplica target (held lib value r) = r.updated DATA_IS_DIRTY
      (unlockValue target (numberOf r) (statusOf r) value) := by
  -- the order of the two properties does not matter, and data_status goes back to what it was
  have cleared : ∀ v, (held lib v r).updated DATA_STATUS [] = r.updated DATA_IS_DIRTY v := by
    intro v
    have swap : held lib v r = (r.updated DATA_IS_DIRTY v).updated DATA_STATUS (stash lib r) := by
      unfold held updated Properties.set
      rw [update_comm statusNotDirty]
    rw [swap,updatedTwice]
    exact updatedSame ((afterOther r statusNotDirty v).trans fresh.unlocked)
  have set : ∀ v v', (held lib v r).updated DATA_IS_DIRTY v' = held lib v' r := fun v v' => updatedTwice _ _ _ _
  have number : numberOf (unlockIf target (held lib value r)) = numberOf r := by unfold unlockIf; split <;> rfl
  have status : statusOf (unlockIf target (held lib value r)) = statusOf r := by unfold unlockIf; split <;> rfl
  rw [← cleared]
  unfold unlockedReplica restored unlockValue
  rw [number,status]
  congr 1
  by_cases same : target = numberOf r
  · rw [if_pos (.inl same),if_pos same]
    by_cases unknown : target = unknownReplicaId
    · rw [if_pos unknown]
      exact if_neg fun both => both.1 unknown
    · rw [if_neg unknown]
      exact (if_pos ⟨unknown,same⟩).trans (set _ _)
  · have other : unlockIf target (held lib value r) = held lib value r := if_neg fun both => same both.2
    rw [other,if_neg same]
    by_cases none : statusOf r = -1
    · rw [if_pos (.inr none),if_pos none]
    · rw [if_neg fun either => either.elim same none,if_neg none,set]

def valueAfter (locks : List (Int × LockType)) (number : Int) (value : Text) : Text :=
  locks.foldl (fun v l => lockValue l.1 l.2 number v) value

theorem usableFresh {r} (fresh : Fresh r) : Usable lib r :=
  ⟨fresh.status,fresh.dirty,⟨_,fresh.logged⟩,.inl fresh.unlocked⟩

theorem heldStashed (lib) (value r) :
    (held lib value r).after DATA_STATUS = some (stash lib (held lib value r)) :=
  (afterOther _ statusNotDirty _).trans (afterUpdated r _ _)

theorem usableHeld {r} (fresh : Fresh r) (value) : Usable lib (held lib value r) :=
  ⟨fresh.status,fresh.dirty,⟨_,fresh.logged⟩,.inr (heldStashed lib value r)⟩

def heldAll (lib : Library) (value : JsonReplica → Text) (rs : List JsonReplica) : List JsonReplica :=
  rs.map (fun r => held lib (value r) r)

theorem validHeld {rs} (valid : Valid rs target) : Valid (heldAll lib value rs) target := validMap (fun _ => rfl) valid

theorem listedHeld {rs} (listed : Listed rs) : Listed (heldAll lib value rs) := listedMap (fun _ => rfl) listed

section run
variable {lib : Library} {t : Table} {key : Int} {entry : Entry} {rs : List JsonReplica}
section
variable (listed : Listed rs) (fresh : ∀ r ∈ rs, Fresh r)
include listed fresh

theorem lockAllHeld {locks} (valid : ∀ l ∈ locks, Valid rs l.1) (value) :
    lockAll lib key locks (t.withReplicas key entry (heldAll lib value rs)) =
      (replicate locks.length 0,
        t.withReplicas key entry (heldAll lib (fun r => valueAfter locks (numberOf r) (value r)) rs)) := by
  induction locks generalizing value with
  | nil => rfl
  | cons l _ ih =>
    obtain ⟨target,type⟩ := l
    have usable : ∀ r ∈ heldAll lib value rs, Usable lib r :=
      forall_mem_map.mpr fun r there => usableHeld (fresh r there) _
    have next : (heldAll lib value rs).map (lockedReplica lib target type) =
        heldAll lib (fun r => lockValue target type (numberOf r) (value r)) rs := by
      unfold heldAll
      rw [map_map]
      exact map_congr_left fun r _ => lockedHeld lib target type (value r) r
    unfold lockAll
    dsimp only
    rw [lockDone (listedHeld listed) usable (validHeld (valid _ mem_cons_self)) type,next,
      ih (forall_mem_cons.mp valid).2]
    rfl

theorem lockAllFresh {locks} (some : locks ≠ []) (valid : ∀ l ∈ locks, Valid rs l.1) :
    lockAll lib key locks (t.withReplicas key entry rs) =
      (replicate locks.length 0,
        t.withReplicas key entry (heldAll lib (fun r => valueAfter locks (numberOf r) (currentOf r)) rs)) := by
  cases locks with
  | nil => contradiction
  | cons l _ =>
    obtain ⟨target,type⟩ := l
    have next : rs.map (lockedReplica lib target type) =
        heldAll lib (fun r => lockValue target type (numberOf r) (currentOf r)) rs :=
      map_congr_left fun r mem => lockedFresh (fresh r mem) target type
    unfold lockAll
    dsimp only
    rw [lockDone listed (fun r mem => usableFresh (fresh r mem)) (valid _ mem_cons_self) type,next,
      lockAllHeld listed fresh (forall_mem_cons.mp valid).2]
    rfl

theorem unlockHeld (valid : Valid rs target) (value) :
    unlockImpl lib key target restoreStatus restoreStatus (t.withReplicas key entry (heldAll lib value rs)) =
      (0,t.withReplicas key entry (rs.map fun r =>
        r.updated DATA_IS_DIRTY (unlockValue target (numberOf r) (statusOf r) (value r)))) := by
  have stashed : ∀ r ∈ heldAll lib value rs, Stashed lib r :=
    forall_mem_map.mpr fun r there => ⟨(fresh r there).status,heldStashed lib _ r⟩
  have last : (heldAll lib value rs).map (unlockedReplica target) =
      rs.map fun r => r.updated DATA_IS_DIRTY (unlockValue target (numberOf r) (statusOf r) (value r)) := by
    unfold heldAll
    rw [map_map]
    exact map_congr_left fun r mem => unlockedHeld (fresh r mem) target (value r)
  rw [unlockDone (listedHeld listed) stashed (validHeld valid),last]

end

end run

def beforesOf (key : Int) (t : Table) : Option (List Properties) :=
  (t key).map (fun e => e.replicas.map JsonReplica.before)

structure Undone (lib : Library) (key : Int) (t : Table) (locks : List (Int × LockType)) (target : Int) : Prop where
  locked : ∀ code ∈ (lockAll lib key locks t).1, code = 0
  unlocked : (unlockImpl lib key target restoreStatus restoreStatus (lockAll lib key locks t).2).1 = 0
  restored : (unlockImpl lib key target restoreStatus restoreStatus (lockAll lib key locks t).2).2 = t
  before : ∀ n, beforesOf key (lockAll lib key (locks.take n) t).2 = beforesOf key t

/- The status stashed is the one of the before state; -1 stands for a status that was not stashed and
for a replica that is not known. -/
def Restorable (rs : List JsonReplica) : Prop :=
  (∀ r ∈ rs, numberOf r ≠ unknownReplicaId ∧ statusOf r ≠ -1 ∧ r.after DATA_IS_DIRTY = r.before DATA_IS_DIRTY) ∨
  ∃ r, rs = [r] ∧ numberOf r = unknownReplicaId

section undo
variable {lib : Library} {t : Table} {key : Int} {entry : Entry}
section
variable (there : t key = some entry)
include there

theorem tableSame : t.withReplicas key entry entry.replicas = t := by
  unfold Table.withReplicas
  rw [← there,update_eq_self]

theorem ranFresh (listed : Listed entry.replicas) (fresh : ∀ r ∈ entry.replicas, Fresh r) {locks}
    (some : locks ≠ []) (valid : ∀ l ∈ locks, Valid entry.replicas l.1) :
    lockAll lib key locks t = (replicate locks.length 0,
      t.withReplicas key entry
        (heldAll lib (fun r => valueAfter locks (numberOf r) (currentOf r)) entry.replicas)) := by
  calc
    lockAll lib key locks t = lockAll lib key locks (t.withReplicas key entry entry.replicas) := by
      rw [tableSame there]
    _ = _ := lockAllFresh listed fresh some valid

theorem beforeKept (listed : Listed entry.replicas) (fresh : ∀ r ∈ entry.replicas, Fresh r) {locks}
    (valid : ∀ l ∈ locks, Valid entry.replicas l.1) :
    beforesOf key (lockAll lib key locks t).2 = beforesOf key t := by
  cases locks with
  | nil => rfl
  | cons l _ =>
    rw [ranFresh there listed fresh (cons_ne_nil _ _) valid]
    unfold beforesOf heldAll
    dsimp only
    rw [thereAfter,there,Option.map_some,map_map]
    rfl

theorem withSame {g} :
    t.withReplicas key entry (entry.replicas.map g) = t ↔ ∀ r ∈ entry.replicas, g r = r := by
  constructor
  · intro same
    have position := congrFun same key
    rw [thereAfter,there,Option.some.injEq] at position
    have lists := congrArg Entry.replicas position
    intro r mem
    have each := map_inj_left.mp (lists.trans (map_id _).symm)
    exact each r mem
  · intro all
    rw [(map_congr_left all).trans (map_id _),tableSame there]

theorem undoneIff (listed : Listed entry.replicas) (fresh : ∀ r ∈ entry.replicas, Fresh r) {locks}
    (some : locks ≠ []) (valid : ∀ l ∈ locks, Valid entry.replicas l.1) (known : Valid entry.replicas target) :
    Undone lib key t locks target ↔ ∀ r ∈ entry.replicas,
      unlockValue target (numberOf r) (statusOf r) (valueAfter locks (numberOf r) (currentOf r)) = currentOf r := by
  have ran : lockAll lib key locks t = _ := ranFresh there listed fresh some valid
  have undone := (congrArg (fun x => unlockImpl lib key target restoreStatus restoreStatus x.2) ran).trans
    (unlockHeld listed fresh known _)
  have exactly : ∀ r ∈ entry.replicas, ∀ v, r.updated DATA_IS_DIRTY v = r ↔ v = currentOf r := by
    intro r mem v
    constructor
    · intro same
      have value := congrArg (fun x => x.after DATA_IS_DIRTY) same
      rw [(fresh r mem).current] at value
      exact Option.some.inj value
    · rintro rfl
      exact updatedSame (fresh r mem).current
  constructor
  · intro all r mem
    have whole := all.restored
    rw [undone] at whole
    exact (exactly r mem _).mp ((withSame there).mp whole r mem)
  · intro all
    refine ⟨?_,?_,?_,?_⟩
    · rw [ran]
      exact fun code mem => eq_of_mem_replicate mem
    · rw [undone]
    · rw [undone]
      exact (withSame there).mpr fun r mem => (exactly r mem _).mpr (all r mem)
    · exact fun n => beforeKept there listed fresh fun l mem => valid l (mem_of_mem_take mem)

end

theorem anotherNumber {rs} (listed : Listed rs) {r} (mem : r ∈ rs) (more : rs ≠ [r]) :
    ∃ x ∈ rs, numberOf x ≠ numberOf r := by
  obtain ⟨front,back,rfl⟩ := append_of_mem mem
  cases front with
  | cons x _ =>
    refine ⟨x,mem_cons_self,fun same => ?_⟩
    have nodup := listed.2
    rw [cons_append,map_cons,nodup_cons] at nodup
    exact nodup.1 (same ▸ mem_map_of_mem (mem_append_right _ mem_cons_self))
  | nil =>
    cases back with
    | nil => contradiction
    | cons x _ =>
      refine ⟨x,mem_cons_of_mem _ mem_cons_self,fun same => ?_⟩
      have nodup := listed.2
      rw [nil_append,map_cons,nodup_cons] at nodup
      exact nodup.1 (same ▸ mem_map_of_mem mem_cons_self)

theorem lockValueUnknown {locks} (unknown : ∀ l ∈ locks, l.1 = unknownReplicaId) (value) :
    valueAfter locks unknownReplicaId value = value := by
  induction locks generalizing value with
  | nil => rfl
  | cons l _ ih =>
    have here : lockValue l.1 l.2 unknownReplicaId value = value := by
      rw [unknown l mem_cons_self]
      exact (if_pos rfl).trans (if_pos rfl)
    rw [valueAfter,foldl_cons,here]
    exact ih (forall_mem_cons.mp unknown).2 value

theorem readNotWrite : decimalText READ_LOCKED ≠ decimalText WRITE_LOCKED := by decide

theorem lockingUndoneExactly (there : t key = some entry) (listed : Listed entry.replicas)
    (fresh : ∀ r ∈ entry.replicas, Fresh r) :
    (∀ locks target, locks ≠ [] → (∀ l ∈ locks, Valid entry.replicas l.1) → Valid entry.replicas target →
      Undone lib key t locks target) ↔ Restorable entry.replicas := by
  constructor
  · intro all
    have single : ∀ lock type target, Valid entry.replicas lock → Valid entry.replicas target → ∀ r ∈ entry.replicas,
        unlockValue target (numberOf r) (statusOf r)
          (lockValue lock type (numberOf r) (currentOf r)) = currentOf r := by
      intro lock type target valid known
      have one : ∀ l ∈ [(lock,type)], Valid entry.replicas l.1 := fun l mem => mem_singleton.mp mem ▸ valid
      exact (undoneIff there listed fresh (cons_ne_nil _ _) one known).mp (all _ _ (cons_ne_nil _ _) one known)
    by_cases alone : ∃ r, entry.replicas = [r] ∧ numberOf r = unknownReplicaId
    · exact .inr alone
    refine .inl ?_
    intro r mem
    -- a number that stands for unknown keeps the lock another replica brought
    have number : numberOf r ≠ unknownReplicaId := by
      intro unknown
      obtain ⟨x,inside,other⟩ := anotherNumber listed mem fun only => alone ⟨r,only,unknown⟩
      have kept : ∀ type : LockType, decimalText type.replStatus = currentOf r := by
        intro type
        have same := single (numberOf x) type unknownReplicaId (.inr (mem_map_of_mem inside)) (.inl rfl) r mem
        have locked : lockValue (numberOf x) type (numberOf r) (currentOf r) = decimalText type.replStatus :=
          if_neg other
        rwa [unlockValue,if_pos unknown.symm,locked] at same
      exact readNotWrite ((kept .read).trans (kept .write).symm)
    have byUnknown : ∀ type : LockType,
      (if statusOf r = -1 then decimalText type.replStatus else decimalText (statusOf r)) = currentOf r := by
      intro type
      have same := single unknownReplicaId type unknownReplicaId (.inl rfl) (.inl rfl) r mem
      have locked : lockValue unknownReplicaId type (numberOf r) (currentOf r) = decimalText type.replStatus :=
        if_neg number.symm
      rwa [unlockValue,if_neg number.symm,locked] at same
    have status : statusOf r ≠ -1 := by
      intro none
      have read := byUnknown .read
      have write := byUnknown .write
      rw [if_pos none] at read write
      exact readNotWrite (read.trans write.symm)
    have back := byUnknown .read
    rw [if_neg status] at back
    exact ⟨number,status,by rw [(fresh r mem).current,(fresh r mem).dirty,back]⟩
  · rintro (restorable | ⟨r,only,unknown⟩) locks target some valid known
    · rw [undoneIff there listed fresh some valid known]
      intro r mem
      obtain ⟨number,status,same⟩ := restorable r mem
      have current : decimalText (statusOf r) = currentOf r := by
        rw [(fresh r mem).current,(fresh r mem).dirty] at same
        exact (Option.some.inj same).symm
      unfold unlockValue
      rw [if_neg status,if_neg status,current]
      by_cases targeted : target = numberOf r
      · rw [if_pos targeted,if_neg (targeted ▸ number)]
      · rw [if_neg targeted]
    · rw [undoneIff there listed fresh some valid known]
      have targeted : ∀ n, Valid entry.replicas n → n = unknownReplicaId := by
        intro n valid
        rcases valid with same | listed
        · exact same
        · rw [only,map_singleton,mem_singleton] at listed
          exact listed.trans unknown
      intro x mem
      rw [only] at mem
      rw [mem_singleton.mp mem,unknown,targeted target known,lockValueUnknown fun l mem => targeted l.1 (valid l mem)]
      exact (if_pos rfl).trans (if_pos rfl)

end undo

def statusOpening : Text := lit "\x7b\"original_status\":\""
def statusClosing : Text := lit "\"\x7d"

def plainDump : Json → Text
  | .object [(_,.string value)] => statusOpening ++ value ++ statusClosing
  | _ => []

def plainParse (a : Text) : Option Json :=
  if a = [] then none
  else some (originalStatus ((a.drop statusOpening.length).take (a.length-statusOpening.length-statusClosing.length)))

theorem plainRoundTrip (v) :
    plainParse (plainDump (originalStatus (decimalText v))) = some (originalStatus (decimalText v)) := by
  have text : plainDump (originalStatus (decimalText v)) = statusOpening ++ decimalText v ++ statusClosing := rfl
  have some : statusOpening ++ decimalText v ++ statusClosing ≠ [] := append_ne_nil_of_right_ne_nil _ (by decide)
  have size : (statusOpening ++ decimalText v ++ statusClosing).length - statusOpening.length - statusClosing.length =
      (decimalText v).length := by
    rw [length_append,length_append]
    omega
  rw [text,plainParse,if_neg some,size,append_assoc,drop_left,take_left]

def plainLibrary : Library where
  dump := plainDump
  parse := plainParse
  noText := rfl
  roundTrip := plainRoundTrip

def replicaOf (number before after : Int) : JsonReplica :=
  let of (dirty : Int) : Properties := fun name =>
    if name = DATA_REPL_NUM then some (decimalText number)
    else if name = DATA_IS_DIRTY then some (decimalText dirty)
    else if name = DATA_STATUS then some [] else none
  { before := of before, after := of after }

def tableOf (rs : List JsonReplica) : Table :=
  fun key => if key = 7 then some { logicalPath := lit "/z/a", replicas := rs } else none

theorem replicasFresh {rs : List JsonReplica}
    (of : ∀ r ∈ rs, ∃ before ∈ [0,1], ∃ after ∈ [0,1], ∃ number ∈ [0,1], r = replicaOf number before after) :
    ∀ r ∈ rs, Fresh r ∧ Numbered r (numberOf r) := by
  intro r mem
  obtain ⟨before,inB,after,inA,number,inN,rfl⟩ := of r mem
  simp only [mem_cons,not_mem_nil,or_false] at inB inA inN
  rcases inB with rfl | rfl <;> rcases inA with rfl | rfl <;> rcases inN with rfl | rfl <;>
    exact ⟨⟨by decide,by decide,by decide,by decide,by decide⟩,⟨by decide,by decide⟩⟩

theorem nestedLocksUndone :
    Undone plainLibrary 7 (tableOf [replicaOf 0 1 1,replicaOf 1 0 0]) [(0,.write),(-1,.read),(1,.write)] 1 := by
  have fresh := @replicasFresh [replicaOf 0 1 1,replicaOf 1 0 0] (by
    intro r mem
    rcases mem_pair.mp mem with rfl | rfl
    · exact ⟨1,by decide,1,by decide,0,by decide,rfl⟩
    · exact ⟨0,by decide,0,by decide,1,by decide,rfl⟩)
  have exactly := @lockingUndoneExactly plainLibrary (tableOf [replicaOf 0 1 1,replicaOf 1 0 0]) 7 _ rfl
    ⟨fun r mem => (fresh r mem).2,by decide⟩ fun r mem => (fresh r mem).1
  refine exactly.mpr (.inl ?_) _ _ (by decide) (by unfold Valid; decide) (by unfold Valid; decide)
  intro r mem
  rcases mem_pair.mp mem with rfl | rfl <;> exact ⟨by decide,by decide,rfl⟩

def dirtyAfter (t : Table) : Option (List (Option Text)) :=
  (t 7).map (fun e => e.replicas.map (fun r => r.after DATA_IS_DIRTY))

theorem staleComesBackGood :
    Fresh (replicaOf 0 1 0) ∧ dirtyAfter (tableOf [replicaOf 0 1 0]) = some [some (lit "0")] ∧
    (lockAll plainLibrary 7 [(0,.read)] (tableOf [replicaOf 0 1 0])).1 = [0] ∧
    (unlockImpl plainLibrary 7 0 restoreStatus restoreStatus
      (lockAll plainLibrary 7 [(0,.read)] (tableOf [replicaOf 0 1 0])).2).1 = 0 ∧
    dirtyAfter (unlockImpl plainLibrary 7 0 restoreStatus restoreStatus
      (lockAll plainLibrary 7 [(0,.read)] (tableOf [replicaOf 0 1 0])).2).2 = some [some (lit "1")] ∧
    ¬ Undone plainLibrary 7 (tableOf [replicaOf 0 1 0]) [(0,.read)] 0 := by
  have good : dirtyAfter (unlockImpl plainLibrary 7 0 restoreStatus restoreStatus
      (lockAll plainLibrary 7 [(0,.read)] (tableOf [replicaOf 0 1 0])).2).2 = some [some (lit "1")] := by decide +kernel
  refine ⟨⟨by decide,by decide,by decide,by decide,by decide⟩,by decide,by decide +kernel,by decide +kernel,good,
      fun undone => ?_⟩
  rw [undone.restored] at good
  exact absurd good (by decide)

end Irods.LogicalLocking
