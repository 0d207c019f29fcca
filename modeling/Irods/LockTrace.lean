import Irods.LogicalLocking

/-! What a lock leaves behind when it fails. A lock is a sequence of writes into the entry, each
looked up by replica number; what was written before an exception stays. -/
namespace Irods.LockTrace
open CText ReplicaStateTable LogicalLocking List JsonReplica

structure Write where
  index : Nat
  name : Text
  value : Text
  deriving DecidableEq, Repr

abbrev Step := Except Thrown (Option Write)
def Write.into (w : Write) (rs : List JsonReplica) : List JsonReplica := rs.modify w.index (·.updated w.name w.value)

def Write.present (w : Write) (rs : List JsonReplica) : Prop :=
  ∀ r, rs[w.index]? = some r → r.after w.name = some w.value

def runSteps : List Step → List JsonReplica → Except Thrown Unit × List JsonReplica
  | [],rs => (.ok (),rs)
  | .error e::_,rs => (.error e,rs)
  | .ok none::rest,rs => runSteps rest rs
  | .ok (some w)::rest,rs => runSteps rest (w.into rs)

def written : List Step → List Write
  | [] => []
  | .error _::_ => []
  | .ok none::rest => written rest
  | .ok (some w)::rest => w::written rest

theorem runWritten (steps rs) :
    (runSteps steps rs).2 = (written steps).foldl (fun rs w => w.into rs) rs := by
  induction steps generalizing rs with
  | nil => rfl
  | cons step steps ih =>
    match step with
    | .error _ => rfl
    | .ok none => exact ih rs
    | .ok (some w) => exact ih (w.into rs)

theorem runAppend (front back rs) :
    runSteps (front ++ back) rs = match runSteps front rs with
      | (.ok _,rs') => runSteps back rs'
      | (.error e,rs') => (.error e,rs') := by
  induction front generalizing rs with
  | nil => rfl
  | cons step front ih =>
    match step with
    | .error _ => rfl
    | .ok none => exact ih rs
    | .ok (some w) => exact ih (w.into rs)

variable {w : Write} {rs : List JsonReplica}

theorem intoSame (there : w.present rs) : w.into rs = rs := by
  apply ext_getElem?
  intro i
  rw [Write.into,getElem?_modify]
  cases found : rs[i]? with
  | none => rfl
  | some r =>
    by_cases here : w.index = i
    · subst here
      simp only [if_true]
      exact congrArg some (updatedSame (there r found))
    · simp [here]

theorem intoAt {v : Write} {i r} (found : (v.into rs)[i]? = some r) :
    ∃ old, rs[i]? = some old ∧ r = if v.index = i then old.updated v.name v.value else old := by
  rw [Write.into,getElem?_modify] at found
  obtain ⟨old,before,same⟩ := Option.map_eq_some_iff.mp found
  refine ⟨old,before,same.symm.trans ?_⟩
  split <;> rfl

theorem presentKept {v : Write} (agree : v.index = w.index → v.name = w.name → v.value = w.value)
    (there : w.present rs) : w.present (v.into rs) := by
  intro r found
  obtain ⟨old,before,rfl⟩ := intoAt found
  have kept := there old before
  split
  · rename_i here
    by_cases named : v.name = w.name
    · rw [← agree here named,← named]
      exact afterUpdated old v.name v.value
    · rw [afterOther old (Ne.symm named)]
      exact kept
  · exact kept

theorem presentWritten (w : Write) (rs) : w.present (w.into rs) := by
  intro r found
  obtain ⟨old,before,rfl⟩ := intoAt found
  rw [if_pos rfl]
  exact afterUpdated old w.name w.value

def Agreeing (ws : List Write) : Prop :=
  ∀ v ∈ ws, ∀ w ∈ ws, v.index = w.index → v.name = w.name → v.value = w.value

variable {ws : List Write}

theorem foldPresent
    (agree : ∀ v ∈ ws, v.index = w.index → v.name = w.name → v.value = w.value) (there : w.present rs) :
    w.present (ws.foldl (fun rs w => w.into rs) rs) := by
  induction ws generalizing rs with
  | nil => exact there
  | cons v _ ih =>
    obtain ⟨here,rest⟩ := forall_mem_cons.mp agree
    exact ih rest (presentKept here there)

theorem allPresent (agree : Agreeing ws) (rs) :
    ∀ w ∈ ws, w.present (ws.foldl (fun rs w => w.into rs) rs) := by
  induction ws generalizing rs with
  | nil => simp
  | cons v _ ih =>
    intro w mem
    rw [foldl_cons]
    rcases mem_cons.mp mem with rfl | mem
    · exact foldPresent (fun u other => agree u (mem_cons_of_mem _ other) w mem_cons_self) (presentWritten w rs)
    · exact ih (fun a one b two => agree a (mem_cons_of_mem _ one) b (mem_cons_of_mem _ two)) (v.into rs) w mem

theorem foldSame (agree : Agreeing ws) (rs) :
    ws.foldl (fun rs w => w.into rs) rs = rs ↔ ∀ w ∈ ws, w.present rs := by
  constructor
  · intro same w mem
    have there := allPresent agree rs w mem
    rwa [same] at there
  clear agree
  intro all
  induction ws with
  | nil => rfl
  | cons v _ ih =>
    obtain ⟨here,rest⟩ := forall_mem_cons.mp all
    rw [foldl_cons,intoSame here]
    exact ih rest

/-! The steps of a lock. The lookups read what the replicas were before, which no step changes. -/
def place (number : Int) : Nat → List Properties → Except Thrown (Nat × Properties)
  | _,[] => .error (.irods KEY_NOT_FOUND)
  | i,b::rest => do
    let n ← castNumber ⟨b,b⟩
    if number = n then .ok (i,b) else place number (i+1) rest

section steps
variable (lib : Library) (befores : List Properties)

def stampStep (r : JsonReplica) : Step := do
  let number ← replicaNumber r
  let original ← getOriginalReplicaStatusImpl lib r
  if original ≠ -1 then .ok none
  else do
    let found ← place number 0 befores
    let oldStatus ← property found.2 DATA_IS_DIRTY
    .ok (some ⟨found.1,DATA_STATUS,lib.dump (originalStatus oldStatus)⟩)

def targetStatus : LockType → Int
  | .write => INTERMEDIATE_REPLICA
  | .read => READ_LOCKED

def targetStep (target : Int) (type : LockType) : Step :=
  if target = unknownReplicaId then .ok none
  else do
    let found ← place target 0 befores
    .ok (some ⟨found.1,DATA_IS_DIRTY,decimalText (targetStatus type)⟩)

def setStep (target status : Int) (r : JsonReplica) : Step := do
  let number ← replicaNumber r
  let found ← place number 0 befores
  let _ ← property found.2 DATA_STATUS
  if target ≠ number then .ok (some ⟨found.1,DATA_IS_DIRTY,decimalText status⟩) else .ok none

end steps

def lockSteps (lib : Library) (target : Int) (type : LockType) (rs : List JsonReplica) : List Step :=
  let befores := rs.map JsonReplica.before
  rs.map (stampStep lib befores) ++ targetStep befores target type::rs.map (setStep befores target type.replStatus)

theorem castBefore {r r'} (same : r.before = r'.before) : castNumber r = castNumber r' := by
  unfold castNumber
  rw [same]

theorem numberBefore {r r'} (same : r.before = r'.before) : replicaNumber r = replicaNumber r' := by
  unfold replicaNumber
  rw [same]

def located : Except Thrown (Option (Nat × JsonReplica)) → Except Thrown (Nat × Properties)
  | .error e => .error e
  | .ok none => .error (.irods KEY_NOT_FOUND)
  | .ok (some (i,r)) => .ok (i,r.before)

theorem searchPlace (number i rs) :
    located (search number i rs) = place number i (rs.map before) := by
  induction rs generalizing i with
  | nil => rfl
  | cons r rs ih =>
    rw [search,map_cons,place,castBefore (show r.before = (⟨r.before,r.before⟩ : JsonReplica).before from rfl)]
    cases castNumber ⟨r.before,r.before⟩ with
    | error e => rfl
    | ok n =>
      show located (if number = n then .ok (some (i,r)) else search number (i+1) rs) =
        if number = n then .ok (i,r.before) else place number (i+1) (rs.map before)
      by_cases same : number = n
      · rw [if_pos same,if_pos same]
        rfl
      · rw [if_neg same,if_neg same]
        exact ih (i+1)

theorem placeFound {number i j bs b} (found : place number i bs = .ok (j,b)) :
    i ≤ j ∧ bs[j-i]? = some b ∧ castNumber ⟨b,b⟩ = .ok number := by
  induction bs generalizing i with
  | nil => cases found
  | cons c bs ih =>
    rw [place] at found
    cases cast : castNumber ⟨c,c⟩ with
    | error e =>
      rw [cast] at found
      cases found
    | ok n =>
      rw [cast] at found
      change (if number = n then Except.ok (i,c) else place number (i+1) bs) = .ok (j,b) at found
      split at found
      · rename_i same
        cases found
        exact ⟨Nat.le_refl _,by simp,same ▸ cast⟩
      obtain ⟨_,there,here⟩ := ih found
      refine ⟨by omega,?_,here⟩
      have next : j-i = j-(i+1)+1 := by omega
      rw [next]
      exact there

section lookups
variable {t : Table} {key : Int} {entry : Entry} {rs : List JsonReplica} {befores : List Properties}

section
variable (same : rs.map JsonReplica.before = befores)
include same

theorem indexPlace (number) :
    indexOf key number (t.withReplicas key entry rs) = (place number 0 befores).map Prod.fst := by
  have lookup := searchPlace number 0 rs
  unfold indexOf
  rw [thereAfter,← same,← lookup]
  dsimp only
  cases search number 0 rs with
  | error e => rfl
  | ok found => cases found <;> rfl

theorem propertyPlace (number name) :
    getProperty key number name .before (t.withReplicas key entry rs) =
      (place number 0 befores >>= fun found => property found.2 name) := by
  have lookup := searchPlace number 0 rs
  unfold getProperty atNumber
  rw [thereAfter,← same,← lookup]
  dsimp only
  cases search number 0 rs with
  | error e => rfl
  | ok found => cases found <;> rfl

theorem updatePlace (number name value) :
    update key number name value (t.withReplicas key entry rs) = match place number 0 befores with
      | .error e => (.error e,t.withReplicas key entry rs)
      | .ok (i,_) => (.ok (),t.withReplicas key entry ((⟨i,name,value⟩ : Write).into rs)) := by
  show Action.bind (reading (indexOf key number)) _ _ = _
  unfold Action.bind reading
  rw [indexPlace same]
  cases found : place number 0 befores with
  | error e => rfl
  | ok p =>
    obtain ⟨-,there,-⟩ := placeFound found
    have inside : p.1 < rs.length := by
      have bound := (List.getElem?_eq_some_iff.mp there).1
      rw [← same,length_map] at bound
      omega
    show updateImpl key p.1 name value _ = _
    unfold updateImpl
    rw [thereAfter]
    dsimp only
    rw [if_pos inside,withTwice]
    rfl

end

end lookups

def Follows (t : Table) (key : Int) (entry : Entry) (befores : List Properties) (f : Action Unit) (steps : List Step) :
    Prop :=
  ∀ rs : List JsonReplica, rs.map JsonReplica.before = befores → f (t.withReplicas key entry rs) =
    ((runSteps steps rs).1,t.withReplicas key entry (runSteps steps rs).2)

theorem intoBefore (w : Write) (rs) : (w.into rs).map before = rs.map before := by
  apply ext_getElem?
  intro i
  rw [getElem?_map,getElem?_map,Write.into,getElem?_modify]
  cases rs[i]? with
  | none => rfl
  | some r =>
    split <;> rfl

theorem runBefore (steps) (rs) :
    (runSteps steps rs).2.map before = rs.map before := by
  induction steps generalizing rs with
  | nil => rfl
  | cons step steps ih =>
    match step with
    | .error _ => rfl
    | .ok none => exact ih rs
    | .ok (some w) => exact (ih (w.into rs)).trans (intoBefore w rs)

section follows
variable {t : Table} {key : Int} {entry : Entry} {befores : List Properties}

theorem followsThen {f g front back} (first : Follows t key entry befores f front)
    (second : Follows t key entry befores g back) : Follows t key entry befores (do f; g) (front ++ back) := by
  intro rs same
  show Action.bind f (fun _ => g) _ = _
  unfold Action.bind
  rw [first rs same,runAppend]
  have kept := runBefore front rs
  match ran : runSteps front rs with
  | (.error e,rs') => rfl
  | (.ok _,rs') =>
    rw [ran] at kept
    exact second rs' (kept.trans same)

theorem followsEach {f step}
    (all : ∀ r ∈ rs, Follows t key entry befores (f r) [step r]) :
    Follows t key entry befores (forEach f rs) (rs.map step) := by
  induction rs with
  | nil => exact fun _ _ => rfl
  | cons r _ ih =>
    obtain ⟨here,rest⟩ := forall_mem_cons.mp all
    exact followsThen here (ih rest)

theorem followsRead {α} {x y f} {step : α → Step}
    (read : ∀ rs, rs.map before = befores → x (t.withReplicas key entry rs) = y)
    (rest : ∀ a, Follows t key entry befores (f a) [step a]) :
    Follows t key entry befores (reading x >>= f) [y >>= step] := by
  intro rs same
  show Action.bind (reading x) f _ = _
  unfold Action.bind reading
  rw [read rs same]
  cases y with
  | error e => rfl
  | ok a => exact rest a rs same

theorem followsNothing : Follows t key entry befores (pure ()) [.ok none] := fun _ _ => rfl

theorem followsIf {c} [Decidable c] {f g one two} (yes : Follows t key entry befores f [one])
    (no : Follows t key entry befores g [two]) :
    Follows t key entry befores (if c then f else g) [if c then one else two] := by
  by_cases holds : c
  · simpa only [if_pos holds] using yes
  · simpa only [if_neg holds] using no

theorem followsUpdate (number name value) : Follows t key entry befores (update key number name value)
    [place number 0 befores >>= fun found => .ok (some ⟨found.1,name,value⟩)] := by
  intro _ same
  rw [updatePlace same]
  cases place number 0 befores <;> rfl

theorem stampFollows (lib r) : Follows t key entry befores (do
    let number ← throwOr (replicaNumber r)
    let original ← throwOr (getOriginalReplicaStatusImpl lib r)
    if original ≠ -1 then pure ()
    else do
      let oldStatus ← reading (getProperty key number DATA_IS_DIRTY .before)
      update key number DATA_STATUS (lib.dump (originalStatus oldStatus))) [stampStep lib befores r] := by
  refine followsRead (fun _ _ => rfl) fun number => followsRead (fun _ _ => rfl) fun original => ?_
  refine followsIf followsNothing ?_
  have twice := @followsRead t key entry befores _ _ _ _ _ (fun _ same => propertyPlace same number DATA_IS_DIRTY)
    fun oldStatus => followsUpdate number DATA_STATUS (lib.dump (originalStatus oldStatus))
  have once : ((place number 0 befores >>= fun found => property found.2 DATA_IS_DIRTY) >>= fun oldStatus =>
      place number 0 befores >>= fun found =>
        (.ok (some ⟨found.1,DATA_STATUS,lib.dump (originalStatus oldStatus)⟩) : Step)) =
      place number 0 befores >>= fun found => property found.2 DATA_IS_DIRTY >>= fun oldStatus =>
        .ok (some ⟨found.1,DATA_STATUS,lib.dump (originalStatus oldStatus)⟩) := by
    cases place number 0 befores <;> rfl
  rwa [once] at twice

theorem targetFollows (target type) :
    Follows t key entry befores (lockTarget key target type) [targetStep befores target type] := by
  cases type <;> exact followsIf followsNothing (followsUpdate target DATA_IS_DIRTY _)

theorem setFollows (target status r) : Follows t key entry befores (do
    let number ← throwOr (replicaNumber r)
    let _ ← reading (getProperty key number DATA_STATUS .before)
    if target ≠ number then update key number DATA_IS_DIRTY (decimalText status) else pure ())
    [setStep befores target status r] := by
  refine followsRead (fun _ _ => rfl) fun number => ?_
  have looked := @followsRead t key entry befores _ _ _ _ _ (fun _ same => propertyPlace same number DATA_STATUS)
    fun _ => @followsIf t key entry befores
      (target ≠ number) _ _ _ _ _ (followsUpdate number DATA_IS_DIRTY (decimalText status))
      followsNothing
  have once : ((place number 0 befores >>= fun found => property found.2 DATA_STATUS) >>= fun _ =>
      if target ≠ number then
      place number 0 befores >>= fun found => (.ok (some ⟨found.1,DATA_IS_DIRTY,decimalText status⟩) : Step)
        else .ok none) =
      place number 0 befores >>= fun found => property found.2 DATA_STATUS >>= fun _ => if target ≠ number then
        .ok (some ⟨found.1,DATA_IS_DIRTY,decimalText status⟩) else .ok none := by
    cases place number 0 befores <;> rfl
  rwa [once] at looked

theorem setSteps {target status} {rs' : List JsonReplica}
    (same : rs'.map JsonReplica.before = rs.map JsonReplica.before) :
    rs'.map (setStep befores target status) = rs.map (setStep befores target status) := by
  have before : ∀ r, setStep befores target status r = setStep befores target status ⟨r.before,r.before⟩ := by
    intro r
    unfold setStep
    rw [numberBefore (show r.before = (⟨r.before,r.before⟩ : JsonReplica).before from rfl)]
  have through : ∀ l : List JsonReplica, l.map (setStep befores target status) =
      (l.map JsonReplica.before).map fun b => setStep befores target status ⟨b,b⟩ := by
    intro l
    rw [map_map]
    exact map_congr_left fun r _ => before r
  rw [through,through,same]

end follows

theorem insertRuns (lib) (t : Table) (key entry rs) :
    insertDataStatus lib key (t.withReplicas key entry rs) =
      ((runSteps (rs.map (stampStep lib (rs.map before))) rs).1,
        t.withReplicas key entry (runSteps (rs.map (stampStep lib (rs.map before))) rs).2) := by
  unfold insertDataStatus
  rw [bindDone (atKeyDone rs),bindDone (pathDone rs)]
  exact followsEach (fun r _ => stampFollows lib r) rs rfl

theorem setRuns {t} {key} {entry} (target status) :
    Follows t key entry (rs.map before) (setReplicaStatuses key target status)
      (rs.map (setStep (rs.map before) target status)) := by
  intro rs' same
  unfold setReplicaStatuses
  rw [bindDone (atKeyDone rs'),← setSteps same]
  exact followsEach (fun r _ => setFollows target status r) rs' same

def answer : Except Thrown Unit → Int
  | .ok _ => 0
  | .error (.irods code) => code
  | .error .standard => SYS_INTERNAL_ERR

theorem lockRuns (lib) {t key entry} (there : t key = some entry) (target) (type) :
    lockImpl lib key target type t =
      (answer (runSteps (lockSteps lib target type entry.replicas) entry.replicas).1,
        t.withReplicas key entry (runSteps (lockSteps lib target type entry.replicas) entry.replicas).2) := by
  have rest := followsThen (@targetFollows t key entry (entry.replicas.map before) target type)
    (setRuns target type.replStatus)
  have start := insertRuns lib t key entry entry.replicas
  rw [tableSame there] at start
  unfold lockImpl caught lockSteps
  have whole : (do
        insertDataStatus lib key
        lockTarget key target type
        setReplicaStatuses key target type.replStatus : Action Unit) t =
      ((runSteps (lockSteps lib target type entry.replicas) entry.replicas).1,
        t.withReplicas key entry (runSteps (lockSteps lib target type entry.replicas) entry.replicas).2) := by
    show Action.bind (insertDataStatus lib key) _ t = _
    unfold Action.bind lockSteps
    rw [start,runAppend]
    have kept := runBefore (entry.replicas.map (stampStep lib (entry.replicas.map before))) entry.replicas
    match ran : runSteps (entry.replicas.map (stampStep lib (entry.replicas.map before))) entry.replicas with
    | (.error e,rs') => rfl
    | (.ok _,rs') =>
      rw [ran] at kept
      exact rest rs' kept
  rw [whole]
  unfold lockSteps
  cases (runSteps _ entry.replicas).1 with
  | ok _ => rfl
  | error e => cases e <;> rfl

theorem placeNumber {number} {bs} {found} (ok : place number 0 bs = .ok found) :
    bs[found.1]? = some found.2 ∧ castNumber ⟨found.2,found.2⟩ = .ok number := by
  obtain ⟨-,there,here⟩ := placeFound ok
  exact ⟨there,here⟩

structure LockWrite (lib : Library) (befores : List Properties) (target : Int) (type : LockType) (w : Write) :
    Prop where
  stash : w.name = DATA_STATUS → ∃ b old, befores[w.index]? = some b ∧ b DATA_IS_DIRTY = some old ∧
    w.value = lib.dump (originalStatus old)
  dirty : w.name ≠ DATA_STATUS → w.name = DATA_IS_DIRTY ∧ ∃ b n, befores[w.index]? = some b ∧ castNumber ⟨b,b⟩ = .ok n ∧
    w.value = decimalText (if n = target then targetStatus type else type.replStatus)

theorem lockWriteUnique {lib befores target} {type} {v}
    (one : LockWrite lib befores target type v) (two : LockWrite lib befores target type w)
    (index : v.index = w.index) (name : v.name = w.name) : v.value = w.value := by
  by_cases stashed : v.name = DATA_STATUS
  · obtain ⟨b,_,there,read,value⟩ := one.stash stashed
    obtain ⟨b',_,there',read',value'⟩ := two.stash (name ▸ stashed)
    rw [index,there'] at there
    cases there
    rw [read'] at read
    cases read
    rw [value,value']
  · obtain ⟨-,b,n,there,cast,value⟩ := one.dirty stashed
    obtain ⟨-,_,_,there',cast',value'⟩ := two.dirty (name ▸ stashed)
    rw [index,there'] at there
    cases there
    rw [cast'] at cast
    cases cast
    rw [value,value']

theorem writtenMem {steps} (mem : w ∈ written steps) : .ok (some w) ∈ steps := by
  induction steps with
  | nil => simp [written] at mem
  | cons step steps ih =>
    match step with
    | .error _ => simp [written] at mem
    | .ok none => exact mem_cons_of_mem _ (ih mem)
    | .ok (some v) =>
      rcases mem_cons.mp mem with rfl | mem
      · exact mem_cons_self
      · exact mem_cons_of_mem _ (ih mem)

theorem stepBind {α β : Type} {x} {f : α → Except Thrown β} {b} (run : x >>= f = .ok b) :
    ∃ a, x = .ok a ∧ f a = .ok b := by
  cases x with
  | error e => cases run
  | ok a => exact ⟨a,rfl,run⟩

section writes
variable {lib : Library} {befores : List Properties} {target : Int} {type : LockType} {w : Write} {r : JsonReplica}

theorem stampWrites (run : stampStep lib befores r = .ok (some w)) : LockWrite lib befores target type w := by
  obtain ⟨_,-,run⟩ := stepBind run
  obtain ⟨_,-,run⟩ := stepBind run
  split at run
  · cases run
  obtain ⟨found,placed,run⟩ := stepBind run
  obtain ⟨old,read,run⟩ := stepBind run
  cases run
  have value : found.2 DATA_IS_DIRTY = some old := by
    unfold property at read
    split at read <;> cases read
    assumption
  exact ⟨fun _ => ⟨found.2,old,(placeNumber placed).1,value,rfl⟩,fun other => absurd rfl other⟩

theorem targetWrites (run : targetStep befores target type = .ok (some w)) : LockWrite lib befores target type w := by
  unfold targetStep at run
  split at run
  · cases run
  obtain ⟨found,placed,run⟩ := stepBind run
  cases run
  obtain ⟨there,cast⟩ := placeNumber placed
  exact ⟨fun name => absurd name.symm statusNotDirty,fun _ => ⟨rfl,found.2,target,there,cast,by rw [if_pos rfl]⟩⟩

theorem setWrites (run : setStep befores target type.replStatus r = .ok (some w)) :
    LockWrite lib befores target type w := by
  obtain ⟨number,-,run⟩ := stepBind run
  obtain ⟨found,placed,run⟩ := stepBind run
  obtain ⟨_,-,run⟩ := stepBind run
  split at run
  · rename_i other
    cases run
    obtain ⟨there,cast⟩ := placeNumber placed
    exact ⟨fun name => absurd name.symm statusNotDirty,
      fun _ => ⟨rfl,found.2,number,there,cast,by rw [if_neg (Ne.symm other)]⟩⟩
  · cases run

end writes

theorem lockAgreeing (lib target type rs) :
    Agreeing (written (lockSteps lib target type rs)) := by
  have each : ∀ w ∈ written (lockSteps lib target type rs), LockWrite lib (rs.map before) target type w := by
    intro w mem
    have step := writtenMem mem
    rcases mem_append.mp step with stamp | step
    · obtain ⟨r,-,run⟩ := mem_map.mp stamp
      exact stampWrites run
    rcases mem_cons.mp step with run | set
    · exact targetWrites run.symm
    · obtain ⟨r,-,run⟩ := mem_map.mp set
      exact setWrites run
  exact fun v one w two => lockWriteUnique (each v one) (each w two)

/-! What a lock that fails finds in the entry, up to the step that fails. -/

section Before
variable (lib : Library) (rs : List JsonReplica) (target : Int) (type : LockType)

/- A number leads to the i-th replica, which was b before. -/
def Leads (number : Int) (i : Nat) (b : Properties) : Prop := place number 0 (rs.map before) = .ok (i,b)

def HasAfter (i : Nat) (name value : Text) : Prop := ∀ r, rs[i]? = some r → r.after name = some value

/- The original status can be read, or else the status to keep. -/
def Stampable (r : JsonReplica) : Prop :=
  ∃ n, replicaNumber r = .ok n ∧ ∃ v, getOriginalReplicaStatusImpl lib r = .ok v ∧
    (v = -1 → ∃ i b, Leads rs n i b ∧ ∃ old, b DATA_IS_DIRTY = some old)

/- The replica carries its original status already. -/
def Stamped (r : JsonReplica) : Prop :=
  ∃ n, replicaNumber r = .ok n ∧ ∃ v, getOriginalReplicaStatusImpl lib r = .ok v ∧
    (v = -1 → ∃ i b, Leads rs n i b ∧ ∃ old, b DATA_IS_DIRTY = some old ∧
      HasAfter rs i DATA_STATUS (lib.dump (originalStatus old)))

def TargetThere : Prop := target = unknownReplicaId ∨ ∃ i b, Leads rs target i b

def TargetLocked : Prop :=
  target = unknownReplicaId ∨ ∃ i b, Leads rs target i b ∧ HasAfter rs i DATA_IS_DIRTY (decimalText (targetStatus type))

def Settable (r : JsonReplica) : Prop :=
  ∃ n, replicaNumber r = .ok n ∧ ∃ i b, Leads rs n i b ∧ ∃ value, b DATA_STATUS = some value

def SiblingLocked (r : JsonReplica) : Prop :=
  ∃ n, replicaNumber r = .ok n ∧ ∃ i b, Leads rs n i b ∧ (∃ value, b DATA_STATUS = some value) ∧
    (target ≠ n → HasAfter rs i DATA_IS_DIRTY (decimalText type.replStatus))

/- All replicas before the first that fails are as they should be. -/
def UpTo (done fails : JsonReplica → Prop) : Prop :=
  ∃ front r back, rs = front ++ r::back ∧ (∀ q ∈ front, done q) ∧ fails r

def Untouched : Prop :=
  UpTo rs (Stamped lib rs) (¬Stampable lib rs ·) ∨
  (∀ r ∈ rs, Stamped lib rs r) ∧ (¬TargetThere rs target ∨
    TargetLocked rs target type ∧ UpTo rs (SiblingLocked rs target type) (¬Settable rs ·))

end Before

section Halting
variable {rs : List JsonReplica}

def Passed (rs : List JsonReplica) (step : Step) : Prop := ∃ o, step = .ok o ∧ ∀ w ∈ o, w.present rs

def Halts (rs : List JsonReplica) : List Step → Prop
  | [] => False
  | .error _::_ => True
  | .ok o::rest => (∀ w ∈ o, w.present rs) ∧ Halts rs rest

theorem haltsWritten {steps e rs'} (failed : (runSteps steps rs').1 = .error e) :
    (∀ w ∈ written steps, w.present rs) ↔ Halts rs steps := by
  induction steps generalizing rs' with
  | nil => cases failed
  | cons step steps ih =>
    match step with
    | .error _ => simp [written,Halts]
    | .ok none => simpa [written,Halts] using ih failed
    | .ok (some w) => simp [written,Halts,ih failed]

theorem haltsAppend {front back} :
    Halts rs (front ++ back) ↔ Halts rs front ∨ (∀ step ∈ front, Passed rs step) ∧ Halts rs back := by
  induction front with
  | nil => simp [Halts]
  | cons step front ih =>
    cases step with
    | error e => simp [Halts]
    | ok o =>
      have here : Passed rs (.ok o) ↔ ∀ w ∈ o, w.present rs := by simp [Passed]
      rw [cons_append,Halts,Halts,ih,forall_mem_cons,here]
      tauto

theorem haltsMap {l : List JsonReplica} {step : JsonReplica → Step} {done able : JsonReplica → Prop}
    (passed : ∀ r, Passed rs (step r) ↔ done r) (fails : ∀ r, (∃ e, step r = .error e) ↔ ¬able r) :
    Halts rs (l.map step) ↔ UpTo l done (¬able ·) := by
  induction l with
  | nil => simp [Halts,UpTo]
  | cons r l ih =>
    rw [map_cons]
    constructor
    · intro halts
      cases this : step r with
      | error e => exact ⟨[],r,l,rfl,by simp,(fails r).mp ⟨e,this⟩⟩
      | ok o =>
        rw [this] at halts
        obtain ⟨front,q,back,rfl,all,last⟩ := ih.mp halts.2
        exact ⟨r::front,q,back,rfl,forall_mem_cons.mpr ⟨(passed r).mp ⟨o,this,halts.1⟩,all⟩,last⟩
    · rintro ⟨front,q,back,shape,all,last⟩
      cases front with
      | nil =>
        obtain ⟨rfl,-⟩ := cons.inj shape
        obtain ⟨e,this⟩ := (fails r).mpr last
        rw [this]
        trivial
      | cons _ front =>
        obtain ⟨rfl,rfl⟩ := cons.inj shape
        obtain ⟨here,rest⟩ := forall_mem_cons.mp all
        obtain ⟨o,this,present⟩ := (passed r).mpr here
        rw [this]
        exact ⟨present,ih.mpr ⟨front,q,back,rfl,rest,last⟩⟩

end Halting

section Each
variable {lib : Library} {rs : List JsonReplica} {target : Int} {type : LockType}

theorem bindOk {α β : Type} {x : Except Thrown α} {f : α → Except Thrown β} {b} :
    x >>= f = .ok b ↔ ∃ a, x = .ok a ∧ f a = .ok b := by
  refine ⟨stepBind,?_⟩
  rintro ⟨a,rfl,run⟩
  exact run

theorem propertyOk {b : Properties} {name value} : property b name = .ok value ↔ b name = some value := by
  unfold property
  split <;> simp_all

theorem failedStep {step : Step} : (∃ e, step = .error e) ↔ ¬∃ o, step = .ok o := by
  cases step <;> simp

theorem stampOk (r) {o} : stampStep lib (rs.map before) r = .ok o ↔
    ∃ n, replicaNumber r = .ok n ∧ ∃ v, getOriginalReplicaStatusImpl lib r = .ok v ∧
      if v ≠ -1 then o = none else ∃ i b, Leads rs n i b ∧ ∃ old, b DATA_IS_DIRTY = some old ∧
        o = some ⟨i,DATA_STATUS,lib.dump (originalStatus old)⟩ := by
  unfold stampStep Leads
  simp only [bindOk]
  refine exists_congr fun n => and_congr_right fun _ => exists_congr fun v => and_congr_right fun _ => ?_
  by_cases own : v ≠ -1
  · rw [if_pos own,if_pos own,Except.ok.injEq,eq_comm]
  · simp only [if_neg own,bindOk,propertyOk,Prod.exists,Except.ok.injEq]
    simp only [eq_comm (b := o)]

theorem stampPassed (r) : Passed rs (stampStep lib (rs.map before) r) ↔ Stamped lib rs r := by
  unfold Passed Stamped
  simp only [stampOk]
  constructor
  · rintro ⟨o,⟨n,number,v,read,written⟩,present⟩
    refine ⟨n,number,v,read,fun none => ?_⟩
    rw [if_neg (not_not.mpr none)] at written
    obtain ⟨i,b,leads,old,dirty,rfl⟩ := written
    exact ⟨i,b,leads,old,dirty,present _ rfl⟩
  · rintro ⟨n,number,v,read,unset⟩
    by_cases none : v = -1
    · obtain ⟨i,b,leads,old,dirty,there⟩ := unset none
      refine ⟨some ⟨i,DATA_STATUS,lib.dump (originalStatus old)⟩,⟨n,number,v,read,?_⟩,?_⟩
      · rw [if_neg (not_not.mpr none)]
        exact ⟨i,b,leads,old,dirty,rfl⟩
      · rintro _ ⟨⟩
        exact there
    · exact ⟨.none,⟨n,number,v,read,by rw [if_pos none]⟩,by simp⟩

theorem stampFails (r) : (∃ e, stampStep lib (rs.map before) r = .error e) ↔ ¬Stampable lib rs r := by
  rw [failedStep,not_iff_not]
  simp only [stampOk]
  constructor
  · rintro ⟨o,n,number,v,read,written⟩
    refine ⟨n,number,v,read,fun none => ?_⟩
    rw [if_neg (not_not.mpr none)] at written
    obtain ⟨i,b,leads,old,dirty,-⟩ := written
    exact ⟨i,b,leads,old,dirty⟩
  · rintro ⟨n,number,v,read,unset⟩
    by_cases none : v = -1
    · obtain ⟨i,b,leads,old,dirty⟩ := unset none
      refine ⟨some ⟨i,DATA_STATUS,lib.dump (originalStatus old)⟩,n,number,v,read,?_⟩
      rw [if_neg (not_not.mpr none)]
      exact ⟨i,b,leads,old,dirty,rfl⟩
    · exact ⟨.none,n,number,v,read,by rw [if_pos none]⟩

theorem targetOk {o} : targetStep (rs.map before) target type = .ok o ↔
    if target = unknownReplicaId then o = none
    else ∃ i b, Leads rs target i b ∧ o = some ⟨i,DATA_IS_DIRTY,decimalText (targetStatus type)⟩ := by
  unfold targetStep Leads
  split
  · rw [Except.ok.injEq,eq_comm]
  · simp only [bindOk,Prod.exists,Except.ok.injEq]
    simp only [eq_comm (b := o)]

theorem targetPassed : Passed rs (targetStep (rs.map before) target type) ↔ TargetLocked rs target type := by
  unfold Passed TargetLocked
  simp only [targetOk]
  by_cases unknown : target = unknownReplicaId
  · simp [unknown]
  · simp only [if_neg unknown,or_iff_right unknown]
    constructor
    · rintro ⟨_,⟨i,b,leads,rfl⟩,present⟩
      exact ⟨i,b,leads,present _ rfl⟩
    · rintro ⟨i,b,leads,there⟩
      exact ⟨_,⟨i,b,leads,rfl⟩,by rintro _ ⟨⟩; exact there⟩

theorem targetFails : (∃ e, targetStep (rs.map before) target type = .error e) ↔ ¬TargetThere rs target := by
  rw [failedStep,not_iff_not]
  unfold TargetThere
  simp only [targetOk]
  by_cases unknown : target = unknownReplicaId
  · simp [unknown]
  · simp [unknown]

theorem setOk (r) {o status} : setStep (rs.map before) target status r = .ok o ↔
    ∃ n, replicaNumber r = .ok n ∧ ∃ i b, Leads rs n i b ∧ (∃ value, b DATA_STATUS = some value) ∧
      o = if target ≠ n then some ⟨i,DATA_IS_DIRTY,decimalText status⟩ else none := by
  unfold setStep Leads
  simp only [bindOk,Prod.exists,propertyOk]
  refine exists_congr fun n => and_congr_right fun _ => exists_congr fun i => exists_congr fun b =>
    and_congr_right fun _ => ?_
  by_cases other : target ≠ n <;> simp [other,eq_comm]

theorem setPassed (r) :
    Passed rs (setStep (rs.map before) target type.replStatus r) ↔ SiblingLocked rs target type r := by
  unfold Passed SiblingLocked
  simp only [setOk]
  constructor
  · rintro ⟨o,⟨n,number,i,b,leads,value,rfl⟩,present⟩
    exact ⟨n,number,i,b,leads,value,
        fun other => present ⟨i,DATA_IS_DIRTY,decimalText type.replStatus⟩ (by simp [other])⟩
  · rintro ⟨n,number,i,b,leads,value,there⟩
    refine ⟨_,⟨n,number,i,b,leads,value,rfl⟩,fun w mem => ?_⟩
    by_cases other : target ≠ n
    · rw [if_pos other] at mem
      cases mem
      exact there other
    · simp [other] at mem

theorem setFails (r status) : (∃ e, setStep (rs.map before) target status r = .error e) ↔ ¬Settable rs r := by
  rw [failedStep,not_iff_not]
  simp only [setOk]
  constructor
  · rintro ⟨_,n,number,i,b,leads,value,-⟩
    exact ⟨n,number,i,b,leads,value⟩
  · rintro ⟨n,number,i,b,leads,value⟩
    exact ⟨_,n,number,i,b,leads,value,rfl⟩

theorem haltsUntouched : Halts rs (lockSteps lib target type rs) ↔ Untouched lib rs target type := by
  unfold lockSteps Untouched
  dsimp only
  rw [haltsAppend,haltsMap stampPassed stampFails,forall_mem_map]
  simp only [stampPassed]
  refine or_congr .rfl (and_congr_right fun _ => ?_)
  rw [← @targetFails rs target type,← targetPassed,← haltsMap setPassed fun r => setFails r _]
  cases targetStep (rs.map before) target type <;> simp [Halts,Passed]

end Each

theorem failedLockExactly (lib : Library) (t : Table) (key target : Int) (type : LockType)
    (failed : (lockImpl lib key target type t).1 < 0) :
    (lockImpl lib key target type t).2 = t ↔
      ∀ entry, t key = some entry → Untouched lib entry.replicas target type := by
  cases there : t key with
  | none =>
    have stop : insertDataStatus lib key t = (.error (.irods KEY_NOT_FOUND),t) := by
      show Action.bind (reading (atKey key)) _ t = _
      unfold Action.bind reading atKey
      rw [there]
    have run : (lockImpl lib key target type t).2 = t := by
      unfold lockImpl caught
      simp [bind,Action.bind,stop]
    simp [run]
  | some entry =>
    rw [lockRuns lib there] at failed ⊢
    dsimp only at failed ⊢
    obtain ⟨e,error⟩ : ∃ e, (runSteps (lockSteps lib target type entry.replicas) entry.replicas).1 = .error e := by
      cases ran : (runSteps (lockSteps lib target type entry.replicas) entry.replicas).1 with
      | error e => exact ⟨e,rfl⟩
      | ok _ =>
        rw [ran] at failed
        exact absurd failed (lt_irrefl 0)
    rw [runWritten]
    have cells := foldSame (lockAgreeing lib target type entry.replicas) entry.replicas
    have untouched := (haltsWritten error).trans haltsUntouched
    constructor
    · intro same _ eq
      cases eq
      refine untouched.mp (cells.mp ?_)
      have here := congrFun same key
      rw [thereAfter,there] at here
      exact congrArg Entry.replicas (Option.some.inj here)
    · intro all
      rw [cells.mpr (untouched.mpr (all entry rfl))]
      exact tableSame there

def stampedReplica : JsonReplica := (replicaOf 0 1 1).updated DATA_STATUS (stash plainLibrary (replicaOf 0 1 1))

theorem stampedLockFails : (lockImpl plainLibrary 7 5 .read (tableOf [stampedReplica])).1 = KEY_NOT_FOUND ∧
    (lockImpl plainLibrary 7 5 .read (tableOf [stampedReplica])).2 = tableOf [stampedReplica] := by
  have code : (lockImpl plainLibrary 7 5 .read (tableOf [stampedReplica])).1 = KEY_NOT_FOUND := by decide +kernel
  refine ⟨code,(failedLockExactly _ _ _ _ _ (by rw [code]; decide)).mpr ?_⟩
  rintro entry there
  have same : entry.replicas = [stampedReplica] := congrArg Entry.replicas (Option.some.inj there.symm)
  have missing : place 5 0 [stampedReplica.before] = .error (.irods KEY_NOT_FOUND) := rfl
  rw [same]
  refine .inr ⟨?_,.inl ?_⟩
  · rintro r mem
    rw [mem_singleton.mp mem]
    exact ⟨0,rfl,1,originalStashed (by decide) rfl,fun none => absurd none (by decide)⟩
  · rintro (unknown | ⟨i,b,leads⟩)
    · exact absurd unknown (by decide)
    · exact absurd (leads.symm.trans missing) (by simp)

def statusAfter (t : Table) : Option (List (Option Text)) :=
  (t 7).map (fun e => e.replicas.map (fun r => r.after DATA_STATUS))

theorem failedLockStamps : (lockImpl plainLibrary 7 5 .write (tableOf [replicaOf 0 1 1])).1 = KEY_NOT_FOUND ∧
    statusAfter (tableOf [replicaOf 0 1 1]) = some [some []] ∧
    statusAfter (lockImpl plainLibrary 7 5 .write (tableOf [replicaOf 0 1 1])).2 =
      some [some (statusOpening ++ lit "1" ++ statusClosing)] := by decide +kernel

end Irods.LockTrace
