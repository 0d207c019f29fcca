import Irods.ReplicaStateTable
import Irods.JsonValue

/-! Publishing an entry of the replica state table, replica_state_table.cpp. The entry may be
annotated with the parameters of a file_modified operation; it is erased while the operation
runs, and put back from a copy when the catalog could not be updated. -/
namespace Irods.PublishCatalog
open CText List Function
open ReplicaStateTable (JsonReplica decimalText signless lexicalCastInt DATA_REPL_NUM)
open JsonValue (Json Exn ErrorCode size)

def KEY_NOT_FOUND : ErrorCode := ⟨-1800000,by decide⟩
def SYS_LIBRARY_ERROR : Int := -167000
def SYS_INTERNAL_ERR : Int := -154000
def RESC_ID : Text := lit "resc_id"

structure Replica where
  states : JsonReplica
  fileModified : Option Json

structure Entry where
  logicalPath : Text
  replicas : List Replica

abbrev Table := Int → Option Entry
def isLong (v : Int) : Prop := -9223372036854775808 ≤ v ∧ v ≤ 9223372036854775807

instance (v) : Decidable (isLong v) := by unfold isLong; infer_instance

def lexicalCastLong (a : Text) : Option Int :=
  if signless a ≠ [] ∧ (signless a).all Char.isDigit ∧ isLong (leadingInteger a) then some (leadingInteger a) else none

inductive ReplicaId where
  | number (value : Int)
  | resource (name : Text)

structure Context where
  key : Int
  replicaId : ReplicaId
  fileModifiedParameters : Json
  privileged : Bool
  bytesWritten : Int

structure Input where
  bytesWritten : Text
  irodsAdmin : Bool
  logicalPath : Text
  replicas : List Replica
  triggerFileModified : Bool

/- json::parse, the resource manager, and whether json::dump takes the texts as UTF-8. -/
structure Library where
  parse : Text → Option Json
  leafId : Text → Except Exn Int
  valid : Input → Bool

structure Answer where
  code : Int
  output : Text
  table : Table

/- rs_data_object_finalize. The table is only reached through the file_modified operation, and that
is an operation on the data object at hand. -/
structure Finalize (key : Int) where
  run : Input → Table → Answer
  quiet : ∀ input t, input.triggerFileModified = false → (run input t).table = t
  apart : ∀ input t other, other ≠ key → (run input t).table other = t other

def isEmpty (j : Json) : Bool := size j == 0

def indexFrom (name : Text) (cast : Text → Option Int) (wanted : Int) : Nat → List Replica → Except Exn Nat
  | _,[] => .error (.irods KEY_NOT_FOUND)
  | i,r::rest =>
    match r.states.before name with
    | none => .error .jsonOutOfRange
    | some value =>
      match cast value with
      | none => .error .runtimeError
      | some n => if wanted = n then .ok i else indexFrom name cast wanted (i+1) rest

def indexOf (lib : Library) (key : Int) (id : ReplicaId) (t : Table) : Except Exn Nat :=
  match t key with
  | none => .error (.irods KEY_NOT_FOUND)
  | some entry =>
    match id with
    | .number value => indexFrom DATA_REPL_NUM lexicalCastInt value 0 entry.replicas
    | .resource name => do
      let rescId ← lib.leafId name
      indexFrom RESC_ID lexicalCastLong rescId 0 entry.replicas

def Replica.annotated (params : Json) (r : Replica) : Replica := { r with fileModified := some params }

def annotate (entry : Entry) (index : Int) (params : Json) : Except Exn Entry :=
  if 0 ≤ index ∧ index.toNat < entry.replicas.length
  then .ok { entry with replicas := entry.replicas.modify index.toNat (Replica.annotated params) }
  else .error .jsonOutOfRange

def prepare (key index : Int) (params : Json) (privileged : Bool) (bytesWritten : Int) (t : Table) :
    Except Exn (Entry × Input) :=
  match t key with
  | none => .error .runtimeError
  | some entry => do
    let target ← if isEmpty params then .ok entry else annotate entry index params
    .ok (target,⟨decimalText bytesWritten,privileged,entry.logicalPath,target.replicas,!isEmpty params⟩)

def erasedFor (key : Int) (params : Json) (target : Entry) (t : Table) : Table :=
  if isEmpty params then
    Function.update t key (some target) else Function.update (Function.update t key (some target)) key none

def publishToCatalogImpl (lib : Library) {key : Int} (finalize : Finalize key) (index : Int) (params : Json)
    (privileged : Bool)
    (bytesWritten : Int) (t : Table) : Except Exn (Json × Int) × Table :=
  match prepare key index params privileged bytesWritten t with
  | .error e => (.error e,t)
  | .ok (backup,input) =>
    let erased := erasedFor key params backup t
    -- An exception of dump leaves before finalize is called, with the code still 0.
    if lib.valid input = false then (.error .jsonTypeError,erased)
    else
      let answer := finalize.run input erased
      let left := if answer.code < 0 ∧ isEmpty params = false then Function.update answer.table key
        (some backup) else answer.table
      match lib.parse answer.output with
      | none => (.error .jsonParseError,left)
      | some ret => (.ok (ret,answer.code),left)

def thrownCode (e : Exn) : Int := if e.isJson then SYS_LIBRARY_ERROR else SYS_INTERNAL_ERR

def rethrown : Except Exn (Json × Int) × Table → Except Int (Json × Int) × Table
  | (.error e,t) => (.error (thrownCode e),t)
  | (.ok r,t) => (.ok r,t)

/- The replica is not looked for when there is nothing to annotate it with. -/
def replicaIndex (lib : Library) (ctx : Context) (t : Table) : Except Exn Int :=
  if isEmpty ctx.fileModifiedParameters then .ok (-1)
  else match indexOf lib ctx.key ctx.replicaId t with
    | .error e => .error e
    | .ok i => .ok i

def passed (ctx : Context) : Json := if isEmpty ctx.fileModifiedParameters then .null else ctx.fileModifiedParameters

def toCatalog (lib : Library) (ctx : Context) (finalize : Finalize ctx.key) (t : Table) :
    Except Int (Json × Int) × Table :=
  match replicaIndex lib ctx t with
  | .error e => rethrown (.error e,t)
  | .ok index => rethrown (publishToCatalogImpl lib finalize index (passed ctx) ctx.privileged ctx.bytesWritten t)

def finalizeCall (lib : Library) (ctx : Context) (t : Table) : Option (Input × Table) :=
  match replicaIndex lib ctx t with
  | .error _ => none
  | .ok index =>
    match prepare ctx.key index (passed ctx) ctx.privileged ctx.bytesWritten t with
    | .error _ => none
    | .ok (target,input) => if lib.valid input then some (input,erasedFor ctx.key (passed ctx) target t) else none

def Annotated (lib : Library) (ctx : Context) (t : Table) (entry : Entry) : Prop :=
  isEmpty ctx.fileModifiedParameters = true ∨ ∃ index r, indexOf lib ctx.key ctx.replicaId t = .ok index ∧
    entry.replicas[index]? = some r ∧ r.fileModified = some ctx.fileModifiedParameters

theorem passedEmpty (ctx) : isEmpty (passed ctx) = isEmpty ctx.fileModifiedParameters := by
  unfold passed
  split
  · rename_i none
    rw [none]
    rfl
  · rfl

theorem passedSome {ctx} (some : isEmpty ctx.fileModifiedParameters = false) :
    passed ctx = ctx.fileModifiedParameters := by
  unfold passed
  rw [some]
  rfl

theorem annotatedSame {rs : List Replica} {i params r} (there : rs[i]? = some r) :
    rs.modify i (Replica.annotated params) = rs ↔ r.fileModified = some params := by
  constructor
  · intro same
    have here := congrArg (fun l => l[i]?) same
    simp only [getElem?_modify,there] at here
    exact (congrArg Replica.fileModified (Option.some.inj here)).symm
  · intro carried
    apply ext_getElem?
    intro j
    rw [getElem?_modify]
    by_cases here : i = j
    · subst here
      rw [there]
      simp only [Replica.annotated,← carried]
      rfl
    · simp [here]

theorem prepared {key index} {params privileged bytes t entry target input}
    (there : t key = some entry) (ready : prepare key index params privileged bytes t = .ok (target,input)) :
    input.triggerFileModified = !isEmpty params ∧
    ((isEmpty params = true ∧ target = entry) ∨
      (isEmpty params = false ∧ 0 ≤ index ∧ index.toNat < entry.replicas.length ∧
      target = { entry with replicas := entry.replicas.modify index.toNat (Replica.annotated params) })) := by
  unfold prepare at ready
  rw [there] at ready
  dsimp only at ready
  cases none : isEmpty params with
  | true =>
    rw [none] at ready
    cases ready
    exact ⟨rfl,.inl ⟨rfl,rfl⟩⟩
  | false =>
    rw [none] at ready
    unfold annotate at ready
    by_cases inside : 0 ≤ index ∧ index.toNat < entry.replicas.length
    · rw [if_pos inside] at ready
      cases ready
      exact ⟨rfl,.inr ⟨rfl,inside.1,inside.2,rfl⟩⟩
    · rw [if_neg inside] at ready
      cases ready

theorem failedTable {lib} {ctx finalize t input before}
    (called : finalizeCall lib ctx t = some (input,before)) (negative : (finalize.run input before).code < 0) :
    ∃ index target, replicaIndex lib ctx t = .ok index ∧
      prepare ctx.key index (passed ctx) ctx.privileged ctx.bytesWritten t = .ok (target,input) ∧
      before = erasedFor ctx.key (passed ctx) target t ∧
      (toCatalog lib ctx finalize t).2 = if isEmpty (passed ctx) = false
        then update (finalize.run input before).table ctx.key (some target) else (finalize.run input before).table := by
  unfold finalizeCall at called
  unfold toCatalog
  split at called
  · cases called
  rename_i index found
  split at called
  · cases called
  rename_i target _ ready
  split at called
  · rename_i valid
    cases called
    refine ⟨index,target,found,ready,rfl,?_⟩
    have left : (publishToCatalogImpl lib finalize index (passed ctx) ctx.privileged ctx.bytesWritten t).2 =
        if isEmpty (passed ctx) = false then update (finalize.run input (erasedFor ctx.key (passed ctx) target t)).table
          ctx.key (some target) else (finalize.run input (erasedFor ctx.key (passed ctx) target t)).table := by
      unfold publishToCatalogImpl
      rw [ready]
      dsimp only
      rw [valid,if_neg (by simp)]
      simp only [negative,true_and]
      split <;> rfl
    rw [← left]
    cases publishToCatalogImpl lib finalize index (passed ctx) ctx.privileged ctx.bytesWritten t with
    | mk result _ => cases result <;> rfl
  · cases called

-- With nothing to annotate the entry is not erased, and finalize leaves the table alone.
theorem quietTable {key} {finalize : Finalize key} {t params entry input} (there : t key = some entry)
    (none : isEmpty params = true) (silent : input.triggerFileModified = false) :
    (finalize.run input (erasedFor key params entry t)).table = t := by
  have kept : erasedFor key params entry t = t := by
    unfold erasedFor
    rw [if_pos none,← there]
    exact update_eq_self key t
  rw [kept]
  exact finalize.quiet input t silent

-- Parameters that are not empty name the replica.
theorem indexLocated {lib ctx t index} (given : isEmpty ctx.fileModifiedParameters = false)
    (found : replicaIndex lib ctx t = .ok index) :
    ∃ i, indexOf lib ctx.key ctx.replicaId t = .ok i ∧ i = index := by
  unfold replicaIndex at found
  rw [given] at found
  cases located : indexOf lib ctx.key ctx.replicaId t with
  | error e =>
    rw [located] at found
    cases found
  | ok i =>
    rw [located] at found
    exact ⟨i,rfl,Except.ok.inj found⟩

theorem publishRestoredExactly (lib : Library) (ctx : Context) (finalize : Finalize ctx.key) (t : Table) (entry : Entry)
    (input : Input) (before : Table) (there : t ctx.key = some entry)
    (called : finalizeCall lib ctx t = some (input,before))
    (negative : (finalize.run input before).code < 0) :
    ((toCatalog lib ctx finalize t).2 ctx.key = some entry ↔ Annotated lib ctx t entry) ∧
    ∀ other, other ≠ ctx.key → (toCatalog lib ctx finalize t).2 other = t other := by
  obtain ⟨index,target,found,ready,rfl,left⟩ := failedTable called negative
  obtain ⟨trigger,shape⟩ := prepared there ready
  rcases shape with ⟨none,rfl⟩ | ⟨some,_,inside,rfl⟩
  · have all : (toCatalog lib ctx finalize t).2 = t := by
      rw [left,if_neg (by rw [none]; decide)]
      exact quietTable there none (by rw [trigger,none]; rfl)
    rw [all]
    exact ⟨iff_of_true there (.inl (by rw [← passedEmpty]; exact none)),fun _ _ => rfl⟩
  · have given := (passedEmpty ctx).symm.trans some
    rw [left,if_pos some]
    constructor
    · obtain ⟨i,located,rfl⟩ := indexLocated given found
      obtain ⟨r,here⟩ : ∃ r, entry.replicas[i]? = .some r := ⟨_,getElem?_eq_getElem inside⟩
      have same := @annotatedSame entry.replicas i (passed ctx) r here
      rw [passedSome given] at same
      rw [update_self,Option.some.injEq,Int.toNat_natCast,passedSome given]
      constructor
      · intro eq
        exact .inr ⟨i,r,located,here,same.mp (congrArg Entry.replicas eq)⟩
      rintro (empty | ⟨j,_,located',here',carried⟩)
      · rw [given] at empty
        cases empty
      rw [located] at located'
      cases located'
      rw [here] at here'
      cases here'
      rw [same.mpr carried]
    · intro other apart
      rw [update_of_ne apart,finalize.apart input _ other apart]
      unfold erasedFor
      rw [if_neg (by rw [some]; decide),update_of_ne apart,update_of_ne apart]

/-! Without the annotations this is the table of ReplicaStateTable: a replica is found in the same
place, and a failed publication leaves the states of all replicas as they were. -/
def Entry.plain (entry : Entry) : ReplicaStateTable.Entry := ⟨entry.logicalPath,entry.replicas.map (·.states)⟩
def Table.plain (t : Table) : ReplicaStateTable.Table := fun key => (t key).map Entry.plain

def thrown : Exn → ReplicaStateTable.Thrown
  | .irods code => .irods code.value
  | _ => .standard

theorem searchPlain (wanted) (rs : List Replica) : ∀ i,
    (∃ j r, indexFrom DATA_REPL_NUM lexicalCastInt wanted i rs = .ok j ∧
      ReplicaStateTable.search wanted i (rs.map (·.states)) = .ok (some (j,r))) ∨
    (indexFrom DATA_REPL_NUM lexicalCastInt wanted i rs = .error (.irods KEY_NOT_FOUND) ∧
      ReplicaStateTable.search wanted i (rs.map (·.states)) = .ok none) ∨
    ∃ e, indexFrom DATA_REPL_NUM lexicalCastInt wanted i rs = .error e ∧ thrown e = .standard ∧
      ReplicaStateTable.search wanted i (rs.map (·.states)) = .error .standard := by
  induction rs with
  | nil => exact fun _ => .inr (.inl ⟨rfl,rfl⟩)
  | cons r rest ih =>
    intro i
    rw [map_cons,ReplicaStateTable.search,indexFrom,ReplicaStateTable.castNumber,ReplicaStateTable.property]
    cases r.states.before DATA_REPL_NUM with
    | none => exact .inr (.inr ⟨_,rfl,rfl,rfl⟩)
    | some value =>
      simp only [bind,Except.bind]
      cases lexicalCastInt value with
      | none => exact .inr (.inr ⟨_,rfl,rfl,rfl⟩)
      | some n =>
        dsimp only
        by_cases here : wanted = n
        · rw [if_pos here,if_pos here]
          exact .inl ⟨_,_,rfl,rfl⟩
        · rw [if_neg here,if_neg here]
          exact ih (i+1)

theorem indexPlain (lib key number t) :
    ReplicaStateTable.indexOf key number (Table.plain t) = (indexOf lib key (.number number) t).mapError thrown := by
  unfold ReplicaStateTable.indexOf indexOf Table.plain
  cases t key with
  | none => rfl
  | some entry =>
    dsimp only [Option.map_some,Entry.plain]
    rcases searchPlain number entry.replicas 0 with ⟨_,_,found,same⟩ | ⟨found,same⟩ | ⟨_,found,kind,same⟩
    · rw [found,same]
      rfl
    · rw [found,same]
      rfl
    · rw [found,same]
      exact congrArg Except.error kind.symm

theorem annotatedPlain (entry : Entry) (i params) :
    ({ entry with replicas := entry.replicas.modify i (Replica.annotated params) } : Entry).plain = entry.plain := by
  have states : (entry.replicas.modify i (Replica.annotated params)).map (·.states) =
    entry.replicas.map (·.states) := by
    apply ext_getElem?
    intro j
    rw [getElem?_map,getElem?_map,getElem?_modify]
    split <;> cases entry.replicas[j]? <;> rfl
  unfold Entry.plain
  rw [states]

theorem statesRestored {lib ctx finalize t entry input before} (there : t ctx.key = some entry)
    (called : finalizeCall lib ctx t = some (input,before)) (negative : (finalize.run input before).code < 0) :
    Table.plain (toCatalog lib ctx finalize t).2 ctx.key = Table.plain t ctx.key := by
  obtain ⟨index,target,-,ready,rfl,left⟩ := failedTable called negative
  obtain ⟨trigger,shape⟩ := prepared there ready
  unfold Table.plain
  rcases shape with ⟨none,rfl⟩ | ⟨some,-,-,rfl⟩
  · rw [left,if_neg (by rw [none]; decide),quietTable there none (by rw [trigger,none]; rfl)]
  · rw [left,if_pos some,update_self,there]
    exact congrArg Option.some (annotatedPlain ..)

def failing (key : Int) : Finalize key where
  run _ t := ⟨-818000,lit "\x7b\x7d",t⟩
  quiet _ _ _ := rfl
  apart _ _ _ _ := rfl

def plain : Library := ⟨fun _ => some (.object []),fun _ => .error .runtimeError,fun _ => true⟩

def statesOf (number : Text) : JsonReplica :=
  ⟨fun name => if name = DATA_REPL_NUM then some number else none,fun _ => none⟩

def modified : Json := .object [(lit "openType",.string (lit "2"))]
def oneReplica (fileModified : Option Json) : Entry := ⟨lit "/z/a",[⟨statesOf (lit "0"),fileModified⟩]⟩
def table (entry : Entry) : Table := fun key => if key = 7 then some entry else none
def context (params : Json) : Context := ⟨7,.number 0,params,false,0⟩

-- The replica is there with the annotation it gets, by an earlier publication that failed.
theorem annotatedRestored :
    (toCatalog plain (context modified) (failing 7) (table (oneReplica (some modified)))).2 7 =
      some (oneReplica (some modified)) ∧
    ∀ other, other ≠ 7 →
    (toCatalog plain (context modified) (failing 7) (table (oneReplica (some modified)))).2 other = none := by
  have exactly := publishRestoredExactly plain (context modified) (failing 7) (table (oneReplica (some modified)))
    (oneReplica (some modified)) _ _ rfl rfl (by decide)
  have annotated :
    Annotated plain (context modified) (table (oneReplica (some modified))) (oneReplica (some modified)) :=
    .inr ⟨0,_,by decide +kernel,rfl,rfl⟩
  exact ⟨exactly.1.mpr annotated,fun other apart => (exactly.2 other apart).trans (if_neg apart)⟩

def annotations (t : Table) : List Bool :=
  ((t 7).map (fun e => e.replicas.map (fun r => r.fileModified.isSome))).getD []

theorem annotationStays :
    annotations (table (oneReplica none)) = [false] ∧
    (finalizeCall plain (context modified) (table (oneReplica none))).isSome = true ∧
    (∀ input t, ((failing 7).run input t).code < 0) ∧
    annotations (toCatalog plain (context modified) (failing 7) (table (oneReplica none))).2 = [true] ∧
    (toCatalog plain (context modified) (failing 7) (table (oneReplica none))).2 7 ≠ some (oneReplica none) := by
  have stays : annotations (toCatalog plain (context modified) (failing 7) (table (oneReplica none))).2 = [true] := by
    decide +kernel
  refine ⟨rfl,by decide +kernel,fun _ _ => (by decide : (-818000 : Int) < 0),stays,fun same => ?_⟩
  rw [annotations,same] at stays
  exact absurd stays (by decide)

end Irods.PublishCatalog
