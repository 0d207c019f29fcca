import Irods.CText

/-! The replica access table of replica_access_table.cpp. Every operation holds the mutex from
its first read to its last write, so the operations of all agents form one sequence. -/
namespace Irods.ReplicaAccessTable
open CText List

abbrev Token := Text

structure AccessEntry where
  dataId : UInt64
  replicaNumber : UInt32
  agentPids : List Int
  deriving DecidableEq, Repr

structure RestorableEntry where
  token : Token
  dataId : UInt64
  replicaNumber : UInt32
  pid : Int
  deriving DecidableEq, Repr

abbrev Map := List (Token × AccessEntry)

inductive Error where
  | entryAlreadyExists
  | invalidToken
  | invalidDataIdOrReplicaNumber
  deriving DecidableEq, Repr

def AccessEntry.names (v : AccessEntry) (dataId : UInt64) (replicaNumber : UInt32) : Prop :=
  v.dataId = dataId ∧ v.replicaNumber = replicaNumber

instance (v : AccessEntry) (d r) : Decidable (v.names d r) := by unfold AccessEntry.names; infer_instance

def keys (m : Map) : List Token := m.map Prod.fst

/- The draws of the generator, up to one that is not a key. -/
def generateReplicaToken (m : Map) (draws : List Token) : Option Token := draws.find? (· ∉ keys m)

theorem generatedFresh {m draws uuid} (found : generateReplicaToken m draws = some uuid) : uuid ∉ keys m := by
  have new := List.find?_some found
  exact of_decide_eq_true new

def update (m : Map) (token : Token) (f : AccessEntry → AccessEntry) : Map :=
  m.map (fun e => if e.1 = token then (e.1,f e.2) else e)

def eraseKey (m : Map) (token : Token) : Map := m.filter (fun e => e.1 ≠ token)
def pushBack (pid : Int) (v : AccessEntry) : AccessEntry := { v with agentPids := v.agentPids ++ [pid] }

def createNewEntry (m : Map) (draws : List Token) (dataId : UInt64) (replicaNumber : UInt32) (pid : Int) :
    Except Error Map :=
  if ∃ e ∈ m, e.2.names dataId replicaNumber then .error .entryAlreadyExists
  else
    match generateReplicaToken m draws with
    | none => .ok m
    | some uuid => .ok (m ++ [(uuid,⟨dataId,replicaNumber,[pid]⟩)])

def appendPid (m : Map) (token : Token) (dataId : UInt64) (replicaNumber : UInt32) (pid : Int) : Except Error Map :=
  match m.lookup token with
  | none => .error .invalidToken
  | some v =>
    if v.names dataId replicaNumber then .ok (update m token (pushBack pid)) else .error .invalidDataIdOrReplicaNumber

def contains (m : Map) (token : Token) (dataId : UInt64) (replicaNumber : UInt32) : Bool :=
  match m.lookup token with
  | some v => v.names dataId replicaNumber
  | none => false

/- The first occurrence of the pid goes, and the entry with its last pid. -/
def erasePidOf (m : Map) (token : Token) (pid : Int) : Option RestorableEntry × Map :=
  match m.lookup token with
  | none => (none,m)
  | some v =>
    if pid ∈ v.agentPids then
      (some ⟨token,v.dataId,v.replicaNumber,pid⟩,
        if v.agentPids.erase pid = [] then eraseKey m token
        else update m token (fun v => { v with agentPids := v.agentPids.erase pid }))
    else (none,m)

/- Every occurrence of the pid goes, and every entry that has no other. -/
def erasePid (m : Map) (pid : Int) : Map :=
  (m.map (fun e => (e.1,{ e.2 with agentPids := e.2.agentPids.filter (· ≠ pid) }))).filter (fun e => e.2.agentPids ≠ [])

def restore (m : Map) (entry : RestorableEntry) : Except Error Map :=
  match m.lookup entry.token with
  | some v =>
    if v.names entry.dataId entry.replicaNumber then .ok (update m entry.token (pushBack entry.pid))
    else .error .invalidDataIdOrReplicaNumber
  | none => .ok (m ++ [(entry.token,⟨entry.dataId,entry.replicaNumber,[entry.pid]⟩)])

inductive Operation where
  | createNewEntry (draws : List Token) (dataId : UInt64) (replicaNumber : UInt32) (pid : Int)
  | appendPid (token : Token) (dataId : UInt64) (replicaNumber : UInt32) (pid : Int)
  | erasePidOf (token : Token) (pid : Int)
  | erasePid (pid : Int)
  | restore (entry : RestorableEntry)
  deriving DecidableEq, Repr

/- The table, the entries that erase_pid has returned to some agent, and the tokens drawn so far. -/
structure World where
  table : Map
  returned : List RestorableEntry
  drawn : List Token
  deriving DecidableEq, Repr

def initial : World := ⟨[],[],[]⟩

/- An operation that throws has not changed the table. -/
def unlessThrown (m : Map) (r : Except Error Map) : Map := r.toOption.getD m

def step (w : World) : Operation → World
  | .createNewEntry draws dataId replicaNumber pid =>
    { w with
      table := unlessThrown w.table (createNewEntry w.table draws dataId replicaNumber pid),
      drawn := draws ++ w.drawn }
  | .appendPid token dataId replicaNumber pid =>
    { w with table := unlessThrown w.table (appendPid w.table token dataId replicaNumber pid) }
  | .erasePidOf token pid =>
    { w with
      table := (erasePidOf w.table token pid).2,
      returned := (erasePidOf w.table token pid).1.toList ++ w.returned }
  | .erasePid pid => { w with table := erasePid w.table pid }
  | .restore entry => { w with table := unlessThrown w.table (restore w.table entry) }

/- Tokens are drawn fresh, and only what erase_pid returned is restored. -/
def Allowed (w : World) : Operation → Prop
  | .createNewEntry draws _ _ _ => draws ≠ [] ∧ ∀ t ∈ draws, t ∉ w.drawn
  | .restore entry => entry ∈ w.returned
  | _ => True

def AllowedRun : World → List Operation → Prop
  | _,[] => True
  | w,op::ops => Allowed w op ∧ AllowedRun (step w op) ops

def worlds : World → List Operation → List World
  | w,[] => [w]
  | w,op::ops => w::worlds (step w op) ops

structure Sound (m : Map) : Prop where
  oneToken : ∀ e ∈ m, ∀ f ∈ m, e.2.names f.2.dataId f.2.replicaNumber → e.1 = f.1
  held : ∀ e ∈ m, e.2.agentPids ≠ []

/- A token that is gone comes back only while no other token holds its replica. -/
def Uncontested (m : Map) : Operation → Prop
  | .restore entry => entry.token ∉ keys m → ∀ e ∈ m, ¬ e.2.names entry.dataId entry.replicaNumber
  | _ => True

def UncontestedRun : World → List Operation → Prop
  | _,[] => True
  | w,op::ops => Uncontested w.table op ∧ UncontestedRun (step w op) ops

section operations
variable {m : Map}

theorem lookupKey {token v} (found : m.lookup token = some v) : (token,v) ∈ m := by
  obtain ⟨_,_,rfl,_⟩ := lookup_eq_some_iff.mp found
  exact mem_append_right _ mem_cons_self

theorem lookupNone {token} : m.lookup token = none ↔ token ∉ keys m := by
  rw [lookup_eq_none_iff]
  constructor
  · intro none mem
    obtain ⟨e,there,same⟩ := mem_map.mp mem
    exact bne_iff_ne.mp (none e there) same.symm
  · intro absent e there
    exact bne_iff_ne.mpr fun same => absent (same ▸ mem_map_of_mem there)

structure Follows (m n : Map) : Prop where
  replica : ∀ e ∈ n, ∃ f ∈ m, f.1 = e.1 ∧ f.2.names e.2.dataId e.2.replicaNumber
  held : ∀ e ∈ n, e.2.agentPids ≠ []

section
variable (sound : Sound m)
include sound

theorem followsSound {n} (follows : Follows m n) : Sound n where
  oneToken e there f here same := by
    obtain ⟨e',mem,sameE,dataE,numberE⟩ := follows.replica e there
    obtain ⟨f',mem',sameF,dataF,numberF⟩ := follows.replica f here
    rw [← sameE,← sameF]
    refine sound.oneToken e' mem f' mem' ⟨?_,?_⟩
    · rw [dataE,dataF,same.1]
    · rw [numberE,numberF,same.2]
  held := follows.held

theorem followsUpdate {token f} (kept : ∀ v, (f v).dataId = v.dataId ∧ (f v).replicaNumber = v.replicaNumber)
    (held : ∀ v, (token,v) ∈ m → (f v).agentPids ≠ []) :
    Follows m (update m token f) where
  replica e there := by
    obtain ⟨o,mem,rfl⟩ := mem_map.mp there
    refine ⟨o,mem,?_⟩
    split
    · exact ⟨rfl,(kept o.2).1.symm,(kept o.2).2.symm⟩
    · exact ⟨rfl,rfl,rfl⟩
  held e there := by
    obtain ⟨o,mem,rfl⟩ := mem_map.mp there
    split
    · rename_i same
      exact held o.2 (same ▸ mem)
    · exact sound.held o mem

theorem followsPush (token pid) : Follows m (update m token (pushBack pid)) :=
  followsUpdate sound (fun _ => ⟨rfl,rfl⟩) (fun _ _ => append_ne_nil_of_right_ne_nil _ (cons_ne_nil _ _))

theorem followsFilter (p) : Follows m (m.filter p) where
  replica e there := ⟨e,mem_of_mem_filter there,rfl,rfl,rfl⟩
  held e there := sound.held e (mem_of_mem_filter there)

theorem appendSound (token dataId replicaNumber pid) :
    Sound (unlessThrown m (appendPid m token dataId replicaNumber pid)) := by
  unfold appendPid
  split
  · exact sound
  split
  · exact followsSound sound (followsPush sound token pid)
  · exact sound

theorem erasePidSound (pid) : Sound (erasePid m pid) := by
  refine followsSound sound ⟨?_,?_⟩
  · intro e there
    obtain ⟨o,mem,rfl⟩ := mem_map.mp (mem_of_mem_filter there)
    exact ⟨o,mem,rfl,rfl,rfl⟩
  · intro e there
    exact of_decide_eq_true (mem_filter.mp there).2

end

/- The map has one value for a key. -/
def Keyed (m : Map) : Prop := (keys m).Nodup

theorem keyedLookup (keyed : Keyed m) {token v} (mem : (token,v) ∈ m) : m.lookup token = some v := by
  obtain ⟨front,back,rfl⟩ := append_of_mem mem
  refine lookup_eq_some_iff.mpr ⟨front,back,rfl,?_⟩
  intro p inFront
  refine bne_iff_ne.mpr fun same => ?_
  unfold Keyed keys at keyed
  rw [map_append] at keyed
  exact (nodup_append.mp keyed).2.2 _ (mem_map_of_mem inFront) _ mem_cons_self same.symm

theorem erasePidOfSound (sound : Sound m) (keyed : Keyed m) (token pid) : Sound (erasePidOf m token pid).2 := by
  unfold erasePidOf
  split
  · exact sound
  rename_i found
  split
  · dsimp only
    split
    · exact followsSound sound (followsFilter sound _)
    rename_i more
    refine followsSound sound (followsUpdate sound (fun _ => ⟨rfl,rfl⟩) ?_)
    intro u mem
    cases found.symm.trans (keyedLookup keyed mem)
    exact more
  · exact sound

theorem addedSound (sound : Sound m) {token} (absent : token ∉ keys m) (v) (held : v.agentPids ≠ []) :
    Sound (m ++ [(token,v)]) ↔ ∀ e ∈ m, ¬ e.2.names v.dataId v.replicaNumber := by
  constructor
  · intro both e there same
    have equal : e.1 = token :=
      both.oneToken e (mem_append_left _ there) (token,v) (mem_append_right _ mem_cons_self) same
    exact absent (equal ▸ mem_map_of_mem there)
  intro free
  refine ⟨?_,?_⟩
  · intro e there f here same
    rcases mem_append.mp there with old | new
    · rcases mem_append.mp here with old' | new'
      · exact sound.oneToken e old f old' same
      · cases mem_singleton.mp new'
        exact absurd same (free e old)
    · cases mem_singleton.mp new
      rcases mem_append.mp here with old' | new'
      · exact absurd ⟨same.1.symm,same.2.symm⟩ (free f old')
      · cases mem_singleton.mp new'
        rfl
  · intro e there
    rcases mem_append.mp there with old | new
    · exact sound.held e old
    · cases mem_singleton.mp new
      exact held

theorem createSound (sound : Sound m) (draws dataId replicaNumber pid) :
    Sound (unlessThrown m (createNewEntry m draws dataId replicaNumber pid)) := by
  unfold createNewEntry
  split
  · exact sound
  rename_i free
  split
  · exact sound
  · rename_i found
    exact (addedSound sound (generatedFresh found) _ (cons_ne_nil _ _)).mpr fun e there same => free ⟨e,there,same⟩

theorem restoreSound (sound : Sound m) (entry) :
    Sound (unlessThrown m (restore m entry)) ↔ Uncontested m (.restore entry) := by
  unfold restore
  cases found : m.lookup entry.token with
  | some v =>
    have there : entry.token ∈ keys m := mem_map_of_mem (lookupKey found)
    refine ⟨fun _ absent => absurd there absent,fun _ => ?_⟩
    dsimp only
    split
    · exact followsSound sound (followsPush sound entry.token entry.pid)
    · exact sound
  | none =>
    have absent := lookupNone.mp found
    have exactly := addedSound sound absent ⟨entry.dataId,entry.replicaNumber,[entry.pid]⟩ (cons_ne_nil _ _)
    exact ⟨fun after _ => exactly.mp after,fun free => exactly.mpr (free absent)⟩

end operations

section keyed
variable {m : Map}

theorem updateKeys (token f) : keys (update m token f) = keys m := by
  unfold keys update
  rw [map_map]
  refine map_congr_left fun e _ => ?_
  dsimp only [Function.comp_apply]
  split <;> rfl

theorem filterKeyed (keyed : Keyed m) (p) : Keyed (m.filter p) :=
  keyed.sublist (filter_sublist.map Prod.fst)

theorem addedKeyed (keyed : Keyed m) {token} (absent : token ∉ keys m) (v) : Keyed (m ++ [(token,v)]) := by
  unfold Keyed keys at *
  rw [map_append]
  refine nodup_append.mpr ⟨keyed,pairwise_singleton _ _,?_⟩
  intro a old b new same
  have last : b = token := mem_singleton.mp new
  exact absent (last ▸ same ▸ old)

theorem stepKeyed {w} (keyed : Keyed w.table) (op) : Keyed (step w op).table := by
  have pushed : ∀ token pid, Keyed (update w.table token (pushBack pid)) := fun token pid => by
    unfold Keyed
    rw [updateKeys]
    exact keyed
  cases op with
  | createNewEntry _ dataId replicaNumber pid =>
    show Keyed (unlessThrown _ (createNewEntry _ _ _ _ _))
    unfold createNewEntry
    split
    · exact keyed
    split
    · exact keyed
    · rename_i found
      exact addedKeyed keyed (generatedFresh found) _
  | appendPid token _ _ pid =>
    show Keyed (unlessThrown _ (appendPid _ _ _ _ _))
    unfold appendPid
    split
    · exact keyed
    split
    · exact pushed token pid
    · exact keyed
  | erasePidOf _ pid =>
    show Keyed (erasePidOf _ _ _).2
    unfold erasePidOf
    split
    · exact keyed
    split
    · split
      · exact filterKeyed keyed _
      unfold Keyed
      rw [updateKeys]
      exact keyed
    · exact keyed
  | erasePid pid =>
    have mapped : Keyed (w.table.map fun e => (e.1,{ e.2 with agentPids := e.2.agentPids.filter (· ≠ pid) })) := by
      unfold Keyed keys at *
      rw [map_map]
      exact keyed
    exact filterKeyed mapped _
  | restore _ =>
    show Keyed (unlessThrown _ (restore _ _))
    unfold restore
    split
    · split
      · exact pushed _ _
      · exact keyed
    · rename_i absent
      exact addedKeyed keyed (lookupNone.mp absent) _

end keyed

theorem stepSound {w} (keyed : Keyed w.table) (sound : Sound w.table) (op) :
    Sound (step w op).table ↔ Uncontested w.table op := by
  cases op with
  | createNewEntry _ dataId replicaNumber pid => exact ⟨fun _ => trivial,fun _ => createSound sound _ _ _ _⟩
  | appendPid token _ _ pid => exact ⟨fun _ => trivial,fun _ => appendSound sound _ _ _ _⟩
  | erasePidOf _ pid => exact ⟨fun _ => trivial,fun _ => erasePidOfSound sound keyed _ _⟩
  | erasePid pid => exact ⟨fun _ => trivial,fun _ => erasePidSound sound pid⟩
  | restore entry => exact restoreSound sound entry

theorem worldsHead (w ops) : w ∈ worlds w ops := by
  cases ops with
  | nil => exact mem_singleton_self w
  | cons _ _ => exact mem_cons_self

theorem runSound {w} (keyed : Keyed w.table) (sound : Sound w.table) (ops) :
    (∀ v ∈ worlds w ops, Sound v.table) ↔ UncontestedRun w ops := by
  induction ops generalizing w with
  | nil =>
    refine ⟨fun _ => trivial,fun _ v mem => ?_⟩
    cases mem_singleton.mp mem
    exact sound
  | cons op ops ih =>
    have one := stepSound keyed sound op
    constructor
    · intro all
      have next := all (step w op) (mem_cons_of_mem _ (worldsHead _ ops))
      exact ⟨one.mp next,(ih (stepKeyed keyed op) next).mp (forall_mem_cons.mp all).2⟩
    rintro ⟨here,rest⟩ v mem
    have next := one.mpr here
    rcases mem_cons.mp mem with rfl | later
    · exact sound
    · exact (ih (stepKeyed keyed op) next).mpr rest v later

theorem soundExactly (ops : List Operation) : (∀ w ∈ worlds initial ops, Sound w.table) ↔
    UncontestedRun initial ops := by
  have keyed : Keyed initial.table := nodup_nil
  have sound : Sound initial.table := ⟨fun _ none => absurd none not_mem_nil,fun _ none => absurd none not_mem_nil⟩
  exact runSound keyed sound ops

def contestedRun : List Operation :=
  [.createNewEntry [lit "a"] 1 0 100,.erasePidOf (lit "a") 100,.createNewEntry [lit "b"] 1 0 200,
    .restore ⟨lit "a",1,0,100⟩]

theorem twoTokensOneReplica : AllowedRun initial contestedRun ∧
    ∃ w ∈ worlds initial contestedRun, contains w.table (lit "a") 1 0 = true ∧ contains w.table (lit "b") 1 0 = true ∧
    ¬ Sound w.table := by
  refine ⟨⟨⟨nofun,?_⟩,trivial,⟨nofun,?_⟩,?_,trivial⟩,contestedRun.foldl step initial,?_,?_,?_,?_⟩
  · decide
  · decide
  · exact mem_cons_self
  · exact mem_of_mem_getLast? rfl
  · rfl
  · rfl
  · intro sound
    have same := sound.oneToken (lit "b",⟨1,0,[200]⟩) mem_cons_self (lit "a",
        ⟨1,0,[100]⟩) (mem_cons_of_mem _ mem_cons_self) ⟨rfl,rfl⟩
    exact absurd same (by decide)

end Irods.ReplicaAccessTable
