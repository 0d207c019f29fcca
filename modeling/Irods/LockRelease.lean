import Irods.DelaySteps

/-! One run of execute_rule from the lock on, by what its own steps answer; the calls of the catalog succeed. Nothing
but the settlement at the end of run_rule_exec gives the lock back. -/
namespace Irods.DelayServer
open CText RepeatTime List

def SYS_OPEN_REI_FILE_ERR : Int := -42000
def SYS_INTERNAL_ERR : Int := -154000
def UNIX_FILE_READ_ERR : Int := -512000

inductive ReiFile where
  | missing
  | unopened
  | short
  | whole
  deriving DecidableEq

/- The client user of a context can be null, in the JSON text and in the packed file. -/
structure Answers where
  reiFile : Text → ReiFile
  readsContext : Text → Bool
  contextClient : Text → Bool
  packed : Int
  unpacked : Int
  unpackedClient : Bool
  sessionVariables : Bool
  json : Option Text
  status : Int
  current : Int

/- An exception, a code that is returned, or a read through a null pointer: a buffer that was never set, or the client
user the connection takes as its proxy user. -/
inductive Stop where
  | thrown (code : Option Int)
  | returned (code : Int)
  | nullBuffer
  | nullClient

section Running
variable (convertDateFormat : Text → Int → Text) (s : Answers)

def readReiFile (row : Row) : Except Stop Bool :=
  let path := row.cells .reiFilePath
  if row.cells .exeContext = [] ∧ path ≠ lit "EMPTY_REI_PATH" then
    match s.reiFile path with
    | .missing => .ok false
    | .unopened => .error (.thrown (some SYS_OPEN_REI_FILE_ERR))
    | .short => .error (.thrown (some UNIX_FILE_READ_ERR))
    | .whole => .ok true
  else .ok false

def inflate (exeContext : Text) (buffer : Bool) : Except Stop Bool :=
  if exeContext ≠ [] then
    if s.readsContext exeContext = false then .error (.thrown none)
    else if s.packed < 0 then .error (.returned SYS_INTERNAL_ERR)
    else if s.contextClient exeContext = false then .error .nullClient
    else .ok false
  else if buffer = false then .error .nullBuffer
  else if s.unpacked < 0 then .error (.returned s.unpacked)
  else if s.unpackedClient = false then .error .nullClient
  else .ok (!s.sessionVariables)

def settle (inp : RuleExecSubmitInp) (c : Catalog) : Catalog :=
  match settlement convertDateFormat inp s.current s.status with
  | .nothing => c
  | .delete _ => (dbDelRuleExecOp inp.ruleExecId c).2
  | .update params => (dbModRuleExecOp inp.ruleExecId params c).2

def runRuleExec (row : Row) (c : Catalog) : Except Stop Catalog := do
  let inp := fillRuleExecSubmitInp row
  let buffer ← readReiFile s row
  let migrates ← inflate s inp.exeContext buffer
  if migrates then
    match s.json with
    | none => .error (.thrown none)
    | some context => .ok (settle convertDateFormat s inp (dbModRuleExecOp row.id (migrationParams context) c).2)
  else .ok (settle convertDateFormat s inp c)

/- Every exception and code is logged only. -/
def executeLocked (id : Nat) (c : Catalog) : Catalog :=
  match c.find? (·.id = id) with
  | none => c
  | some row =>
    match runRuleExec convertDateFormat s row c with
    | .error _ => c
    | .ok c' => c'

def Released (c : Catalog) (id : Nat) : Prop := ∀ row ∈ c, row.id = id → row.free

def Inflates (row : Row) : Prop :=
  if row.cells .exeContext ≠ [] then
    s.readsContext (row.cells .exeContext) = true ∧ 0 ≤ s.packed ∧ s.contextClient (row.cells .exeContext) = true
  else row.cells .reiFilePath ≠ lit "EMPTY_REI_PATH" ∧ s.reiFile (row.cells .reiFilePath) = .whole ∧ 0 ≤ s.unpacked ∧
    s.unpackedClient = true ∧ (s.sessionVariables = false → s.json.isSome = true)

end Running

variable {convertDateFormat : Text → Int → Text} {s : Answers}

theorem repeatClears (inp now next frequency cells) (row : Row)
    (changed : row.cells = (repeatParams inp now next frequency).apply cells) :
    row.free := by
  unfold Row.free
  rw [changed]
  unfold Params.apply repeatParams repairedPriority
  split <;> exact ⟨rfl,rfl,rfl⟩

theorem settlesSomehow (inp) : settlement convertDateFormat inp s.current s.status ≠ .nothing := by
  have known := repeatKnown convertDateFormat s.current inp.exeFrequency
  unfold settlement updateEntryForRepeat
  simp only [mem_cons,not_mem_nil,or_false] at known
  rcases known with known | known | known | known | known <;> simp only [known] <;> split_ifs <;> simp_all

theorem settles (inp c) : Released (settle convertDateFormat s inp c) inp.ruleExecId := by
  unfold settle
  split
  · next nothing => exact absurd nothing (settlesSomehow inp)
  · exact fun row mem this => absurd this (deleteGone _ _ row mem)
  next params update =>
  obtain ⟨next,frequency,rfl⟩ := repeatUpdate update
  obtain ⟨valid,wrote⟩ := repeatLookups inp s.current next frequency
  rw [modDone valid wrote]
  intro row mem this
  obtain ⟨_,-,same,kept | changed⟩ := rewriteMem mem
  · exact absurd (same.symm.trans this) (of_decide_eq_false kept.1)
  · exact repeatClears _ _ _ _ _ row (by rw [changed.2])

theorem runReleases {row c c'} (run : runRuleExec convertDateFormat s row c = .ok c') : Released c' row.id := by
  unfold runRuleExec at run
  cases buffer : readReiFile s row with
  | error e => simp [buffer,bind,Except.bind] at run
  | ok b =>
    cases inflated : inflate s (fillRuleExecSubmitInp row).exeContext b with
    | error e => simp [buffer,inflated,bind,Except.bind] at run
    | ok _ =>
      simp only [buffer,inflated,bind,Except.bind] at run
      split at run
      · split at run
        · cases run
        · cases run
          exact settles _ _
      · cases run
        exact settles _ _

theorem inflatesExactly (convertDateFormat row c) : (∃ c', runRuleExec convertDateFormat s row c = .ok c') ↔
    Inflates s row := by
  unfold runRuleExec readReiFile inflate Inflates fillRuleExecSubmitInp
  by_cases context : row.cells .exeContext = []
  · simp only [context]
    by_cases path : row.cells .reiFilePath = lit "EMPTY_REI_PATH"
    · simp [path,bind,Except.bind]
    · cases file : s.reiFile (row.cells .reiFilePath) <;> by_cases un : s.unpacked < 0 <;>
        cases s.unpackedClient <;> cases s.sessionVariables <;> cases s.json <;>
        simp [path,un,bind,Except.bind,← not_lt]
  · cases reads : s.readsContext (row.cells .exeContext) <;> by_cases packs : s.packed < 0 <;>
      cases client : s.contextClient (row.cells .exeContext) <;>
      simp [context,reads,packs,client,bind,Except.bind,← not_lt]

theorem lockReleasedExactly {id host pid now c row} (taken : ¬(dbDelayRuleLock id host pid now c).1 < 0)
    (found : (dbDelayRuleLock id host pid now c).2.find? (·.id = id) = some row) :
    Released (executeLocked convertDateFormat s id (dbDelayRuleLock id host pid now c).2) id ↔ Inflates s row := by
  have locked := (lockTaken taken).2
  generalize (dbDelayRuleLock id host pid now c).2 = l at found locked ⊢
  have this : row.id = id := by simpa using List.find?_some found
  have member := mem_of_find?_eq_some found
  rw [← inflatesExactly convertDateFormat row l]
  simp only [executeLocked,found]
  cases run : runRuleExec convertDateFormat s row l with
  | error e => simpa using fun released => locked row member this (released row member this)
  | ok _ => simpa [← this] using runReleases run

def hourlySteps (reads : Bool) : Answers :=
  ⟨fun _ => .whole,fun _ => reads,fun _ => true,0,0,true,true,none,0,1700000000⟩

def lockedHourly : Catalog := (dbDelayRuleLock 1 (lit "h") 7 1700000000 [hourlyRule]).2

theorem malformedContextStaysLocked :
    ¬Released (executeLocked (fun s _ => s) (hourlySteps false) 1 lockedHourly) 1 := by
  unfold Released
  decide

theorem hourlyReleased : Released (executeLocked (fun s _ => s) (hourlySteps true) 1 lockedHourly) 1 :=
  (@lockReleasedExactly _ _ 1 (lit "h") 7 1700000000 [hourlyRule] _ (by decide) rfl).2 (by unfold Inflates; decide)

end Irods.DelayServer
