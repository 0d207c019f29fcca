import Irods.RepeatTime

/-! irodsDelayServer.cpp: any number of delay servers that look for due rules in R_RULE_EXEC, put them
into their queues and run them on their threads. Each SQL statement is one step, and so is each use of
a queue. A call over the network may also be lost, before it has its effect or after. -/
namespace Irods.DelayServer
open CText RepeatTime
open ReplicaStateTable (decimalText stoi)

def SYS_INVALID_INPUT_PARAM : Int := -130000
def SYS_INTERNAL_NULL_INPUT_ERR : Int := -24000
def CAT_INVALID_ARGUMENT : Int := -816000
def CAT_SUCCESS_BUT_WITH_NO_INFO : Int := -819000
def CAT_NO_ROWS_UPDATED : Int := -863000
def NAME_LEN : Nat := 64

inductive Column where
  | ruleName
  | reiFilePath
  | userName
  | exeAddress
  | exeTime
  | exeFrequency
  | priority
  | estimatedExeTime
  | notificationAddr
  | lastExeTime
  | exeStatus
  | exeContext
  | lockHost
  | lockHostPid
  | lockTs
  deriving DecidableEq, Repr

abbrev Cells := Column → Text

structure Row where
  id : Nat
  cells : Cells

abbrev Catalog := List Row
def Row.free (row : Row) : Prop := row.cells .lockHost = [] ∧ row.cells .lockHostPid = [] ∧ row.cells .lockTs = []

instance (row : Row) : Decidable row.free := by unfold Row.free; infer_instance

def lockColumns : List Column := [.lockHost,.lockHostPid,.lockTs]

def textLe : Text → Text → Bool
  | [],_ => true
  | _::_,[] => false
  | a::x,b::y => if a = b then textLe x y else a.toNat < b.toNat

/- The first value of a keyword counts. -/
abbrev Params := List (Column × Text)
def Params.apply (params : Params) (cells : Cells) : Cells := fun col => (params.lookup col).getD (cells col)

def Catalog.rewrite (c : Catalog) (hit : Row → Bool) (params : Params) : Catalog :=
  c.map (fun row => if hit row then { row with cells := params.apply row.cells } else row)

def paddedTime (now : Int) : Text := List.replicate (11-(decimalText now).length) '0' ++ decimalText now

def lockParams (host : Text) (pid now : Int) : Params :=
  [(.lockHost,host),(.lockHostPid,decimalText pid),(.lockTs,paddedTime now)]

def dbDelayRuleLock (id : Nat) (host : Text) (pid now : Int) (c : Catalog) : Int × Catalog :=
  let hit (row : Row) : Bool := row.id = id ∧ row.free
  if pid = 0 then (SYS_INTERNAL_NULL_INPUT_ERR,c)
  else (if c.countP hit = 1 then 0 else CAT_NO_ROWS_UPDATED,c.rewrite hit (lockParams host pid now))

def validPriority (a : Text) : Bool :=
  match stoi a with
  | some p => 1 ≤ p ∧ p ≤ 9
  | none => false

def dbModRuleExecOp (id : Nat) (params : Params) (c : Catalog) : Int × Catalog :=
  if (params.lookup .priority).any (fun p => ¬ validPriority p) then (SYS_INVALID_INPUT_PARAM,c)
  else if params = [] then (CAT_INVALID_ARGUMENT,c)
  else (if c.any (·.id = id) then 0 else CAT_SUCCESS_BUT_WITH_NO_INFO,c.rewrite (·.id = id) params)

def dbDelRuleExecOp (id : Nat) (c : Catalog) : Int × Catalog :=
  (if c.any (·.id = id) then 0 else CAT_SUCCESS_BUT_WITH_NO_INFO,c.filter (·.id ≠ id))

structure RuleExecSubmitInp where
  ruleExecId : Nat
  exeFrequency : Text
  priority : Text
  exeContext : Text
  deriving DecidableEq, Repr

def fillRuleExecSubmitInp (row : Row) : RuleExecSubmitInp where
  ruleExecId := row.id
  exeFrequency := boundedCopy NAME_LEN (row.cells .exeFrequency)
  priority := boundedCopy NAME_LEN (row.cells .priority)
  exeContext := row.cells .exeContext

inductive Settlement where
  | update (params : Params)
  | delete (twice : Bool)
  | nothing
  deriving DecidableEq, Repr

section settling
variable (convertDateFormat : Text → Int → Text)

def repairedPriority (inp : RuleExecSubmitInp) : Params :=
  if validPriority inp.priority then [] else [(.priority,lit "5")]

/- The lock is cleared together with the new time. -/
def repeatParams (inp : RuleExecSubmitInp) (current : Int) (next : Text) (frequency : Option Text) : Params :=
  repairedPriority inp ++ [(.lockHost,[]),(.lockHostPid,[]),(.lockTs,[]),(.lastExeTime,decimalText current),
    (.exeTime,next)] ++
    frequency.toList.map (fun f => (.exeFrequency,f))

def updateEntryForRepeat (inp : RuleExecSubmitInp) (current execStatus : Int) : Settlement :=
  let status := if execStatus > 0 then 0 else execStatus
  let r := getNextRepeatTime convertDateFormat current inp.exeFrequency
  let update (frequency : Option Text) : Settlement := .update (repeatParams inp current r.next frequency)
  if r.status = 0 then update none
  else if r.status = 1 then if status = 0 then .delete false else update none
  else if r.status = 2 then .delete false
  else if r.status = 3 then update (some r.delay)
  else if r.status = 4 then if status = 0 then .delete false else update (some r.delay)
  else .nothing

def settlement (inp : RuleExecSubmitInp) (current status : Int) : Settlement :=
  if inp.exeFrequency ≠ [] then updateEntryForRepeat convertDateFormat inp current status
  else .delete (status < 0)

end settling

def migrationParams (context : Text) : Params := [(.reiFilePath,lit "EMPTY_REI_PATH"),(.exeContext,context)]

inductive Task where
  | offer (id : Nat)
  | execute (id : Nat)
  deriving DecidableEq, Repr

inductive Main where
  | sleeping
  | asked (time : Int)
  | posting (rest : List Nat)
  deriving DecidableEq, Repr

inductive Phase where
  | idle
  | offering (id : Nat)
  | enqueueing (id : Nat)
  | starting (id : Nat)
  | fetching (id : Nat)
  | running (inp : RuleExecSubmitInp)
  | migrating (inp : RuleExecSubmitInp) (status : Int)
  | settling (inp : RuleExecSubmitInp) (status : Int)
  | deletingAgain (inp : RuleExecSubmitInp)
  | completing (id : Nat)
  | leaving (id : Nat)
  deriving DecidableEq, Repr

structure Server where
  host : Text
  pid : Int
  size : Nat
  terminate : Bool
  main : Main
  pool : List Task
  queue : List Nat
  threads : Nat → Phase

structure World where
  now : Int
  nextId : Nat
  catalog : Catalog
  servers : Nat → Server

abbrev Executor := Nat × Nat

inductive Event where
  | queried (time : Int) (rows : List (Nat × Text))
  | locked (e : Executor) (id : Nat) (exeTime : Text) (time : Int)
  | started (e : Executor) (id : Nat)
  | cleared (e : Executor) (id : Nat) (exeTime : Text)
  | deleted (e : Executor) (id : Nat)
  | changed (id : Nat) (exeTime : Text)
  deriving DecidableEq, Repr

/- A call is answered, is made and the answer lost, or is not made. -/
inductive Reply where
  | answered
  | lost
  | refused
  deriving DecidableEq, Repr

inductive Act where
  | take
  | offer
  | enqueue (memory : Bool)
  | lock (reply : Reply)
  | fetch (answered : Bool)
  | run (begun : Bool) (status : Int) (migrates : Bool)
  | migrate (context : Text) (reply : Reply)
  | settle (since : Nat) (reply : Reply)
  | deleteAgain (reply : Reply)
  | complete
  | leave
  deriving DecidableEq, Repr

inductive Action where
  | tick (seconds : Nat)
  | submit (cells : Cells)
  | remove (id : Nat)
  | modify (id : Nat) (params : Params)
  | ask (s : Nat)
  | query (s : Nat) (order : List Nat)
  | queryFails (s : Nat)
  | post (s : Nat)
  | sleep (s : Nat)
  | terminate (s : Nat)
  | restart (s : Nat) (pid : Int)
  | act (e : Executor) (a : Act)

def Server.setPhase (v : Server) (k : Nat) (p : Phase) : Server := { v with threads := Function.update v.threads k p }
def World.put (w : World) (s : Nat) (v : Server) : World := { w with servers := Function.update w.servers s v }
def World.phase (w : World) (e : Executor) : Phase := (w.servers e.1).threads e.2
def World.to (w : World) (e : Executor) (p : Phase) : World := w.put e.1 ((w.servers e.1).setPhase e.2 p)
def World.store (w : World) (c : Catalog) : World := { w with catalog := c }

def World.dequeueRule (w : World) (s id : Nat) : World :=
  w.put s { w.servers s with queue := (w.servers s).queue.erase id }

section steps
variable (convertDateFormat : Text → Int → Text)

abbrev Taken := Option (World × Option Event)

def takeTask (w : World) (e : Executor) : Taken :=
  let v := w.servers e.1
  match v.pool with
  | [] => none
  | .offer id::rest => some (w.put e.1 (Server.setPhase { v with pool := rest } e.2 (.offering id)),none)
  | .execute id::rest => some (w.put e.1 (Server.setPhase { v with pool := rest } e.2 (.starting id)),none)

def enqueueRule (w : World) (e : Executor) (id : Nat) : World :=
  let v := w.servers e.1
  w.put e.1 (Server.setPhase { v with queue := v.queue ++ [id], pool := v.pool ++ [.execute id] } e.2 .idle)

def exeTimeOf (c : Catalog) (id : Nat) : Text := ((c.find? (·.id = id)).map (·.cells .exeTime)).getD []

def lockRule (w : World) (e : Executor) (id : Nat) (reply : Reply) : World × Option Event :=
  let v := w.servers e.1
  let locked := dbDelayRuleLock id v.host v.pid w.now w.catalog
  match reply with
  | .refused => (w.to e (.leaving id),none)
  | .lost => ((w.store locked.2).to e (.leaving id),none)
  | .answered =>
    if locked.1 < 0 then ((w.store locked.2).to e (.leaving id),none)
    else ((w.store locked.2).to e (.fetching id),some (.locked e id (exeTimeOf w.catalog id) w.now))

def fetchRule (w : World) (e : Executor) (id : Nat) (answered : Bool) : World :=
  if answered then
    match w.catalog.find? (·.id = id) with
    | some row => w.to e (.running (fillRuleExecSubmitInp row))
    | none => w.to e (.leaving id)
  else w.to e (.leaving id)

/- A rule is migrated into the catalog when it came with a file. -/
def runRule (w : World) (e : Executor) (inp : RuleExecSubmitInp) (begun : Bool) (status : Int) (migrates : Bool) :
    World × Option Event :=
  if begun then
    (w.to e (if migrates ∧ inp.exeContext = [] then .migrating inp status else .settling inp status),
      some (.started e inp.ruleExecId))
  else (w.to e (.completing inp.ruleExecId),none)

def migrateRule (w : World) (e : Executor) (inp : RuleExecSubmitInp) (status : Int) (context : Text) : Reply → World
  | .refused => w.to e (.settling inp status)
  | _ => (w.store (dbModRuleExecOp inp.ruleExecId (migrationParams context) w.catalog).2).to e (.settling inp status)

def deleteRule (w : World) (e : Executor) (id : Nat) (reply : Reply) (ok failed : Phase) : World × Option Event :=
  let done := dbDelRuleExecOp id w.catalog
  match reply with
  | .refused => (w.to e failed,none)
  | .lost => ((w.store done.2).to e failed,some (.deleted e id))
  | .answered => ((w.store done.2).to e (if done.1 < 0 then failed else ok),some (.deleted e id))

/- The clock was read some seconds before the statement. -/
def settleRule (w : World) (e : Executor) (inp : RuleExecSubmitInp) (status : Int) (since : Nat) (reply : Reply) :
    World × Option Event :=
  match settlement convertDateFormat inp (w.now-since) status with
  | .nothing => (w.to e (.completing inp.ruleExecId),none)
  | .delete twice =>
    deleteRule w e inp.ruleExecId reply (.completing inp.ruleExecId)
      (if twice then .deletingAgain inp else .completing inp.ruleExecId)
  | .update params =>
    match reply with
    | .refused => (w.to e (.completing inp.ruleExecId),none)
    | _ => ((w.store (dbModRuleExecOp inp.ruleExecId params w.catalog).2).to e (.completing inp.ruleExecId),
        some (.cleared e inp.ruleExecId ((params.lookup .exeTime).getD [])))

def executorStep (w : World) (e : Executor) (a : Act) : Taken :=
  let v := w.servers e.1
  match a,w.phase e with
  | .take,.idle => if e.2 < v.size then takeTask w e else none
  | .offer,.offering id => some (w.to e (if id ∈ v.queue then .idle else .enqueueing id),none)
  | .enqueue true,.enqueueing id => some (enqueueRule w e id,none)
  | .enqueue false,.enqueueing _ => some (w.to e .idle,none)
  | .lock reply,.starting id => if v.terminate then some (w.to e (.leaving id),none) else some (lockRule w e id reply)
  | .fetch answered,.fetching id => some (fetchRule w e id answered,none)
  | .run begun status migrates,.running inp => some (runRule w e inp begun status migrates)
  | .migrate context reply,.migrating inp status => some (migrateRule w e inp status context reply,none)
  | .settle since reply,.settling inp status => some (settleRule convertDateFormat w e inp status since reply)
  | .deleteAgain reply,.deletingAgain inp =>
    some (deleteRule w e inp.ruleExecId reply (.completing inp.ruleExecId) (.completing inp.ruleExecId))
  | .complete,.completing id => some ((if v.terminate then w else w.dequeueRule e.1 id).to e (.leaving id),none)
  | .leave,.leaving id => some ((w.dequeueRule e.1 id).to e .idle,none)
  | _,_ => none

def due (time : Int) (row : Row) : Bool := textLe (row.cells .exeTime) (decimalText time) ∧ row.free

def Ordered (c : Catalog) (time : Int) (order : List Nat) : Prop :=
  order.Perm ((c.filter (due time)).map Row.id) ∧
  order.Pairwise (fun i j => ∀ a ∈ c, ∀ b ∈ c, a.id = i → b.id = j → textLe (b.cells .priority) (a.cells .priority))

instance (c time order) : Decidable (Ordered c time order) := by unfold Ordered; infer_instance

def queryRules (w : World) (s : Nat) (order : List Nat) : Taken :=
  match (w.servers s).main with
  | .asked time => if Ordered w.catalog time order then
      some (w.put s { w.servers s with main := .posting order },
        some (.queried time (order.map (fun id => (id,exeTimeOf w.catalog id)))))
    else none
  | _ => none

/- future.get waits for the rows that were handed to the pool. -/
def Phase.offered : Phase → Bool
  | .offering _ => true
  | .enqueueing _ => true
  | _ => false

def Task.offered : Task → Bool
  | .offer _ => true
  | .execute _ => false

/- Clients write no lock. The answer names the time they wrote. -/
def modifyRule (w : World) (id : Nat) (params : Params) : Taken :=
  if ∃ p ∈ params, p.1 ∈ lockColumns then none
  else
    let done := dbModRuleExecOp id params w.catalog
    some (w.store done.2,if done.1 < 0 then none else (params.lookup .exeTime).map (.changed id))

def freshServer (host : Text) (pid : Int) (size : Nat) : Server :=
  { host, pid, size, terminate := false, main := .sleeping, pool := [], queue := [], threads := fun _ => .idle }

def step (w : World) : Action → Taken
  | .tick seconds => some ({ w with now := w.now+seconds },none)
  | .submit cells =>
    if ∀ col ∈ lockColumns, cells col = [] then
      some ({ w with catalog := w.catalog ++ [⟨w.nextId,cells⟩], nextId := w.nextId+1 },none)
    else none
  | .remove id => some (w.store (dbDelRuleExecOp id w.catalog).2,none)
  | .modify id params => modifyRule w id params
  | .ask s =>
    let v := w.servers s
    if v.main = .sleeping ∧ v.terminate = false then some (w.put s { v with main := .asked w.now },none) else none
  | .query s order => queryRules w s order
  | .queryFails s =>
    match (w.servers s).main with
    | .asked _ => some (w.put s { w.servers s with main := .posting [] },none)
    | _ => none
  | .post s =>
    match (w.servers s).main with
    | .posting (id::rest) =>
        some (w.put s { w.servers s with main := .posting rest, pool := (w.servers s).pool ++ [.offer id] },none)
    | _ => none
  | .sleep s =>
    let v := w.servers s
    if v.main = .posting [] ∧ (∀ t ∈ v.pool, t.offered = false) ∧ (∀ k < v.size, (v.threads k).offered = false) then
      some (w.put s { v with main := .sleeping },none)
    else none
  | .terminate s => some (w.put s { w.servers s with terminate := true },none)
  | .restart s pid => some (w.put s (freshServer (w.servers s).host pid (w.servers s).size),none)
  | .act e a => executorStep convertDateFormat w e a

/- The events, the latest first. -/
inductive Reached (start : World) : World → List Event → Prop where
  | start : Reached start start []
  | step {w events action w' seen} (before : Reached start w events)
      (taken : step convertDateFormat w action = some (w',seen)) :
      Reached start w' (seen.toList ++ events)

def runAll (w : World) (events : List Event) : List Action → Option (World × List Event)
  | [] => some (w,events)
  | a::rest =>
    match step convertDateFormat w a with
    | some (w',seen) => runAll w' (seen.toList ++ events) rest
    | none => none

theorem runReached {start w w' before events actions} (so : Reached convertDateFormat start w before)
    (ran : runAll convertDateFormat w before actions = some (w',events)) :
    Reached convertDateFormat start w' events := by
  induction actions generalizing w before with
  | nil =>
    cases ran
    exact so
  | cons a _ ih =>
    unfold runAll at ran
    split at ran
    · rename_i taken
      exact ih (so.step taken) ran
    · contradiction

end steps

/- No thread has begun, and the sequence is ahead of every rule. -/
structure Initial (w : World) : Prop where
  idle : ∀ s, w.servers s = freshServer (w.servers s).host (w.servers s).pid (w.servers s).size
  ahead : ∀ row ∈ w.catalog, row.id < w.nextId
  unique : (w.catalog.map Row.id).Nodup

def hourlyRule : Row where
  id := 1
  cells
    | .exeTime => lit "1699999000"
    | .exeFrequency => lit "3600s"
    | .priority => lit "5"
    | .exeContext => lit "rei"
    | _ => []

def twoServers : World where
  now := 1700000000
  nextId := 2
  catalog := [hourlyRule]
  servers s := if s = 0 then freshServer (lit "a") 10 1 else freshServer (lit "b") 20 1

theorem twoServersInitial : Initial twoServers where
  idle s := by
    unfold twoServers
    dsimp only
    split <;> rfl
  ahead row mem := by
    rw [List.mem_singleton.mp mem]
    decide
  unique := by decide

def finds (s : Nat) : List Action :=
  [.ask s,.query s [1],.post s,.act (s,0) .take,.act (s,0) .offer,.act (s,0) (.enqueue true),.act (s,0) .take]

def runs (s : Nat) : List Action :=
  [.act (s,0) (.lock .answered),.act (s,0) (.fetch true),.act (s,0) (.run true 0 false)]

end Irods.DelayServer
