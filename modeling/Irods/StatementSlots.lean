import Irods.CText

/-! The statement slots of a catalog session, icss.stmtPtr. A query takes the first free slot and
its number goes to the caller; the functions here differ in which of their ways out give it back. -/
namespace Irods.StatementSlots
open CText

def MAX_NUM_OF_CONCURRENT_STMTS : Nat := 50
def UNINITIALIZED_STATEMENT_NUMBER : Int := -1
def SYS_INVALID_INPUT_PARAM : Int := -130000
def CAT_ENV_ERR : Int := -802000
def CAT_SQL_ERR : Int := -806000
def CAT_GET_ROW_ERR : Int := -807000
def CAT_NO_ROWS_FOUND : Int := -808000
def CAT_INVALID_ARGUMENT : Int := -816000
def CAT_STATEMENT_TABLE_FULL : Int := -860000

abbrev Slots := Nat → Bool
def firstFree (s : Slots) : Option Nat := (List.range MAX_NUM_OF_CONCURRENT_STMTS).find? (!s ·)
def occupy (s : Slots) (i : Nat) : Slots := Function.update s i true

/- What the database does: no handle, an error behind the taking of the slot, or a result. -/
inductive Exec where
  | noHandle
  | fails (step : Fin 4)
  | runs
  deriving DecidableEq

inductive Fetch where
  | fails
  | noRow
  | row (value : Text) (others : List Text)
  deriving DecidableEq

structure Out where
  status : Int
  handed : Option Int
  slots : Slots

-- With and without bind variables. A failure comes with the number at *stmtNum.
def cllExecSqlWithResult (e : Exec) (stmtNum : Int) (s : Slots) : Except (Int × Int × Slots) (Nat × Slots) :=
  match e,firstFree s with
  | .noHandle,_ => .error (-1,stmtNum,s)
  | _,none => .error (CAT_STATEMENT_TABLE_FULL,UNINITIALIZED_STATEMENT_NUMBER,s)
  | .fails step,some i => .error (-1-step,i,occupy s i)
  | .runs,some i => .ok (i,occupy s i)

def cllFreeStatement (statementNumber : Int) (s : Slots) : Slots :=
  if statementNumber < 0 then s else Function.update s statementNumber.toNat false

def execError (code : Int) : Int := if code ≤ CAT_ENV_ERR then code else CAT_SQL_ERR

-- A statement without rows is not freed.
def cmlGetOneRowFromSqlV2 (e : Exec) (f : Fetch) (s : Slots) : Out :=
  match cllExecSqlWithResult e UNINITIALIZED_STATEMENT_NUMBER s with
  | .error (code,n,s) => ⟨execError code,none,cllFreeStatement n s⟩
  | .ok (n,s) =>
    match f with
    | .fails => ⟨CAT_GET_ROW_ERR,none,cllFreeStatement n s⟩
    | .noRow => ⟨CAT_NO_ROWS_FOUND,none,s⟩
    | .row _ _ => ⟨n,some n,s⟩

def firstRow (n : Nat) (f : Fetch) (s : Slots) : Out :=
  match f with
  | .fails => ⟨CAT_GET_ROW_ERR,none,cllFreeStatement n s⟩
  | .noRow => ⟨CAT_NO_ROWS_FOUND,none,cllFreeStatement n s⟩
  | .row _ _ => ⟨0,some n,s⟩

-- Without a handle the number is the caller's, and so is the statement that is freed.
def cmlGetFirstRowFromSql (e : Exec) (f : Fetch) (statement : Int) (s : Slots) : Out :=
  match cllExecSqlWithResult e statement s with
  | .error (code,n,s) => ⟨execError code,none,cllFreeStatement n s⟩
  | .ok (n,s) => firstRow n f s

-- The statement of a failed query is not freed.
def cmlGetFirstRowFromSqlBV (e : Exec) (f : Fetch) (statement : Int) (s : Slots) : Out :=
  match cllExecSqlWithResult e statement s with
  | .error (code,_,s) => ⟨execError code,none,s⟩
  | .ok (n,s) => firstRow n f s

def multiRows (n max tsg : Nat) (s : Slots) : List Fetch → Out
  | .fails::_ => ⟨if tsg > 0 then tsg else CAT_GET_ROW_ERR,none,cllFreeStatement n s⟩
  | .row _ others::fs =>
    if tsg+others.length+1 ≥ max then ⟨max,none,cllFreeStatement n s⟩ else multiRows n max (tsg+others.length+1) s fs
  | _ => ⟨if tsg > 0 then tsg else CAT_NO_ROWS_FOUND,none,cllFreeStatement n s⟩

def cmlGetMultiRowStringValuesFromSql (max : Nat) (e : Exec) (fs : List Fetch) (s : Slots) : Out :=
  if max = 0 then ⟨CAT_INVALID_ARGUMENT,none,s⟩
  else match cllExecSqlWithResult e UNINITIALIZED_STATEMENT_NUMBER s with
    | .error (code,n,s) => ⟨execError code,none,cllFreeStatement n s⟩
    | .ok (n,s) => multiRows n max 0 s fs

/- refused is the error of the checks in front of the query, later what the statements behind it return. -/
def dbSetLogicalQuotaOp (refused : Option Int) (later : Int) (e : Exec) (f : Fetch) (s : Slots) : Out :=
  match refused with
  | some code => ⟨code,none,s⟩
  | none =>
    let r := cmlGetFirstRowFromSql e f UNINITIALIZED_STATEMENT_NUMBER s
    if r.handed.isSome then ⟨later,none,r.slots⟩
    else ⟨if r.status = CAT_NO_ROWS_FOUND then CAT_INVALID_ARGUMENT else r.status,none,r.slots⟩

def unsigned (t : Text) : Text :=
  match t.dropWhile isSpace with
  | '-'::rest | '+'::rest => rest
  | rest => rest

def checkedStrtoll (t : Text) : Option Int :=
  if unsigned t ≠ [] ∧ (unsigned t).all Char.isDigit ∧ atoll t = leadingInteger t then some (atoll t) else none

-- The rows behind the first. Freeing a free slot again does nothing.
def nextRows (n : Nat) (s : Slots) : Nat → List Fetch → Out
  | _+1,.fails::_ => ⟨CAT_GET_ROW_ERR,none,cllFreeStatement n (cllFreeStatement n s)⟩
  | k+1,.row value _::fs => if (checkedStrtoll value).isNone then
      ⟨SYS_INVALID_INPUT_PARAM,none,s⟩ else nextRows n s k fs
  | _+1,_ => ⟨0,none,cllFreeStatement n (cllFreeStatement n s)⟩
  | 0,_ => ⟨0,none,cllFreeStatement n s⟩

def dbGetReplListForLeafBundlesOffsetOp (refused : Option Int) (count : Nat) (e : Exec) (f : Fetch) (fs : List Fetch)
    (s : Slots) : Out :=
  match refused,count with
  | some code,_ => ⟨code,none,s⟩
  | none,0 => ⟨SYS_INVALID_INPUT_PARAM,none,s⟩
  | none,more+1 =>
    let r := cmlGetFirstRowFromSql e f 0 s
    match r.handed,f with
    | some n,.row value _ =>
      if (checkedStrtoll value).isNone then ⟨SYS_INVALID_INPUT_PARAM,none,r.slots⟩ else nextRows n.toNat r.slots more fs
    | _,_ => ⟨if r.status = CAT_NO_ROWS_FOUND then 0 else r.status,none,
        cllFreeStatement UNINITIALIZED_STATEMENT_NUMBER r.slots⟩

inductive Call where
  | oneRow (e : Exec) (f : Fetch)
  | firstRow (e : Exec) (f : Fetch) (statement : Int)
  | firstRowBV (e : Exec) (f : Fetch) (statement : Int)
  | multiRow (max : Nat) (e : Exec) (fs : List Fetch)
  | setQuota (refused : Option Int) (later : Int) (e : Exec) (f : Fetch)
  | leafBundles (refused : Option Int) (count : Nat) (e : Exec) (f : Fetch) (fs : List Fetch)

def Call.run : Call → Slots → Out
  | .oneRow e f => cmlGetOneRowFromSqlV2 e f
  | .firstRow e f statement => cmlGetFirstRowFromSql e f statement
  | .firstRowBV e f statement => cmlGetFirstRowFromSqlBV e f statement
  | .multiRow max e fs => cmlGetMultiRowStringValuesFromSql max e fs
  | .setQuota refused later e f => dbSetLogicalQuotaOp refused later e f
  | .leafBundles refused count e f fs => dbGetReplListForLeafBundlesOffsetOp refused count e f fs

-- Some row that is read is not a number.
def Unreadable : Nat → List Fetch → Prop
  | k+1,.row value _::fs => checkedStrtoll value = none ∨ Unreadable k fs
  | _,_ => False

def Call.Leaks (s : Slots) : Call → Prop
  | .oneRow e f => e = .runs ∧ f = .noRow ∧ (firstFree s).isSome
  | .firstRow e _ statement => e = .noHandle ∧ 0 ≤ statement ∧ s statement.toNat
  | .firstRowBV e _ _ => (∃ step, e = .fails step) ∧ (firstFree s).isSome
  | .multiRow _ _ _ => False
  | .setQuota refused _ e f => refused = none ∧ e = .runs ∧ (∃ value others, f = .row value others) ∧
      (firstFree s).isSome
  | .leafBundles refused count e f fs => refused = none ∧ 0 < count ∧ (e = .noHandle ∧ s 0 ∨
      e = .runs ∧ Unreadable count (f::fs) ∧ (firstFree s).isSome)

@[simp] theorem freeNone (s) : cllFreeStatement UNINITIALIZED_STATEMENT_NUMBER s = s := rfl

theorem freeNat (i : Nat) (s) : cllFreeStatement i s = Function.update s i false := if_neg (by omega)

theorem freeOccupied {s : Slots} {i : Nat} (free : s i = false) : cllFreeStatement i (occupy s i) = s := by
  simp [freeNat,occupy,← free]

theorem freeChanges {s : Slots} {n : Int} : cllFreeStatement n s = s ↔ ¬(0 ≤ n ∧ s n.toNat) := by
  unfold cllFreeStatement
  split
  · simp; omega
  · simp_all

theorem occupyChanges {s : Slots} {i} (free : s i = false) : occupy s i ≠ s := by
  intro same
  have here := congrFun same i
  simp [occupy,free] at here

/- What the execution does to the slots, by what the database does and whether a slot is free. -/
theorem execCases (e stmtNum s) :
    (e = .noHandle ∧ cllExecSqlWithResult e stmtNum s = .error (-1,stmtNum,s)) ∨
    (e ≠ .noHandle ∧ firstFree s = none ∧
      cllExecSqlWithResult e stmtNum s = .error (CAT_STATEMENT_TABLE_FULL,UNINITIALIZED_STATEMENT_NUMBER,s)) ∨
    ∃ i, firstFree s = some i ∧ s i = false ∧
      ((∃ step, e = .fails step ∧ cllExecSqlWithResult e stmtNum s = .error (-1-step,i,occupy s i)) ∨
        e = .runs ∧ cllExecSqlWithResult e stmtNum s = .ok (i,occupy s i)) := by
  unfold cllExecSqlWithResult
  cases found : firstFree s with
  | none => cases e <;> simp
  | some i =>
    have free : s i = false := by simpa using List.find?_some found
    cases e <;> simp [free]

/- The slots are the same whenever no statement is handed out, exactly if the call is none of those that leak. -/
def Exact (c : Call) (s : Slots) : Prop := ((c.run s).handed = none → (c.run s).slots = s) ↔ ¬c.Leaks s

theorem oneRowExact (e f s) : Exact (.oneRow e f) s := by
  unfold Exact Call.run Call.Leaks cmlGetOneRowFromSqlV2
  rcases execCases e UNINITIALIZED_STATEMENT_NUMBER s with
    ⟨rfl,run⟩ | ⟨_,full,run⟩ | ⟨i,found,free,⟨step,rfl,run⟩ | ⟨rfl,run⟩⟩
  · simp [run]
  · simp [run,full]
  · simp [run,freeOccupied free]
  · cases f <;> simp [run,found,freeOccupied free,occupyChanges free]

theorem firstRowKept (f) {s i} (free : s i = false) : (firstRow i f (occupy s i)).handed = none →
    (firstRow i f (occupy s i)).slots = s := by
  cases f <;> simp [firstRow,freeOccupied free]

theorem firstRowExact (e f n s) : Exact (.firstRow e f n) s := by
  unfold Exact Call.run Call.Leaks cmlGetFirstRowFromSql
  rcases execCases e n s with ⟨rfl,run⟩ | ⟨handle,full,run⟩ | ⟨i,found,free,⟨step,rfl,run⟩ | ⟨rfl,run⟩⟩
  · simp [run,freeChanges]
  · simp [run,handle]
  · simp [run,freeOccupied free]
  · simpa [run] using firstRowKept f free

theorem firstRowBVExact (e f n s) : Exact (.firstRowBV e f n) s := by
  unfold Exact Call.run Call.Leaks cmlGetFirstRowFromSqlBV
  rcases execCases e n s with ⟨rfl,run⟩ | ⟨_,full,run⟩ | ⟨i,found,free,⟨step,rfl,run⟩ | ⟨rfl,run⟩⟩
  · simp [run]
  · simp [run,full]
  · simp [run,found,occupyChanges free]
  · simpa [run] using firstRowKept f free

theorem multiRowsFree (n max tsg s fs) : (multiRows n max tsg s fs).slots = cllFreeStatement n s := by
  fun_induction multiRows n max tsg s fs <;> simp_all

theorem multiRowExact (max e fs s) : Exact (.multiRow max e fs) s := by
  unfold Exact Call.run Call.Leaks cmlGetMultiRowStringValuesFromSql
  by_cases absent : max = 0
  · simp [absent]
  rcases execCases e UNINITIALIZED_STATEMENT_NUMBER s with
    ⟨rfl,run⟩ | ⟨_,_,run⟩ | ⟨i,_,free,⟨step,rfl,run⟩ | ⟨rfl,run⟩⟩
  · simp [run,absent]
  · simp [run,absent]
  · simp [run,absent,freeOccupied free]
  · simp [run,absent,multiRowsFree,freeOccupied free]

theorem setQuotaExact (refused later e f s) : Exact (.setQuota refused later e f) s := by
  unfold Exact Call.run Call.Leaks dbSetLogicalQuotaOp cmlGetFirstRowFromSql
  cases refused with
  | some code => simp
  | none =>
    rcases execCases e UNINITIALIZED_STATEMENT_NUMBER s with
      ⟨rfl,run⟩ | ⟨_,full,run⟩ | ⟨i,found,free,⟨step,rfl,run⟩ | ⟨rfl,run⟩⟩
    · simp [run]
    · simp [run,full]
    · simp [run,freeOccupied free]
    · cases f <;> simp [run,firstRow,found,freeOccupied free,occupyChanges free]

theorem nextRowsKept {n s k fs} (free : s n = false) : (nextRows n (occupy s n) k fs).handed = none ∧
    ((nextRows n (occupy s n) k fs).slots = s ↔ ¬Unreadable k fs) := by
  fun_induction nextRows n (occupy s n) k fs <;> simp_all [Unreadable,freeChanges,freeOccupied,occupyChanges]

theorem leafBundlesExact (refused count e f fs s) : Exact (.leafBundles refused count e f fs) s := by
  unfold Exact Call.run Call.Leaks dbGetReplListForLeafBundlesOffsetOp cmlGetFirstRowFromSql
  cases refused with
  | some code => simp
  | none =>
    cases count with
    | zero => simp
    | succ more =>
      rcases execCases e 0 s with ⟨rfl,run⟩ | ⟨handle,full,run⟩ | ⟨i,found,free,⟨step,rfl,run⟩ | ⟨rfl,run⟩⟩
      · simp [run,freeChanges]
      · simp [run,handle,full]
      · simp [run,freeOccupied free]
      · cases f with
        | row value others =>
          by_cases number : checkedStrtoll value = none
          · simp [run,firstRow,found,number,Unreadable,occupyChanges free]
          · simp [run,firstRow,found,number,Unreadable,nextRowsKept free]
        | _ => simp [run,firstRow,Unreadable,freeOccupied free]

theorem slotsKeptExactly (c : Call) (s) : ((c.run s).handed = none → (c.run s).slots = s) ↔ ¬c.Leaks s := by
  cases c with
  | oneRow e f => exact oneRowExact e f s
  | firstRow e f n => exact firstRowExact e f n s
  | firstRowBV e f n => exact firstRowBVExact e f n s
  | multiRow max e fs => exact multiRowExact max e fs s
  | setQuota refused later e f => exact setQuotaExact refused later e f s
  | leafBundles refused count e f fs => exact leafBundlesExact refused count e f fs s

-- A query without rows keeps its slot.
theorem noRowsLeak : (Call.run (.oneRow .runs .noRow) fun _ => false).handed = none ∧
    (Call.run (.oneRow .runs .noRow) fun _ => false).slots 0 = true := by decide

end Irods.StatementSlots
