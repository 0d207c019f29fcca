import Irods.GenQuery1Setup

/-! The SQL texts of general_query.cpp and the parts of the generator that fill them from the
setup tables: selected columns, condition columns, and the links between the tables in use. -/
namespace Irods.GenQuery1Tables
open CText StringOpr GenQuery1Setup

def MAX_SQL_SIZE_GQ : Nat := 16000
def USER_STRLEN_TOOLONG : Int := -306000
def CAT_INVALID_ARGUMENT : Int := -816000
def CAT_UNKNOWN_TABLE : Int := -823000
def CAT_FAILED_TO_LINK_TABLES : Int := -825000
def CAT_BIND_VARIABLE_LIMIT_EXCEEDED : Int := -856000
def SELECT_MIN : Nat := 2
def SELECT_MAX : Nat := 3
def SELECT_SUM : Nat := 4
def SELECT_AVG : Nat := 5
def SELECT_COUNT : Nat := 6
def ORDER_BY : Nat := 0x400
def ORDER_BY_DESC : Nat := 0x800

/- What generateSQL initialises on every call. -/
structure Query where
  selectSQL : Text
  fromSQL : Text
  whereSQL : Text
  groupBySQL : Text
  selectSQLInitFlag : Bool
  doUpperCase : Bool
  mightNeedGroupBy : Bool
  fromCount : Nat
  flag : Nat → Nat
  nToFind : Int

/- The tokens from here to the next comma, whether it ends on a blank, and what is left. The
flag for a blank is not reset between two searches. -/
def countTokens (tokens : Nat) (blank : Bool) : Text → Nat × Bool × Text
  | [] => (if blank then tokens else tokens+1,blank,[])
  | c::t =>
    if c = ',' then (if blank then tokens else tokens+1,blank,c::t)
    else if c = ' ' then countTokens (if blank then tokens else tokens+1) true t
    else countTokens tokens false t

/- Each search starts behind the last one found, so the length of the text bounds their number. -/
def presentFrom (table : Text) : Nat → Bool → Text → Bool
  | 0,_,_ => false
  | n+1,blank,t =>
    match strstr t table with
    | none => false
    | some i =>
      let counted := countTokens 0 blank (t.drop i)
      if counted.1 = 1 then true else presentFrom table n counted.2.1 counted.2.2

def tablePresent (table sqlText : Text) : Bool :=
  if (strstr sqlText table).isNone then false
  else if (countTokens 0 true table).1 = 2 then true
  else presentFrom table (sqlText.length+1) true sqlText

def optionText (selectOption : Nat) : Text :=
  if selectOption = SELECT_MIN then lit "min("
  else if selectOption = SELECT_MAX then lit "max("
  else if selectOption = SELECT_SUM then lit "sum("
  else if selectOption = SELECT_AVG then lit "avg("
  else if selectOption = SELECT_COUNT then lit "count("
  else []

def separated (yes : Bool) (separator : Text) : List Text := if yes then [separator] else []

/- When a text does not fit the call is rejected and the texts are scratch. -/
def addSelected (q : Query) (t : Table) (c : Column) (selectOption : Nat) : Bool × Query :=
  let aggregate := !(optionText selectOption).isEmpty
  let select := rstrcats q.selectSQL MAX_SQL_SIZE_GQ (separated (!q.selectSQLInitFlag) (lit ",") ++
    [optionText selectOption,t.tableName,lit ".",c.columnName,lit " "] ++ separated aggregate (lit ") "))
  let group := if aggregate then (q.groupBySQL,true) else rstrcats q.groupBySQL MAX_SQL_SIZE_GQ
    (separated (decide (10 < q.groupBySQL.length)) (lit ",") ++ [t.tableName,lit ".",c.columnName,lit " "])
  let present := tablePresent t.tableAlias q.fromSQL
  let source := if present then (q.fromSQL,true) else rstrcats q.fromSQL MAX_SQL_SIZE_GQ
    [if q.fromCount = 0 then lit " " else lit ", ",t.tableAlias,lit " "]
  (select.2 && group.2 && source.2,{ q with
    selectSQL := select.1
    selectSQLInitFlag := false
    groupBySQL := group.1
    mightNeedGroupBy := q.mightNeedGroupBy || aggregate
    fromSQL := source.1
    fromCount := if present then q.fromCount else q.fromCount+1 })

def conditionColumn (upper cast : Bool) (t : Table) (c : Column) : List Text :=
  separated cast (lit "cast (") ++ separated (upper && !cast) (lit "upper (") ++
  [t.tableName,lit ".",c.columnName] ++
  separated (upper && !cast) (lit " )") ++ separated cast (lit " as decimal)")

def addConditionColumn (q : Query) (t : Table) (c : Column) (cast : Bool) : Bool × Query :=
  let w := rstrcats q.whereSQL MAX_SQL_SIZE_GQ (separated (decide (6 < q.whereSQL.length)) (lit " AND ") ++
    conditionColumn q.doUpperCase cast t c)
  (w.2,{ q with whereSQL := w.1 })

def raise (q : Query) (i : Nat) : Query :=
  { q with flag := Function.update q.flag i 1, nToFind := if q.flag i = 0 then q.nToFind+1 else q.nToFind }

/- The last column of that number and the first table of its name. -/
def findColumn (s : Setup) (column : Nat) : Option Column := s.columns.reverse.find? (fun c => c.defineValue == column)

def setTable (s : Setup) (q : Query) (column : Nat) (sel : Bool) (selectOption : Nat) (castOption : Bool) :
    Except Int Nat × Query :=
  match findColumn s column with
  | none => (.error CAT_UNKNOWN_TABLE,q)
  | some c =>
    match s.tables.findIdx? (fun t => t.tableName == c.tableName) with
    | none => (.error (-1),q)
    | some i =>
      let t := s.tables.getD i ⟨[],[],0⟩
      let added := if sel then addSelected (raise q i) t c selectOption else addConditionColumn
        (raise q i) t c castOption
      (if added.1 then .ok i else .error USER_STRLEN_TOOLONG,added.2)

def tableAliasOf (s : Setup) (i : Nat) : Text := (s.tables.getD i ⟨[],[],0⟩).tableAlias
def cyclerOf (s : Setup) (i : Nat) : Nat := (s.tables.getD i ⟨[],[],0⟩).cycler

def addFrom (q : Query) (tableAlias : Text) : Bool × Query :=
  if tablePresent tableAlias q.fromSQL then (true,q)
  else
    let source := rstrcats q.fromSQL MAX_SQL_SIZE_GQ [lit ", ",tableAlias,lit " "]
    (source.2,{ q with fromSQL := source.1 })

def useLink (s : Setup) (l : Link) (q : Query) : Bool × Query :=
  let w := rstrcats q.whereSQL MAX_SQL_SIZE_GQ
    (separated (decide (6 < q.whereSQL.length)) (lit " AND ") ++ [l.connectingSQL,lit " "])
  let q := { q with whereSQL := w.1 }
  if w.2 then
    let second := addFrom q (tableAliasOf s l.table2)
    if second.1 then addFrom second.2 (tableAliasOf s l.table1) else second
  else (false,q)

inductive Scan where
  | returned (value : Int) (q : Query)
  | running (thisKeep : Int) (q : Query)

def hereOf (forward : Bool) (l : Link) : Nat := if forward then l.table1 else l.table2
def thereOf (forward : Bool) (l : Link) : Nat := if forward then l.table2 else l.table1

/- The value of the recursive call is only tested for zero, so an error of it counts as found. -/
def followLinks (s : Setup) (visit : Nat → Nat → Query → Option (Int × Query)) (table : Nat) (link : Option Nat)
    (forward : Bool) : List (Link × Nat) → Int → Query → Option Scan
  | [],thisKeep,q => some (.running thisKeep q)
  | (l,i)::ls,thisKeep,q =>
    if hereOf forward l = table ∧ link ≠ some i then
      match visit (thereOf forward l) i q with
      | none => none
      | some (subKeep,q) =>
        if subKeep = 0 then followLinks s visit table link forward ls thisKeep q
        else
          let used := useLink s l q
          if !used.1 then some (.returned USER_STRLEN_TOOLONG used.2)
          else if used.2.nToFind ≤ 0 then some (.returned 1 used.2)
          else followLinks s visit table link forward ls 1 used.2
    else followLinks s visit table link forward ls thisKeep q

def arrive (q : Query) (table : Nat) : Query :=
  if q.flag table = 1 then { q with flag := Function.update q.flag table 2, nToFind := q.nToFind-1 } else q

def leave (q : Query) (table : Nat) : Query := { q with flag := Function.update q.flag table 3 }

/- Every call that goes on marks a new table, which bounds the fuel. -/
def tScan (s : Setup) : Nat → Nat → Option Nat → Query → Option (Int × Query)
  | 0,_,_,_ => none
  | n+1,table,link,q =>
    let thisKeep : Int := if q.flag table = 1 then 1 else 0
    if q.flag table = 1 ∧ (arrive q table).nToFind ≤ 0 then some (thisKeep,arrive q table)
    else if q.flag table ≠ 1 ∧ q.flag table ≠ 0 then some (0,q)
    else if cyclerOf s table = 1 then some (thisKeep,arrive q table)
    else
      let visit := fun there i q => tScan s n there (some i) q
      match followLinks s visit table link true s.links.zipIdx thisKeep (leave (arrive q table) table) with
      | none => none
      | some (.returned value q) => some (value,q)
      | some (.running thisKeep q) =>
        match followLinks s visit table link false s.links.zipIdx thisKeep q with
        | none => none
        | some (.returned value q) => some (value,q)
        | some (.running thisKeep q) => some (thisKeep,q)

def replaceAt (t : Text) (i : Nat) (new : Text) : Text := t.take i ++ new ++ t.drop (i+new.length)
def twoDigits (i : Nat) : Text := if i < 10 then '0'::Nat.toDigits 10 i else Nat.toDigits 10 i

/- Occurrences after the first get a table name of their own: main becomes mnNN. -/
def renameNext (pattern w : Text) (i : Nat) : Text :=
  match strstr w pattern with
  | none => w
  | some j => replaceAt w (j+13) (('n'::twoDigits i).take 3)

def renameOccurrences (pattern : Text) (n : Nat) (w : Text) : Text :=
  match strstr w pattern with
  | none => w
  | some first => replaceAt ((List.range' 2 (n-1)).foldl (renameNext pattern) (replaceAt w first ['x'])) first ['r']

structure MultiAVU where
  attrName : Text
  attrValue : Text
  metamap : Text
  metaMain : Text
  object : Text

def multiData : MultiAVU :=
  ⟨lit "r_data_meta_main.meta_attr_name",lit "r_data_meta_main.meta_attr_value",lit "r_data_metamap",
  lit "r_data_meta_mn",lit "R_DATA_MAIN.data_id"⟩

def multiColl : MultiAVU :=
  ⟨lit "r_coll_meta_main.meta_attr_name",lit "r_coll_meta_main.meta_attr_value",lit "r_coll_metamap",
  lit "r_coll_meta_mn",lit "R_COLL_MAIN.coll_id"⟩

def avuFrom (m : MultiAVU) (i : Nat) : Text :=
  lit ", R_OBJT_METAMAP " ++ m.metamap ++ Nat.toDigits 10 i ++ lit ", R_META_MAIN " ++ m.metaMain ++ twoDigits i ++
    lit " "

def avuWhere (m : MultiAVU) (i : Nat) : List Text :=
  [lit " AND " ++ m.metamap ++ Nat.toDigits 10 i ++ lit ".meta_id = " ++ m.metaMain ++ twoDigits i ++ lit ".meta_id",
    lit " AND " ++ m.object ++ lit " = " ++ m.metamap ++ Nat.toDigits 10 i ++ lit ".object_id "]

/- A text that does not fit ends the function; nobody is told. -/
def handleMultiAVUConditions (m : MultiAVU) (nConditions : Nat) (q : Query) : Query :=
  let w := renameOccurrences m.attrValue nConditions (renameOccurrences m.attrName nConditions q.whereSQL)
  let indices := List.range' 2 (nConditions-1)
  let source := rstrcats q.fromSQL MAX_SQL_SIZE_GQ (indices.map (avuFrom m))
  if source.2 then
    { q with whereSQL := (rstrcats w MAX_SQL_SIZE_GQ (indices.flatMap (avuWhere m))).1, fromSQL := source.1 }
  else { q with whereSQL := w, fromSQL := source.1 }

def handleMultiDataAVUConditions : Nat → Query → Query := handleMultiAVUConditions multiData
def handleMultiCollAVUConditions : Nat → Query → Query := handleMultiAVUConditions multiColl

def orderEntry (s : Setup) (orderBy : Text) (column : Nat) (descending : Bool) : Text × Bool :=
  match s.columns.find? (fun c => c.defineValue == column) with
  | none => (orderBy,true)
  | some c => rstrcats orderBy MAX_SQL_SIZE_GQ (separated (decide (10 < orderBy.length)) (lit ", ") ++
      [c.tableName,lit ".",c.columnName] ++ separated descending (lit " DESC "))

def orderEntries (s : Setup) (orderBy : Text) : List (Nat × Bool) → Text
  | [] => orderBy
  | (column,descending)::rest =>
    if (orderEntry s orderBy column descending).2 then orderEntries s (orderEntry s orderBy column descending).1 rest
    else (orderEntry s orderBy column descending).1

def setOrderByUser (s : Setup) (selects : List (Nat × Nat)) (orderBy : Text) : Text :=
  orderEntries s orderBy ((selects.filter (fun x => x.2 &&& ORDER_BY != 0 || x.2 &&& ORDER_BY_DESC != 0)).map
    (fun x => (x.1,x.2 &&& ORDER_BY_DESC != 0)))

def setOrderBy (s : Setup) (selects : List (Nat × Nat)) (column : Nat) (orderBy : Text) : Text :=
  orderEntries s orderBy ((selects.filter (fun x => x.1 == column && (optionText (x.2 &&& 0xf)).isEmpty)).map
    (fun x => (x.1,false)))

end Irods.GenQuery1Tables
