import Irods.SqlText
import Irods.GenQuery2Columns

/-! to_sql of genquery2_sql.cpp. The SQL is kept as the pieces it is formatted from: text of
the generator, and values between single quotes. An exception is an error; every error ends
in the pair of an empty SQL text and no values. -/
namespace Irods.GenQuery2Sql
open CText SqlText GenQuery2Ast GenQuery2Columns

inductive Error where
  | unknownColumn (name : Text)
  | noSuchKey (table : Text)
  | unsupportedTable (table : Text)
  | noColumnsSelected
  | distinctOutsideSelect
  | noTables
  | invalidGeneralQuery
  deriving DecidableEq, Repr

structure State where
  astColumns : List Column
  sqlTables : List Text
  tableAliases : List (Text × Text)
  values : List Text
  tableAliasId : Nat
  inSelectClause : Bool
  addJoinsForMetaData : Bool
  addJoinsForMetaColl : Bool
  addJoinsForMetaResc : Bool
  addJoinsForMetaUser : Bool
  addSqlForDataRescHier : Bool
  deriving DecidableEq, Repr

def emptyState : State := ⟨[],[],[],[],0,false,false,false,false,false,false⟩

/- A zone is created only under a name that is_zone_name_valid accepts, and the user zone is the
zone of an authenticated client. -/
def isZoneNameValid (t : Text) : Bool := !t.isEmpty && t.all (fun c => c.isAlphanum || c == '_' || c == '.')

structure Options where
  userName : Text
  userZone : Text
  database : Text
  defaultNumberOfRows : UInt16
  adminMode : Bool
  zoneValid : isZoneNameValid userZone = true
  deriving DecidableEq, Repr

def decimal (n : Nat) : Text := Nat.toDigits 10 n
def DATA : Text := text "R_DATA_MAIN"
def COLL : Text := text "R_COLL_MAIN"
def RESC : Text := text "R_RESC_MAIN"
def USER : Text := text "R_USER_MAIN"

def aliasAt (st : State) (table : Text) : Except Error Text :=
  match st.tableAliases.lookup table with
  | some found => .ok found
  | none => .error (.noSuchKey table)

def addTable (st : State) (table : Text) : State :=
  if table ∈ st.sqlTables then st else
  { st with
    sqlTables := st.sqlTables ++ [table]
    tableAliases := (table,text "t" ++ decimal st.tableAliasId)::st.tableAliases
    tableAliasId := st.tableAliasId+1 }

def startsWith (name : Text) (head : String) : Bool := (text head).isPrefixOf name

structure Special where
  tableAlias : Text
  base : Text
  mark : State → State

/- The columns that use predefined aliases: the alias, the table they hang on and the flag they
set. DATA_ACCESS_TIME is an ordinary column. -/
def special (name : Text) : Option Special :=
  if startsWith name "META_DATA_ATTACHED_" then
    some ⟨text "ommd",DATA,fun st => { st with addJoinsForMetaData := true }⟩
  else if startsWith name "META_COLL_ATTACHED_" then
    some ⟨text "ommc",COLL,fun st => { st with addJoinsForMetaColl := true }⟩
  else if startsWith name "META_RESC_ATTACHED_" then
    some ⟨text "ommr",RESC,fun st => { st with addJoinsForMetaResc := true }⟩
  else if startsWith name "META_USER_ATTACHED_" then
    some ⟨text "ommu",USER,fun st => { st with addJoinsForMetaUser := true }⟩
  else if startsWith name "META_D" then some ⟨text "mmd",DATA,fun st => { st with addJoinsForMetaData := true }⟩
  else if startsWith name "META_C" then some ⟨text "mmc",COLL,fun st => { st with addJoinsForMetaColl := true }⟩
  else if startsWith name "META_R" then some ⟨text "mmr",RESC,fun st => { st with addJoinsForMetaResc := true }⟩
  else if startsWith name "META_U" then some ⟨text "mmu",USER,fun st => { st with addJoinsForMetaUser := true }⟩
  else if startsWith name "DATA_ACCESS_" && name != text "DATA_ACCESS_TIME" then
    if name = text "DATA_ACCESS_PERM_NAME" then some ⟨text "pdt",DATA,id⟩
    else if name = text "DATA_ACCESS_USER_NAME" ∨ name = text "DATA_ACCESS_USER_ZONE" ∨
    name = text "DATA_ACCESS_USER_TYPE" then
      some ⟨text "pdu",DATA,id⟩
    else some ⟨text "pdoa",DATA,id⟩
  else if startsWith name "COLL_ACCESS_" then
    if name = text "COLL_ACCESS_PERM_NAME" then some ⟨text "pct",COLL,id⟩
    else if name = text "COLL_ACCESS_USER_NAME" ∨ name = text "COLL_ACCESS_USER_ZONE" ∨
    name = text "COLL_ACCESS_USER_TYPE" then
      some ⟨text "pcu",COLL,id⟩
    else some ⟨text "pcoa",COLL,id⟩
  else if name = text "DATA_RESC_HIER" then
    some ⟨text "cte_drh",RESC,fun st => { st with addSqlForDataRescHier := true }⟩
  else none

def setupColumnForPostProcessing (st : State) (name : Text) (info : ColumnInfo) : Option Text × State :=
  match special name with
  | some s => (some s.tableAlias,if info.table ∈ st.sqlTables then s.mark st else addTable (s.mark st) s.base)
  | none => (none,addTable st info.table)

-- The tests come in another order than in setup_column_for_post_processing.
def getSpecialTableAliasForColumn (name : Text) : Option Text :=
  if startsWith name "META_DATA_ATTACHED_" then some (text "ommd")
  else if startsWith name "META_COLL_ATTACHED_" then some (text "ommc")
  else if startsWith name "META_RESC_ATTACHED_" then some (text "ommr")
  else if startsWith name "META_USER_ATTACHED_" then some (text "ommu")
  else if startsWith name "META_D" then some (text "mmd")
  else if startsWith name "META_C" then some (text "mmc")
  else if startsWith name "META_R" then some (text "mmr")
  else if startsWith name "META_U" then some (text "mmu")
  else if name = text "DATA_RESC_HIER" then some (text "cte_drh")
  else if startsWith name "DATA_ACCESS_" && name != text "DATA_ACCESS_TIME" then
    let tail := name.drop 12
    if tail = text "PERM_NAME" then some (text "pdt")
    else if tail = text "USER_NAME" ∨ tail = text "USER_ZONE" ∨ tail = text "USER_TYPE" then some (text "pdu")
    else some (text "pdoa")
  else if startsWith name "COLL_ACCESS_" then
    let tail := name.drop 12
    if tail = text "PERM_NAME" then some (text "pct")
    else if tail = text "USER_NAME" ∨ tail = text "USER_ZONE" ∨ tail = text "USER_TYPE" then some (text "pcu")
    else some (text "pcoa")
  else none

def columnText (tableAlias name typeName : Text) : Text :=
  if typeName = [] then tableAlias ++ text "." ++ name
  else text "cast(" ++ tableAlias ++ text "." ++ name ++ text " as " ++ typeName ++ text ")"

def aliasOf (st : State) (fixed : Option Text) (table : Text) : Except Error Text :=
  match fixed with
  | some a => .ok a
  | none => aliasAt st table

def toSqlColumn (st : State) (c : Column) : Except Error (List Piece × State) :=
  match columnNameMappings.lookup c.name with
  | none => .error (.unknownColumn c.name)
  | some info =>
    let next := setupColumnForPostProcessing { st with astColumns := st.astColumns ++ [c] } c.name info
    match aliasOf next.2 next.1 info.table with
    | .error e => .error e
    | .ok a => .ok ([.raw (columnText a info.name c.typeName)],next.2)

def joinPieces (separator : Text) : List (List Piece) → List Piece
  | [] => []
  | [p] => p
  | p::ps => p ++ .raw separator::joinPieces separator ps

def functionCall (name : Text) (distinct : Bool) (args : List (List Piece)) : List Piece :=
  .raw (name ++ text (if distinct then "(distinct " else "("))::joinPieces (text ", ") args ++ [.raw (text ")")]

mutual
def toSqlArgument (st : State) : Argument → Except Error (List Piece × State)
  | .literal v => .ok ([.quoted v],st)
  | .column c => toSqlColumn st c
  | .function name args distinct =>
    match toSqlArguments st args with
    | .error e => .error e
    | .ok (ps,st) =>
      if distinct && !st.inSelectClause then .error .distinctOutsideSelect else .ok (functionCall name distinct ps,st)

def toSqlArguments (st : State) : List Argument → Except Error (List (List Piece) × State)
  | [] => .ok ([],st)
  | a::as =>
    match toSqlArgument st a with
    | .error e => .error e
    | .ok (p,st) =>
      match toSqlArguments st as with
      | .error e => .error e
      | .ok (ps,st) => .ok (p::ps,st)
end

def toSqlProjection (st : State) : Projection → Except Error (List Piece × State)
  | .function f => toSqlArgument st (.function f.name f.arguments f.distinct)
  | .column c => toSqlColumn st c

def toSqlEach (st : State) : List Projection → Except Error (List (List Piece) × State)
  | [] => .ok ([],st)
  | p::ps =>
    match toSqlProjection st p with
    | .error e => .error e
    | .ok (q,st) =>
      match toSqlEach st ps with
      | .error e => .error e
      | .ok (qs,st) => .ok (q::qs,st)

def toSqlProjections (st : State) (ps : List Projection) : Except Error (List Piece × State) :=
  if ps.isEmpty then .error .noColumnsSelected
  else match toSqlEach { st with inSelectClause := true, sqlTables := [] } ps with
    | .error e => .error e
    | .ok (cols,st) => .ok (joinPieces (text ", ") cols,{ st with inSelectClause := false })

def bindValues (st : State) (vs : List Text) : State := { st with values := st.values ++ vs }

def placeholders : Nat → Text
  | 0 => []
  | 1 => text "?"
  | n+2 => text "?, " ++ placeholders (n+1)

def toSqlExpression (st : State) : ConditionExpression → List Piece × State
  | .like v => ([.raw (text " like ?")],bindValues st [v])
  | .inList vs => ([.raw (text " in (" ++ placeholders vs.length ++ text ")")],bindValues st vs)
  | .between low high => ([.raw (text " between ? and ?")],bindValues st [low,high])
  | .equal v => ([.raw (text " = ?")],bindValues st [v])
  | .notEqual v => ([.raw (text " != ?")],bindValues st [v])
  | .lessThan v => ([.raw (text " < ?")],bindValues st [v])
  | .lessThanOrEqualTo v => ([.raw (text " <= ?")],bindValues st [v])
  | .greaterThan v => ([.raw (text " > ?")],bindValues st [v])
  | .greaterThanOrEqualTo v => ([.raw (text " >= ?")],bindValues st [v])
  | .isNull => ([.raw (text " is null")],st)
  | .isNotNull => ([.raw (text " is not null")],st)
  | .operatorNot e => (.raw (text " not")::(toSqlExpression st e).1,(toSqlExpression st e).2)

def toSqlCondition (st : State) (c : Condition) : Except Error (List Piece × State) :=
  match toSqlProjection st c.lhs with
  | .error e => .error e
  | .ok (p,st) => .ok (p ++ (toSqlExpression st c.expression).1,(toSqlExpression st c.expression).2)

def wrapped (before after : String) : Except Error (List Piece × State) → Except Error (List Piece × State)
  | .error e => .error e
  | .ok (p,st) => .ok (.raw (text before)::p ++ [.raw (text after)],st)

mutual
def toSqlWrapper (st : State) : ConditionWrapper → Except Error (List Piece × State)
  | .logicalAnd cs => wrapped " and " "" (toSqlConditions st cs)
  | .logicalOr cs => wrapped " or " "" (toSqlConditions st cs)
  | .logicalNot cs => wrapped "not " "" (toSqlConditions st cs)
  | .logicalGrouping cs => wrapped "(" ")" (toSqlConditions st cs)
  | .condition c => toSqlCondition st c

def toSqlConditions (st : State) : List ConditionWrapper → Except Error (List Piece × State)
  | [] => .ok ([],st)
  | c::cs =>
    match toSqlWrapper st c with
    | .error e => .error e
    | .ok (p,st) =>
      match toSqlConditions st cs with
      | .error e => .error e
      | .ok (q,st) => .ok (p ++ q,st)
end

/- The graph is undirected. -/
def edgeBetween (a b : Text) : Option Edge :=
  tableEdges.find? (fun e => (e.first = a ∧ e.second = b) ∨ (e.first = b ∧ e.second = a))

def getTableJoin (st : State) (a b : Text) : Except Error (Option Text) := do
  if a ∉ tableNames then throw (.unsupportedTable a)
  if b ∉ tableNames then throw (.unsupportedTable b)
  match edgeBetween a b with
  | none => return none
  | some e =>
    let joined ← aliasAt st b
    let first ← aliasAt st e.first
    let second ← aliasAt st e.second
    return some (text "inner join " ++ b ++ text " " ++ joined ++ text " on " ++
      first ++ text "." ++ e.firstColumn ++ text " = " ++ second ++ text "." ++ e.secondColumn)

structure Joined where
  joins : List Text
  processed : List Text
  remaining : List Text
  deriving DecidableEq, Repr

def joinPass (st : State) (last : Text) (joins processed : List Text) : List Text → Except Error Joined
  | [] => .ok ⟨joins,processed,[]⟩
  | t::ts =>
    match getTableJoin st last t with
    | .error e => .error e
    | .ok (some j) => joinPass st last (joins ++ [j]) (processed ++ [t]) ts
    | .ok none =>
      match joinPass st last joins processed ts with
      | .error e => .error e
      | .ok r => .ok { r with remaining := t::r.remaining }

def joinPasses (st : State) : Nat → Joined → Except Error Joined
  | 0,r => .ok r
  | n+1,r =>
    match joinPass st (r.processed.getLastD []) r.joins r.processed r.remaining with
    | .error e => .error e
    | .ok r => joinPasses st n r

def generateInnerJoins (st : State) : Except Error (List Text) :=
  match st.sqlTables with
  | [] => .ok []
  | t::ts =>
    match joinPasses st ts.length ⟨[],[t],ts⟩ with
    | .error e => .error e
    | .ok r => .ok r.joins

def uses (st : State) (p : Text → Bool) : Bool := st.astColumns.any (fun c => p c.name)

/- Of one kind of object: the column names, its id column, its aliases. -/
structure Access where
  table : Text
  columns : String
  idColumn : Text
  objt : Text
  tokn : Text
  group : Text
  user : Text

def collAccess : Access := ⟨COLL,"COLL_ACCESS_",text "coll_id",text "pcoa",text "pct",text "pcug",text "pcu"⟩
def dataAccess : Access := ⟨DATA,"DATA_ACCESS_",text "data_id",text "pdoa",text "pdt",text "pdug",text "pdu"⟩

def accessJoins (st : State) (keyword : Text) (a : Access) : Text :=
  match st.tableAliases.lookup a.table with
  | none => []
  | some found =>
    let objtJoin := text " " ++ keyword ++ text " join R_OBJT_ACCESS " ++ a.objt ++ text " on " ++ found ++ text "." ++
      a.idColumn ++ text " = " ++ a.objt ++ text ".object_id"
    let named (tail : String) (name : Text) := name == text a.columns ++ text tail
    let objt := uses st (fun n => named "PERM_ID" n || named "USER_ID" n)
    let tokn := uses st (named "PERM_NAME")
    let user := uses st (fun n => !named "USER_ID" n && (text a.columns ++ text "USER_").isPrefixOf n)
    (if objt || tokn || user then objtJoin else []) ++
    (if tokn then text " " ++ keyword ++ text " join R_TOKN_MAIN " ++ a.tokn ++ text " on " ++ a.objt ++
      text ".access_type_id = " ++ a.tokn ++ text ".token_id" else []) ++
    (if user then text " " ++ keyword ++ text " join R_USER_GROUP " ++ a.group ++ text " on " ++ a.objt ++
      text ".user_id = " ++ a.group ++ text ".group_user_id " ++ keyword ++ text " join R_USER_MAIN " ++ a.user ++
      text " on " ++ a.group ++ text ".user_id = " ++ a.user ++ text ".user_id" else [])

def generateJoinsForPermissions (st : State) (opts : Options) : Text :=
  let keyword := text (if opts.adminMode then "left" else "inner")
  accessJoins st keyword collAccess ++ accessJoins st keyword dataAccess

def metadataJoin (st : State) (add : Bool) (table : Text) (idColumn map main : String) : Except Error Text :=
  if add then
    match aliasAt st table with
    | .error e => .error e
    | .ok a => .ok (text " left join R_OBJT_METAMAP " ++ text map ++ text " on " ++ a ++ text "." ++ text idColumn ++
        text " = " ++ text map ++ text ".object_id left join R_META_MAIN " ++ text main ++ text " on " ++ text map ++
        text ".meta_id = " ++ text main ++ text ".meta_id")
  else .ok []

def generateJoinsForMetadataColumns (st : State) : Except Error Text := do
  let d ← metadataJoin st st.addJoinsForMetaData DATA "data_id" "ommd" "mmd"
  let c ← metadataJoin st st.addJoinsForMetaColl COLL "coll_id" "ommc" "mmc"
  let r ← metadataJoin st st.addJoinsForMetaResc RESC "resc_id" "ommr" "mmr"
  let u ← metadataJoin st st.addJoinsForMetaUser USER "user_id" "ommu" "mmu"
  return d ++ c ++ r ++ u

def hierJoin (st : State) : Except Error Text :=
  if st.addSqlForDataRescHier then
    match aliasAt st RESC with
    | .error e => .error e
    | .ok a => .ok (text " inner join cte_drh on cte_drh.resc_id = " ++ a ++ text ".resc_id")
  else .ok []

def existsClause (before tableAlias idColumn zone : Text) : List Piece :=
  [.raw (text " " ++ before ++
    text " exists (select 1 from R_OBJT_ACCESS oa left join R_USER_GROUP ug on oa.user_id = " ++
      text "ug.group_user_id left join R_USER_MAIN u on ug.user_id = u.user_id where oa.object_id = " ++ tableAlias ++
      text "." ++ idColumn ++ text " and u.user_name = ? and u.zone_name = "),
    .quoted zone,.raw (text " and u.user_type_name != "),.quoted (text "rodsgroup"),
    .raw (text " and oa.access_type_id >= 1050)")]

def generateConditionClause (st : State) (opts : Options) (conds : List Piece) : List Piece × State :=
  let client : List Piece := if (render conds).isEmpty then [] else
    .raw (text " where (")::conds ++ [.raw (text ")")]
  let first := text (if (render conds).isEmpty then "where" else "and")
  if opts.adminMode then (client,st) else
  match st.tableAliases.lookup COLL,st.tableAliases.lookup DATA with
  | none,none => (client,st)
  | some c,none => (client ++ existsClause first c (text "coll_id") opts.userZone,bindValues st [opts.userName])
  | none,some d => (client ++ existsClause first d (text "data_id") opts.userZone,bindValues st [opts.userName])
  | some c,some d =>
    (client ++ existsClause first c (text "coll_id") opts.userZone ++
      existsClause (text "and") d (text "data_id") opts.userZone,bindValues st [opts.userName,opts.userName])

def clauseColumn (st : State) (c : Column) : Except Error (List Piece) :=
  match columnNameMappings.lookup c.name with
  | none => .error (.unknownColumn c.name)
  | some info =>
    match aliasOf st (getSpecialTableAliasForColumn c.name) info.table with
    | .error e => .error e
    | .ok a => .ok [.raw (columnText a info.name c.typeName)]

-- to_sql_for_order_or_group_by_clause: no state is changed and distinct is not refused.
mutual
def clauseArgument (st : State) : Argument → Except Error (List Piece)
  | .literal v => .ok [.quoted v]
  | .column c => clauseColumn st c
  | .function name args distinct =>
    match clauseArguments st args with
    | .error e => .error e
    | .ok ps => .ok (functionCall name distinct ps)

def clauseArguments (st : State) : List Argument → Except Error (List (List Piece))
  | [] => .ok []
  | a::as =>
    match clauseArgument st a with
    | .error e => .error e
    | .ok p =>
      match clauseArguments st as with
      | .error e => .error e
      | .ok ps => .ok (p::ps)
end

def clauseProjection (st : State) : Projection → Except Error (List Piece)
  | .function f => clauseArgument st (.function f.name f.arguments f.distinct)
  | .column c => clauseColumn st c

def clauseEach (st : State) : List (Projection × Text) → Except Error (List (List Piece))
  | [] => .ok []
  | (p,order)::ps =>
    match clauseProjection st p with
    | .error e => .error e
    | .ok q =>
      match clauseEach st ps with
      | .error e => .error e
      | .ok qs => .ok ((q ++ [.raw order])::qs)

def clause (st : State) (head : String) (ps : List (Projection × Text)) : Except Error (List Piece) :=
  if ps.isEmpty then .ok [] else
  match clauseEach st ps with
  | .error e => .error e
  | .ok qs => .ok (.raw (text head)::joinPieces (text ", ") qs)

def generateGroupByClause (st : State) (ps : List Projection) : Except Error (List Piece) :=
  clause st " group by " (ps.map (fun p => (p,[])))

def generateOrderByClause (st : State) (es : List SortExpression) : Except Error (List Piece) :=
  clause st " order by " (es.map (fun e => (e.expr,text (if e.ascendingOrder then " asc" else " desc"))))

def withClause (recursiveOp intType charType : String) : List Piece :=
  [.raw (text "with" ++ text recursiveOp ++
    text " cte_drh as (select resc_id, resc_name hier, case when resc_parent = "),
    .quoted [],
    .raw (text " then 0 else cast(resc_parent as " ++ text intType ++ text ") end parent_id from R_RESC_MAIN where " ++
      text "resc_id > 0 union all select cte_drh.resc_id, cast(concat(concat(U.resc_name, "),
    .quoted (text ";"),
    .raw (text "), cte_drh.hier) as " ++ text charType ++ text "(250)), case when U.resc_parent = "),
    .quoted [],
    .raw (text " then 0 else cast(U.resc_parent as " ++ text intType ++
      text ") end parent_id from cte_drh inner join " ++
      text "R_RESC_MAIN U on U.resc_id = cte_drh.parent_id) ")]

def generateWithClauseForDataRescHier (st : State) (database : Text) : List Piece :=
  if !st.addSqlForDataRescHier then []
  else if database = text "mysql" then withClause " recursive" "signed" "char"
  else if database = text "oracle" then withClause "" "integer" "varchar"
  else withClause " recursive" "bigint" "varchar"

def generateLimitClause (opts : Options) (numberOfRows : Text) : Text :=
  let rows := if numberOfRows.isEmpty then decimal opts.defaultNumberOfRows.toNat else numberOfRows
  if opts.database = text "mysql" then text " limit " ++ rows
  else text " fetch first " ++ rows ++ text " rows only"

def offsetClause (offset : Text) : Text := if offset.isEmpty then [] else text " offset " ++ offset

structure Gathered where
  cols : List Piece
  conds : List Piece
  state : State

def gather (s : Select) : Except Error Gathered :=
  match toSqlProjections emptyState s.projections with
  | .error e => .error e
  | .ok (cols,st) =>
    match toSqlConditions st s.conditions with
    | .error e => .error e
    | .ok (conds,st) => .ok ⟨cols,conds,st⟩

structure Clauses where
  first : Text
  firstAlias : Text
  joins : List Text
  metadata : Text
  hier : Text
  group : List Piece
  order : List Piece

def generateClauses (s : Select) (g : Gathered) : Except Error Clauses :=
  match g.state.sqlTables with
  | [] => .error .noTables
  | first::others => do
    let firstAlias ← aliasAt g.state first
    let joins ← generateInnerJoins g.state
    if joins.length ≠ others.length then throw .invalidGeneralQuery
    let metadata ← generateJoinsForMetadataColumns g.state
    let hier ← hierJoin g.state
    let group ← generateGroupByClause g.state s.groupBy
    let order ← generateOrderByClause g.state s.orderBy
    return ⟨first,firstAlias,joins,metadata,hier,group,order⟩

def statement (s : Select) (opts : Options) (g : Gathered) (c : Clauses) : List Piece :=
  generateWithClauseForDataRescHier g.state opts.database ++
  .raw (text "select " ++ text (if s.distinct then "distinct " else ""))::g.cols ++
  [.raw (text " from " ++ c.first ++ text " " ++ c.firstAlias ++ c.joins.flatMap (fun j => text " " ++ j) ++
    generateJoinsForPermissions g.state opts ++ c.metadata ++ c.hier)] ++
  (generateConditionClause g.state opts g.conds).1 ++ c.group ++ c.order ++
  [.raw (generateLimitClause opts s.range.numberOfRows ++ offsetClause s.range.offset)]

def generate (s : Select) (opts : Options) : Except Error (List Piece × List Text) :=
  match gather s with
  | .error e => .error e
  | .ok g =>
    match generateClauses s g with
    | .error e => .error e
    | .ok c => .ok (statement s opts g c,(generateConditionClause g.state opts g.conds).2.values)

def toSql (s : Select) (opts : Options) : Text × List Text :=
  match generate s opts with
  | .error _ => ([],[])
  | .ok (ps,vs) => (render ps,vs)

end Irods.GenQuery2Sql
