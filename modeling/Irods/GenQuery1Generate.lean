import Irods.GenQuery1Conditions

/-! generateSQL of general_query.cpp for PostgreSQL, the access restrictions it appends, and the
part of chl_gen_query_impl up to the statement with its bound values. -/
namespace Irods.GenQuery1Generate
open CText StringOpr StaticMemory GenQuery1Setup GenQuery1Tables GenQuery1Conditions

def NO_DISTINCT : Nat := 0x40
def QUOTA_QUERY : Nat := 0x80
def UPPER_CASE_WHERE : Nat := 0x200
def COL_USER_NAME : Nat := 202
def COL_R_RESC_NAME : Nat := 302
def COL_DATA_NAME : Nat := 403
def COL_DATA_REPL_NUM : Nat := 404
def COL_COLL_NAME : Nat := 501
def COL_META_DATA_ATTR_NAME : Nat := 600
def COL_META_COLL_ATTR_NAME : Nat := 610
def COL_META_RESC_ATTR_NAME : Nat := 630
def COL_META_USER_ATTR_NAME : Nat := 640
def COL_META_RESC_GROUP_ATTR_NAME : Nat := 650
def LOCAL_PRIV_USER_AUTH : Int := 5
def ANONYMOUS_USER : Text := lit "anonymous"

/- Columns with their flags, conditions with their texts, options and row offset. -/
structure GenQueryInp where
  selects : List (Nat × Nat)
  conditions : List (Nat × Text)
  options : Nat
  rowOffset : Int
  nulFree : ∀ c ∈ conditions, NUL ∉ c.2

structure Session where
  accessControlUserName : Text
  accessControlZone : Text
  accessControlPriv : Int
  accessControlControlFlag : Int
  sessionTicket : Text
  deriving DecidableEq, Repr

def startQuery (options : Nat) : Query where
  selectSQL := if options &&& NO_DISTINCT != 0 then lit "select " else lit "select distinct "
  fromSQL := lit "from "
  whereSQL := lit "where "
  groupBySQL := lit "group by "
  selectSQLInitFlag := true
  doUpperCase := options &&& UPPER_CASE_WHERE != 0
  mightNeedGroupBy := false
  fromCount := 0
  flag := fun _ => 0
  nToFind := 0

structure Started where
  st : State
  startingTable : Nat

def selectColumns (s : Setup) (r : Started) : List (Nat × Nat) → Outcome Started
  | [] => .done r
  | (inx,value)::rest =>
    match setTable s r.st.q inx true (value &&& 0xf) false with
    | (.error _,_) => .failed CAT_UNKNOWN_TABLE r.st.b
    | (.ok table,q) =>
      selectColumns s ⟨{ r.st with q := q },if cyclerOf s table < 1 ∨
        r.startingTable = 0 then table else r.startingTable⟩ rest

/- n< n> and n= ask for a cast; the n is cleared in the condition. -/
def castSpecified (condition : Text) : Bool :=
  match condition.dropWhile (fun c => c == ' ') with
  | 'n'::c::_ => c == '<' || c == '>' || c == '='
  | _ => false

def clearCast (condition : Text) : Text :=
  condition.takeWhile (fun c => c == ' ') ++ ' '::(condition.dropWhile (fun c => c == ' ')).tail

def effectiveCondition (condition : Text) : Text := if castSpecified condition then clearCast condition else condition

def insertCondition (s : Setup) (st : State) (condition : Text) (prevWhereLen : Nat) : Outcome State :=
  if compoundConditionSpecified condition then handleCompoundCondition s st condition prevWhereLen
  else insertWhere s st condition

def addCondition (s : Setup) (r : Started) (inx : Nat) (value : Text) : Outcome Started :=
  match setTable s r.st.q inx false 0 (castSpecified value) with
  | (.error _,_) => .failed CAT_UNKNOWN_TABLE r.st.b
  | (.ok table,q) => do
    let st ← insertCondition s { r.st with q := q } (effectiveCondition value) r.st.q.whereSQL.length
    .done ⟨st,if cyclerOf s table < 1 then table else r.startingTable⟩

def addConditions (s : Setup) (r : Started) : List (Nat × Text) → Outcome Started
  | [] => .done r
  | (inx,value)::rest => do
    let r ← addCondition s r inx value
    addConditions s r rest

def conditionsOn (inp : GenQueryInp) (column : Nat) : Nat := (inp.conditions.filter (fun c => c.1 == column)).length

def linkTables (s : Setup) (r : Started) : Outcome State :=
  match tScan s (s.tables.length+1) r.startingTable none r.st.q with
  | none => .undefined
  | some (keepVal,q) =>
    if keepVal ≠ 1 ∨ q.nToFind ≠ 0 then .failed CAT_FAILED_TO_LINK_TABLES r.st.b else .done { r.st with q := q }

def multiConditions (inp : GenQueryInp) (st : State) : Outcome State :=
  let dataConditions := conditionsOn inp COL_META_DATA_ATTR_NAME
  let collConditions := conditionsOn inp COL_META_COLL_ATTR_NAME
  let q := if dataConditions > 1 then handleMultiDataAVUConditions dataConditions st.q else st.q
  let q := if collConditions > 1 then handleMultiCollAVUConditions collConditions q else q
  if conditionsOn inp COL_META_USER_ATTR_NAME > 1 ∨ conditionsOn inp COL_META_RESC_ATTR_NAME > 1 ∨
      conditionsOn inp COL_META_RESC_GROUP_ATTR_NAME > 1 then .failed CAT_INVALID_ARGUMENT st.b
  else .done { st with q := q }

structure Restriction where
  clause : Text
  pointers : List BindPtr

def ticketOwner : Restriction := ⟨lit "R_TICKET_MAIN.user_id in (select user_id from R_USER_MAIN UM where " ++
  lit "UM.user_name = ? AND UM.zone_name=?)",[.userName,.zone]⟩

def readable (table id : Text) : Restriction := ⟨table ++ lit "." ++ id ++
    lit " in (select object_id from R_OBJT_ACCESS OA, R_USER_GROUP UG, R_USER_MAIN " ++
    lit "UM, R_TOKN_MAIN TM where UM.user_name=? and UM.zone_name=? and " ++
    lit "UM.user_type_name!='rodsgroup' and UM.user_id = UG.user_id and UG.group_user_id = OA.user_id " ++
    lit "and OA.object_id = " ++ table ++ lit "." ++ id ++ lit " and OA.access_type_id >= TM.token_id and " ++
    lit "TM.token_namespace ='access_type' and TM.token_name = 'read_object')",[.userName,.zone]⟩

def R_DATA_MAIN : Text := lit "R_DATA_MAIN"
def R_COLL_MAIN : Text := lit "R_COLL_MAIN"
def readableData : Restriction := readable R_DATA_MAIN (lit "data_id")
def readableColl : Restriction := readable R_COLL_MAIN (lit "coll_id")

def ticketCollTest : Text :=
  lit "R_COLL_MAIN.coll_id in (select object_id from R_TICKET_MAIN TICK where TICK.ticket_string=?) OR " ++
  lit "R_COLL_MAIN.coll_name LIKE (select (coll_name || '/%') from R_COLL_MAIN where coll_id in (select " ++
  lit "object_id from R_TICKET_MAIN TICK where TICK.ticket_string=?)))"

def ticketData : Restriction := ⟨lit "( R_DATA_MAIN.data_id in (select object_id from R_TICKET_MAIN TICK where " ++
  lit "TICK.ticket_string=?) OR " ++ ticketCollTest,[.ticket,.ticket,.ticket]⟩

def ticketColl : Restriction := ⟨lit "( " ++ ticketCollTest,[.ticket,.ticket]⟩

def restrict (r : Restriction) (st : State) : Bool × State :=
  let separator := rstrcats st.q.whereSQL MAX_SQL_SIZE_GQ (separated (decide (6 < st.q.whereSQL.length)) (lit " AND "))
  if separator.2 then
    let w := rstrcats separator.1 MAX_SQL_SIZE_GQ [r.clause]
    (w.2,⟨{ st.q with whereSQL := w.1 },{ st.b with cllBindVars := st.b.cllBindVars ++ r.pointers }⟩)
  else (false,st)

def restrictIf (needed : Query → Bool) (r : Restriction) (x : Bool × State) : Bool × State :=
  if x.1 && needed x.2.q then restrict r x.2 else x

def mentions (table : Text) (q : Query) : Bool := (strstr q.selectSQL table).isSome || (strstr q.whereSQL table).isSome

def selectsTicket (q : Query) : Bool :=
  (strstr q.selectSQL (lit "ticket_string")).isSome && (strstr q.selectSQL (lit "R_TICKET_MAIN")).isSome

def restricted (sess : Session) : Bool :=
  decide (1 < sess.accessControlControlFlag) || strncmpZero MAX_NAME_LEN sess.accessControlUserName ANONYMOUS_USER

def genqAppendAccessCheck (sess : Session) (st : State) : Int × State :=
  if sess.accessControlPriv = LOCAL_PRIV_USER_AUTH then (0,st)
  else if st.b.cllBindVars.length+6 ≥ MAX_BIND_VARS then (CAT_BIND_VARIABLE_LIMIT_EXCEEDED,st)
  else
    let owner := restrictIf selectsTicket ticketOwner (true,st)
    let all :=
      if !restricted sess then owner
      else if sess.sessionTicket.isEmpty then
        restrictIf (mentions R_COLL_MAIN) readableColl (restrictIf (mentions R_DATA_MAIN) readableData owner)
      else if mentions R_DATA_MAIN owner.2.q then restrictIf (mentions R_DATA_MAIN) ticketData owner
      else restrictIf (mentions R_COLL_MAIN) ticketColl owner
    (if all.1 then 0 else USER_STRLEN_TOOLONG,all.2)

def orderByClause (s : Setup) (selects : List (Nat × Nat)) : Text :=
  setOrderBy s selects COL_DATA_REPL_NUM (setOrderBy s selects COL_DATA_NAME (setOrderBy s selects COL_COLL_NAME
    (setOrderByUser s selects (lit " order by "))))

def tailTexts (s : Setup) (inp : GenQueryInp) (q : Query) : List Text :=
  (if 6 < q.whereSQL.length then [lit " ",q.whereSQL] else []) ++
  (if q.mightNeedGroupBy ∧ 10 < q.groupBySQL.length then [lit " ",q.groupBySQL] else []) ++
  (if 10 < (orderByClause s inp.selects).length then [orderByClause s inp.selects] else [])

def bindOffset (inp : GenQueryInp) (st : State) : State :=
  { st with b := { st.b with
    cllBindVars := st.b.cllBindVars ++ [.offsetStr]
    offsetStr := Nat.toDigits 10 inp.rowOffset.toNat } }

def assemble (s : Setup) (sess : Session) (inp : GenQueryInp) (st : State) : Outcome (Text × State) :=
  let head := rstrcats [] MAX_SQL_SIZE_GQ [st.q.selectSQL,lit " ",st.q.fromSQL]
  if !head.2 then .failed USER_STRLEN_TOOLONG st.b
  else
    let st := (genqAppendAccessCheck sess st).2
    let body := rstrcats head.1 MAX_SQL_SIZE_GQ (tailTexts s inp st.q)
    if !body.2 then .failed USER_STRLEN_TOOLONG st.b
    else if 0 < inp.rowOffset then
      let full := rstrcats body.1 MAX_SQL_SIZE_GQ [lit " offset ?"]
      if full.2 then .done (full.1,bindOffset inp st) else .failed USER_STRLEN_TOOLONG (bindOffset inp st).b
    else .done (body.1,st)

def startBinds (b : Binds) : Binds := { b with bindIx := 0, inStrIx := 0 }

def clientQuery (s : Setup) (b : Binds) (inp : GenQueryInp) : Outcome State := do
  let r ← selectColumns s ⟨⟨startQuery inp.options,startBinds b⟩,0⟩ inp.selects
  let r ← addConditions s { r with st := { r.st with b := { r.st.b with conditionsForBindIx := 0 } } } inp.conditions
  let st ← linkTables s r
  multiConditions inp st

def generateSQL (s : Setup) (sess : Session) (b : Binds) (inp : GenQueryInp) : Outcome (Text × State) := do
  let st ← clientQuery s b inp
  assemble s sess inp st

/- The string a bind pointer points to; nothing can be said of a string that was destroyed. -/
def deref (sess : Session) (b : Binds) : BindPtr → Option Text
  | .bindVar p => some (fetch b.bindVars (MAX_SQL_SIZE_GQ+100-p) p)
  | .inString p => some (fetch b.inStrings (MAX_SQL_SIZE_GQ*2-p) p)
  | .betweenString p => some (fetch b.betweenStrings (MAX_SQL_SIZE_GQ-p) p)
  | .parent i => b.inStringVec[i]?
  | .dangling => none
  | .userName => some sess.accessControlUserName
  | .zone => some sess.accessControlZone
  | .ticket => some sess.sessionTicket
  | .offsetStr => some b.offsetStr
  | .quotaUser => some b.quotaUser
  | .quotaZone => some b.quotaZone
  | .quotaResc => some b.quotaResc

def boundValues (sess : Session) (b : Binds) : List (Option Text) := b.cllBindVars.map (deref sess b)

def LONG_NAME_LEN : Nat := 256
def USER_INVALID_USERNAME_FORMAT : Int := -319000

def parseUserName (fullUserName : Text) : Option (Text × Text) :=
  let user := fullUserName.takeWhile (fun c => c != '#')
  let zone := (fullUserName.dropWhile (fun c => c != '#')).tail
  if '#' ∈ zone ∨ user.length ≥ NAME_LEN ∨ zone.length ≥ NAME_LEN then none else some (user,zone)

def quotaUserPointers : List BindPtr := [.quotaUser,.quotaZone,.quotaUser,.quotaZone,.quotaUser,.quotaZone]

def quotaRescPointers : List BindPtr :=
  [.quotaResc,.quotaUser,.quotaZone,.quotaResc,.quotaUser,.quotaZone,.quotaResc,.quotaUser,.quotaZone]

def quotaUsers (localZone : Text) (b : Binds) : List Text → Outcome Binds
  | [] => .done b
  | value::rest =>
    match parseUserName value with
    | none => .failed USER_INVALID_USERNAME_FORMAT { b with quotaUser := [], quotaZone := [] }
    | some (user,zone) => quotaUsers localZone { b with
        quotaUser := user
        quotaZone := if zone.isEmpty then boundedCopy NAME_LEN localZone else zone
        cllBindVars := b.cllBindVars ++ quotaUserPointers } rest

def quotaQuery1 : Text :=
  text "(SELECT DISTINCT QM.user_id, RM.resc_name, QM.quota_limit, QM.quota_over, QM.resc_id FROM R_QUOTA_MAIN " ++
  text "QM, R_RESC_MAIN RM, R_USER_GROUP UG, R_USER_MAIN UM2 WHERE QM.resc_id = RM.resc_id AND (QM.user_id = " ++
  text "UG.group_user_id AND UM2.user_name = ? AND UM2.zone_name = ? AND UG.user_id = UM2.user_id)) UNION " ++
  text "(SELECT DISTINCT QM.user_id, RM.resc_name, QM.quota_limit, QM.quota_over, QM.resc_id FROM R_QUOTA_MAIN " ++
  text "QM, R_USER_GROUP UG, R_USER_MAIN UM2, R_RESC_MAIN RM WHERE QM.resc_id = '0' AND (QM.user_id = " ++
  text "UG.group_user_id AND UM2.user_name = ? AND UM2.zone_name = ? AND UG.user_id = UM2.user_id)) UNION " ++
  text "(SELECT DISTINCT QM.user_id, RM.resc_name, QM.quota_limit, QM.quota_over, QM.resc_id FROM R_QUOTA_MAIN " ++
  text "QM, R_USER_MAIN UM, R_RESC_MAIN RM WHERE (QM.resc_id = RM.resc_id OR QM.resc_id = '0') AND (QM.user_id = " ++
  text "UM.user_id AND UM.user_name = ? AND UM.zone_name = ?)) ORDER BY quota_over ASC"

def quotaQuery2 : Text :=
  text "(SELECT DISTINCT QM.user_id, RM.resc_name, QM.quota_limit, QM.quota_over, QM.resc_id FROM R_QUOTA_MAIN " ++
  text "QM, R_RESC_MAIN RM, R_USER_GROUP UG, R_USER_MAIN UM2 WHERE QM.resc_id = RM.resc_id AND RM.resc_name = ? " ++
  text "AND (QM.user_id = UG.group_user_id AND UM2.user_name = ? AND UM2.zone_name = ? AND UG.user_id = " ++
  text "UM2.user_id)) UNION (SELECT DISTINCT QM.user_id, RM.resc_name, QM.quota_limit, QM.quota_over, QM.resc_id " ++
  text "FROM R_QUOTA_MAIN QM, R_USER_GROUP UG, R_USER_MAIN UM2, R_RESC_MAIN RM WHERE QM.resc_id = '0' AND " ++
  text "RM.resc_name = ? AND (QM.user_id = UG.group_user_id AND UM2.user_name = ? AND UM2.zone_name = ? AND " ++
  text "UG.user_id = UM2.user_id)) UNION (SELECT DISTINCT QM.user_id, RM.resc_name, QM.quota_limit, " ++
  text "QM.quota_over, QM.resc_id FROM R_QUOTA_MAIN QM, R_USER_MAIN UM, R_RESC_MAIN RM WHERE (QM.resc_id = " ++
  text "RM.resc_id OR QM.resc_id = '0') AND RM.resc_name = ? AND (QM.user_id = UM.user_id AND UM.user_name = ? " ++
  text "AND UM.zone_name = ?)) ORDER BY quota_over ASC"

/- The pointers for a resource overwrite those for the user from where the bind list started. -/
def generateSpecialQuery (localZone : Text) (b : Binds) (inp : GenQueryInp) : Outcome (Text × Binds) :=
  let users := (inp.conditions.filter (fun c => c.1 == COL_USER_NAME)).map Prod.snd
  let rescs := (inp.conditions.filter (fun c => c.1 == COL_R_RESC_NAME)).map Prod.snd
  match quotaUsers localZone b users with
  | .failed code b => .failed code b
  | .undefined => .undefined
  | .done u =>
    if users.isEmpty then .failed CAT_INVALID_ARGUMENT u
    else match rescs.getLast? with
      | none => .done (quotaQuery1,u)
      | some value => .done (quotaQuery2,{ u with
          quotaResc := boundedCopy LONG_NAME_LEN value
          cllBindVars := b.cllBindVars ++ (List.replicate rescs.length quotaRescPointers).flatten })

/- An error before anything is executed, or the statement and the values bound to it. -/
inductive Reply where
  | rejected (code : Int)
  | sent (sql : Text) (values : List (Option Text))
  deriving DecidableEq, Repr

def execute (sess : Session) : Outcome (Text × Binds) → Option (Reply × Binds)
  | .done (sql,b) => some (.sent sql (boundValues sess b),{ b with cllBindVars := [] })
  | .failed code b => some (.rejected code,b)
  | .undefined => none

def chlGenQuery (s : Setup) (localZone : Text) (sess : Session) (b : Binds) (inp : GenQueryInp) :
    Option (Reply × Binds) :=
  if inp.options &&& QUOTA_QUERY != 0 then execute sess (generateSpecialQuery localZone b inp)
  else execute sess (do
    let r ← generateSQL s sess b inp
    .done (r.1,r.2.b))

end Irods.GenQuery1Generate
