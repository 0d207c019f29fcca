import Irods.GenQuery2Statement

/-! Statements that differ in the contents of their literals only: the generator takes the same
path for both and writes the same pieces, up to the values between quotes. -/
namespace Irods.GenQuery2Masks
open CText SqlText GenQuery2Ast GenQuery2Columns GenQuery2Sql GenQuery2Literals GenQuery2Statement List Except Bool
    ConditionWrapper

def blanked (p : List Piece) : List Piece := p.map Piece.blank
def maskState (st : State) : State := { st with values := st.values.map (fun _ => []) }
def maskOne (r : List Piece × State) : List Piece × State := (blanked r.1,maskState r.2)
def maskMany (r : List (List Piece) × State) : List (List Piece) × State := (r.1.map blanked,maskState r.2)

theorem blankedAppend (p q) : blanked (p ++ q) = blanked p ++ blanked q := map_append

theorem blankedRaw (t p) : blanked (.raw t::p) = .raw t::blanked p := rfl

theorem joinBlanked (sep ps) :
    blanked (joinPieces sep ps) = joinPieces sep (ps.map blanked) := by
  induction ps with
  | nil => rfl
  | cons p ps ih =>
    cases ps with
    | nil => rfl
    | cons q _ =>
      rw [joinPieces,blankedAppend,blankedRaw,ih]
      · rfl
      · simp

theorem callBlanked (name distinct ps) :
    blanked (functionCall name distinct ps) = functionCall name distinct (ps.map blanked) := by
  unfold functionCall
  rw [cons_append,blankedRaw,blankedAppend,joinBlanked]
  rfl

theorem addTableMask (st table) : addTable (maskState st) table = maskState (addTable st table) := by
  unfold addTable
  rw [apply_ite maskState]
  rfl

theorem markMask {name s} (named : special name = some s) (st) : s.mark (maskState st) = maskState (s.mark st) := by
  obtain ⟨_,_,_,_,values,frame⟩ := specialBare name s named
  rw [maskState,frame,maskState,values]

theorem setupMask (st name info) :
    setupColumnForPostProcessing (maskState st) name info =
      ((setupColumnForPostProcessing st name info).1,maskState (setupColumnForPostProcessing st name info).2) := by
  unfold setupColumnForPostProcessing
  cases named : special name with
  | none => exact congrArg (Prod.mk none) (addTableMask st info.table)
  | some s =>
    dsimp only
    rw [markMask named,addTableMask,apply_ite maskState]
    rfl

theorem columnMask (st c) : toSqlColumn (maskState st) c = (toSqlColumn st c).map maskOne := by
  unfold toSqlColumn
  cases columnNameMappings.lookup c.name with
  | none => rfl
  | some info =>
    have setup := setupMask { st with astColumns := st.astColumns ++ [c] } c.name info
    dsimp only
    rw [show ({ maskState st with astColumns := (maskState st).astColumns ++ [c] } : State) =
      maskState { st with astColumns := st.astColumns ++ [c] } from rfl,setup]
    dsimp only
    rw [show ∀ x f t, aliasOf (maskState x) f t = aliasOf x f t from fun _ _ _ => rfl]
    split <;> rfl

mutual
theorem argumentMask (st a) :
    toSqlArgument (maskState st) a.mask = (toSqlArgument st a).map maskOne := by
  match a with
  | .literal v => rfl
  | .column c => exact columnMask st c
  | .function name args distinct =>
    rw [Argument.mask,toSqlArgument,toSqlArgument,argumentsMask]
    cases toSqlArguments st args with
    | error e => rfl
    | ok r =>
      change (if distinct && !r.2.inSelectClause then Except.error Error.distinctOutsideSelect
        else Except.ok (functionCall name distinct (r.1.map blanked),maskState r.2)) = _
      rw [← callBlanked,apply_ite (Except.map maskOne)]
      rfl

theorem argumentsMask (st as) :
    toSqlArguments (maskState st) (maskArguments as) = (toSqlArguments st as).map maskMany := by
  match as with
  | [] => rfl
  | a::as =>
    rw [maskArguments,toSqlArguments,toSqlArguments,argumentMask]
    cases toSqlArgument st a with
    | error e => rfl
    | ok r =>
      dsimp only [Except.map,maskOne]
      rw [argumentsMask]
      cases toSqlArguments r.2 as <;> rfl
end

theorem projectionMask (st p) :
    toSqlProjection (maskState st) p.mask = (toSqlProjection st p).map maskOne := by
  cases p with
  | column c => exact columnMask st c
  | function f => exact argumentMask st (.function f.name f.arguments f.distinct)

theorem eachMask (st ps) :
    toSqlEach (maskState st) (ps.map Projection.mask) = (toSqlEach st ps).map maskMany := by
  induction ps generalizing st with
  | nil => rfl
  | cons p ps ih =>
    rw [map_cons,toSqlEach,toSqlEach,projectionMask]
    cases toSqlProjection st p with
    | error e => rfl
    | ok r =>
      dsimp only [Except.map,maskOne]
      rw [ih]
      cases toSqlEach r.2 ps <;> rfl

theorem projectionsMask (st ps) :
    toSqlProjections (maskState st) (ps.map Projection.mask) = (toSqlProjections st ps).map maskOne := by
  unfold toSqlProjections
  rw [isEmpty_map]
  split
  · rfl
  rw [show ({ maskState st with inSelectClause := true, sqlTables := [] } : State) =
    maskState { st with inSelectClause := true, sqlTables := [] } from rfl,eachMask]
  cases toSqlEach { st with inSelectClause := true, sqlTables := [] } ps with
  | error e => rfl
  | ok r => exact congrArg (fun p => ok (p,_)) (joinBlanked (text ", ") r.1).symm

theorem bindMask (st vs) : bindValues (maskState st) (vs.map fun _ => []) = maskState (bindValues st vs) := by
  unfold bindValues maskState
  rw [map_append]

theorem expressionMask (st e) :
    toSqlExpression (maskState st) e.mask = maskOne (toSqlExpression st e) := by
  induction e with
  | inList _ =>
    rw [ConditionExpression.mask,toSqlExpression,bindMask,length_map]
    rfl
  | isNull => rfl
  | isNotNull => rfl
  | operatorNot e ih =>
    rw [ConditionExpression.mask,toSqlExpression,ih]
    rfl
  | between low high => exact congrArg (Prod.mk _) (bindMask st [low,high])
  | _ v => exact congrArg (Prod.mk _) (bindMask st [v])

theorem conditionMask (st c) :
    toSqlCondition (maskState st) c.mask = (toSqlCondition st c).map maskOne := by
  unfold toSqlCondition Condition.mask
  rw [projectionMask]
  cases toSqlProjection st c.lhs with
  | error e => rfl
  | ok r =>
    dsimp only [Except.map,maskOne]
    rw [expressionMask,blankedAppend]
    rfl

theorem wrappedMask (before after r) :
    wrapped before after (r.map maskOne) = (wrapped before after r).map maskOne := by
  cases r with
  | error e => rfl
  | ok r =>
    refine congrArg (fun p => ok (p,_)) ?_
    rw [cons_append,cons_append,blankedRaw,blankedAppend]
    rfl

mutual
theorem wrapperMask (st c) :
    toSqlWrapper (maskState st) c.mask = (toSqlWrapper st c).map maskOne := by
  match c with
  | .condition c => exact conditionMask st c
  | .logicalAnd cs => rw [mask,toSqlWrapper,toSqlWrapper,conditionsMask,wrappedMask]
  | .logicalOr cs => rw [mask,toSqlWrapper,toSqlWrapper,conditionsMask,wrappedMask]
  | .logicalNot cs => rw [mask,toSqlWrapper,toSqlWrapper,conditionsMask,wrappedMask]
  | .logicalGrouping _ => rw [mask,toSqlWrapper,toSqlWrapper,conditionsMask,wrappedMask]

theorem conditionsMask (st cs) :
    toSqlConditions (maskState st) (maskConditions cs) = (toSqlConditions st cs).map maskOne := by
  match cs with
  | [] => rfl
  | c::cs =>
    rw [maskConditions,toSqlConditions,toSqlConditions,wrapperMask]
    cases toSqlWrapper st c with
    | error e => rfl
    | ok r =>
      dsimp only [Except.map,maskOne]
      rw [conditionsMask]
      cases toSqlConditions r.2 cs with
      | error e => rfl
      | ok q => exact congrArg (fun p => Except.ok (p,_)) (blankedAppend r.1 q.1).symm
end

def maskGathered (g : Gathered) : Gathered := ⟨blanked g.cols,blanked g.conds,maskState g.state⟩
def maskClauses (c : Clauses) : Clauses := { c with group := blanked c.group, order := blanked c.order }

theorem gatherMask (s) : gather s.mask = (gather s).map maskGathered := by
  unfold gather Select.mask
  rw [show toSqlProjections emptyState _ = _ from projectionsMask emptyState s.projections]
  cases toSqlProjections emptyState s.projections with
  | error e => rfl
  | ok r =>
    dsimp only [Except.map,maskOne]
    rw [conditionsMask]
    cases toSqlConditions r.2 s.conditions <;> rfl

theorem joinPassFrame (st last joins processed ts) :
    joinPass (maskState st) last joins processed ts = joinPass st last joins processed ts := by
  induction ts generalizing joins processed with
  | nil => rfl
  | cons t _ ih =>
    rw [joinPass,joinPass,show getTableJoin (maskState st) last t = getTableJoin st last t from rfl]
    split
    · rfl
    · exact ih _ _
    · rw [ih]

theorem joinPassesFrame (st n r) : joinPasses (maskState st) n r = joinPasses st n r := by
  induction n generalizing r with
  | zero => rfl
  | succ n ih =>
    rw [joinPasses,joinPasses,joinPassFrame]
    split
    · rfl
    · exact ih _

theorem innerJoinsFrame (st) : generateInnerJoins (maskState st) = generateInnerJoins st := by
  unfold generateInnerJoins
  rw [show (maskState st).sqlTables = st.sqlTables from rfl]
  split
  · rfl
  · rw [joinPassesFrame]

theorem clauseColumnMask (st c) : clauseColumn (maskState st) c = (clauseColumn st c).map blanked := by
  unfold clauseColumn
  cases columnNameMappings.lookup c.name with
  | none => rfl
  | some info =>
    dsimp only
    rw [show aliasOf (maskState st) (getSpecialTableAliasForColumn c.name) info.table =
      aliasOf st (getSpecialTableAliasForColumn c.name) info.table from rfl]
    split <;> rfl

mutual
theorem clauseArgumentMask (st a) :
    clauseArgument (maskState st) a.mask = (clauseArgument st a).map blanked := by
  match a with
  | .literal v => rfl
  | .column c => exact clauseColumnMask st c
  | .function name args distinct =>
    rw [Argument.mask,clauseArgument,clauseArgument,clauseArgumentsMask]
    cases clauseArguments st args with
    | error e => rfl
    | ok ps => exact congrArg ok (callBlanked name distinct ps).symm

theorem clauseArgumentsMask (st as) :
    clauseArguments (maskState st) (maskArguments as) = (clauseArguments st as).map (List.map blanked) := by
  match as with
  | [] => rfl
  | a::as =>
    rw [maskArguments,clauseArguments,clauseArguments,clauseArgumentMask]
    cases clauseArgument st a with
    | error e => rfl
    | ok p =>
      dsimp only [map]
      rw [clauseArgumentsMask]
      cases clauseArguments st as <;> rfl
end

theorem clauseProjectionMask (st p) :
    clauseProjection (maskState st) p.mask = (clauseProjection st p).map blanked := by
  cases p with
  | column c => exact clauseColumnMask st c
  | function f => exact clauseArgumentMask st (.function f.name f.arguments f.distinct)

theorem clauseEachMask (st ps) :
    clauseEach (maskState st) (ps.map fun p => (p.1.mask,p.2)) = (clauseEach st ps).map (List.map blanked) := by
  induction ps with
  | nil => rfl
  | cons p ps ih =>
    rw [map_cons,clauseEach,clauseEach,clauseProjectionMask,ih]
    cases clauseProjection st p.1 with
    | error e => rfl
    | ok q =>
      cases clauseEach st ps with
      | error e => rfl
      | ok _ => exact congrArg (fun r => ok (r::_)) (blankedAppend q [.raw p.2]).symm

theorem clauseMask (st head ps) :
    clause (maskState st) head (ps.map fun p => (p.1.mask,p.2)) = (clause st head ps).map blanked := by
  unfold clause
  rw [isEmpty_map,clauseEachMask]
  split
  · rfl
  cases clauseEach st ps with
  | error e => rfl
  | ok qs => exact congrArg (fun p => ok (.raw (text head)::p)) (joinBlanked (text ", ") qs).symm

theorem groupByMask (st ps) :
    generateGroupByClause (maskState st) (ps.map Projection.mask) = (generateGroupByClause st ps).map blanked := by
  have same := clauseMask st " group by " (ps.map fun p => (p,[]))
  rw [map_map] at same
  unfold generateGroupByClause
  rw [map_map]
  exact same

theorem orderByMask (st es) :
    generateOrderByClause (maskState st) (es.map fun e => { e with expr := e.expr.mask }) =
      (generateOrderByClause st es).map blanked := by
  have same := clauseMask st " order by " (es.map fun e => (e.expr,text (if e.ascendingOrder then " asc" else " desc")))
  rw [map_map] at same
  unfold generateOrderByClause
  rw [map_map]
  exact same

theorem clausesMask (s g) :
    generateClauses s.mask (maskGathered g) = (generateClauses s g).map maskClauses := by
  unfold generateClauses
  rw [show (maskGathered g).state = maskState g.state from rfl,
      show (maskState g.state).sqlTables = g.state.sqlTables from rfl]
  cases g.state.sqlTables with
  | nil => rfl
  | cons first others =>
    dsimp only
    rw [show aliasAt (maskState g.state) first = aliasAt g.state first from rfl,innerJoinsFrame,
      show generateJoinsForMetadataColumns (maskState g.state) = generateJoinsForMetadataColumns g.state from rfl,
      show hierJoin (maskState g.state) = hierJoin g.state from rfl,
      show generateGroupByClause (maskState g.state) s.mask.groupBy = _ from groupByMask g.state s.groupBy,
      show generateOrderByClause (maskState g.state) s.mask.orderBy = _ from orderByMask g.state s.orderBy]
    cases aliasAt g.state first with
    | error e => rfl
    | ok _ =>
      cases generateInnerJoins g.state with
      | error e => rfl
      | ok joins =>
        by_cases enough : joins.length ≠ others.length
        · simp only [bind,Except.bind,if_pos enough]; rfl
        simp only [bind,Except.bind,if_neg enough]
        cases generateJoinsForMetadataColumns g.state with
        | error e => rfl
        | ok _ =>
          cases hierJoin g.state with
          | error e => rfl
          | ok _ =>
            cases generateGroupByClause g.state s.groupBy with
            | error e => rfl
            | ok _ => cases generateOrderByClause g.state s.orderBy <;> rfl

theorem emptyBlanked (p) : (render (blanked p)).isEmpty = (render p).isEmpty := by
  induction p with
  | nil => rfl
  | cons piece p ih =>
    cases piece with
    | raw t =>
      cases t with
      | nil => exact ih
      | cons c t => rfl
    | quoted v => rfl

theorem blankedTwice (p) : blanked (blanked p) = blanked p := by
  unfold blanked
  rw [map_map]
  refine map_congr_left fun piece _ => ?_
  cases piece <;> rfl

theorem clientMask (conds) :
    blanked (if (render (blanked conds)).isEmpty then
      [] else .raw (text " where (")::blanked conds ++ [.raw (text ")")]) =
      blanked (if (render conds).isEmpty then [] else .raw (text " where (")::conds ++ [.raw (text ")")]) := by
  rw [emptyBlanked]
  split
  · rfl
  · simp [blankedRaw,blankedAppend,blankedTwice]

theorem conditionClauseMask (st opts conds) :
    blanked (generateConditionClause (maskState st) opts (blanked conds)).1 =
      blanked (generateConditionClause st opts conds).1 := by
  have client := clientMask conds
  unfold generateConditionClause
  rw [show (maskState st).tableAliases = st.tableAliases from rfl]
  cases opts.adminMode with
  | true => exact client
  | false =>
    cases st.tableAliases.lookup COLL with
    | none =>
      cases st.tableAliases.lookup DATA with
      | none => exact client
      | some d => simp only [false_eq_true,if_false,blankedAppend,client]; rw [emptyBlanked]
    | some c =>
      cases st.tableAliases.lookup DATA with
      | none => simp only [false_eq_true,if_false,blankedAppend,client]; rw [emptyBlanked]
      | some d => simp only [false_eq_true,if_false,blankedAppend,client]; rw [emptyBlanked]

theorem statementMask (s opts g c) :
    blanked (statement s.mask opts (maskGathered g) (maskClauses c)) = blanked (statement s opts g c) := by
  unfold statement
  simp only [blankedAppend,blankedRaw]
  rw [show (maskGathered g).state = maskState g.state from rfl,show (maskGathered g).conds = blanked g.conds from rfl,
    conditionClauseMask,show (maskGathered g).cols = blanked g.cols from rfl,
    show (maskClauses c).group = blanked c.group from rfl,show (maskClauses c).order = blanked c.order from rfl,
    blankedTwice,blankedTwice,blankedTwice]
  rfl

theorem generateMask (s opts) :
    (generate s.mask opts).map (fun r => blanked r.1) = (generate s opts).map fun r => blanked r.1 := by
  unfold generate
  rw [gatherMask]
  cases gather s with
  | error e => rfl
  | ok g =>
    dsimp only [Except.map]
    rw [clausesMask]
    cases generateClauses s g with
    | error e => rfl
    | ok c => exact congrArg Except.ok (statementMask s opts g c)

end Irods.GenQuery2Masks
