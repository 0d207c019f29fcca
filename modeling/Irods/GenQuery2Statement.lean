import Irods.GenQuery2Literals

/-! The clauses of a generated statement and the statement itself: which literals stand in the
SQL text, in which order, and how many placeholders it has. -/
namespace Irods.GenQuery2Statement
open CText SqlText GenQuery2Ast GenQuery2Columns GenQuery2Sql GenQuery2Literals List Bool Select

theorem rangeBare {t} (ok : (t.isEmpty || isDigits t) = true) : bare t = true := by
  rcases or_eq_true_iff.mp ok with none | digits
  · rw [isEmpty_iff.mp none]; rfl
  · exact digitsBare digits

theorem limitBare {opts rows} (ok : (rows.isEmpty || isDigits rows) = true) :
    bare (generateLimitClause opts rows) = true := by
  have value : bare (if rows.isEmpty then decimal opts.defaultNumberOfRows.toNat else rows) = true := by
    split
    · exact decimalBare _
    · exact rangeBare ok
  unfold generateLimitClause
  dsimp only
  split
  · rw [bareAppend,value]; rfl
  · rw [bareAppend,bareAppend,value]; rfl

theorem offsetBare {t} (ok : (t.isEmpty || isDigits t) = true) : bare (offsetClause t) = true := by
  unfold offsetClause
  split
  · rfl
  · rw [bareAppend,rangeBare ok]; rfl

mutual
theorem clauseArgumentRendered {st a p} (clean : Clean st) (ok : a.parsed = true) (run : clauseArgument st a = .ok p) :
    Rendered Inner p a.literals 0 := by
  match a with
  | .literal v => rw [clauseArgument] at run; cases run; exact literalRendered v
  | .column c => rw [clauseArgument] at run; exact renderedInner (clauseColumnRendered clean ok run)
  | .function _ _ _ =>
    rw [clauseArgument] at run
    split at run <;> try contradiction
    rename_i _ ran
    cases run
    rw [Argument.parsed,and_eq_true] at ok
    exact renderedInner (allCall (identifierBare ok.1) (clauseArgumentsRendered clean ok.2 ran))

theorem clauseArgumentsRendered {st as ps} (clean : Clean st) (ok : argumentsParsed as = true)
    (run : clauseArguments st as = .ok ps) : AllRendered Inner ps (argumentLiterals as) := by
  match as with
  | [] => rw [clauseArguments] at run; cases run; exact allNil
  | a::as =>
    rw [clauseArguments] at run
    split at run <;> try contradiction
    rename_i p one
    split at run <;> try contradiction
    rename_i _ two
    cases run
    rw [argumentsParsed,and_eq_true] at ok
    exact allCons (clauseArgumentRendered clean ok.1 one) (clauseArgumentsRendered clean ok.2 two)
end
section
variable {st} (clean : Clean st)
include clean

theorem clauseProjectionRendered {q p} (ok : q.parsed = true) (run : clauseProjection st q = .ok p) :
    Rendered Closed p q.literals 0 := by
  cases q with
  | column c => exact clauseColumnRendered clean ok run
  | function f =>
    rw [clauseProjection,clauseArgument] at run
    split at run <;> try contradiction
    rename_i ran
    cases run
    obtain ⟨named,args⟩ := and_eq_true_iff.mp ok
    exact allCall (identifierBare named) (clauseArgumentsRendered clean args ran)

theorem clauseEachRendered {qs ps} (ok : ∀ q ∈ qs, q.1.parsed = true ∧ bare q.2 = true)
    (run : clauseEach st qs = .ok ps) :
    AllRendered Closed ps (qs.flatMap fun q => q.1.literals) := by
  induction qs generalizing ps with
  | nil => cases run; exact allNil
  | cons q _ ih =>
    obtain ⟨q,order⟩ := q
    rw [clauseEach] at run
    split at run <;> try contradiction
    rename_i one
    split at run <;> try contradiction
    rename_i two
    cases run
    obtain ⟨parsed,named⟩ := ok (q,order) mem_cons_self
    have head := renderedAppend (clauseProjectionRendered clean parsed one) (renderedRaw named)
    rw [append_nil] at head
    exact allCons head (ih (forall_mem_cons.mp ok).2 two)

theorem clauseRendered {head qs p} (word : bare (text head) = true) (ok : ∀ q ∈ qs, q.1.parsed = true ∧ bare q.2 = true)
    (run : clause st head qs = .ok p) :
    Rendered Closed p (qs.flatMap fun q => q.1.literals) 0 := by
  unfold clause at run
  split at run
  · rename_i empty
    cases run
    rw [isEmpty_iff.mp empty]
    exact ⟨closedNil,rfl,rfl⟩
  · split at run <;> try contradiction
    rename_i ran
    cases run
    have all := renderedAppend (renderedRaw word) (allJoin (clauseEachRendered clean ok ran))
    rwa [nil_append] at all

theorem groupByRendered {qs p} (ok : qs.all Projection.parsed = true) (run : generateGroupByClause st qs = .ok p) :
    Rendered Closed p (qs.flatMap Projection.literals) 0 := by
  have r := clauseRendered clean rfl (by
    intro q mem
    obtain ⟨e,listed,rfl⟩ := mem_map.mp mem
    exact ⟨all_eq_true.mp ok e listed,rfl⟩) run
  rwa [flatMap_map] at r

theorem orderByRendered {es p} (ok : es.all (fun e => e.expr.parsed) = true)
    (run : generateOrderByClause st es = .ok p) :
    Rendered Closed p (es.flatMap fun e => e.expr.literals) 0 := by
  have r := clauseRendered clean rfl (by
    intro q mem
    obtain ⟨e,listed,rfl⟩ := mem_map.mp mem
    refine ⟨all_eq_true.mp ok e listed,?_⟩
    cases e.ascendingOrder <;> rfl) run
  rwa [flatMap_map] at r

end

def withStrings (st : State) : List Text := if st.addSqlForDataRescHier then [[],text ";",[]] else []

def checks (st : State) (opts : Options) : Nat :=
  if opts.adminMode then 0
  else (if (st.tableAliases.lookup COLL).isSome then 1 else 0)+(if (st.tableAliases.lookup DATA).isSome then 1 else 0)

def permissionStrings (st : State) (opts : Options) : List Text :=
  (List.replicate (checks st opts) [opts.userZone,text "rodsgroup"]).flatten

theorem quotedThen {v t p ls n} (after : bare t = true) (some : t ≠ []) (r : Rendered Closed p ls n) :
    Rendered Closed (.quoted v::.raw t::p) (v::ls) n := by
  obtain ⟨c,t,rfl⟩ := exists_cons_of_ne_nil some
  have head : Rendered Closed ([.quoted v] ++ [.raw (c::t)]) [v] 0 :=
    ⟨innerThen (innerQuoted v) (barePlain after),rfl,by simp [SqlText.marks,bareMarks after]⟩
  have all := renderedAppend head r
  rwa [Nat.zero_add] at all

theorem withClauseRendered {op int char}
    (fixed : bare (text op) = true ∧ bare (text int) = true ∧ bare (text char) = true) :
    Rendered Closed (withClause op int char) [[],text ";",[]] 0 := by
  obtain ⟨op,int,char⟩ := fixed
  refine renderedAppend (renderedRaw ?_) (quotedThen ?_ (by simp [text]) (quotedThen ?_ (by simp [text])
    (quotedThen ?_ (by simp [text]) ⟨closedNil,rfl,rfl⟩)))
  · rw [bareAppend,bareAppend,op,bareOf rfl,bareOf rfl]; rfl
  · rw [bareAppend,bareAppend,bareAppend,int,bareOf rfl,bareOf rfl,bareOf rfl]; rfl
  · rw [bareAppend,bareAppend,char]; rfl
  · rw [bareAppend,bareAppend,bareAppend,int]; rfl

theorem withRendered (st database) :
    Rendered Closed (generateWithClauseForDataRescHier st database) (withStrings st) 0 := by
  unfold generateWithClauseForDataRescHier withStrings
  cases st.addSqlForDataRescHier with
  | false => exact ⟨closedNil,rfl,rfl⟩
  | true =>
    simp only [Bool.not_true,Bool.false_eq_true,if_false]
    split
    · exact withClauseRendered ⟨rfl,rfl,rfl⟩
    · split <;> exact withClauseRendered ⟨rfl,rfl,rfl⟩

theorem emptyRender {p} (none : render p = []) : values p = [] ∧ marks p = 0 := by
  induction p with
  | nil => exact ⟨rfl,rfl⟩
  | cons piece p ih =>
    cases piece with
    | raw t =>
      obtain ⟨rfl,rest⟩ := append_eq_nil_iff.mp none
      obtain ⟨vs,ms⟩ := ih rest
      exact ⟨vs,by rw [SqlText.marks,ms]; rfl⟩
    | quoted v => exact absurd none (by simp [render,Piece.render])

theorem clientRendered {conds ls n} (r : Rendered Closed conds ls n) :
    Rendered Closed
      (if (render conds).isEmpty then [] else .raw (text " where (")::conds ++ [.raw (text ")")]) ls n := by
  split
  · rename_i empty
    obtain ⟨vs,ms⟩ := emptyRender (isEmpty_iff.mp empty)
    exact ⟨closedNil,vs.symm.trans r.values,ms.symm.trans r.marks⟩
  · have all := renderedAppend (renderedAppend (renderedRaw (t := text " where (") rfl) r)
      (renderedRaw (t := text ")") rfl)
    rwa [nil_append,append_nil,Nat.zero_add,Nat.add_zero] at all

theorem existsRendered {before found} (idColumn zone) (word : bare before = true) (named : bare found = true)
    (column : bare idColumn = true) :
    Rendered Closed (existsClause before found idColumn zone) [zone,text "rodsgroup"] 1 := by
  have mark : plain (text " and u.user_name = ? and u.zone_name = ") = true ∧
      (text " and u.user_name = ? and u.zone_name = ").count '?' = 1 := by
    rw [text,String.toList_ofList]; exact ⟨rfl,rfl⟩
  have opening : bare (text " " ++ before ++
      text " exists (select 1 from R_OBJT_ACCESS oa left join R_USER_GROUP ug on oa.user_id = " ++
      text "ug.group_user_id left join R_USER_MAIN u on ug.user_id = u.user_id where oa.object_id = " ++ found ++
      text "." ++ idColumn) = true := by
    rw [bareAppend,bareAppend,bareAppend,bareAppend,bareAppend,bareAppend,word,named,column,bareOf rfl,bareOf rfl,
        bareOf rfl]
    rfl
  refine renderedAppend (renderedMarks ?_ ?_) (quotedThen (bareOf rfl) (by simp [text])
    (quotedThen (bareOf rfl) (by simp [text]) ⟨closedNil,rfl,rfl⟩))
  · rw [plainAppend,barePlain opening]; rfl
  · rw [count_append,bareMarks opening,mark.2]

theorem conditionClauseRendered {st conds ls n} (opts) (clean : Clean st) (r : Rendered Closed conds ls n) :
    Rendered Closed (generateConditionClause st opts conds).1 (ls ++ permissionStrings st opts) (n+checks st opts) ∧
    (generateConditionClause st opts conds).2.values = st.values ++ List.replicate (checks st opts) opts.userName := by
  have client := clientRendered r
  have first : bare (text (if (render conds).isEmpty then "where" else "and")) = true := by split <;> rfl
  unfold generateConditionClause permissionStrings checks
  cases opts.adminMode with
  | true => simpa using client
  | false =>
    cases coll : st.tableAliases.lookup COLL with
    | none =>
      cases data : st.tableAliases.lookup DATA with
      | none => simpa using client
      | some d => exact ⟨renderedAppend client (existsRendered _ _ first (clean.aliases _ (lookupMem data)) rfl),rfl⟩
    | some c =>
      have one := renderedAppend client
        (existsRendered (text "coll_id") opts.userZone first (clean.aliases _ (lookupMem coll)) rfl)
      cases data : st.tableAliases.lookup DATA with
      | none => exact ⟨one,rfl⟩
      | some d =>
        have two := renderedAppend one
          (existsRendered (text "data_id") opts.userZone (show bare (text "and") = true from rfl)
            (clean.aliases _ (lookupMem data)) rfl)
        rw [append_assoc ls] at two
        exact ⟨two,rfl⟩

structure Parsed (s : Select) : Prop where
  projections : s.projections.all Projection.parsed = true
  conditions : conditionsParsed s.conditions = true
  groupBy : s.groupBy.all Projection.parsed = true
  orderBy : s.orderBy.all (fun e => e.expr.parsed) = true
  offset : (s.range.offset.isEmpty || isDigits s.range.offset) = true
  rows : (s.range.numberOfRows.isEmpty || isDigits s.range.numberOfRows) = true

theorem parsedParts {s} (ok : s.parsed = true) : Parsed s := by
  unfold parsed at ok
  simp only [and_eq_true] at ok
  obtain ⟨⟨⟨⟨⟨projections,conditions⟩,groupBy⟩,orderBy⟩,offset⟩,rows⟩ := ok
  exact ⟨projections,conditions,groupBy,orderBy,offset,rows⟩

structure GatheredOk (s : Select) (g : Gathered) : Prop where
  clean : Clean g.state
  cols : Rendered Closed g.cols (s.projections.flatMap Projection.literals) 0
  conds : Rendered Closed g.conds (conditionLiterals s.conditions) (conditionOperands s.conditions).length
  bound : g.state.values = conditionOperands s.conditions

theorem gatherOk {s g} (ok : Parsed s) (run : gather s = .ok g) : GatheredOk s g := by
  unfold gather at run
  split at run <;> try contradiction
  rename_i _ selected
  split at run <;> try contradiction
  rename_i _ matched
  cases run
  have empty : Clean emptyState := ⟨by simp [emptyState],by simp [emptyState]⟩
  obtain ⟨list,clean,kept⟩ := projectionsRendered empty ok.projections selected
  obtain ⟨tests,clean,bound⟩ := conditionsRendered clean ok.conditions matched
  exact ⟨clean,list,tests,by rw [bound,kept]; rfl⟩

structure ClausesOk (s : Select) (c : Clauses) : Prop where
  first : bare c.first = true
  firstAlias : bare c.firstAlias = true
  joins : ∀ j ∈ c.joins, bare j = true
  metadata : bare c.metadata = true
  hier : bare c.hier = true
  group : Rendered Closed c.group (s.groupBy.flatMap Projection.literals) 0
  order : Rendered Closed c.order (s.orderBy.flatMap (fun e => e.expr.literals)) 0

theorem clausesOk {s g c} (ok : Parsed s) (clean : Clean g.state) (run : generateClauses s g = .ok c) :
    ClausesOk s c := by
  unfold generateClauses at run
  split at run <;> try contradiction
  rename_i _ tables
  simp only [Bind.bind,Except.bind] at run
  split at run <;> try contradiction
  rename_i named
  split at run <;> try contradiction
  rename_i joined
  split at run <;> try contradiction
  split at run <;> try contradiction
  rename_i attached
  split at run <;> try contradiction
  rename_i placed
  split at run <;> try contradiction
  rename_i grouped
  split at run <;> try contradiction
  rename_i ordered
  cases run
  exact ⟨clean.tables _ (tables ▸ mem_cons_self),aliasClean clean named,innerJoinsBare clean joined,
    metadataBare clean attached,hierJoinBare clean placed,groupByRendered clean ok.groupBy grouped,
    orderByRendered clean ok.orderBy ordered⟩

theorem joinsBare {js : List Text} (all : ∀ j ∈ js, bare j = true) :
    bare (js.flatMap fun j => text " " ++ j) = true := by
  induction js with
  | nil => rfl
  | cons j _ ih =>
    rw [flatMap_cons,bareAppend,bareAppend,all j mem_cons_self,ih (forall_mem_cons.mp all).2]
    rfl

theorem statementRendered {s opts g c} (ok : Parsed s) (gathered : GatheredOk s g) (clauses : ClausesOk s c) :
    Rendered Closed (statement s opts g c)
      (withStrings g.state ++ s.inlinedBefore ++ permissionStrings g.state opts ++ s.inlinedAfter)
      ((conditionOperands s.conditions).length+checks g.state opts) := by
  have select : bare (text "select " ++ text (if s.distinct then "distinct " else "")) = true := by
    cases s.distinct <;> rfl
  have tables :
    bare (text " from " ++ c.first ++ text " " ++ c.firstAlias ++ c.joins.flatMap (fun j => text " " ++ j) ++
      generateJoinsForPermissions g.state opts ++ c.metadata ++ c.hier) = true := by
    simp only [bareAppend,clauses.first,clauses.firstAlias,joinsBare clauses.joins,permissionJoinsBare gathered.clean,
      clauses.metadata,clauses.hier]
    rfl
  have range : bare (generateLimitClause opts s.range.numberOfRows ++ offsetClause s.range.offset) = true := by
    rw [bareAppend,limitBare ok.rows,offsetBare ok.offset]; rfl
  have all := renderedAppend (renderedAppend (renderedAppend (renderedAppend (renderedAppend
    (renderedAppend (withRendered g.state opts.database) (renderedAppend (renderedRaw select) gathered.cols))
    (renderedRaw tables)) (conditionClauseRendered opts gathered.clean gathered.conds).1) clauses.group)
    clauses.order) (renderedRaw range)
  simpa [statement,inlinedBefore,inlinedAfter] using all

end Irods.GenQuery2Statement
