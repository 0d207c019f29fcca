import Irods.GenQuery2Joins

/-! The tables a GenQuery2 statement is gathered with, and the statements to_sql rejects because
their tables cannot be joined. -/
namespace Irods.GenQuery2Tables
open CText SqlText GenQuery2Ast GenQuery2Columns GenQuery2Sql GenQuery2Literals GenQuery2Joins List Except

structure Kept (P : State → Prop) : Prop where
  column : ∀ {st c p st'}, P st → toSqlColumn st c = .ok (p,st') → P st'
  bound : ∀ {st} (vs : List Text), P st → P (bindValues st vs)
  clause : ∀ {st}, P st → P { st with inSelectClause := false }

section Rule
variable {P : State → Prop}

mutual
theorem argumentKept {st a p st'} (kept : Kept P) (holds : P st) (run : toSqlArgument st a = .ok (p,st')) : P st' := by
  match a with
  | .literal v =>
    rw [toSqlArgument] at run
    cases run
    exact holds
  | .column c =>
    rw [toSqlArgument] at run
    exact kept.column holds run
  | .function _ _ _ =>
    obtain ⟨_,ran,-⟩ := callStep run
    exact argumentsKept kept holds ran

theorem argumentsKept {st as ps st'} (kept : Kept P) (holds : P st) (run : toSqlArguments st as = .ok (ps,st')) :
    P st' := by
  match as with
  | [] =>
    rw [toSqlArguments] at run
    cases run
    exact holds
  | a::as =>
    obtain ⟨p,_,_,one,two,rfl⟩ := argumentsStep run
    exact argumentsKept kept (argumentKept kept holds one) two
end

theorem projectionKept {st q p st'} (kept : Kept P) (holds : P st) (run : toSqlProjection st q = .ok (p,st')) :
    P st' := by
  cases q with
  | column c => exact kept.column holds run
  | function f => exact argumentKept kept holds run

theorem eachKept {st qs ps st'} (kept : Kept P) (holds : P st) (run : toSqlEach st qs = .ok (ps,st')) : P st' := by
  induction qs generalizing st ps with
  | nil =>
    cases run
    exact holds
  | cons q _ ih =>
    rw [toSqlEach] at run
    split at run <;> try contradiction
    rename_i _ one
    split at run <;> try contradiction
    rename_i _ two
    cases run
    exact ih (projectionKept kept holds one) two

theorem expressionKept {st} (kept : Kept P) (e) (holds : P st) : P (toSqlExpression st e).2 := by
  induction e with
  | isNull => exact holds
  | isNotNull => exact holds
  | operatorNot e ih => exact ih
  | like | inList | between | equal | notEqual | lessThan | lessThanOrEqualTo | greaterThan | greaterThanOrEqualTo =>
    exact kept.bound _ holds

theorem conditionKept {st c p st'} (kept : Kept P) (holds : P st) (run : toSqlCondition st c = .ok (p,st')) :
    P st' := by
  unfold toSqlCondition at run
  split at run <;> try contradiction
  rename_i _ one
  cases run
  exact expressionKept kept c.expression (projectionKept kept holds one)

theorem wrappedState {before after r p st'} (run : wrapped before after r = .ok (p,st')) :
    ∃ q, r = .ok (q,st') := by
  unfold wrapped at run
  split at run <;> try contradiction
  cases run
  exact ⟨_,rfl⟩

mutual
theorem wrapperKept {st c p st'} (kept : Kept P) (holds : P st) (run : toSqlWrapper st c = .ok (p,st')) : P st' := by
  match c with
  | .condition c =>
    rw [toSqlWrapper] at run
    exact conditionKept kept holds run
  | .logicalAnd cs =>
    rw [toSqlWrapper] at run
    exact conditionsKept kept holds (wrappedState run).choose_spec
  | .logicalOr cs =>
    rw [toSqlWrapper] at run
    exact conditionsKept kept holds (wrappedState run).choose_spec
  | .logicalNot cs =>
    rw [toSqlWrapper] at run
    exact conditionsKept kept holds (wrappedState run).choose_spec
  | .logicalGrouping _ =>
    rw [toSqlWrapper] at run
    exact conditionsKept kept holds (wrappedState run).choose_spec

theorem conditionsKept {st cs p st'} (kept : Kept P) (holds : P st) (run : toSqlConditions st cs = .ok (p,st')) :
    P st' := by
  match cs with
  | [] =>
    rw [toSqlConditions] at run
    cases run
    exact holds
  | c::cs =>
    rw [toSqlConditions] at run
    split at run <;> try contradiction
    rename_i q _ one
    split at run <;> try contradiction
    rename_i _ _ two
    cases run
    exact conditionsKept kept (wrapperKept kept holds one) two
end

theorem gatherKept {s g} (kept : Kept P) (start : P { emptyState with inSelectClause := true })
    (run : gather s = .ok g) : P g.state := by
  unfold gather at run
  split at run <;> try contradiction
  rename_i _ listed
  split at run <;> try contradiction
  rename_i _ conditions
  cases run
  unfold toSqlProjections at listed
  split at listed <;> try contradiction
  split at listed <;> try contradiction
  rename_i _ each
  cases listed
  exact conditionsKept kept (kept.clause (eachKept kept start each)) conditions

end Rule

/- The tables the columns of a statement can list: those behind predefined aliases are not. -/
def columnTables : List Text := [COLL,DATA,RESC,USER,text "R_RULE_EXEC",text "R_TOKN_MAIN",text "R_USER_AUTH",
  text "R_USER_GROUP",text "R_ZONE_MAIN"]

theorem plainMapped : ∀ e ∈ columnNameMappings, special e.1 = none → e.2.table ∈ columnTables := by decide +kernel

theorem specialBase (name) : ∀ s, special name = some s → s.base ∈ columnTables := by
  repeat' apply iteBoth
  all_goals first
    | exact noneHere
    | exact someHere (by decide)

structure Listed (st : State) : Prop where
  distinct : st.sqlTables.Nodup
  known : ∀ t ∈ st.sqlTables, t ∈ columnTables
  aliased : ∀ t ∈ st.sqlTables, Aliased st t

theorem addTableListed {st table} (listed : Listed st) (ok : table ∈ columnTables) : Listed (addTable st table) := by
  unfold addTable
  split
  · exact listed
  rename_i fresh
  refine ⟨?_,?_,?_⟩
  · rw [nodup_append]
    refine ⟨listed.distinct,nodup_singleton _,?_⟩
    intro a here b there same
    rw [mem_singleton.mp there] at same
    exact fresh (same ▸ here)
  · intro t mem
    rcases mem_append.mp mem with old | new
    · exact listed.known t old
    · exact mem_singleton.mp new ▸ ok
  · intro t mem
    unfold Aliased
    rw [lookup_cons]
    cases same : t == table with
    | true => rfl
    | false =>
      rcases mem_append.mp mem with old | new
      · exact listed.aliased t old
      · simp [mem_singleton.mp new] at same

theorem columnListed {st c p st'} (listed : Listed st) (run : toSqlColumn st c = .ok (p,st')) : Listed st' := by
  unfold toSqlColumn at run
  split at run <;> try contradiction
  rename_i found
  dsimp only at run
  split at run <;> try contradiction
  cases run
  unfold setupColumnForPostProcessing
  split
  · rename_i s kind
    have good := specialBare _ s kind
    have marked : Listed (s.mark { st with astColumns := st.astColumns ++ [c] }) := by
      refine ⟨?_,?_,?_⟩
      · rw [good.tables]
        exact listed.distinct
      · rw [good.tables]
        exact listed.known
      · rw [good.tables]
        unfold Aliased
        rw [good.aliases]
        exact listed.aliased
    split
    · exact marked
    · exact addTableListed marked (specialBase _ s kind)
  · rename_i kind
    exact addTableListed ⟨listed.distinct,listed.known,listed.aliased⟩ (plainMapped _ (lookupMem found) kind)

theorem listedKept : Kept Listed where
  column := columnListed
  bound _ listed := ⟨listed.distinct,listed.known,listed.aliased⟩
  clause listed := ⟨listed.distinct,listed.known,listed.aliased⟩

theorem gatherListed {s g} (run : gather s = .ok g) : Listed g.state :=
  gatherKept listedKept ⟨nodup_nil,by simp [emptyState],by simp [emptyState]⟩ run

def hub (t : Text) : Text :=
  if t = COLL ∨ t = RESC then DATA else if t = text "R_USER_AUTH" ∨ t = text "R_USER_GROUP" then USER else t

theorem hubEdges : ∀ a ∈ columnTables, ∀ b ∈ columnTables,
    adjacent a b = decide (a ≠ b ∧ hub a = hub b ∧ (a = hub a ∨ b = hub a)) := by decide +kernel

theorem adjacentHub {a b} (left : a ∈ columnTables) (right : b ∈ columnTables) :
    adjacent a b = true ↔ a ≠ b ∧ hub a = hub b ∧ (a = hub a ∨ b = hub a) := by
  rw [hubEdges a left b right,decide_eq_true_iff]

theorem hubSupported : ∀ t ∈ columnTables, t ∈ tableNames := by decide +kernel

theorem walkHub {tables a b} (known : ∀ t ∈ tables, t ∈ columnTables)
    (walk : Relation.ReflTransGen (Linked tables) a b) : hub a = hub b := by
  induction walk with
  | refl => rfl
  | tail _ link ih =>
    obtain ⟨one,two,joined⟩ := link
    exact ih.trans ((adjacentHub (known _ one) (known _ two)).mp joined).2.1

theorem spannedFromHub {t ts} (known : ∀ x ∈ t::ts, x ∈ columnTables) (own : hub t = t)
    (all : ∀ x ∈ ts, x ≠ t ∧ hub x = t) : Spanned t ts := by
  obtain ⟨here,rest⟩ := forall_mem_cons.mp known
  have joined : ∀ x ∈ ts, adjacent t x = true := by
    intro x mem
    obtain ⟨other,same⟩ := all x mem
    exact (adjacentHub here (rest x mem)).mpr ⟨other.symm,own.trans same.symm,.inl own.symm⟩
  rcases eq_nil_or_concat ts with rfl | ⟨front,last,rfl⟩
  · exact .done t
  refine .next ((filter_eq_self.mpr joined).trans concat_eq_append) ?_
  have none : far t (front.concat last) = [] := filter_eq_nil_iff.mpr fun x mem => by simp [joined x mem]
  rw [none]
  exact .done last

theorem connectedSpanned {t ts} (distinct : (t::ts).Nodup) (known : ∀ x ∈ t::ts, x ∈ columnTables)
    (connected : Connected (t::ts)) : Spanned t ts := by
  obtain ⟨here,rest⟩ := forall_mem_cons.mp known
  have fresh := (nodup_cons.mp distinct).1
  have same : ∀ x ∈ ts, hub x = hub t := by
    intro x mem
    exact (walkHub known (connected t (by simp) x (by simp [mem]))).symm
  by_cases own : hub t = t
  · refine spannedFromHub known own fun x mem => ⟨?_,(same x mem).trans own⟩
    rintro rfl
    exact fresh mem
  -- The first step of any walk away from the first table leads to the hub.
  have toHub : ∀ x ∈ t::ts, adjacent t x = true → x = hub t := by
    intro x mem joined
    exact ((adjacentHub here (known x mem)).mp joined).2.2.resolve_left fun eq => own eq.symm
  rcases eq_nil_or_concat (near t ts) with none | ⟨_,last,some⟩
  · cases ts with
    | nil => exact .done t
    | cons x _ =>
      exfalso
      have walk := connected t (by simp) x (by simp)
      rcases Relation.ReflTransGen.cases_head walk with eq | ⟨y,link,-⟩
      · exact fresh (by simp [eq])
      rcases mem_cons.mp link.2.1 with eq | mem
      · exact own (toHub t (by simp) (eq ▸ link.2.2)).symm
      · have inside := nearMem.mpr ⟨mem,link.2.2⟩
        simp [none] at inside
  · rw [concat_eq_append] at some
    obtain ⟨mem,joined⟩ := nearMem.mp (by simp [some] : last ∈ near t ts)
    have centre := toHub last (by simp [mem]) joined
    refine .next some (spannedFromHub ?_ ((same last mem).trans centre.symm) ?_)
    · intro x inside
      rcases mem_cons.mp inside with rfl | inside
      · exact rest x mem
      · exact rest x (farMem.mp inside).1
    · intro x inside
      obtain ⟨listed,apart⟩ := farMem.mp inside
      refine ⟨?_,(same x listed).trans centre.symm⟩
      rintro rfl
      simp [joined] at apart

def Never {α} (r : Except Error α) : Prop := r ≠ .error .invalidGeneralQuery

theorem neverBind {α β x} {f : α → Except Error β} (first : Never x) (rest : ∀ a, Never (f a)) :
    Never (x >>= f) := by
  cases x with
  | error e => exact fun same => first (congrArg error (error.inj same))
  | ok a => exact rest a

theorem aliasNever (st table) : Never (aliasAt st table) := by
  unfold Never aliasAt
  split <;> simp

theorem metadataNever (st) : Never (generateJoinsForMetadataColumns st) := by
  have one : ∀ add table id map main, Never (metadataJoin st add table id map main) := by
    intro add table _ _ _
    have key := aliasNever st table
    unfold Never metadataJoin
    cases add with
    | false => simp
    | true => cases found : aliasAt st table <;> simp_all [Never]
  refine neverBind (one _ _ _ _ _) fun _ => neverBind (one _ _ _ _ _) fun _ => ?_
  exact neverBind (one _ _ _ _ _) fun _ => neverBind (one _ _ _ _ _) fun _ same => by cases same

theorem hierNever (st) : Never (hierJoin st) := by
  have key := aliasNever st RESC
  unfold Never hierJoin
  split
  · cases found : aliasAt st RESC <;> simp_all [Never]
  · simp

theorem clauseColumnNever (st c) : Never (clauseColumn st c) := by
  unfold Never clauseColumn aliasOf
  split
  · simp
  rename_i info _
  have key := aliasNever st info.table
  split
  · rename_i failed
    split at failed
    · contradiction
    · exact fun same => key (failed.trans (congrArg error (error.inj same)))
  · simp

mutual
theorem clauseArgumentNever (st a) : Never (clauseArgument st a) := by
  match a with
  | .literal v =>
    rw [clauseArgument]
    exact fun same => by cases same
  | .column c =>
    rw [clauseArgument]
    exact clauseColumnNever st c
  | .function _ args _ =>
    have key := clauseArgumentsNever st args
    rw [clauseArgument]
    cases ran : clauseArguments st args <;> simp_all [Never]

theorem clauseArgumentsNever (st as) : Never (clauseArguments st as) := by
  match as with
  | [] =>
    rw [clauseArguments]
    exact fun same => by cases same
  | a::as =>
    have head := clauseArgumentNever st a
    have tail := clauseArgumentsNever st as
    rw [clauseArguments]
    cases one : clauseArgument st a <;> cases two : clauseArguments st as <;> simp_all [Never]
end

theorem clauseNever (st head ps) : Never (clause st head ps) := by
  have each : Never (clauseEach st ps) := by
    induction ps with
    | nil => exact fun same => by cases same
    | cons q qs _ =>
      have one : Never (clauseProjection st q.1) := by
        cases q.1 with
        | function f => exact clauseArgumentNever st _
        | column c => exact clauseColumnNever st c
      rw [clauseEach]
      cases ran : clauseProjection st q.1 <;> cases rest : clauseEach st qs <;> simp_all [Never]
  unfold Never clause
  split
  · simp
  · cases ran : clauseEach st ps <;> simp_all [Never]

def Rejected (s : Select) (g : Gathered) : Prop := generateClauses s g = .error .invalidGeneralQuery

structure Joins (st : State) (t : Text) (ts : List Text) (pairs : List (Text × Text)) : Prop where
  run : generateInnerJoins st = .ok (pairs.map (joinText st))
  introduced : Introduced [t] pairs
  listed : ∀ x ∈ pairs.map Prod.snd, x ∈ ts
  distinct : (pairs.map Prod.snd).Nodup
  complete : (pairs.map Prod.snd).Perm ts ↔ Spanned t ts
  counted : pairs.length = ts.length ↔ Spanned t ts

theorem joinsPlanned {st t ts} (tables : st.sqlTables = t::ts) (distinct : (t::ts).Nodup)
    (all : ∀ x ∈ t::ts, x ∈ tableNames ∧ Aliased st x) : ∃ pairs, Joins st t ts pairs := by
  obtain ⟨r,run,eq⟩ := @passesJoin st ts.length ts [] [t] t all rfl
  have perm := planPerm ts.length t ts
  have length := perm.length_eq
  rw [length_append,length_map] at length
  have nothing := @leftNothing ts.length t ts (Nat.le_refl _)
  have counted : (plan ts.length t ts).length = ts.length ↔ Spanned t ts := by
    rw [← nothing,← length_eq_zero_iff]
    omega
  have kept := (perm.nodup_iff.mpr (nodup_cons.mp distinct).2)
  refine ⟨plan ts.length t ts,?_,planIntroduced _ (by simp),?_,(nodup_append.mp kept).1,?_,counted⟩
  · rw [generateInnerJoins,tables]
    dsimp only
    rw [run]
    exact congrArg ok eq
  · intro x mem
    exact perm.mem_iff.mp (mem_append_left _ mem)
  · constructor
    · intro same
      have size := same.length_eq
      rw [length_map] at size
      exact counted.mp size
    · intro spanned
      rwa [nothing.mpr spanned,append_nil] at perm

theorem rejectedUnspanned {s g t ts} (tables : g.state.sqlTables = t::ts) (listed : Listed g.state) :
    Rejected s g ↔ ¬ Spanned t ts := by
  have known := listed.known
  have aliased := listed.aliased
  have distinct := listed.distinct
  rw [tables] at known aliased distinct
  obtain ⟨pairs,joins⟩ := joinsPlanned tables distinct fun x mem => ⟨hubSupported x (known x mem),aliased x mem⟩
  unfold Rejected generateClauses
  rw [tables]
  dsimp only
  rw [aliasFound (aliased t (by simp)),joins.run,← joins.counted]
  by_cases counted : pairs.length = ts.length
  · simp only [counted,not_true_eq_false,iff_false,bind,Except.bind,length_map,ne_eq]
    refine neverBind (metadataNever _) fun _ => neverBind (hierNever _) fun _ => ?_
    exact neverBind (clauseNever _ _ _) fun _ => neverBind (clauseNever _ _ _) fun _ same => by cases same
  · simp only [counted,bind,Except.bind,length_map,ne_eq,not_false_eq_true]
    exact ⟨fun _ => trivial,fun _ => rfl⟩

theorem rejectedUnconnected {s g t ts} (tables : g.state.sqlTables = t::ts) (listed : Listed g.state) :
    Rejected s g ↔ ¬ Connected g.state.sqlTables := by
  have known := listed.known
  have distinct := listed.distinct
  rw [rejectedUnspanned tables listed,tables]
  rw [tables] at known distinct
  exact not_congr ⟨spannedConnected,connectedSpanned distinct known⟩

theorem connectedSet {some all} (same : ∀ t, t ∈ some ↔ t ∈ all) (connected : Connected some) : Connected all := by
  intro a here b there
  exact linkedMono (fun t mem => (same t).mp mem) (connected a ((same a).mpr here) b ((same b).mpr there))

theorem rejectedBySet {s s' g g'} (run : gather s = .ok g) (run' : gather s' = .ok g')
    (same : ∀ t, t ∈ g.state.sqlTables ↔ t ∈ g'.state.sqlTables) : Rejected s g ↔ Rejected s' g' := by
  cases one : g.state.sqlTables with
  | nil =>
    have none : g'.state.sqlTables = [] := by
      apply eq_nil_iff_forall_not_mem.mpr
      intro t mem
      have here := (same t).mpr mem
      simp [one] at here
    simp [Rejected,generateClauses,one,none]
  | cons t _ =>
    cases two : g'.state.sqlTables with
    | nil =>
      have here := (same t).mp (by simp [one])
      simp [two] at here
    | cons _ _ =>
      rw [rejectedUnconnected one (gatherListed run),rejectedUnconnected two (gatherListed run')]
      exact not_congr ⟨connectedSet same,connectedSet fun t => (same t).symm⟩

theorem plannedExactly (st : State) (t : Text) (ts : List Text) (s s' : Select) (g g' : Gathered) :
    (st.sqlTables = t::ts → (t::ts).Nodup → (∀ x ∈ t::ts, x ∈ tableNames ∧ Aliased st x) →
      (∃ pairs, Joins st t ts pairs) ∧ (Spanned t ts → Connected (t::ts))) ∧
    (gather s = .ok g → gather s' = .ok g' → (∀ t, t ∈ g.state.sqlTables ↔ t ∈ g'.state.sqlTables) →
      (Rejected s g ↔ Rejected s' g')) := by
  constructor
  · intro tables distinct all
    exact ⟨joinsPlanned tables distinct all,spannedConnected⟩
  · intro run run' same
    exact rejectedBySet run run' same

def TICKET : Text := text "R_TICKET_MAIN"

def listing (tables : List Text) : State :=
  { emptyState with sqlTables := tables, tableAliases := tables.zip [text "t0",text "t1",text "t2",text "t3"] }

def selecting (columns : List Text) : Select :=
  ⟨columns.map (fun c => .column ⟨c,[]⟩),[],[],[],⟨[],[]⟩,false⟩

theorem gatheredTables {s tables} (run : (gather s).toOption.map (fun g => g.state.sqlTables) = some tables) :
    ∃ g, gather s = .ok g ∧ g.state.sqlTables = tables := by
  cases ran : gather s with
  | error e => simp [ran,Except.toOption] at run
  | ok g => exact ⟨g,rfl,by simpa [ran,Except.toOption] using run⟩

theorem hubOrdersAgree :
    (∃ pairs, Joins (listing [COLL,TICKET,DATA,RESC]) COLL [TICKET,DATA,RESC] pairs) ∧
    ∃ g g', gather (selecting [text "COLL_NAME",text "DATA_NAME"]) = .ok g ∧
      gather (selecting [text "DATA_NAME",text "COLL_NAME"]) = .ok g' ∧
      (Rejected (selecting [text "COLL_NAME",text "DATA_NAME"]) g ↔
        Rejected (selecting [text "DATA_NAME",text "COLL_NAME"]) g') := by
  have all : ∀ x ∈ [COLL,TICKET,DATA,RESC], x ∈ tableNames ∧ Aliased (listing [COLL,TICKET,DATA,RESC]) x := by
    unfold Aliased
    decide +kernel
  obtain ⟨g,run,tables⟩ :=
    @gatheredTables (selecting [text "COLL_NAME",text "DATA_NAME"]) [COLL,DATA] (by decide +kernel)
  obtain ⟨g',run',tables'⟩ :=
    @gatheredTables (selecting [text "DATA_NAME",text "COLL_NAME"]) [DATA,COLL] (by decide +kernel)
  have planned := plannedExactly (listing [COLL,TICKET,DATA,RESC]) COLL [TICKET,DATA,RESC]
    (selecting [text "COLL_NAME",text "DATA_NAME"]) (selecting [text "DATA_NAME",text "COLL_NAME"]) g g'
  refine ⟨(planned.1 rfl (by decide +kernel) all).1,g,g',run,run',planned.2 run run' ?_⟩
  simp [tables,tables',or_comm]

theorem connectedNotJoined :
    Connected [COLL,DATA,TICKET,RESC] ∧
    (generateInnerJoins (listing [COLL,DATA,TICKET,RESC])).toOption.map List.length = some 2 ∧
    (generateInnerJoins (listing [COLL,TICKET,DATA,RESC])).toOption.map List.length = some 3 := by
  have spanned : Spanned COLL [TICKET,DATA,RESC] :=
    @Spanned.next _ DATA _ [TICKET] (by decide +kernel) (@Spanned.next _ RESC _ [] (by decide +kernel) (.done _))
  have swapped : [COLL,TICKET,DATA,RESC].Perm [COLL,DATA,TICKET,RESC] := .cons COLL (.swap DATA TICKET [RESC])
  exact ⟨connectedSet (fun _ => swapped.mem_iff) (spannedConnected spanned),by decide +kernel,by decide +kernel⟩

end Irods.GenQuery2Tables
