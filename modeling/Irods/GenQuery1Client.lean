import Irods.GenQuery1Tracks

/-! A call that is not rejected has built the intended query, and its bind list tracks the forms
of all conditions in their order. -/
namespace Irods.GenQuery1Client
open CText StringOpr StaticMemory GenQuery1Setup GenQuery1Tables GenQuery1Conditions GenQuery1Generate GenQuery1Forms
    List
  GenQuery1Tracks

theorem conditionColumnDone {s q q' column table cast}
    (run : setTable s q column false 0 cast = (.ok table,q')) :
    (∃ c, tableOf s column = some (table,c)) ∧ q' = intendedColumn s q column cast := by
  unfold setTable at run
  split at run
  · cases run
  rename_i c found
  split at run
  · cases run
  rename_i i there
  have position : tableOf s column = some (i,c) := by rw [tableOf,found,Option.bind_some,there]; rfl
  simp only [Bool.false_eq_true,if_false] at run
  unfold addConditionColumn at run
  dsimp only at run
  split at run
  · rename_i fits
    cases run
    have text := rstrcatsDone fits
    rw [intendedColumn]
    rw [text,columnText,position,separator,separated]
    by_cases long : 6 < q.whereSQL.length <;> simp [raise,long]
  · cases run

theorem selectColumnDone {s q q' column option table}
    (run : setTable s q column true option false = (.ok table,q')) : ∃ c, tableOf s column = some (table,c) := by
  unfold setTable at run
  split at run
  · cases run
  rename_i c found
  split at run
  · cases run
  rename_i there
  simp only [if_true,Prod.mk.injEq] at run
  obtain ⟨value,-⟩ := run
  split at value
  · cases value
    exact ⟨c,by rw [tableOf,found,Option.bind_some,there]; rfl⟩
  · cases value

theorem selectColumnsDone {s r r' selects}
    (run : selectColumns s r selects = .done r') :
    r'.st = ⟨selects.foldl (intendedSelect s) r.st.q,r.st.b⟩ ∧
      r'.startingTable = selects.foldl (startAfterSelect s) r.startingTable := by
  induction selects generalizing r with
  | nil => cases run; exact ⟨rfl,rfl⟩
  | cons x _ ih =>
    obtain ⟨inx,value⟩ := x
    unfold selectColumns at run
    split at run
    · cases run
    rename_i table q set
    obtain ⟨c,position⟩ := selectColumnDone set
    obtain ⟨state,start⟩ := ih run
    have query : intendedSelect s r.st.q (inx,value) = q := by rw [intendedSelect,set]
    have first : startAfterSelect s r.startingTable (inx,value) =
        if cyclerOf s table < 1 ∨ r.startingTable = 0 then table else r.startingTable := by
      rw [startAfterSelect,position]
    rw [foldl_cons,foldl_cons,query,first]
    exact ⟨state,start⟩

structure ConditionsStep (s : Setup) (r r' : Started) (conditions : List (Nat × Text)) : Prop where
  query : r'.st.q = conditions.foldl (intendedCondition s) r.st.q
  start : r'.startingTable = conditions.foldl (startAfterCondition s) r.startingTable
  known : ∀ c ∈ conditions, ∃ i d, tableOf s c.1 = some (i,d)
  accepted : ∀ f ∈ conditionForms conditions, f.Accepted
  tracks : ∀ n gs, Tracks s n r.st.b gs → Tracks s n r'.st.b (gs ++ conditionForms conditions)

theorem addConditionDone {s r r' inx value} (run : addCondition s r inx value = .done r') :
    ConditionsStep s r r' [(inx,value)] := by
  unfold addCondition at run
  split at run
  · cases run
  rename_i table q set
  obtain ⟨⟨c,position⟩,column⟩ := conditionColumnDone set
  obtain ⟨_,inserted,run⟩ := bindDone run
  cases run
  have step := insertConditionDone inserted
  have forms : conditionForms [(inx,value)] = (partsOf (effectiveCondition value)).map formOf := append_nil _
  refine ⟨?_,?_,?_,?_,?_⟩
  · rw [step.query,column]
    rfl
  · rw [foldl_cons,foldl_nil,startAfterCondition,position]
  · simpa using ⟨table,c,position⟩
  · rw [forms]
    exact step.accepted
  · rw [forms]
    exact step.tracks

theorem addConditionsDone {s r r' conditions}
    (run : addConditions s r conditions = .done r') : ConditionsStep s r r' conditions := by
  induction conditions generalizing r with
  | nil =>
    cases run
    exact ⟨rfl,rfl,by simp,by simp [conditionForms],fun n gs tracks => by simpa [conditionForms] using tracks⟩
  | cons c rest ih =>
    obtain ⟨inx,value⟩ := c
    obtain ⟨_,added,run⟩ := bindDone run
    have first := addConditionDone added
    have later := ih run
    have forms : conditionForms ((inx,value)::rest) = conditionForms [(inx,value)] ++ conditionForms rest := by
      rw [conditionFormsCons,conditionFormsCons,append_assoc]
      rfl
    refine ⟨?_,?_,?_,?_,?_⟩
    · rw [later.query,first.query]
      rfl
    · rw [later.start,first.start]
      rfl
    · intro c mem
      rcases mem_cons.mp mem with rfl | after
      · exact first.known _ mem_cons_self
      · exact later.known c after
    · rw [forms]
      intro f mem
      exact (mem_append.mp mem).elim (first.accepted f) (later.accepted f)
    · intro n gs tracks
      rw [forms,← append_assoc]
      exact later.tracks n _ (first.tracks n gs tracks)

theorem linkTablesDone {s r st} (run : linkTables s r = .done st) :
    tScan s (s.tables.length+1) r.startingTable none r.st.q = some (1,st.q) ∧ st.q.nToFind = 0 ∧ st.b = r.st.b := by
  unfold linkTables at run
  split at run
  · cases run
  rename_i keepVal q scanned
  split at run
  · cases run
  cases run
  have kept : keepVal = 1 := by omega
  exact ⟨by rw [scanned,kept],by dsimp only; omega,rfl⟩

theorem multiConditionsDone {inp st st'} (run : multiConditions inp st = .done st') :
    st' = ⟨multiplied inp st.q,st.b⟩ := by
  unfold multiConditions at run
  split at run
  · cases run
  · cases run
    rfl

structure ClientStep (s : Setup) (b : Binds) (inp : GenQueryInp) (st : State) : Prop where
  query : st.q = intendedQuery s inp
  linked : ∃ q, tScan s (s.tables.length+1) (startingTable s inp) none (conditionedQuery s inp) = some (1,q) ∧
    q.nToFind = 0
  known : ∀ c ∈ inp.conditions, ∃ i d, tableOf s c.1 = some (i,d)
  accepted : ∀ f ∈ conditionForms inp.conditions, f.Accepted
  tracks : Tracks s b.cllBindVars.length st.b (conditionForms inp.conditions)

theorem leftoverPoints (b ps) : List.Forall₂ (Points b) ps (List.replicate ps.length .leftover) := by
  induction ps with
  | nil => exact .nil
  | cons p _ ih => exact .cons trivial ih

theorem clientQueryDone {s b inp st} (run : clientQuery s b inp = .done st) :
    ClientStep s b inp st := by
  obtain ⟨_,selected,run⟩ := bindDone run
  obtain ⟨two,added,run⟩ := bindDone run
  obtain ⟨three,scanned,multi⟩ := bindDone run
  obtain ⟨state,start⟩ := selectColumnsDone selected
  have step := addConditionsDone added
  obtain ⟨found,all,same⟩ := linkTablesDone scanned
  have query : two.st.q = conditionedQuery s inp := by
    rw [step.query]
    simp only [state]
    rfl
  have origin : two.startingTable = startingTable s inp := by
    rw [step.start]
    simp only [start]
    rfl
  rw [query,origin] at found
  have last := multiConditionsDone multi
  refine ⟨?_,⟨three.q,found,all⟩,step.known,step.accepted,?_⟩
  · rw [last,intendedQuery,found]
  rw [last,same]
  refine step.tracks _ [] ?_
  simp only [state]
  exact ⟨leftoverPoints _ _,by simp [extent],Nat.zero_le _,Nat.zero_le _,Nat.zero_le _⟩

end Irods.GenQuery1Client
