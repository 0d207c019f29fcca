import Irods.GenQuery1Values
import Irods.GenQuery1Assembly

/-! Every placeholder of a general query gets its own operand, when the arrays the operands are
copied to are used once. -/
namespace Irods.GenQuery1Binds
open CText StringOpr StaticMemory GenQuery1Setup GenQuery1Tables GenQuery1Conditions GenQuery1Generate GenQuery1Forms
    List Nat Form Restriction
  GenQuery1Tracks GenQuery1Client GenQuery1Weights GenQuery1Assembly GenQuery1Values

/- The BETWEEN array is filled from its start by every BETWEEN, the paths of a parent_of live until
the next one, and a string of the IN array must fit the temporary text. -/
structure OwnPlaces (fs : List Form) : Prop where
  between : ∀ vs ws, .between vs ∈ fs → .between ws ∈ fs → vs = ws
  parents : fs.countP isParent ≤ 1
  listed : ∀ vs, .inList vs ∈ fs → ∀ v ∈ vs, v.length < MAX_SQL_SIZE_GQ

theorem clearedTwice (slot : Slot) : slot.cleared.cleared = slot.cleared := by cases slot <;> rfl

theorem slotsFold (s ss fs) :
    fs.foldl (addSlots s) ss = (if fs.any isParent then ss.map Slot.cleared else ss) ++ slots s 0 fs := by
  induction fs generalizing ss with
  | nil => simp [slots]
  | cons f fs ih =>
    have rest := ih (addSlots s [] f)
    have whole : slots s 0 (f::fs) = fs.foldl (addSlots s) (addSlots s [] f) := rfl
    rw [foldl_cons,ih,whole,rest,any_cons]
    unfold addSlots
    cases isParent f <;> cases fs.any isParent <;>
      simp [clearedTwice]

theorem slotsCons (s f fs) :
    slots s 0 (f::fs) = (if fs.any isParent then (formSlots s f).map Slot.cleared else formSlots s f) ++
      slots s 0 fs := by
  have own : addSlots s [] f = formSlots s f := by
    unfold addSlots
    split <;> rfl
  exact own ▸ slotsFold s (addSlots s [] f) fs

def reads (m : Memory) (vs : List Text) : Prop := (boundedSlots 0 vs).map (slotValue m) = vs.map some

def OwnValue (m : Memory) (later : Bool) : Form → Prop
  | .inList vs => ∀ v ∈ vs, v.length < MAX_SQL_SIZE_GQ
  | .between vs => reads m vs
  | .parentOf _ => later = false
  | _ => True

theorem boundedCleared (ix) (vs) : (boundedSlots ix vs).map Slot.cleared = boundedSlots ix vs := by
  induction vs generalizing ix with
  | nil => rfl
  | cons v _ ih => rw [boundedSlots,map_cons,ih]; rfl

theorem parentPathsSome (s : Setup) (v) : parentPaths (s.split v) ≠ [] := by
  intro empty
  have none := congrArg length empty
  simp only [parentPaths,length_map,length_range,length_nil,length_eq_zero_iff] at none
  exact s.splitSome v none

theorem keptIff (v) : kept v = v ↔ v.length < MAX_SQL_SIZE_GQ := by
  unfold kept
  split
  · rename_i short
    exact ⟨fun _ => short,fun _ => rfl⟩
  rename_i long
  refine ⟨?_,fun short => absurd short long⟩
  rintro rfl
  exact absurd (by decide) long

attribute [simp] OwnValue operands

theorem formValue {s m later f} :
    (if later then (formSlots s f).map Slot.cleared else formSlots s f).map (slotValue m) = (f.operands s).map some ↔
      OwnValue m later f := by
  cases f with
  | inList vs =>
    have same : (if later then (formSlots s (.inList vs)).map Slot.cleared else formSlots s (.inList vs)) =
      vs.map .listed := by
      cases later
      · rfl
      · simp [formSlots,Slot.cleared]
    rw [same,map_map]
    simp [slotValue,keptIff]
  | between vs =>
    have same : (if later then (formSlots s (.between vs)).map Slot.cleared else formSlots s (.between vs)) =
      boundedSlots 0 vs := by
      cases later
      · rfl
      · exact boundedCleared 0 vs
    rw [same]
    rfl
  | parentOf v =>
    cases later with
    | false =>
      simp only [Bool.false_eq_true,if_false,formSlots,map_map,operands,OwnValue,iff_true]
      rw [show (slotValue m ∘ fun p : Text × Nat => Slot.parent p.2 p.1) = some ∘ Prod.fst from rfl,← map_map,
          zipIdx_map_fst]
    | true =>
      simp only [formSlots,operands,OwnValue]
      obtain ⟨p,_,path⟩ := exists_cons_of_ne_nil (parentPathsSome s v)
      rw [path]
      simp [Slot.cleared,slotValue]
  | nullTest _ => cases later <;> simp [formSlots]
  | beginOf v => cases later <;> simp [formSlots,Slot.cleared,slotValue]
  | comparison _ v => cases later <;> simp [formSlots,Slot.cleared,slotValue]
  | malformed => cases later <;> simp [formSlots]

def OwnAll (m : Memory) : List Form → Prop
  | [] => True
  | f::fs => OwnValue m (fs.any isParent) f ∧ OwnAll m fs

theorem valuesIff {s m fs} :
    (slots s 0 fs).map (slotValue m) = (fs.flatMap (operands s)).map some ↔ OwnAll m fs := by
  induction fs with
  | nil => simp [slots,OwnAll]
  | cons f fs ih =>
    have sizes : ((if fs.any isParent then (formSlots s f).map Slot.cleared else formSlots s f).map
        (slotValue m)).length =
        ((f.operands s).map some).length := by
      have own := congrArg length (formOperands s f)
      rw [length_map] at own
      split <;> simp [own]
    rw [slotsCons,map_append,flatMap_cons,map_append,OwnAll,← ih,← formValue]
    exact ⟨fun same => append_inj same sizes,fun both => by rw [both.1,both.2]⟩

theorem ownAllIff {m fs} :
    OwnAll m fs ↔ (∀ vs, .between vs ∈ fs → reads m vs) ∧ fs.countP isParent ≤ 1 ∧
      ∀ vs, .inList vs ∈ fs → ∀ v ∈ vs, v.length < MAX_SQL_SIZE_GQ := by
  induction fs with
  | nil => simp [OwnAll]
  | cons f fs ih =>
    rw [OwnAll,ih,countP_cons]
    cases f with
    | inList vs =>
      simp only [mem_cons,reduceCtorEq,false_or,
        inList.injEq]
      constructor
      · rintro ⟨here,readsFrom,parents,listed⟩
        refine ⟨readsFrom,parents,?_⟩
        rintro ws (rfl | later)
        · exact here
        · exact listed ws later
      · rintro ⟨readsFrom,parents,listed⟩
        exact ⟨listed vs (.inl rfl),readsFrom,parents,fun ws later => listed ws (.inr later)⟩
    | between vs =>
      simp only [mem_cons,reduceCtorEq,false_or,
        between.injEq]
      constructor
      · rintro ⟨here,readsFrom,parents,listed⟩
        refine ⟨?_,parents,listed⟩
        rintro ws (rfl | later)
        · exact here
        · exact readsFrom ws later
      · rintro ⟨readsFrom,parents,listed⟩
        exact ⟨readsFrom vs (.inl rfl),fun ws later => readsFrom ws (.inr later),parents,listed⟩
    | parentOf v =>
      have none : fs.any isParent = false ↔ fs.countP isParent = 0 := by
        rw [countP_eq_zero,any_eq_false]
      simp only [OwnValue,isParent,mem_cons,if_true,reduceCtorEq,false_or,none]
      constructor
      · rintro ⟨_,readsFrom,-,listed⟩
        exact ⟨readsFrom,by omega,listed⟩
      · rintro ⟨readsFrom,_,listed⟩
        exact ⟨by omega,readsFrom,by omega,listed⟩
    | nullTest _ => simp [isParent]
    | beginOf v => simp [isParent]
    | comparison _ v => simp [isParent]
    | malformed => simp [isParent]

theorem readsPair {m a b} :
    reads m [a,b] ↔ fetch m MAX_SQL_SIZE_GQ 0 = a ∧ fetch m (MAX_SQL_SIZE_GQ-(a.length+1)) (a.length+1) = b := by
  simp [reads,boundedSlots,slotValue]

theorem readsSame {m vs ws} (one : vs.length = 2) (two : ws.length = 2) (left : reads m vs)
    (right : reads m ws) : vs = ws := by
  obtain ⟨a,b,rfl⟩ := length_eq_two.mp one
  obtain ⟨c,d,rfl⟩ := length_eq_two.mp two
  obtain ⟨first,second⟩ := readsPair.mp left
  obtain ⟨third,fourth⟩ := readsPair.mp right
  have same := first.symm.trans third
  subst same
  rw [second.symm.trans fourth]

theorem storedReads {m vs} (pair : vs.length = 2) (clean : ∀ v ∈ vs, NUL ∉ v)
    (room : stringsExtent vs ≤ MAX_SQL_SIZE_GQ) : reads (storeAll m 0 vs) vs := by
  obtain ⟨a,b,rfl⟩ := length_eq_two.mp pair
  simp only [stringsExtent,map_cons,sum_cons] at room
  refine readsPair.mpr ⟨?_,?_⟩
  · refine fetchHolds ?_ (clean a (by simp)) (by omega)
    refine holdsKept (storeHolds m 0 a) fun i _ upper => ?_
    exact writeOutside (by omega)
  · refine fetchHolds ?_ (clean b (by simp)) (by omega)
    simp only [storeAll,zero_add]
    exact storeHolds _ _ _

section
variable {fs} (accepted : ∀ f ∈ fs, f.Accepted) (clean : NulFree fs) (room : extent fs ≤ MAX_SQL_SIZE_GQ)
include accepted clean room

theorem lastReads {vs} (mem : .between vs ∈ fs) : ∃ ws, .between ws ∈ fs ∧ reads (replay fs) ws := by
  induction fs using reverseRecOn with
  | nil => cases mem
  | append_singleton fs f ih =>
    rw [extentAppend] at room
    rw [replayAppend]
    by_cases last : ∃ ws, f = .between ws
    · obtain ⟨ws,rfl⟩ := last
      refine ⟨ws,by simp,?_⟩
      refine storedReads (accepted (.between ws) (by simp)) (clean (.between ws) (by simp)) ?_
      exact le_trans (le_max_right _ _) room
    · have early : .between vs ∈ fs := by
        rcases mem_append.mp mem with old | new
        · exact old
        · exact absurd ⟨vs,(mem_singleton.mp new).symm⟩ last
      have keeps : replayForm (replay fs) f = replay fs := by
        cases f with
        | between ws => exact absurd ⟨ws,rfl⟩ last
        | _ => rfl
      obtain ⟨ws,there,held⟩ := ih (fun g mem => accepted g (mem_append_left _ mem))
        (fun g mem => clean g (mem_append_left _ mem)) (le_trans (le_max_left _ _) room) early
      rw [keeps]
      exact ⟨ws,mem_append_left _ there,held⟩

theorem ownPlacesIff {s} :
    (slots s 0 fs).map (slotValue (replay fs)) = (fs.flatMap (operands s)).map some ↔ OwnPlaces fs := by
  rw [valuesIff,ownAllIff]
  constructor
  · rintro ⟨between,parents,listed⟩
    refine ⟨?_,parents,listed⟩
    intro vs ws one two
    exact readsSame (accepted _ one) (accepted _ two) (between vs one) (between ws two)
  · rintro ⟨between,parents,listed⟩
    refine ⟨?_,parents,listed⟩
    intro vs mem
    obtain ⟨ws,there,held⟩ := lastReads accepted clean room mem
    rw [between vs ws mem there]
    exact held

end

theorem clientMarks {s b inp st} (empty : b.cllBindVars = [])
    (step : ClientStep s b inp st) :
    Tracks s 0 st.b (conditionForms inp.conditions) ∧ Rooted st.q.whereSQL ∧ Tidy st.q ∧
      st.b.cllBindVars.length = st.q.whereSQL.count '?' ∧
      st.b.cllBindVars.length = ((conditionForms inp.conditions).flatMap (operands s)).length := by
  have tracks := step.tracks
  rw [empty] at tracks
  have weighs := intendedWeighs (μ := marks) step.known step.accepted
  have count := weighs.total
  rw [marksCount,marksTotal] at count
  have size : st.b.cllBindVars.length = ((conditionForms inp.conditions).flatMap (operands s)).length := by
    rw [tracks.points.length_eq,← slotsOperands,length_map]
    rfl
  refine ⟨tracks,step.query ▸ weighs.rooted,step.query ▸ intendedTidy s inp,?_,size⟩
  rw [size,step.query]
  exact_mod_cast count.symm

def sessionOperand (sess : Session) : BindPtr → Text
  | .userName => sess.accessControlUserName
  | .zone => sess.accessControlZone
  | .ticket => sess.sessionTicket
  | _ => []

def offsetOperands (inp : GenQueryInp) : List Text :=
  if 0 < inp.rowOffset then [Nat.toDigits 10 inp.rowOffset.toNat] else []

def placeholderOperands (s : Setup) (sess : Session) (inp : GenQueryInp) : List Text :=
  (conditionForms inp.conditions).flatMap (Form.operands s) ++
  ((restrictionsOf sess (intendedQuery s inp)).flatMap Restriction.pointers).map (sessionOperand sess) ++
    offsetOperands inp

def restrictedWhere (s : Setup) (sess : Session) (inp : GenQueryInp) : Text :=
  (restrictionsOf sess (intendedQuery s inp)).foldl restrictedText (intendedQuery s inp).whereSQL

theorem derefKept (sess b vars offset) {p} (other : p ≠ .offsetStr) :
    deref sess { b with cllBindVars := vars, offsetStr := offset } p = deref sess b p := by
  cases p with
  | offsetStr => contradiction
  | _ => rfl

theorem pointsOther {b p slot} (points : Points b p slot) (known : slot ≠ .leftover) :
    p ≠ .offsetStr := by
  rintro rfl
  cases slot with
  | leftover => exact known rfl
  | plain v => obtain ⟨i,same,-⟩ := points; cases same
  | listed v => obtain ⟨i,same,-⟩ := points; cases same
  | bounded _ v => cases points
  | parent i v => cases points.1
  | destroyed v => cases points

theorem clientPointers {s b fs} (tracks : Tracks s 0 b fs) : BindPtr.offsetStr ∉ b.cllBindVars := by
  have none := noLeftover s fs
  have points := tracks.points
  intro mem
  obtain ⟨i,inside,position⟩ := getElem_of_mem mem
  have held := points.get inside (points.length_eq ▸ inside)
  refine pointsOther held ?_ position
  intro same
  exact none (same ▸ getElem_mem _)

theorem sessionValues {sess q} (b) :
    ((restrictionsOf sess q).flatMap pointers).map (deref sess b) =
      (((restrictionsOf sess q).flatMap pointers).map (sessionOperand sess)).map some := by
  rw [map_map]
  refine map_congr_left fun p mem => ?_
  rcases restrictionPointers p mem with rfl | rfl | rfl <;> rfl

section
variable {s sess inp st sql st'} (done : Assembled s sess inp st sql st')
include done

section
variable (fits : ((restrictionsOf sess st.q).foldl restrictedText st.q.whereSQL).length < MAX_SQL_SIZE_GQ)
include fits

theorem assembledBinds :
    ∃ offset, st'.b = { st.b with
      cllBindVars := st.b.cllBindVars ++ (restrictionsOf sess st.q).flatMap pointers ++
        (if 0 < inp.rowOffset then [.offsetStr] else [])
      offsetStr := offset } ∧ (0 < inp.rowOffset → offset = toDigits 10 inp.rowOffset.toNat) := by
  have all := restrictAllFits fits
  have binds := foldBinds (restrictionsOf sess st.q) st
  have there : (accessed sess st).b = { st.b with
      cllBindVars := st.b.cllBindVars ++ (restrictionsOf sess st.q).flatMap pointers } := by
    rw [accessed,all]
    exact binds
  rw [done.state]
  by_cases offset : 0 < inp.rowOffset
  · refine ⟨toDigits 10 inp.rowOffset.toNat,?_,fun _ => rfl⟩
    rw [if_pos offset,if_pos offset,bindOffset]
    simp [there]
  · refine ⟨st.b.offsetStr,?_,fun yes => absurd yes offset⟩
    rw [if_neg offset,if_neg offset,there,append_nil]

theorem statementValues {fs} (tracks : Tracks s 0 st.b fs) (accepted : ∀ f ∈ fs, f.Accepted) (clean : NulFree fs) :
    boundValues sess st'.b = (slots s 0 fs).map (slotValue (replay fs)) ++
      (((restrictionsOf sess st.q).flatMap pointers).map (sessionOperand sess) ++ offsetOperands inp).map some := by
  obtain ⟨offset,binds,digits⟩ := assembledBinds done fits
  have own := trackedValues sess tracks accepted clean
  have last : (if 0 < inp.rowOffset then [BindPtr.offsetStr] else []).map (deref sess st'.b) =
    (offsetOperands inp).map some := by
    unfold offsetOperands
    split
    · rename_i yes
      rw [binds,← digits yes]
      rfl
    · rfl
  have first : st.b.cllBindVars.map (deref sess st'.b) = st.b.cllBindVars.map (deref sess st.b) := by
    refine map_congr_left fun p mem => ?_
    rw [binds]
    exact derefKept sess st.b _ offset fun same => clientPointers tracks (same ▸ mem)
  rw [← own,← first,map_append,← sessionValues st'.b,← last,← map_append,← map_append]
  unfold boundValues
  rw [binds,← append_assoc]

end

theorem statementCount (tidy : Tidy st.q) (rooted : Rooted st.q.whereSQL)
    (marked : st.b.cllBindVars.length = st.q.whereSQL.count '?') :
    sql.count '?' = st'.b.cllBindVars.length ↔
      ((restrictionsOf sess st.q).foldl restrictedText st.q.whereSQL).length < MAX_SQL_SIZE_GQ := by
  obtain ⟨counted,_⟩ := assembledMarks done tidy rooted
  by_cases fits : ((restrictionsOf sess st.q).foldl restrictedText st.q.whereSQL).length < MAX_SQL_SIZE_GQ
  · refine ⟨fun _ => fits,fun _ => ?_⟩
    obtain ⟨_,binds,-⟩ := assembledBinds done fits
    have marks := foldMarks _ (fun r mem => (restrictionMarks sess st.q r mem).1) st.q.whereSQL
    have place : (accessed sess st).q.whereSQL = (restrictionsOf sess st.q).foldl restrictedText st.q.whereSQL := by
      rw [accessed,restrictAllFits fits]
      exact foldWhere _ _
    rw [counted,place,marks,binds,← marked]
    simp only [length_append]
    split <;> rfl
  · obtain ⟨t,query⟩ := restrictAllWhere (restrictionsOf sess st.q) st
    have inside : st.q.whereSQL.length ≤ (accessed sess st).q.whereSQL.length := by
      rw [accessed,query]
      simp
    have fewer := unfitMarks (by omega) (Nat.le_of_not_lt fits) (restrictionMarks sess st.q) (by
      have : (accessed sess st).q.whereSQL.length+5 < MAX_SQL_SIZE_GQ := by omega
      exact this)
    have fewer : (accessed sess st).q.whereSQL.count '?' + st.b.cllBindVars.length <
        st.q.whereSQL.count '?' + (accessed sess st).b.cllBindVars.length := fewer
    rw [counted,done.state]
    split
    · simp only [bindOffset,length_append,length_singleton]
      omega
    · omega

end

theorem placeholdersBoundExactly {s : Setup} {sess : Session} {b : Binds} {inp : GenQueryInp} {sql : Text} {st : State}
    (empty : b.cllBindVars = []) (run : generateSQL s sess b inp = .done (sql,st)) :
    (sql.count '?' = st.b.cllBindVars.length ∧ boundValues sess st.b = (placeholderOperands s sess inp).map some) ↔
      OwnPlaces (conditionForms inp.conditions) ∧ (restrictedWhere s sess inp).length < MAX_SQL_SIZE_GQ := by
  obtain ⟨client,built,run⟩ := bindDone run
  have step := clientQueryDone built
  obtain ⟨tracks,rooted,tidy,marked,_⟩ := clientMarks empty step
  have few : client.b.cllBindVars.length+6 < MAX_BIND_VARS := by
    have short := assembleShort run
    have := count_le_length (a := '?') (l := client.q.whereSQL)
    unfold MAX_BIND_VARS
    unfold MAX_SQL_SIZE_GQ at short
    omega
  have done := assembleDone run rooted few
  have count := statementCount done tidy rooted marked
  unfold restrictedWhere placeholderOperands
  rw [← step.query,count,and_comm,and_congr_left_iff]
  intro fits
  rw [statementValues done fits tracks step.accepted (formsNulFree inp),append_assoc]
  simp only [map_append]
  rw [append_left_inj,ownPlacesIff step.accepted (formsNulFree inp) tracks.room]

def anonymousSession : Session := ⟨ANONYMOUS_USER,lit "tempZone",0,0,[]⟩

def mixedQuery : GenQueryInp where
  selects := [(403,1)]
  conditions := [(403,lit "like 'a%' || = 'b'"),(419,lit "BETWEEN '1' '2'"),(407,lit "IN ('3','4')")]
  options := 0
  rowOffset := 5
  nulFree := by decide

def generated (sess : Session) (inp : GenQueryInp) : Bool :=
  match generateSQL icatGeneralQuerySetup sess freshBinds inp with
  | .done _ => true
  | _ => false

theorem generatedRun (sess inp) (yes : generated sess inp = true) :
    ∃ sql st, generateSQL icatGeneralQuerySetup sess freshBinds inp = .done (sql,st) := by
  unfold generated at yes
  split at yes
  · rename_i r run
    exact ⟨r.1,r.2,run⟩
  · cases yes

theorem placeholdersBoundHere : ∃ sql st,
    generateSQL icatGeneralQuerySetup anonymousSession freshBinds mixedQuery = .done (sql,st) ∧
    sql.count '?' = st.b.cllBindVars.length ∧ boundValues anonymousSession st.b =
      [lit "a%",lit "b",lit "1",lit "2",lit "3",lit "4",ANONYMOUS_USER,lit "tempZone",lit "5"].map some := by
  obtain ⟨sql,st,run⟩ := generatedRun anonymousSession mixedQuery (by decide +kernel)
  have forms : conditionForms mixedQuery.conditions = [.comparison (lit "like ") (lit "a%"),
      .comparison (lit " = ") (lit "b"),
    .between [lit "1",lit "2"],.inList [lit "3",lit "4"]] := by decide +kernel
  have own : OwnPlaces (conditionForms mixedQuery.conditions) := by
    rw [forms]
    refine ⟨?_,by decide,?_⟩
    · intro vs _ one two
      simp at one two
      rw [one,two]
    intro _ mem v inside
    simp at mem
    subst mem
    simp at inside
    rcases inside with rfl | rfl <;> decide
  have operands : placeholderOperands icatGeneralQuerySetup anonymousSession mixedQuery =
      [lit "a%",lit "b",lit "1",lit "2",lit "3",lit "4",ANONYMOUS_USER,lit "tempZone",lit "5"] := by decide +kernel
  have bound := (placeholdersBoundExactly rfl run).mpr ⟨own,by decide +kernel⟩
  rw [operands] at bound
  exact ⟨sql,st,run,bound⟩

def adminSession : Session := ⟨lit "rods",lit "tempZone",LOCAL_PRIV_USER_AUTH,0,[]⟩

def twoBetweens : GenQueryInp where
  selects := [(403,1)]
  conditions := [(419,lit "BETWEEN '1' '2'"),(420,lit "BETWEEN '3' '4'")]
  options := 0
  rowOffset := 0
  nulFree := by decide

theorem betweenOverwritten : ∃ sql st, generateSQL icatGeneralQuerySetup adminSession freshBinds twoBetweens = .done
    (sql,st) ∧
    boundValues adminSession st.b = [lit "3",lit "4",lit "3",lit "4"].map some ∧
    placeholderOperands icatGeneralQuerySetup adminSession twoBetweens = [lit "1",lit "2",lit "3",lit "4"] := by
  have values : (match generateSQL icatGeneralQuerySetup adminSession freshBinds twoBetweens with
      | .done (_,st) => boundValues adminSession st.b
      | _ => []) = [lit "3",lit "4",lit "3",lit "4"].map some := by decide +kernel
  have operands : placeholderOperands icatGeneralQuerySetup adminSession twoBetweens = [lit "1",lit "2",lit "3",
      lit "4"] := by
    decide +kernel
  obtain ⟨sql,st,run⟩ := generatedRun adminSession twoBetweens (by decide +kernel)
  rw [run] at values
  exact ⟨sql,st,run,values,operands⟩

end Irods.GenQuery1Binds
