import Irods.GenQuery1Twins
import Irods.GenQuery1Binds

/-! One general query after another. The static variables a call finds matter only through the
bind list: a call that finds it empty sends what the first call of a process would send, and a
call that does not sends more values. -/
namespace Irods.GenQuery1Isolation
open CText StringOpr StaticMemory GenQuery1Setup GenQuery1Tables GenQuery1Conditions GenQuery1Generate GenQuery1Forms
    List Option Nat Reply
  GenQuery1Tracks GenQuery1Client GenQuery1Weights GenQuery1Assembly GenQuery1Values GenQuery1Binds GenQuery1Twins

def sessionPointer (p : BindPtr) : Bool := p == .userName || p == .zone || p == .ticket

structure AddsUpTo (n : Nat) (f : Binds → Bool × State) (ok : Bool) (q : Query) (ps : List BindPtr) : Prop where
  same : ∀ b, f b = (ok,⟨q,{ b with cllBindVars := b.cllBindVars ++ ps }⟩)
  session : ps.all sessionPointer = true
  few : ps.length ≤ n

def Uniform (n : Nat) (f : Binds → Bool × State) : Prop := ∃ ok q ps, AddsUpTo n f ok q ps

theorem uniformStart (q) : Uniform 0 (fun b => (true,⟨q,b⟩)) :=
  ⟨true,q,[],fun b => by rw [append_nil],rfl,le_refl 0⟩

theorem restrictIfUniform {n f} (uniform : Uniform n f) (needed) {r}
    (session : r.pointers.all sessionPointer = true) :
    Uniform (n+r.pointers.length) fun b => restrictIf needed r (f b) := by
  obtain ⟨ok,q,ps,same,own,_⟩ := uniform
  unfold restrictIf restrict
  simp only [same]
  by_cases yes : (ok && needed q) = true
  · simp only [if_pos yes]
    by_cases fits :
      (rstrcats q.whereSQL MAX_SQL_SIZE_GQ (separated (decide (6 < q.whereSQL.length)) (lit " AND "))).2 = true
    · simp only [if_pos fits]
      refine ⟨_,_,ps ++ r.pointers,fun b => by rw [← append_assoc],?_,?_⟩
      · rw [all_append,own,session]
        rfl
      · rw [length_append]
        omega
    · simp only [if_neg fits]
      exact ⟨_,_,ps,fun b => rfl,own,by omega⟩
  · simp only [if_neg yes]
    exact ⟨_,_,ps,fun b => rfl,own,by omega⟩

theorem accessUniform (sess q) : ∃ q' ps, ps.all sessionPointer = true ∧ ps.length ≤ 6 ∧
    ∀ b, b.cllBindVars.length+6 < MAX_BIND_VARS →
      (genqAppendAccessCheck sess ⟨q,b⟩).2 = ⟨q',{ b with cllBindVars := b.cllBindVars ++ ps }⟩ := by
  have finish : ∀ {n : Nat} {f : Binds → Bool × State}, Uniform n f → n ≤ 6 →
      (∀ b, b.cllBindVars.length+6 < MAX_BIND_VARS → (genqAppendAccessCheck sess ⟨q,b⟩).2 = (f b).2) →
      ∃ q' ps, ps.all sessionPointer = true ∧ ps.length ≤ 6 ∧ ∀ b, b.cllBindVars.length+6 < MAX_BIND_VARS →
        (genqAppendAccessCheck sess ⟨q,b⟩).2 = ⟨q',{ b with cllBindVars := b.cllBindVars ++ ps }⟩ := by
    rintro n f ⟨ok,q',ps,same,session,_⟩ _ runs
    exact ⟨q',ps,session,by omega,fun b room => by rw [runs b room,same b]⟩
  have start := uniformStart q
  have owner := restrictIfUniform start selectsTicket (r := ticketOwner) rfl
  have data := restrictIfUniform owner (mentions R_DATA_MAIN) (r := readableData) rfl
  have coll := restrictIfUniform data (mentions R_COLL_MAIN) (r := readableColl) rfl
  have dataTicket := restrictIfUniform owner (mentions R_DATA_MAIN) (r := ticketData) rfl
  have collTicket := restrictIfUniform owner (mentions R_COLL_MAIN) (r := ticketColl) rfl
  by_cases privileged : sess.accessControlPriv = LOCAL_PRIV_USER_AUTH
  · refine finish start (by decide) fun b _ => ?_
    rw [genqAppendAccessCheck,if_pos privileged]
  have unclosed : ∀ b : Binds, b.cllBindVars.length+6 < MAX_BIND_VARS → ¬(b.cllBindVars.length+6 ≥ MAX_BIND_VARS) := by
    omega
  cases free : restricted sess with
  | false =>
    refine finish owner (by decide) fun b room => ?_
    rw [genqAppendAccessCheck,if_neg privileged,if_neg (unclosed b room),free]
    rfl
  | true =>
    cases ticket : sess.sessionTicket.isEmpty with
    | true =>
      refine finish coll (by decide) fun b room => ?_
      rw [genqAppendAccessCheck,if_neg privileged,if_neg (unclosed b room),free,ticket]
      rfl
    | false =>
      obtain ⟨_,q',_,same,-,-⟩ := owner
      by_cases ofData : mentions R_DATA_MAIN q' = true
      · refine finish dataTicket (by decide) fun b room => ?_
        rw [genqAppendAccessCheck,if_neg privileged,if_neg (unclosed b room),free,ticket]
        simp only [same b,ofData]
        rfl
      · refine finish collTicket (by decide) fun b room => ?_
        rw [genqAppendAccessCheck,if_neg privileged,if_neg (unclosed b room),free,ticket]
        simp only [same b,ofData]
        rfl

theorem slotsLength (s n fs) : (slots s n fs).length = n+(slots s 0 fs).length := by
  induction fs using reverseRecOn with
  | nil => simp [slots]
  | append_singleton _ f _ =>
    have grows : ∀ ss, (addSlots s ss f).length = ss.length+(formSlots s f).length := by
      unfold addSlots
      split <;> simp
    rw [slotsAppend,slotsAppend,grows,grows]
    omega

variable {s : Setup} {b : Binds} {inp : GenQueryInp} {st : State}

theorem clientCount (step : ClientStep s b inp st) :
    st.b.cllBindVars.length = b.cllBindVars.length+(slots s 0 (conditionForms inp.conditions)).length := by
  rw [step.tracks.points.length_eq,slotsLength]

variable {sess : Session} {st' : State} {sql : Text}

theorem assembleState
    (run : assemble s sess inp st = .done (sql,st')) :
    st' = if 0 < inp.rowOffset then
      bindOffset inp (genqAppendAccessCheck sess st).2 else (genqAppendAccessCheck sess st).2 := by
  unfold assemble at run
  dsimp only at run
  split at run
  · cases run
  split at run
  · cases run
  split at run
  · rename_i offset
    rw [if_pos offset]
    split at run
    · cases run; rfl
    · cases run
  · rename_i offset
    rw [if_neg offset]
    cases run; rfl

def offsetPointers (inp : GenQueryInp) : List BindPtr := if 0 < inp.rowOffset then [.offsetStr] else []

theorem assembleLength
    (run : assemble s sess inp st = .done (sql,st')) : st'.b.cllBindVars.length =
      (genqAppendAccessCheck sess st).2.b.cllBindVars.length+(offsetPointers inp).length := by
  rw [assembleState run,offsetPointers]
  split
  · simp [bindOffset]
  · rfl

theorem freshRoom
    (empty : b.cllBindVars = []) (step : ClientStep s b inp st) (run : assemble s sess inp st = .done (sql,st')) :
    (slots s 0 (conditionForms inp.conditions)).length < MAX_SQL_SIZE_GQ := by
  obtain ⟨-,-,-,_,-⟩ := clientMarks empty step
  have short := assembleShort run
  have count := clientCount step
  have marks := count_le_length (a := '?') (l := st.q.whereSQL)
  omega

def offsetValues (inp : GenQueryInp) : List (Option Text) :=
  if 0 < inp.rowOffset then [some (Nat.toDigits 10 inp.rowOffset.toNat)] else []

theorem sessionDeref {p} (session : sessionPointer p = true) (b c) : deref sess b p = deref sess c p := by
  cases p <;> first | rfl | cases session

theorem sentValues
    (empty : b.cllBindVars = []) (step : ClientStep s b inp st) (run : assemble s sess inp st = .done (sql,st'))
    {q' ps} (session : ps.all sessionPointer = true)
    (adds : ∀ c, c.cllBindVars.length+6 < MAX_BIND_VARS →
      (genqAppendAccessCheck sess ⟨st.q,c⟩).2 = ⟨q',{ c with cllBindVars := c.cllBindVars ++ ps }⟩) :
    boundValues sess st'.b = (slots s 0 (conditionForms inp.conditions)).map
      (slotValue (replay (conditionForms inp.conditions))) ++
      ps.map (deref sess freshBinds) ++ offsetValues inp := by
  have tracks := step.tracks
  rw [empty] at tracks
  have own := trackedValues sess tracks step.accepted (formsNulFree inp)
  have room := freshRoom empty step run
  have count := clientCount step
  rw [empty,length_nil] at count
  have access := adds st.b (by unfold MAX_BIND_VARS; unfold MAX_SQL_SIZE_GQ at room; omega)
  have client : ∀ offset, ∀ vars,
    st.b.cllBindVars.map (deref sess { st.b with cllBindVars := vars, offsetStr := offset }) =
      st.b.cllBindVars.map (deref sess st.b) := by
    intro offset vars
    refine map_congr_left fun p mem => ?_
    exact derefKept sess st.b vars offset fun same => clientPointers tracks (same ▸ mem)
  have added : ∀ c, ps.map (deref sess c) = ps.map (deref sess freshBinds) := by
    intro c
    refine map_congr_left fun p mem => ?_
    exact sessionDeref (all_eq_true.mp session p mem) c freshBinds
  rw [← own,assembleState run,access,offsetValues]
  split
  · unfold boundValues bindOffset
    rw [map_append,map_append,client,added]
    rfl
  · unfold boundValues
    rw [map_append,added,append_nil,client st.b.offsetStr]

theorem quotaUsersUniform (localZone users) :
    (∀ b, ∃ c, quotaUsers localZone b users = .failed USER_INVALID_USERNAME_FORMAT c) ∨
    (users = [] ∨ ∃ user zone, ∀ b, quotaUsers localZone b users = .done { b with
      quotaUser := user
      quotaZone := zone
      cllBindVars := b.cllBindVars ++ (replicate users.length quotaUserPointers).flatten }) := by
  induction users with
  | nil => exact .inr (.inl rfl)
  | cons value _ ih =>
    unfold quotaUsers
    cases parsed : parseUserName value with
    | none => exact .inl fun b => ⟨_,rfl⟩
    | some u =>
      obtain ⟨user,_⟩ := u
      dsimp only
      rcases ih with fails | rfl | ⟨lastUser,lastZone,done⟩
      · exact .inl fun b => fails _
      · exact .inr (.inr ⟨user,_,fun b => rfl⟩)
      · refine .inr (.inr ⟨lastUser,lastZone,fun b => ?_⟩)
        rw [done]
        simp [replicate_succ]

theorem specialUniform (localZone inp) :
    (∃ code, ∀ b, ∃ c, generateSpecialQuery localZone b inp = .failed code c) ∨
    (∃ (sql : Text) (vs : List Text), ∀ b, ∃ b', generateSpecialQuery localZone b inp = .done (sql,b') ∧
      ∀ sess, boundValues sess b' = b.cllBindVars.map (deref sess b') ++ vs.map some) := by
  unfold generateSpecialQuery
  dsimp only
  generalize (inp.conditions.filter fun c => c.1 == COL_USER_NAME).map Prod.snd = users
  generalize (inp.conditions.filter fun c => c.1 == COL_R_RESC_NAME).map Prod.snd = rescs
  rcases quotaUsersUniform localZone users with fails | rfl | ⟨user,zone,done⟩
  · refine .inl ⟨USER_INVALID_USERNAME_FORMAT,fun b => ?_⟩
    obtain ⟨c,failed⟩ := fails b
    exact ⟨c,by rw [failed]⟩
  · exact .inl ⟨CAT_INVALID_ARGUMENT,fun b => ⟨b,rfl⟩⟩
  · simp only [done]
    cases absent : users.isEmpty with
    | true => exact .inl ⟨CAT_INVALID_ARGUMENT,fun b => ⟨_,rfl⟩⟩
    | false =>
      cases rescs.getLast? with
      | none =>
        refine .inr ⟨quotaQuery1,(replicate users.length [user,zone,user,zone,user,zone]).flatten,
            fun b => ⟨_,rfl,fun sess => ?_⟩⟩
        unfold boundValues
        rw [map_append]
        rw [map_flatten,map_flatten,map_replicate,map_replicate]
        rfl
      | some value =>
        refine .inr ⟨quotaQuery2,(replicate rescs.length (let r := boundedCopy LONG_NAME_LEN value
          [r,user,zone,r,user,zone,r,user,zone])).flatten,fun b => ⟨_,rfl,fun sess => ?_⟩⟩
        unfold boundValues
        rw [map_append]
        rw [map_flatten,map_flatten,map_replicate,map_replicate]
        rfl

def reply (s : Setup) (localZone : Text) (sess : Session) (b : Binds) (inp : GenQueryInp) : Option Reply :=
  (chlGenQuery s localZone sess b inp).map Prod.fst

def generalReply (s : Setup) (sess : Session) (b : Binds) (inp : GenQueryInp) : Option Reply :=
  match generateSQL s sess b inp with
  | .done (sql,st) => some (.sent sql (boundValues sess st.b))
  | .failed code _ => some (.rejected code)
  | .undefined => none

variable {localZone : Text}

theorem replyGeneral
    (general : (inp.options &&& QUOTA_QUERY != 0) = false) :
    reply s localZone sess b inp = generalReply s sess b inp := by
  unfold reply chlGenQuery generalReply
  rw [general]
  cases generateSQL s sess b inp <;> rfl

theorem generalReplyEmpty (empty : b.cllBindVars = []) :
    generalReply s sess b inp = generalReply s sess freshBinds inp := by
  have agree : Agree Twin (clientQuery s b inp) (clientQuery s freshBinds inp) :=
    clientQueryAgree (sameShapeSelf inp) (by rw [empty]; rfl) (checksConditionsSelf s _ _)
  unfold generalReply generateSQL
  generalize one : clientQuery s b inp = x at agree
  generalize two : clientQuery s freshBinds inp = y at agree
  cases agree with
  | failed => rfl
  | undefined => rfl
  | @done st st' twin =>
    have step := clientQueryDone one
    have step' := clientQueryDone two
    have assembled : Agree TwinSql (assemble s sess inp st) (assemble s sess inp st') :=
      assembleAgree (sameShapeSelf inp) twin
    show (match assemble s sess inp st with
      | .done (sql,st) => some (sent sql (boundValues sess st.b))
      | .failed code _ => some (.rejected code)
      | .undefined => none) = match assemble s sess inp st' with
      | .done (sql,st) => some (sent sql (boundValues sess st.b))
      | .failed code _ => some (.rejected code)
      | .undefined => none
    generalize three : assemble s sess inp st = x at assembled
    generalize four : assemble s sess inp st' = y at assembled
    cases assembled with
    | failed => rfl
    | undefined => rfl
    | @done r r' related =>
      obtain ⟨sql,st1⟩ := r
      obtain ⟨sql',st2⟩ := r'
      cases (related.sql : sql = sql')
      obtain ⟨_,_,session,-,adds⟩ := accessUniform sess st.q
      have values := sentValues empty step three session adds
      have values' := sentValues rfl step' four session (by rw [← twin.query]; exact adds)
      show some (sent sql (boundValues sess st1.b)) = some (sent sql (boundValues sess st2.b))
      rw [values,values']

theorem generalReplyLeftover {values}
    (fresh : generalReply s sess freshBinds inp = some (.sent sql values))
    (sent : generalReply s sess b inp = some (.sent sql values)) : b.cllBindVars = [] := by
  have inverse : ∀ {c : Binds}, generalReply s sess c inp = some (.sent sql values) →
      ∃ st st', clientQuery s c inp = .done st ∧ assemble s sess inp st = .done (sql,st') ∧
        values.length = st'.b.cllBindVars.length := by
    intro c run
    unfold generalReply at run
    split at run
    · rename_i st' made
      cases run
      obtain ⟨st,client,run⟩ := bindDone made
      exact ⟨st,st',client,run,length_map _⟩
    · cases run
    · cases run
  obtain ⟨st,_,client,run,_⟩ := inverse fresh
  obtain ⟨st',_,client',run',_⟩ := inverse sent
  have step := clientQueryDone client
  have step' := clientQueryDone client'
  have room := freshRoom rfl step run
  have count : st.b.cllBindVars.length = (slots s 0 (conditionForms inp.conditions)).length := by
    rw [clientCount step]
    exact zero_add _
  have count' := clientCount step'
  have length := assembleLength run
  have length' := assembleLength run'
  obtain ⟨_,ps,-,_,adds⟩ := accessUniform sess (intendedQuery s inp)
  have added : (genqAppendAccessCheck sess st).2.b.cllBindVars.length = st.b.cllBindVars.length+ps.length := by
    have there := adds st.b (by unfold MAX_BIND_VARS; unfold MAX_SQL_SIZE_GQ at room; omega)
    rw [← step.query] at there
    rw [show (genqAppendAccessCheck sess st).2 = _ from there,length_append]
  have absent : b.cllBindVars.length = 0 := by
    by_cases limited : st'.b.cllBindVars.length+6 < MAX_BIND_VARS
    · have there := adds st'.b limited
      rw [← step'.query] at there
      have added' : (genqAppendAccessCheck sess st').2.b.cllBindVars.length = st'.b.cllBindVars.length+ps.length := by
        rw [show (genqAppendAccessCheck sess st').2 = _ from there,length_append]
      omega
    · have more : st'.b.cllBindVars.length ≤ (genqAppendAccessCheck sess st').2.b.cllBindVars.length := by
        unfold genqAppendAccessCheck
        rw [if_pos (show st'.b.cllBindVars.length+6 ≥ MAX_BIND_VARS by omega)]
        split <;> exact le_refl _
      unfold MAX_BIND_VARS at limited
      unfold MAX_SQL_SIZE_GQ at room
      omega
  exact length_eq_zero_iff.mp absent

theorem replyEmpty (empty : b.cllBindVars = []) :
    reply s localZone sess b inp = reply s localZone sess freshBinds inp := by
  cases general : (inp.options &&& QUOTA_QUERY != 0) with
  | false => rw [replyGeneral general,replyGeneral general,generalReplyEmpty empty]
  | true =>
    unfold reply chlGenQuery
    rw [general]
    rcases specialUniform localZone inp with ⟨_,fails⟩ | ⟨sql,_,runs⟩
    · obtain ⟨c,one⟩ := fails b
      obtain ⟨d,two⟩ := fails freshBinds
      rw [one,two]
      rfl
    · obtain ⟨c,one,values⟩ := runs b
      obtain ⟨d,two,values'⟩ := runs freshBinds
      have same : boundValues sess c = boundValues sess d := by
        rw [values,values',empty]
        rfl
      rw [one,two]
      show some (sent sql (boundValues sess c)) = some (sent sql (boundValues sess d))
      rw [same]

theorem replyLeftover {values} (fresh : reply s localZone sess freshBinds inp = some (.sent sql values))
    (sent : reply s localZone sess b inp = some (.sent sql values)) : b.cllBindVars = [] := by
  cases general : (inp.options &&& QUOTA_QUERY != 0) with
  | false =>
    rw [replyGeneral general] at fresh sent
    exact generalReplyLeftover fresh sent
  | true =>
    unfold reply chlGenQuery at fresh sent
    rw [general] at fresh sent
    rcases specialUniform localZone inp with ⟨_,fails⟩ | ⟨_,_,runs⟩
    · obtain ⟨c,failed⟩ := fails freshBinds
      rw [failed] at fresh
      cases fresh
    obtain ⟨c,one,bound⟩ := runs b
    obtain ⟨d,two,bound'⟩ := runs freshBinds
    rw [one] at sent
    rw [two] at fresh
    have left := (Reply.sent.inj (some.inj sent)).2
    have right := (Reply.sent.inj (some.inj fresh)).2
    have lengths := congrArg length (left.trans right.symm)
    rw [bound,bound'] at lengths
    simp only [length_append,length_map,freshBinds,length_nil] at lengths
    exact length_eq_zero_iff.mp (by omega)

def runHistory (s : Setup) (localZone : Text) : Binds → List (Session × GenQueryInp) → Option Binds
  | b,[] => some b
  | b,(sess,inp)::rest => (chlGenQuery s localZone sess b inp).bind (fun r => runHistory s localZone r.2 rest)

theorem requestsIsolatedExactly {s : Setup} {localZone : Text} {sess : Session} {inp : GenQueryInp}
    (history : List (Session × GenQueryInp)) : ∀ b, runHistory s localZone freshBinds history = some b →
      (b.cllBindVars = [] → reply s localZone sess b inp = reply s localZone sess freshBinds inp) ∧
      (∀ sql values, reply s localZone sess freshBinds inp = some (.sent sql values) →
        (reply s localZone sess b inp = some (.sent sql values) ↔ b.cllBindVars = [])) := by
  intro b _
  refine ⟨replyEmpty,fun sql values fresh => ⟨replyLeftover fresh,fun empty => ?_⟩⟩
  rw [replyEmpty empty,fresh]

def plainQuery : GenQueryInp where
  selects := [(403,1)]
  conditions := [(403,lit "= 'b'")]
  options := 0
  rowOffset := 0
  nulFree := by decide

def rejectedQuery : GenQueryInp where
  selects := [(403,1)]
  conditions := [(403,lit "= 'a'"),(99999,lit "= 'x'")]
  options := 0
  rowOffset := 0
  nulFree := by decide

def valuesSent : Option Reply → Option (List (Option Text))
  | some (.sent _ values) => some values
  | _ => none

theorem valuesSentIff {r values} :
    valuesSent r = some values ↔ ∃ sql, r = some (.sent sql values) := by
  cases r with
  | none => simp [valuesSent]
  | some r => cases r <;> simp [valuesSent]

theorem sameAfterExecuted :
    ∃ b, runHistory icatGeneralQuerySetup (lit "tempZone") freshBinds [(adminSession,plainQuery)] = some b ∧
    b.cllBindVars = [] ∧ reply icatGeneralQuerySetup (lit "tempZone") adminSession b plainQuery =
      reply icatGeneralQuerySetup (lit "tempZone") adminSession freshBinds plainQuery := by
  have ran : (runHistory icatGeneralQuerySetup (lit "tempZone") freshBinds [(adminSession,plainQuery)]).map
    (·.cllBindVars) =
      some [] := by decide +kernel
  obtain ⟨b,run,empty⟩ := map_eq_some_iff.mp ran
  exact ⟨b,run,empty,(requestsIsolatedExactly _ b run).1 empty⟩

theorem rejectedValueLeaks :
    ∃ b, runHistory icatGeneralQuerySetup (lit "tempZone") freshBinds [(adminSession,rejectedQuery)] = some b ∧
    (∃ sql, reply icatGeneralQuerySetup (lit "tempZone") adminSession freshBinds plainQuery =
      some (.sent sql [some (lit "b")])) ∧
    (∃ sql, reply icatGeneralQuerySetup (lit "tempZone") adminSession b plainQuery =
      some (.sent sql [some (lit "b"),some (lit "b")])) := by
  have ran : (runHistory icatGeneralQuerySetup (lit "tempZone") freshBinds [(adminSession,rejectedQuery)]).map (fun b =>
      valuesSent (reply icatGeneralQuerySetup (lit "tempZone") adminSession b plainQuery)) =
      some (some [some (lit "b"),some (lit "b")]) := by decide +kernel
  obtain ⟨b,run,leaked⟩ := map_eq_some_iff.mp ran
  have first : valuesSent (reply icatGeneralQuerySetup (lit "tempZone") adminSession freshBinds plainQuery) =
      some [some (lit "b")] := by decide +kernel
  exact ⟨b,run,valuesSentIff.mp first,valuesSentIff.mp leaked⟩

end Irods.GenQuery1Isolation
