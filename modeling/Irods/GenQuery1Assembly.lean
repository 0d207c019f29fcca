import Irods.GenQuery1Client
import Irods.GenQuery1Weights

/-! From the client's query to the statement: the restrictions of the session, whether they fit,
and the placeholders of the statement as a whole. -/
namespace Irods.GenQuery1Assembly
open CText StringOpr StaticMemory GenQuery1Setup GenQuery1Tables GenQuery1Conditions GenQuery1Generate GenQuery1Forms
    List Nat Restriction
  GenQuery1Links GenQuery1Weights

def tidyChar (c : Char) : Bool := quietChar c || c == '(' || c == ')'
def tidyText (t : Text) : Bool := t.all tidyChar

theorem tidyAppend {a b} (left : tidyText a = true) (right : tidyText b = true) : tidyText (a ++ b) = true := by
  rw [tidyText,all_append,Bool.and_eq_true]
  exact ⟨left,right⟩

theorem tidySetup {t} (plain : setupText t = true) : tidyText t = true := by
  refine all_eq_true.mpr fun c mem => ?_
  have named := all_eq_true.mp plain c mem
  simp [tidyChar,quietChar,named]

theorem tidyMarks {t} (tidy : tidyText t = true) : t.count '?' = 0 := by
  refine count_eq_zero.mpr fun mem => ?_
  exact absurd (all_eq_true.mp tidy '?' mem) (by decide)

theorem tidyCats {dest maxLen ts} (tidy : tidyText dest = true) (all : ∀ t ∈ ts, tidyText t = true) :
    tidyText (rstrcats dest maxLen ts).1 = true := by
  obtain ⟨k,same⟩ := rstrcatsPart dest maxLen ts
  rw [same]
  refine tidyAppend tidy (all_eq_true.mpr fun c mem => ?_)
  obtain ⟨t,inside,here⟩ := mem_flatten.mp mem
  exact all_eq_true.mp (all t (mem_of_mem_take inside)) c here

theorem catsLonger (dest maxLen ts) : dest.length ≤ (rstrcats dest maxLen ts).1.length := by
  obtain ⟨k,same⟩ := rstrcatsPart dest maxLen ts
  rw [same,length_append]
  omega

structure Tidy (q : Query) : Prop where
  select : tidyText q.selectSQL = true
  source : tidyText q.fromSQL = true
  group : tidyText q.groupBySQL = true
  keyword : 7 ≤ q.selectSQL.length

theorem separatedTidy {yes separator} (tidy : tidyText separator = true) :
    ∀ t ∈ separated yes separator, tidyText t = true := by
  intro t mem
  unfold separated at mem
  split at mem
  · rw [mem_singleton.mp mem]
    exact tidy
  · cases mem

theorem tableTidy (s : Setup) (i) : tidyText (s.tables.getD i ⟨[],[],0⟩).tableName = true ∧
    tidyText (s.tables.getD i ⟨[],[],0⟩).tableAlias = true := by
  by_cases inside : i < s.tables.length
  · have texts := s.tableTexts _ (getD_eq_getElem _ (⟨[],[],0⟩ : Table) inside ▸ getElem_mem inside)
    exact ⟨tidySetup (nameSetup texts.1),tidySetup texts.2⟩
  · rw [getD_eq_default _ _ (by omega)]
    exact ⟨rfl,rfl⟩

theorem optionTidy (selectOption) : tidyText (optionText selectOption) = true := by
  unfold optionText
  repeat' split
  all_goals decide

theorem addSelectedTidy {q t c selectOption} (tidy : Tidy q)
    (name : tidyText t.tableName = true) (tableAlias : tidyText t.tableAlias = true)
    (column : tidyText c.columnName = true) :
    Tidy (addSelected q t c selectOption).2 := by
  have comma : ∀ yes, ∀ u ∈ separated yes (lit ","), tidyText u = true := fun _ => separatedTidy rfl
  have closing : ∀ yes, ∀ u ∈ separated yes (lit ") "), tidyText u = true := fun _ => separatedTidy rfl
  have dot : tidyText (lit ".") = true := rfl
  have blank : tidyText (lit " ") = true := rfl
  have commaBlank : tidyText (lit ", ") = true := rfl
  have option := optionTidy selectOption
  unfold addSelected
  refine ⟨?_,?_,?_,le_trans tidy.keyword (catsLonger _ _ _)⟩
  · refine tidyCats tidy.select fun u mem => ?_
    simp only [mem_append,mem_cons,not_mem_nil,or_false] at mem
    rcases mem with (sep | rfl | rfl | rfl | rfl | rfl) | close
    · exact comma _ u sep
    · exact option
    · exact name
    · exact dot
    · exact column
    · exact blank
    · exact closing _ u close
  · dsimp only
    split
    · exact tidy.source
    refine tidyCats tidy.source fun u mem => ?_
    simp only [mem_cons,not_mem_nil,or_false] at mem
    rcases mem with rfl | rfl | rfl
    · split
      · exact blank
      · exact commaBlank
    · exact tableAlias
    · exact blank
  · dsimp only
    split
    · exact tidy.group
    refine tidyCats tidy.group fun u mem => ?_
    simp only [mem_append,mem_cons,not_mem_nil,or_false] at mem
    rcases mem with sep | rfl | rfl | rfl | rfl
    · exact comma _ u sep
    · exact name
    · exact dot
    · exact column
    · exact blank

theorem selectTidy {s q} (tidy : Tidy q) (x) : Tidy (intendedSelect s q x) := by
  unfold intendedSelect setTable
  split
  · exact tidy
  rename_i c found
  split
  · exact tidy
  rename_i i _
  have inColumns := mem_reverse.mp (mem_of_find?_eq_some found)
  obtain ⟨name,tableAlias⟩ := tableTidy s i
  exact addSelectedTidy ⟨tidy.select,tidy.source,tidy.group,tidy.keyword⟩ name tableAlias
    (tidySetup (paddedSetup (s.columnTexts c inColumns).2))

theorem conditionTidy {s q} (tidy : Tidy q) (c) : Tidy (intendedCondition s q c) := by
  unfold intendedCondition intendedColumn
  split <;> exact ⟨tidy.select,tidy.source,tidy.group,tidy.keyword⟩

theorem addFromTidy {q} (tidy : Tidy q) {tableAlias} (named : tidyText tableAlias = true) :
    Tidy (addFrom q tableAlias).2 := by
  unfold addFrom
  split
  · exact tidy
  refine ⟨tidy.select,?_,tidy.group,tidy.keyword⟩
  refine tidyCats tidy.source fun u mem => ?_
  simp only [mem_cons,not_mem_nil,or_false] at mem
  rcases mem with rfl | rfl | rfl
  · rfl
  · exact named
  · rfl

theorem useLinkTidy {s l q} (tidy : Tidy q) : Tidy (useLink s l q).2 := by
  have start : ∀ w, Tidy { q with whereSQL := w } := fun w => ⟨tidy.select,tidy.source,tidy.group,tidy.keyword⟩
  have second := fun w => addFromTidy (start w) (tableTidy s l.table2).2
  unfold useLink
  dsimp only
  split
  · split
    · exact addFromTidy (second _) (tableTidy s l.table1).2
    · exact second _
  · exact start _

theorem avuFromTidy {m} (plain : plainMulti m) (i) : tidyText (avuFrom m i) = true := by
  obtain ⟨metamap,metaMain,-⟩ := plain
  obtain ⟨one,two⟩ := digitsPlain i
  refine tidyAppend (tidyAppend (tidyAppend (tidyAppend (tidyAppend (tidyAppend ?_ ?_) ?_) ?_) ?_) ?_) ?_
  · rfl
  · exact tidySetup metamap
  · exact tidySetup one
  · rfl
  · exact tidySetup metaMain
  · exact tidySetup two
  · rfl

theorem multiTidy {m} (plain : plainMulti m) {q} (tidy : Tidy q) (n) :
    Tidy (handleMultiAVUConditions m n q) := by
  have source : tidyText (rstrcats q.fromSQL MAX_SQL_SIZE_GQ ((List.range' 2 (n-1)).map (avuFrom m))).1 = true := by
    refine tidyCats tidy.source fun u mem => ?_
    obtain ⟨i,_,rfl⟩ := mem_map.mp mem
    exact avuFromTidy plain i
  unfold handleMultiAVUConditions
  dsimp only
  split <;> exact ⟨tidy.select,source,tidy.group,tidy.keyword⟩

theorem intendedTidy (s inp) : Tidy (intendedQuery s inp) := by
  have start : Tidy (startQuery inp.options) := by
    unfold startQuery
    split
    · exact ⟨rfl,rfl,rfl,le_refl 7⟩
    · exact ⟨rfl,rfl,rfl,le_add_right 7 9⟩
  have selects : ∀ (xs : List (Nat × Nat)) q, Tidy q → Tidy (xs.foldl (intendedSelect s) q) := by
    intro xs
    induction xs with
    | nil => exact fun q tidy => tidy
    | cons x _ ih => exact fun q tidy => ih _ (selectTidy tidy x)
  have conditions : ∀ (cs : List (Nat × Text)) q, Tidy q → Tidy (cs.foldl (intendedCondition s) q) := by
    intro cs
    induction cs with
    | nil => exact fun q tidy => tidy
    | cons c _ ih => exact fun q tidy => ih _ (conditionTidy tidy c)
  have conditioned : Tidy (conditionedQuery s inp) := conditions _ _ (selects _ _ start)
  unfold intendedQuery
  split
  · exact conditioned
  rename_i q scanned
  have linked := tScanKeeps (fun l _ q tidy => useLinkTidy tidy)
    (fun q flag n tidy => ⟨tidy.select,tidy.source,tidy.group,tidy.keyword⟩) scanned conditioned
  unfold multiplied
  dsimp only
  split <;> split
  · exact multiTidy (by unfold plainMulti; decide) (multiTidy (by unfold plainMulti; decide) linked _) _
  · exact multiTidy (by unfold plainMulti; decide) linked _
  · exact multiTidy (by unfold plainMulti; decide) linked _
  · exact linked

theorem orderEntriesTidy {s orderBy xs}
    (tidy : tidyText orderBy = true) : tidyText (orderEntries s orderBy xs) = true := by
  have entry : ∀ orderBy column descending, tidyText orderBy = true →
      tidyText (orderEntry s orderBy column descending).1 = true := by
    intro orderBy _ _ tidy
    unfold orderEntry
    split
    · exact tidy
    rename_i c found
    have inside := mem_of_find?_eq_some found
    refine tidyCats tidy fun u mem => ?_
    simp only [mem_append,mem_cons,not_mem_nil,or_false] at mem
    rcases mem with (sep | rfl | rfl | rfl) | desc
    · exact separatedTidy rfl u sep
    · exact tidySetup (nameSetup (s.columnTexts c inside).1)
    · rfl
    · exact tidySetup (paddedSetup (s.columnTexts c inside).2)
    · exact separatedTidy rfl u desc
  induction xs generalizing orderBy with
  | nil => exact tidy
  | cons x _ ih =>
    unfold orderEntries
    split
    · exact ih (entry _ _ _ tidy)
    · exact entry _ _ _ tidy

theorem orderByTidy (s selects) : tidyText (orderByClause s selects) = true := by
  exact orderEntriesTidy (orderEntriesTidy (orderEntriesTidy (orderEntriesTidy rfl)))

def restrictionsOf (sess : Session) (q : Query) : List Restriction :=
  if sess.accessControlPriv = LOCAL_PRIV_USER_AUTH then []
  else (if selectsTicket q then [ticketOwner] else []) ++
    if !restricted sess then []
    else if sess.sessionTicket.isEmpty then
      (if mentions R_DATA_MAIN q then [readableData] else []) ++ (if mentions R_COLL_MAIN q then [readableColl] else [])
    else if mentions R_DATA_MAIN q then [ticketData]
    else if mentions R_COLL_MAIN q then [ticketColl] else []

def restrictAll : List Restriction → State → Bool × State
  | [],st => (true,st)
  | r::rs,st => if (restrict r st).1 then restrictAll rs (restrict r st).2 else restrict r st

def restrictedText (w : Text) (r : Restriction) : Text := w ++ separator w ++ r.clause

def restrictedBy (st : State) (r : Restriction) : State :=
  ⟨{ st.q with whereSQL := restrictedText st.q.whereSQL r },{ st.b with cllBindVars := st.b.cllBindVars ++ r.pointers }⟩

theorem separatedFlatten (w) : (separated (decide (6 < w.length)) (lit " AND ")).flatten = separator w := by
  unfold separated separator
  by_cases long : 6 < w.length <;> simp [long]

theorem restrictDone {r st} (ok : (restrict r st).1 = true) : (restrict r st).2 = restrictedBy st r := by
  unfold restrict at ok ⊢
  dsimp only at ok ⊢
  split at ok
  · rename_i fits
    rw [if_pos fits]
    have sep := rstrcatsDone fits
    have clause := rstrcatsDone ok
    rw [clause,sep,separatedFlatten,flatten_singleton]
    rfl
  · cases ok

theorem restrictUnfit {r st} (unfit : (restrict r st).1 = false) :
    ((restrict r st).2 = st ∧ MAX_SQL_SIZE_GQ ≤ (st.q.whereSQL ++ separator st.q.whereSQL).length) ∨
    (restrict r st).2 = ⟨{ st.q with whereSQL := st.q.whereSQL ++ separator st.q.whereSQL },
      { st.b with cllBindVars := st.b.cllBindVars ++ r.pointers }⟩ := by
  unfold restrict at unfit ⊢
  dsimp only at unfit ⊢
  split at unfit
  · rename_i fits
    rw [if_pos fits]
    refine .inr ?_
    have sep := rstrcatsDone fits
    rw [separatedFlatten] at sep
    rw [sep] at unfit ⊢
    have kept : (rstrcats (st.q.whereSQL ++ separator st.q.whereSQL) MAX_SQL_SIZE_GQ [r.clause]).1 =
        st.q.whereSQL ++ separator st.q.whereSQL := by
      unfold rstrcats at unfit ⊢
      split at unfit
      · cases unfit
      · rename_i long
        rw [if_neg long]
    rw [kept]
  · rename_i unfits
    rw [if_neg unfits]
    refine .inl ⟨rfl,?_⟩
    by_contra short
    have room : st.q.whereSQL.length < MAX_SQL_SIZE_GQ := by
      rw [length_append] at short
      omega
    refine unfits ((rstrcatsFits room).mpr ?_)
    rw [separatedFlatten]
    omega

theorem restrictFits {r st} (room : st.q.whereSQL.length < MAX_SQL_SIZE_GQ) :
    (restrict r st).1 = true ↔ (restrictedText st.q.whereSQL r).length < MAX_SQL_SIZE_GQ := by
  have sep : (rstrcats st.q.whereSQL MAX_SQL_SIZE_GQ (separated (decide (6 < st.q.whereSQL.length)) (lit " AND "))).2 =
    true ↔ _ :=
    rstrcatsFits room
  rw [separatedFlatten] at sep
  unfold restrict restrictedText
  dsimp only
  split
  · rename_i fits
    have text := rstrcatsDone fits
    rw [separatedFlatten] at text
    rw [text,rstrcatsFits (sep.mp fits),flatten_singleton]
  · rename_i unfits
    rw [sep] at unfits
    constructor
    · exact fun no => by cases no
    intro short
    rw [length_append] at short
    omega

theorem foldWhere (rs : List Restriction) (st) :
    (rs.foldl restrictedBy st).q.whereSQL = rs.foldl restrictedText st.q.whereSQL := by
  induction rs generalizing st with
  | nil => rfl
  | cons r _ ih =>
    rw [foldl_cons,ih]
    rfl

theorem foldLonger (rs : List Restriction) (w) : w.length ≤ (rs.foldl restrictedText w).length := by
  induction rs generalizing w with
  | nil => exact le_refl _
  | cons r _ ih =>
    refine le_trans ?_ (ih _)
    rw [restrictedText,length_append,length_append]
    omega

theorem restrictAllFits {rs st}
    (fits : (rs.foldl restrictedText st.q.whereSQL).length < MAX_SQL_SIZE_GQ) :
    restrictAll rs st = (true,rs.foldl restrictedBy st) := by
  induction rs generalizing st with
  | nil => rfl
  | cons r rs ih =>
    have shorter := foldLonger rs (restrictedText st.q.whereSQL r)
    have first := lt_of_le_of_lt shorter fits
    have room : st.q.whereSQL.length < MAX_SQL_SIZE_GQ := by
      rw [restrictedText,length_append,length_append] at first
      omega
    have ok := (restrictFits room).mpr first
    rw [restrictAll,if_pos ok,restrictDone ok,ih fits]
    rfl

theorem restrictAllUnfit {rs st} (room : st.q.whereSQL.length < MAX_SQL_SIZE_GQ)
    (unfit : MAX_SQL_SIZE_GQ ≤ (rs.foldl restrictedText st.q.whereSQL).length) :
    ∃ early r late, rs = early ++ r::late ∧ restrictAll rs st = restrict r (early.foldl restrictedBy st) ∧
      (restrict r (early.foldl restrictedBy st)).1 = false ∧
      (early.foldl restrictedText st.q.whereSQL).length < MAX_SQL_SIZE_GQ := by
  induction rs generalizing st with
  | nil =>
    simp only [foldl_nil] at unfit
    omega
  | cons r rs ih =>
    by_cases ok : (restrict r st).1 = true
    · have first := (restrictFits room).mp ok
      obtain ⟨early,q,late,same,run,fails,short⟩ := @ih (restrictedBy st r) first unfit
      refine ⟨r::early,q,late,by rw [same,cons_append],?_,fails,short⟩
      rw [restrictAll,if_pos ok,restrictDone ok]
      exact run
    · refine ⟨[],r,rs,rfl,?_,by simpa using ok,room⟩
      rw [restrictAll,if_neg ok]
      rfl

theorem infixRestricted {table w r} (rooted : Rooted w) (solid : ' ' ∉ table) (full : table ≠ [])
    (notAnd : ¬table <:+: lit "AND") (notClause : ¬table <:+: r.clause) :
    table <:+: restrictedText w r ↔ table <:+: w := by
  unfold restrictedText separator
  split
  · have whole : w ++ lit " AND " ++ r.clause = w ++ ' '::(lit "AND" ++ ' '::r.clause) := by simp [lit]
    rw [whole,infixAcrossBlank solid,infixAcrossBlank solid]
    simp [notAnd,notClause]
  have keyword : w = lit "where" ++ ' '::[] := by
    refine (rooted.eq_of_length ?_).symm
    have := rooted.length_le
    simp only [lit,length_cons] at this ⊢
    omega
  have whole : w ++ [] ++ r.clause = lit "where" ++ ' '::r.clause := by rw [keyword]; simp
  rw [whole,keyword,infixAcrossBlank solid,infixAcrossBlank solid]
  simp [notClause,full]

theorem mentionsRestricted {table st r} (rooted : Rooted st.q.whereSQL)
    (named : table = R_DATA_MAIN ∨ table = R_COLL_MAIN) (clean : (strstr r.clause table).isSome = false) :
    mentions table (restrictedBy st r).q = mentions table st.q := by
  have facts : ' ' ∉ table ∧ table ≠ [] ∧ (strstr (lit "AND") table).isSome = false := by
    rcases named with rfl | rfl <;> decide
  obtain ⟨solid,full,notAnd⟩ := facts
  rw [← Bool.not_eq_true,strstrSome] at notAnd clean
  have same : (strstr (restrictedText st.q.whereSQL r) table).isSome = (strstr st.q.whereSQL table).isSome := by
    rw [Bool.eq_iff_iff,strstrSome,strstrSome]
    exact infixRestricted rooted solid full notAnd clean
  unfold mentions
  rw [← same]
  rfl

theorem rootedRestricted {st r} (rooted : Rooted st.q.whereSQL) : Rooted (restrictedBy st r).q.whereSQL := by
  refine rooted.trans ?_
  rw [restrictedBy,restrictedText,append_assoc]
  exact prefix_append _ _

theorem restrictAllAppend (early late st) :
    restrictAll (early ++ late) st =
      if (restrictAll early st).1 then restrictAll late (restrictAll early st).2 else restrictAll early st := by
  induction early generalizing st with
  | nil => rfl
  | cons r _ ih =>
    rw [cons_append,restrictAll,restrictAll]
    by_cases ok : (restrict r st).1 = true
    · rw [if_pos ok,if_pos ok,ih]
    · rw [if_neg ok,if_neg ok,if_neg ok]

theorem restrictIfAll (needed r x) :
    restrictIf needed r x = if x.1 then restrictAll (if needed x.2.q then [r] else []) x.2 else x := by
  obtain ⟨ok,st⟩ := x
  unfold restrictIf
  cases ok with
  | false => rfl
  | true =>
    cases need : needed st.q with
    | false => simp [restrictAll]
    | true =>
      simp only [Bool.and_self,if_true,restrictAll]
      split
      · rename_i ok
        rw [← ok]
      · rfl

theorem mentionsAfter {table rs st} (rooted : Rooted st.q.whereSQL)
    (named : table = R_DATA_MAIN ∨ table = R_COLL_MAIN) (clean : ∀ r ∈ rs, (strstr r.clause table).isSome = false)
    (ok : (restrictAll rs st).1 = true) : mentions table (restrictAll rs st).2.q = mentions table st.q := by
  induction rs generalizing st with
  | nil => rfl
  | cons r _ ih =>
    rw [restrictAll] at ok ⊢
    split at ok
    · rename_i fits
      rw [if_pos fits]
      rw [restrictDone fits] at ok ⊢
      rw [ih (rootedRestricted rooted) (forall_mem_cons.mp clean).2 ok,
        mentionsRestricted rooted named (clean r mem_cons_self)]
    · rename_i unfit
      contradiction

theorem rootedAfter (rs) {st} (rooted : Rooted st.q.whereSQL) (ok : (restrictAll rs st).1 = true) :
    Rooted (restrictAll rs st).2.q.whereSQL := by
  induction rs generalizing st with
  | nil => exact rooted
  | cons r _ ih =>
    rw [restrictAll] at ok ⊢
    split at ok
    · rename_i fits
      rw [if_pos fits]
      rw [restrictDone fits] at ok ⊢
      exact ih (rootedRestricted rooted) ok
    · rename_i unfit
      contradiction

theorem ownerClean {q table} (named : table = R_DATA_MAIN ∨ table = R_COLL_MAIN) :
    ∀ r ∈ (if selectsTicket q then [ticketOwner] else []), (strstr r.clause table).isSome = false := by
  intro r mem
  split at mem
  · rw [mem_singleton.mp mem]
    rcases named with rfl | rfl <;> decide +kernel
  · cases mem

theorem dataClean (q) :
    ∀ r ∈ (if mentions R_DATA_MAIN q then [readableData] else []), (strstr r.clause R_COLL_MAIN).isSome = false := by
  intro r mem
  split at mem
  · rw [mem_singleton.mp mem]
    decide +kernel
  · cases mem

theorem accessCheckRestricts {sess st} (rooted : Rooted st.q.whereSQL)
    (few : st.b.cllBindVars.length+6 < MAX_BIND_VARS) :
    (genqAppendAccessCheck sess st).2 = (restrictAll (restrictionsOf sess st.q) st).2 := by
  unfold genqAppendAccessCheck restrictionsOf
  split
  · rfl
  rw [if_neg (by omega)]
  dsimp only
  have owner : restrictIf selectsTicket ticketOwner (true,st) =
      restrictAll (if selectsTicket st.q then [ticketOwner] else []) st := by rw [restrictIfAll]; rfl
  rw [owner,restrictAllAppend]
  have data := mentionsAfter rooted (.inl rfl) (ownerClean (q := st.q) (.inl rfl))
  have coll := mentionsAfter rooted (.inr rfl) (ownerClean (q := st.q) (.inr rfl))
  have still := rootedAfter (if selectsTicket st.q then [ticketOwner] else []) rooted
  generalize found : restrictAll (if selectsTicket st.q then [ticketOwner] else []) st = x at *
  obtain ⟨ok,mid⟩ := x
  cases ok with
  | false =>
    simp only [Bool.false_eq_true,if_false]
    split <;> (try split) <;> (try split) <;> rfl
  | true =>
    have data := data rfl
    have coll := coll rfl
    rw [if_pos rfl]
    split
    · rfl
    split
    · rw [restrictIfAll,restrictIfAll,if_pos rfl,restrictAllAppend]
      rw [data]
      have clean := dataClean st.q
      generalize (if mentions R_DATA_MAIN st.q = true then [readableData] else []) = rs at clean ⊢
      by_cases ok : (restrictAll rs mid).1 = true
      · rw [if_pos ok,if_pos ok,mentionsAfter (still rfl) (.inr rfl) clean ok,coll]
      · rw [if_neg ok,if_neg ok]
    · rw [data]
      by_cases ofData : mentions R_DATA_MAIN st.q = true
      · rw [if_pos ofData,if_pos ofData,restrictIfAll,if_pos rfl]
        rw [data,if_pos ofData]
      · rw [if_neg ofData,if_neg ofData,restrictIfAll,if_pos rfl]
        rw [coll]

theorem restrictWhere (r st) :
    ∃ t, (restrict r st).2.q = { st.q with whereSQL := st.q.whereSQL ++ t } := by
  cases ok : (restrict r st).1 with
  | true => exact ⟨separator st.q.whereSQL ++ r.clause,by rw [restrictDone ok,restrictedBy,restrictedText,append_assoc]⟩
  | false =>
    rcases restrictUnfit ok with ⟨same,-⟩ | same
    · exact ⟨[],by rw [same,append_nil]⟩
    · exact ⟨separator st.q.whereSQL,by rw [same]⟩

theorem restrictAllWhere (rs st) :
    ∃ t, (restrictAll rs st).2.q = { st.q with whereSQL := st.q.whereSQL ++ t } := by
  induction rs generalizing st with
  | nil => exact ⟨[],by rw [append_nil]; rfl⟩
  | cons r _ ih =>
    obtain ⟨t,one⟩ := restrictWhere r st
    rw [restrictAll]
    split
    · obtain ⟨u,rest⟩ := ih (restrict r st).2
      exact ⟨t ++ u,by rw [rest,one,append_assoc]⟩
    · exact ⟨t,one⟩

theorem accessCheckWhere (sess st) :
    ∃ t, (genqAppendAccessCheck sess st).2.q = { st.q with whereSQL := st.q.whereSQL ++ t } := by
  have keep : ∀ needed r x, (∃ t, x.2.q = { st.q with whereSQL := st.q.whereSQL ++ t }) →
      ∃ t, (restrictIf needed r x).2.q = { st.q with whereSQL := st.q.whereSQL ++ t } := by
    rintro _ r x ⟨t,same⟩
    unfold restrictIf
    split
    · obtain ⟨u,more⟩ := restrictWhere r x.2
      exact ⟨t ++ u,by rw [more,same,append_assoc]⟩
    · exact ⟨t,same⟩
  have start : ∃ t, (true,st).2.q = { st.q with whereSQL := st.q.whereSQL ++ t } := ⟨[],by rw [append_nil]⟩
  have owner := keep selectsTicket ticketOwner _ start
  unfold genqAppendAccessCheck
  split
  · exact start
  split
  · exact start
  dsimp only
  split
  · exact owner
  split
  · exact keep _ _ _ (keep _ _ _ owner)
  split <;> exact keep _ _ _ owner

def accessed (sess : Session) (st : State) : State := (restrictAll (restrictionsOf sess st.q) st).2
def offsetText (inp : GenQueryInp) : Text := if 0 < inp.rowOffset then lit " offset ?" else []

theorem assembleParts {s sess inp st st' sql st1} (run : assemble s sess inp st = .done (sql,st'))
    (access : (genqAppendAccessCheck sess st).2 = st1) :
    sql = st.q.selectSQL ++ lit " " ++ st.q.fromSQL ++ (tailTexts s inp st1.q).flatten ++ offsetText inp ∧
    st' = (if 0 < inp.rowOffset then bindOffset inp st1 else st1) ∧ sql.length < MAX_SQL_SIZE_GQ := by
  unfold assemble at run
  dsimp only at run
  rw [access] at run
  split at run
  · cases run
  rename_i head
  rw [Bool.not_eq_true',Bool.not_eq_false] at head
  have front := rstrcatsDone head
  have frontShort := (rstrcatsFits (by decide : ([] : Text).length < MAX_SQL_SIZE_GQ)).mp head
  rw [front] at run
  split at run
  · cases run
  rename_i body
  rw [Bool.not_eq_true',Bool.not_eq_false] at body
  have whole := rstrcatsDone body
  have wholeShort := (rstrcatsFits frontShort).mp body
  rw [whole] at run
  split at run
  · rename_i offset
    split at run
    · rename_i full
      cases run
      have last := rstrcatsDone full
      refine ⟨?_,?_,?_⟩
      · rw [last,offsetText,if_pos offset]
        simp
      · rw [if_pos offset]
      · rw [last]
        exact (rstrcatsFits wholeShort).mp full
    · cases run
  · rename_i offset
    cases run
    refine ⟨?_,?_,wholeShort⟩
    · rw [offsetText,if_neg offset]
      simp
    · rw [if_neg offset]

theorem assembleShort {s sess inp st st' sql}
    (run : assemble s sess inp st = .done (sql,st')) : st.q.whereSQL.length < MAX_SQL_SIZE_GQ := by
  obtain ⟨t,query⟩ := accessCheckWhere sess st
  obtain ⟨text,_,short⟩ := assembleParts run rfl
  by_cases long : 6 < (genqAppendAccessCheck sess st).2.q.whereSQL.length
  · rw [text,tailTexts,if_pos long,query] at short
    simp only [flatten_append,length_append,flatten_cons] at short
    omega
  · rw [query] at long
    simp only [length_append] at long
    unfold MAX_SQL_SIZE_GQ
    omega

structure Assembled (s : Setup) (sess : Session) (inp : GenQueryInp) (st : State) (sql : Text) (st' : State) :
    Prop where
  text : sql = st.q.selectSQL ++ lit " " ++ st.q.fromSQL ++ (tailTexts s inp (accessed sess st).q).flatten ++
    offsetText inp
  state : st' = if 0 < inp.rowOffset then bindOffset inp (accessed sess st) else accessed sess st
  short : sql.length < MAX_SQL_SIZE_GQ

theorem assembleDone {s sess inp st st' sql}
    (run : assemble s sess inp st = .done (sql,st')) (rooted : Rooted st.q.whereSQL)
    (few : st.b.cllBindVars.length+6 < MAX_BIND_VARS) : Assembled s sess inp st sql st' := by
  obtain ⟨text,state,short⟩ := assembleParts run (accessCheckRestricts rooted few)
  exact ⟨text,state,short⟩

theorem shortWhere {w} (rooted : Rooted w) (short : ¬6 < w.length) : w = lit "where " := by
  refine (rooted.eq_of_length ?_).symm
  have := rooted.length_le
  simp only [lit,length_cons] at this ⊢
  omega

theorem assembledMarks {s sess inp st st' sql}
    (done : Assembled s sess inp st sql st') (tidy : Tidy st.q) (rooted : Rooted st.q.whereSQL) :
    sql.count '?' = (accessed sess st).q.whereSQL.count '?' + (if 0 < inp.rowOffset then 1 else 0) ∧
      (accessed sess st).q.whereSQL.length+8 < MAX_SQL_SIZE_GQ := by
  obtain ⟨t,query⟩ := restrictAllWhere (restrictionsOf sess st.q) st
  have query : (accessed sess st).q = { st.q with whereSQL := st.q.whereSQL ++ t } := query
  have still : Rooted (st.q.whereSQL ++ t) := rooted.trans (prefix_append _ _)
  have size := done.short
  rw [done.text] at size
  have select := tidyMarks tidy.select
  have source := tidyMarks tidy.source
  have group := tidyMarks tidy.group
  have order := tidyMarks (orderByTidy s inp.selects)
  have tail : (tailTexts s inp (accessed sess st).q).flatten.count '?' = (accessed sess st).q.whereSQL.count '?' := by
    rw [query]
    unfold tailTexts
    simp only [flatten_append,count_append]
    have place : (if 6 < (st.q.whereSQL ++ t).length then [lit " ",st.q.whereSQL ++ t] else []).flatten.count '?' =
        (st.q.whereSQL ++ t).count '?' := by
      split
      · simp [lit]
      rename_i short
      rw [shortWhere still short]
      rfl
    have rest : (if st.q.mightNeedGroupBy = true ∧
        10 < st.q.groupBySQL.length then [lit " ",st.q.groupBySQL] else []).flatten.count '?' = 0 := by
      split
      · simp [lit,group]
      · rfl
    have last : (if 10 < (orderByClause s inp.selects).length then
        [orderByClause s inp.selects] else []).flatten.count '?' = 0 := by
      split
      · simpa using order
      · rfl
    rw [place,rest,last,count_append,Nat.add_zero]
  have offset : (offsetText inp).count '?' = if 0 < inp.rowOffset then 1 else 0 := by
    unfold offsetText
    split <;> rfl
  refine ⟨?_,?_⟩
  · rw [done.text]
    simp only [count_append,select,source,tail,offset]
    simp [lit]
  have keyword := tidy.keyword
  by_cases long : 6 < (accessed sess st).q.whereSQL.length
  · have inside : (accessed sess st).q.whereSQL.length+1 ≤ (tailTexts s inp (accessed sess st).q).flatten.length := by
      unfold tailTexts
      rw [if_pos long]
      simp only [flatten_append,length_append,flatten_cons,lit,length_singleton]
      omega
    simp only [length_append] at size
    omega
  · unfold MAX_SQL_SIZE_GQ
    omega

theorem restrictionKnown {sess q r} (mem : r ∈ restrictionsOf sess q) :
    r = ticketOwner ∨ r = readableData ∨ r = readableColl ∨ r = ticketData ∨ r = ticketColl := by
  unfold restrictionsOf at mem
  repeat' split at mem
  all_goals simp at mem
  all_goals tauto

theorem restrictionMarks (sess q) :
    ∀ r ∈ restrictionsOf sess q, r.clause.count '?' = r.pointers.length ∧ 0 < r.pointers.length := by
  intro r mem
  rcases restrictionKnown mem with rfl | rfl | rfl | rfl | rfl <;> decide +kernel

theorem restrictionPointers {sess q} :
    ∀ p ∈ (restrictionsOf sess q).flatMap pointers, p = .userName ∨ p = .zone ∨ p = .ticket := by
  intro p mem
  obtain ⟨r,there,inside⟩ := mem_flatMap.mp mem
  clear mem
  revert p
  rcases restrictionKnown there with rfl | rfl | rfl | rfl | rfl <;> decide

theorem separatorMarks (w) : (separator w).count '?' = 0 := by
  unfold separator
  split <;> rfl

theorem foldMarks (rs : List Restriction) (marked : ∀ r ∈ rs, r.clause.count '?' = r.pointers.length) (w) :
    (rs.foldl restrictedText w).count '?' = w.count '?' + (rs.flatMap pointers).length := by
  induction rs generalizing w with
  | nil => rfl
  | cons r _ ih =>
    rw [foldl_cons,ih (forall_mem_cons.mp marked).2,restrictedText,count_append,count_append,
      separatorMarks,marked r mem_cons_self,flatMap_cons,length_append]
    omega

theorem foldBinds (rs : List Restriction) (st) :
    (rs.foldl restrictedBy st).b = { st.b with cllBindVars := st.b.cllBindVars ++ rs.flatMap pointers } := by
  induction rs generalizing st with
  | nil => simp
  | cons r _ ih =>
    rw [foldl_cons,ih,restrictedBy]
    simp

theorem unfitMarks {rs st} (room : st.q.whereSQL.length < MAX_SQL_SIZE_GQ)
    (unfit : MAX_SQL_SIZE_GQ ≤ (rs.foldl restrictedText st.q.whereSQL).length)
    (marked : ∀ r ∈ rs, r.clause.count '?' = r.pointers.length ∧ 0 < r.pointers.length)
    (short : (restrictAll rs st).2.q.whereSQL.length+5 < MAX_SQL_SIZE_GQ) :
    (restrictAll rs st).2.q.whereSQL.count '?' + st.b.cllBindVars.length <
      st.q.whereSQL.count '?' + (restrictAll rs st).2.b.cllBindVars.length := by
  obtain ⟨early,r,_,rfl,run,fails,-⟩ := restrictAllUnfit room unfit
  have marks := foldMarks early (fun q mem => (marked q (mem_append_left _ mem)).1) st.q.whereSQL
  have binds := foldBinds early st
  have some := (marked r (by simp)).2
  rw [run] at short ⊢
  rcases restrictUnfit fails with ⟨same,long⟩ | same
  · rw [same] at short
    have sep : (separator (early.foldl restrictedBy st).q.whereSQL).length ≤ 5 := by
      unfold separator
      split
      · exact le_refl 5
      · exact zero_le 5
    rw [length_append] at long
    omega
  · rw [same]
    rw [count_append,separatorMarks,foldWhere,binds,length_append,length_append]
    omega

end Irods.GenQuery1Assembly
