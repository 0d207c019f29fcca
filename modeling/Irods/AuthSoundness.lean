import Irods.CheckAuth

/-! Who may pass db_check_auth_op. What the loop tries is a list of attempts, each
the copy of a stored row or a slot that stayed zeroed; which of them are let in is
decided by the checks on their age. -/
namespace Irods.AuthSoundness
open CText StringOpr AuthCatalog CheckAuth List Int

theorem flagRefused {userName pos} (found : strstr userName SHA1_FLAG_STRING = some pos) :
    validateName (userName.drop pos) = none := by
  obtain ⟨rest,tail⟩ := strstrFound found
  have head : (userName.drop pos).takeWhile (· != '#') = ':'::((lit "::sha1" ++ rest).takeWhile (· != '#')) := by
    rw [← tail]; rfl
  have colon : nameChar ':' = false := rfl
  unfold validateName
  simp only [head]
  split
  · rfl
  · rfl

theorem namedPlain {userName u} (valid : validateName (splitFlag userName).2 = some u) :
    strstr userName SHA1_FLAG_STRING = none ∧ validateName userName = some u := by
  cases found : strstr userName SHA1_FLAG_STRING with
  | some _ =>
    simp only [splitFlag,found,flagRefused found] at valid
    cases valid
  | none =>
    simp only [splitFlag,found] at valid
    exact ⟨rfl,valid⟩

theorem denotesPlain {s userName name userZone zone} (plain : strstr userName SHA1_FLAG_STRING = none)
    (valid : validateName userName = some (name,userZone)) (located : zoneOf s userZone = .ok zone) :
    denotes s userName = some (name,zone) := by
  simp [denotes,plain,valid,located,Except.toOption]

structure Entry where
  pw : Text
  expiry : Text
  ts : Text
  modTs : Text
  deriving DecidableEq, Repr

def Entry.slots (e : Entry) : List Text := [e.pw,e.expiry,e.ts,e.modTs]
def blank : Entry := ⟨[],[],[],[]⟩

def entryOf (p : PasswordRow) : Entry :=
  ⟨bounded p.rcatPassword,bounded p.passExpiryTs,bounded (p.createTs.getD []),bounded (p.modifyTs.getD [])⟩

def flat (es : List Entry) : List Text := es.flatMap Entry.slots

@[simp] theorem flatNil : flat [] = [] := rfl

@[simp] theorem flatCons {e es} : flat (e::es) = e.slots ++ flat es := rfl

@[simp] theorem flatAppend {front back} : flat (front ++ back) = flat front ++ flat back := by simp [flat]

theorem flatLength {es} : (flat es).length = es.length*4 := by
  induction es with
  | nil => rfl
  | cons e _ _ => simp only [flatCons,length_append,length_cons,Entry.slots,length_nil]; omega

theorem flatCut {es k} : (flat es).take (k*4) = flat (es.take k) ∧ (flat es).drop (k*4) = flat (es.drop k) := by
  induction es generalizing k with
  | nil => simp
  | cons e _ ih =>
    cases k with
    | zero => simp
    | succ k =>
      have four : (k+1)*4 = e.slots.length+k*4 := by simp only [Entry.slots,length_cons,length_nil]; omega
      rw [flatCons,four,take_length_add_append,drop_length_add_append,ih.1,ih.2]
      exact ⟨rfl,rfl⟩

theorem flatBlank {n} : replicate (n*4) ([] : Text) = flat (replicate n blank) := by
  induction n with
  | zero => rfl
  | succ n ih =>
    have four : (n+1)*4 = n*4+4 := by omega
    rw [four,replicate_add,ih,replicate_succ' (n := n),flatAppend]
    rfl

theorem copiedRows {rows : List PasswordRow} :
    copied MAX_PASSWORD_LEN (rows.map columns).flatten = flat (rows.map entryOf) := by
  induction rows with
  | nil => rfl
  | cons p _ ih =>
    rw [map_cons,map_cons,flatCons,← ih]
    rfl

theorem int32Fourth {m : Nat} : (int32 (m*4)).toNat = (int32 (m*4)).toNat/4*4 := by
  rw [int32,BitVec.toInt_ofInt,bmod_def]
  split <;> omega

def fetchCount (s : Setting) (statement : Statement) (m rows : Nat) : Nat :=
  match s.fault statement with
  | some _ => 0
  | none => min ((int32 (m*4)).toNat/4) (match s.interrupted statement with
    | some k => min k rows
    | none => rows)

theorem fetchBound {s statement m rows} : fetchCount s statement m rows ≤ rows := by
  unfold fetchCount
  split
  · exact Nat.zero_le _
  · split <;> omega

theorem copyStatusSmall {broken got} (absent : got = []) : copyStatus broken got < 0 := by
  cases broken <;> simp [copyStatus,absent,CAT_GET_ROW_ERR,CAT_NO_ROWS_FOUND]

theorem copyStatusFlat {broken es} (nonempty : 0 < es.length) :
    copyStatus broken (flat es) = es.length*4 := by
  have positive : 0 < (flat es).length := by rw [flatLength]; omega
  rw [copyStatus,flatLength]
  omega

theorem readRows {rows : List PasswordRow} {broken} {m k : Nat} {es} (valid : 0 < int32 (m*4))
    (count : k = min ((int32 (m*4)).toNat/4) rows.length) :
    cmlGetMultiRowStringValuesFromSql MAX_PASSWORD_LEN (int32 (m*4)) (.ok ⟨rows.map columns,broken⟩) (flat es) =
      (flat ((rows.take k).map entryOf ++ es.drop k),copyStatus broken (flat ((rows.take k).map entryOf))) := by
  have room : ([] : List Text).length < (int32 (m*4)).toNat := by rw [length_nil]; omega
  have taken : (copied MAX_PASSWORD_LEN (rows.map columns).flatten).take (int32 (m*4)).toNat =
      flat ((rows.take k).map entryOf) := by
    rw [copiedRows,int32Fourth,flatCut.1,← map_take,count,← take_eq_take_min]
  have length : (flat ((rows.take k).map entryOf)).length = k*4 := by
    rw [flatLength,length_map,length_take]
    omega
  unfold cmlGetMultiRowStringValuesFromSql
  rw [if_neg (by omega)]
  simp only [copyRowsTaken room,nil_append,length_nil,Nat.sub_zero,taken,length,flatCut.2,flatAppend]

structure ReadFirst (rows : List PasswordRow) (es : List Entry) (k : Nat) (read : List Text × Int) : Prop where
  slots : read.1 = flat ((rows.take k).map entryOf ++ es.drop k)
  positive : 0 < k → read.2 = k*4
  zero : k = 0 → read.2 < 0

theorem readEntries {s statement cat name zone} {m k} {es}
    (count : k = fetchCount s statement m (selectPasswords cat name zone).length) :
    ReadFirst (selectPasswords cat name zone) es k (cmlGetMultiRowStringValuesFromSql MAX_PASSWORD_LEN (int32 (m*4))
      (passwordAnswer s statement cat name zone) (flat es)) := by
  generalize ran : cmlGetMultiRowStringValuesFromSql MAX_PASSWORD_LEN (int32 (m*4))
    (passwordAnswer s statement cat name zone) (flat es) = read
  have untouched : k = 0 → ∀ e, e < 0 → read = (flat es,e) → ReadFirst (selectPasswords cat name zone) es k read := by
    intro zero e small same
    rw [same,zero]
    exact ⟨rfl,fun positive => absurd positive (Nat.lt_irrefl 0),fun _ => small⟩
  have done : ∀ rows broken, 0 < int32 (m*4) →
      (∃ limit, rows = (selectPasswords cat name zone).take limit) → k = min ((int32 (m*4)).toNat/4) rows.length →
      passwordAnswer s statement cat name zone = .ok ⟨rows.map columns,broken⟩ →
      ReadFirst (selectPasswords cat name zone) es k read := by
    rintro rows _ valid ⟨limit,part⟩ exactly answered
    have same : rows.take k = (selectPasswords cat name zone).take k := by
      rw [part,take_take,Nat.min_eq_left]
      rw [exactly,part,length_take]
      omega
    have size : ((rows.take k).map entryOf).length = k := by
      rw [length_map,length_take]; omega
    rw [← ran,answered,readRows valid exactly]
    refine ⟨by rw [same],fun positive => ?_,fun zero => copyStatusSmall (by rw [zero]; rfl)⟩
    rw [copyStatusFlat (by omega),size]
  by_cases valid : 0 < int32 (m*4)
  · cases failed : s.fault statement with
    | some e =>
      refine untouched (by rw [count,fetchCount,failed]) e e.property ?_
      simp [← ran,cmlGetMultiRowStringValuesFromSql,if_neg (Int.not_le.mpr valid),passwordAnswer,failed]
    | none =>
      cases cut : s.interrupted statement with
      | some limit =>
        refine done _ true valid ⟨limit,rfl⟩ ?_ (by simp [passwordAnswer,failed,cut])
        simp [count,fetchCount,failed,cut]
      | none =>
        refine done _ false valid ⟨_,take_length.symm⟩ ?_ (by simp [passwordAnswer,failed,cut])
        simp [count,fetchCount,failed,cut]
  · refine untouched ?_ CAT_INVALID_ARGUMENT (by decide) (ran.symm.trans (if_pos (by omega)))
    have absent : (int32 (m*4)).toNat = 0 := by omega
    rw [count,fetchCount,absent]
    split
    · rfl
    · simp

def acceptedOf (decode : Text → Text) (e : Entry) : Accepted :=
  ⟨bounded e.pw,bounded (icatDescramble decode e.pw),bounded e.expiry,bounded e.ts,bounded e.modTs⟩

theorem triesEntries {decode accepts n es} :
    tryPasswords decode accepts n (flat es) =
      ((es.take n).find? fun e => accepts (icatDescramble decode e.pw)).map (acceptedOf decode) := by
  induction es generalizing n with
  | nil => cases n <;> rfl
  | cons e es ih =>
    cases n with
    | zero => rfl
    | succ n =>
      rw [take_succ_cons,find?_cons]
      show (if accepts (icatDescramble decode e.pw) then some (acceptedOf decode e)
        else tryPasswords decode accepts n (flat es)) = _
      rw [ih]
      cases accepts (icatDescramble decode e.pw) <;> rfl

abbrev rows (w : World) (name zone : Text) : List PasswordRow := selectPasswords w.working name zone

variable {s : Setting} {w : World} {name zone : Text} {t : Table}

def tried (t : Table) : Nat := (min (t.maxPasswords : Int) t.nPasswords).toNat

/- A row that was copied, or a slot that stayed zeroed. -/
abbrev Attempt := Option PasswordRow

def entryAt : Attempt → Entry
  | some p => entryOf p
  | none => blank

theorem resizedEntries {es m} :
    (flat es).take (m*4) ++ replicate (m*4-(flat es).length) [] =
      flat (es.take m ++ replicate (m-es.length) blank) := by
  have blanks : m*4-(flat es).length = (m-es.length)*4 := by rw [flatLength]; omega
  rw [flatCut.1,blanks,flatBlank,flatAppend]

def grownMaximum (s : Setting) (w : World) (name : Text) : Nat :=
  match s.fault .countPasswords with
  | some _ => w.maxPasswords
  | none => countPasswords w.working name

theorem reloadEntries {es} {k}
    (count : k = fetchCount s .rereadPasswords (grownMaximum s w name) (rows w name zone).length) :
    reloadPasswords s w name zone (flat es) = ⟨grownMaximum s w name,int32 (grownMaximum s w name),
      flat (((rows w name zone).take k).map entryOf ++
        (es.take (grownMaximum s w name) ++ replicate (grownMaximum s w name-es.length) blank).drop k)⟩ := by
  unfold reloadPasswords
  simp only [resizedEntries]
  exact congrArg _ (readEntries count).slots

theorem loadPasswordsCases {k}
    (count : k = fetchCount s .readPasswords w.maxPasswords (rows w name zone).length) :
    (k = 0 ∧ ∃ e, loadPasswords s w name zone = .error e ∧ e < 0) ∨
    (0 < k ∧ k ≠ w.maxPasswords ∧ loadPasswords s w name zone = .ok ⟨w.maxPasswords,k,
      flat (((rows w name zone).take k).map entryOf ++ (replicate w.maxPasswords blank).drop k)⟩) ∨
    (0 < k ∧ k = w.maxPasswords ∧ loadPasswords s w name zone =
      .ok (reloadPasswords s w name zone (flat (((rows w name zone).take k).map entryOf)))) := by
  obtain ⟨slots,positive,zero⟩ := flatBlank ▸ @readEntries s .readPasswords w.working name zone _ k
    (replicate w.maxPasswords blank) count
  rcases Nat.eq_zero_or_pos k with absent | nonempty
  · refine .inl ⟨absent,_,?_,zero absent⟩
    exact if_pos (Int.lt_trans (zero absent) (by decide))
  have status := positive nonempty
  have enough : ¬((k : Int)*4 < 4) := by omega
  have quotient : (k : Int)*4/4 = k := by omega
  unfold loadPasswords
  simp only [status,enough,if_false,quotient,slots]
  by_cases full : (k : Int) = w.maxPasswords
  · have size : k = w.maxPasswords := by omega
    have rest : (replicate w.maxPasswords blank).drop k = [] :=
      drop_eq_nil_of_le (by rw [length_replicate]; omega)
    exact .inr (.inr ⟨nonempty,size,by rw [if_pos full,rest,append_nil]⟩)
  · exact .inr (.inl ⟨nonempty,by omega,if_neg full⟩)

/- After a full first read the slots are those of the coarse count: rows as far as one of the
two reads brought them, zeros behind. -/
def attempts (s : Setting) (w : World) (name zone : Text) : List Attempt :=
  let first := fetchCount s .readPasswords w.maxPasswords (rows w name zone).length
  let count := grownMaximum s w name
  let held := max (fetchCount s .rereadPasswords count (rows w name zone).length) (min first count)
  if 0 < first ∧ first = w.maxPasswords then
    (((rows w name zone).take held).map some ++ replicate (count-held) none).take
    (min (count : Int) (int32 count)).toNat
  else ((rows w name zone).take first).map some

theorem takeThenDrop {α} (l : List α) (a b : Nat) : l.take a ++ (l.take b).drop a = l.take (max a b) := by
  rcases Nat.le_total a b with below | above
  · have front : (l.take b).take a = l.take a := by rw [take_take,Nat.min_eq_left below]
    rw [Nat.max_eq_right below,← front,take_append_drop]
  · have absent : (l.take b).drop a = [] := drop_eq_nil_of_le (by rw [length_take]; omega)
    rw [absent,append_nil,Nat.max_eq_left above]

theorem entryRows {l : List PasswordRow} : (l.map some).map entryAt = l.map entryOf := by
  rw [map_map]
  rfl

theorem slotEntries {rows : List PasswordRow} {first second count : Nat} (firstRows : first ≤ rows.length)
    (secondRows : second ≤ count) :
    (rows.take second).map entryOf ++ (((rows.take first).map entryOf).take count ++
        replicate (count-((rows.take first).map entryOf).length) blank).drop second =
      ((rows.take (max second (min first count))).map some ++
        replicate (count-max second (min first count)) none).map entryAt := by
  have length : ((rows.take first).map entryOf).length = first := by rw [length_map,length_take]; omega
  have cut : ((rows.take first).map entryOf).take count = (rows.take (min first count)).map entryOf := by
    rw [← map_take,take_take,Nat.min_comm]
  have size : ((rows.take (min first count)).map entryOf).length = min first count := by
    rw [length_map,length_take]; omega
  have zeroed : count-first-(second-min first count) = count-max second (min first count) := by omega
  rw [length,cut,drop_append,size,drop_replicate,zeroed,← append_assoc,← map_drop,← map_append,takeThenDrop,
    map_append,entryRows,map_replicate]
  rfl

theorem int32Below (v : Nat) : int32 v ≤ v := by
  rw [int32,BitVec.toInt_ofInt,bmod_def]
  split <;> omega

theorem fetchFits {statement m n} : fetchCount s statement m n ≤ m := by
  have below : int32 (m*4) ≤ m*4 := int32Below (m*4)
  unfold fetchCount
  split
  · exact Nat.zero_le _
  · omega

theorem loadedAttempts : (∃ e, loadPasswords s w name zone = .error e ∧ attempts s w name zone = []) ∨
    ∃ t es, loadPasswords s w name zone = .ok t ∧ t.slots = flat es ∧
      es.take (tried t) = (attempts s w name zone).map entryAt := by
  obtain ⟨k,count⟩ : ∃ k, k = fetchCount s .readPasswords w.maxPasswords (rows w name zone).length :=
    ⟨_,rfl⟩
  have bound := count ▸ fetchBound
  have fits := count ▸ fetchFits
  unfold attempts
  simp only [← count]
  rcases loadPasswordsCases count with ⟨zero,e,failed,_⟩ | ⟨nonempty,other,run⟩ | ⟨nonempty,full,run⟩
  · exact .inl ⟨e,failed,by simp [zero]⟩
  · refine .inr ⟨_,_,run,rfl,?_⟩
    have size : (((rows w name zone).take k).map entryOf).length = k := by
      rw [length_map,length_take]; omega
    have all : tried ⟨w.maxPasswords,k,flat (((rows w name zone).take k).map entryOf ++
        (replicate w.maxPasswords blank).drop k)⟩ = k := by
      simp only [tried]
      omega
    rw [all,if_neg fun both => other both.2,entryRows,take_append_of_le_length (by omega),
      take_of_length_le (by omega)]
  · rw [reloadEntries rfl] at run
    refine .inr ⟨_,_,run,rfl,?_⟩
    rw [if_pos ⟨nonempty,full⟩,slotEntries bound fetchFits]
    exact map_take.symm

variable {a : Accepted} {userZone : Text}

theorem rollbackCommitted : (rollback s w).committed = w.committed := by
  unfold rollback
  split <;> rfl

theorem refuseFailure {e : Failure} : (refuse e w).status ≠ 0 := by
  show e.val ≠ 0
  omega

theorem checkLevelCommitted : (checkLevel s w name zone userZone).world.committed = w.committed := by
  unfold checkLevel
  repeat' split
  all_goals first | rfl | exact rollbackCommitted

theorem removeExpiredFails : (removeExpired s w a name zone).status ≠ 0 := by
  unfold removeExpired
  split
  · exact refuseFailure
  dsimp only
  split
  · rename_i nothing; exact nothing
  split
  · exact refuseFailure
  · show CAT_PASSWORD_EXPIRED ≠ 0; decide

/- What a temporary password needs: it can be removed, and it is not too old. -/
structure Removable (s : Setting) (working : Catalog) (a : Accepted) : Prop where
  answered : s.fault .defaultLifetime = none ∧ s.fault .deleteTemporary = none ∧ s.fault .deleteStale = none ∧
    s.fault .commitTemporary = none
  stored : ∃ p ∈ working.passwords, p.rcatPassword = a.goodPw
  fresh : temporaryExpired s a = false

theorem deleteFound {cat : Catalog} {gone} : deleteStatus cat gone ≠ 0 ↔ ¬∃ p ∈ cat.passwords, gone p = true := by
  unfold deleteStatus
  split
  · rename_i found
    exact iff_of_false (fun other => other rfl) (fun absent => absent (any_eq_true.mp found))
  · rename_i missing
    exact iff_of_true (by decide) fun found => missing (any_eq_true.mpr found)

theorem removeTemporaryCases :
    (¬Removable s w.working a ∧ ∃ r, removeTemporary s w a = .error r ∧ r.status ≠ 0) ∨
    (Removable s w.working a ∧ ∃ cleaned, removeTemporary s w a = .ok cleaned ∧
      cleaned.working.users = w.working.users ∧ ∀ p, p.rcatPassword = a.goodPw → p ∉ cleaned.committed.passwords) := by
  unfold removeTemporary
  split
  · rename_i e failed
    exact .inl ⟨fun r => by simp [r.answered.1] at failed,_,rfl,refuseFailure⟩
  split
  · rename_i e failed
    exact .inl ⟨fun r => by simp [r.answered.2.1] at failed,_,rfl,refuseFailure⟩
  rename_i started _ deleted
  dsimp only
  split
  · rename_i nothing
    refine .inl ⟨fun r => deleteFound.mp nothing ?_,_,rfl,nothing⟩
    simpa using r.stored
  rename_i found
  split
  · rename_i e failed
    exact .inl ⟨fun r => by simp [r.answered.2.2.1] at failed,_,rfl,refuseFailure⟩
  rename_i swept
  split
  · rename_i late
    refine .inl ⟨fun r => by simp [r.fresh] at late,_,rfl,?_⟩
    show CAT_PASSWORD_EXPIRED ≠ 0
    decide
  rename_i fresh
  split
  · rename_i e failed
    exact .inl ⟨fun r => by simp [r.answered.2.2.2] at failed,_,rfl,refuseFailure⟩
  rename_i done
  have stored := not_not.mp (mt deleteFound.mpr found)
  refine .inr ⟨⟨⟨started,deleted,swept,done⟩,by simpa using stored,Bool.eq_false_iff.mpr fresh⟩,_,rfl,rfl,?_⟩
  intro p same
  exact deleteKeepsGone (deleteGone (by simpa using same))

/- The user has a type, and one of type rodsadmin speaks for a client that has one. -/
structure Levelled (s : Setting) (working : Catalog) (name zone userZone : Text) : Prop where
  typed : s.fault .userType = none
  client : ∃ userType, selectUserType working name zone = some userType ∧ (userType = lit "rodsadmin" →
    (s.clientName = name ∧ s.clientZone = userZone) ∨ s.clientName = [] ∨
      s.fault .clientType = none ∧ ∃ clientType, selectUserType working s.clientName s.clientZone = some clientType)

theorem levelledUsers {left right : Catalog} (same : left.users = right.users)
    (level : Levelled s left name zone userZone) : Levelled s right name zone userZone := by
  have types : ∀ n z, selectUserType left n z = selectUserType right n z := by
    intro n z
    rw [selectUserType,selectUserType,same]
  obtain ⟨typed,client⟩ := level
  simp only [types] at client
  exact ⟨typed,client⟩

theorem typeFound {statement cat} : (∃ e, userTypeOf s statement cat name zone = .error e ∧ e ≠ 0 ∧
      ¬(s.fault statement = none ∧ ∃ userType, selectUserType cat name zone = some userType)) ∨
    ∃ userType, userTypeOf s statement cat name zone = .ok userType ∧ s.fault statement = none ∧
      selectUserType cat name zone = some userType := by
  unfold userTypeOf
  cases failed : s.fault statement with
  | some e => exact .inl ⟨e,rfl,Int.ne_of_lt e.property,by simp⟩
  | none =>
    cases found : selectUserType cat name zone with
    | none => exact .inl ⟨CAT_NO_ROWS_FOUND,rfl,by decide,by simp⟩
    | some userType => exact .inr ⟨userType,rfl,rfl,rfl⟩

theorem checkLevelPasses : (checkLevel s w name zone userZone).status = 0 ↔
    Levelled s w.working name zone userZone := by
  unfold checkLevel
  rcases @typeFound s name zone .userType w.working with ⟨e,failed,nonzero,missing⟩ | ⟨userType,found,typed,row⟩
  · rw [failed]
    refine iff_of_false ?_ fun level => missing ⟨level.typed,level.client.imp fun _ both => both.1⟩
    dsimp only
    split
    · exact show CAT_INVALID_AUTHENTICATION ≠ 0 by decide
    · exact nonzero
  rw [found]
  dsimp only
  split
  · rename_i plain
    exact iff_of_true rfl ⟨typed,userType,row,fun admin => absurd admin plain⟩
  split
  · rename_i client
    exact iff_of_true rfl ⟨typed,userType,row,fun _ => .inl client⟩
  split
  · rename_i client
    exact iff_of_true rfl ⟨typed,userType,row,fun _ => .inr (.inl client)⟩
  rename_i admin other named
  rcases @typeFound s s.clientName s.clientZone .clientType w.working with
    ⟨e,failed,nonzero,missing⟩ | ⟨clientType,found,answered,clientRow⟩
  · rw [failed]
    refine iff_of_false ?_ ?_
    · dsimp only
      split
      · exact show CAT_INVALID_CLIENT_USER ≠ 0 by decide
      · exact nonzero
    · rintro ⟨_,_,same,client⟩
      rw [row] at same
      cases same
      rcases client (not_not.mp admin) with both | absent | client
      · exact other both
      · exact named absent
      · exact missing client
  · rw [found]
    exact iff_of_true rfl ⟨typed,userType,row,fun _ => .inr (.inr ⟨answered,clientType,clientRow⟩)⟩

structure LetIn (s : Setting) (working committed : Catalog) (name zone userZone : Text) (a : Accepted) : Prop where
  configured : s.fault .authConfig = none ∧ s.fault .maximumLifetime = none
  alive : ¬(pamKind (getAuthConfig committed (lit "authentication")) a.goodPwExpiry = true ∧ pamExpired s a = true)
  temporary : temporaryKind s a.lastPw a.goodPwExpiry = true → Removable s working a
  level : Levelled s working name zone userZone

/- Next to the status: what of the passwords is left in the catalog. -/
structure Concluded (s : Setting) (committed : Catalog) (a : Accepted) (r : Reply) : Prop where
  gone : temporaryKind s a.lastPw a.goodPwExpiry = true → ∀ p, p.rcatPassword = a.goodPw →
    p ∉ r.world.committed.passwords
  kept : temporaryKind s a.lastPw a.goodPwExpiry = false → r.world.committed = committed

theorem concludePasses : ((conclude s w a name zone userZone).status = 0 ↔
      LetIn s w.working w.committed name zone userZone a) ∧
    ((conclude s w a name zone userZone).status = 0 →
      Concluded s w.committed a (conclude s w a name zone userZone)) := by
  have refused {r : Reply} (bad : r.status ≠ 0) (out : ¬LetIn s w.working w.committed name zone userZone a) :
      (r.status = 0 ↔ LetIn s w.working w.committed name zone userZone a) ∧
      (r.status = 0 → Concluded s w.committed a r) :=
    ⟨iff_of_false bad out,fun ok => absurd ok bad⟩
  unfold conclude
  split
  · rename_i e failed
    exact refused refuseFailure fun l => by simp [l.configured.1] at failed
  rename_i configured
  split
  · rename_i expired
    exact refused removeExpiredFails fun l => l.alive (by simpa using expired)
  rename_i alive
  split
  · rename_i e failed
    exact refused refuseFailure fun l => by simp [l.configured.2] at failed
  rename_i limited
  split
  · rename_i temporary
    rcases @removeTemporaryCases s w a with ⟨out,r,failed,bad⟩ | ⟨removable,cleaned,done,users,gone⟩
    · rw [failed]
      exact refused bad fun l => out (l.temporary temporary)
    rw [done]
    dsimp only
    rw [checkLevelPasses]
    refine ⟨⟨fun level => ?_,fun l => levelledUsers users.symm l.level⟩,fun _ => ⟨fun _ p same => ?_,fun other => ?_⟩⟩
    · exact ⟨⟨configured,limited⟩,by simpa using alive,fun _ => removable,levelledUsers users level⟩
    · rw [checkLevelCommitted]
      exact gone p same
    · rw [temporary] at other
      cases other
  · rename_i lasting
    rw [checkLevelPasses]
    refine ⟨⟨fun level => ?_,LetIn.level⟩,fun _ => ⟨fun other => absurd other lasting,fun _ => checkLevelCommitted⟩⟩
    exact ⟨⟨configured,limited⟩,by simpa using alive,fun other => absurd other lasting,level⟩

variable {hash : Hash} {challenge userName : Text} {response : Digest}

theorem refuseOther {e} (nonzero : e ≠ 0) : (refuse e w).status ≠ 0 := nonzero

theorem loadFails {e} (failed : loadPasswords s w name zone = .error e) : e < 0 := by
  obtain ⟨k,count⟩ : ∃ k, k = fetchCount s .readPasswords w.maxPasswords (rows w name zone).length :=
    ⟨_,rfl⟩
  rcases loadPasswordsCases count with ⟨_,_,run,negative⟩ | ⟨_,_,run⟩ | ⟨_,_,run⟩
  · rw [run] at failed; cases failed; exact negative
  · rw [run] at failed; cases failed
  · rw [run] at failed; cases failed

theorem strangerName (other : name ≠ ANONYMOUS_USER) : strncmpZero NAME_LEN ANONYMOUS_USER name = false := by
  have short : ANONYMOUS_USER.length < NAME_LEN := by decide
  rw [Bool.eq_false_iff,ne_eq,strncmpShortLeft short]
  exact fun same => other same.symm

theorem zoneFails {e} (failed : zoneOf s userZone = .error e) : e < 0 := by
  unfold zoneOf at failed
  split at failed
  · split at failed
    · rename_i failure _
      cases failed
      exact failure.property
    · cases failed
  · cases failed

theorem answersIff {kind pw} : answers hash kind challenge response pw = true ↔
    response = answer hash kind challenge pw := by
  simp [answers,funext_iff]

theorem withPasswordsEntries {accepts es} (slots : t.slots = flat es) :
    withPasswords s accepts w t name zone userZone =
      match (es.take (tried t)).find? fun e => accepts (icatDescramble s.decode e.pw) with
      | none => refuse CAT_INVALID_AUTHENTICATION {w with maxPasswords := t.maxPasswords}
      | some e => conclude s {w with maxPasswords := t.maxPasswords} (acceptedOf s.decode e) name zone userZone := by
  rw [withPasswords,show (min (t.maxPasswords : Int) t.nPasswords).toNat = tried t from rfl,slots,triesEntries]
  cases (es.take (tried t)).find? fun e => accepts (icatDescramble s.decode e.pw) <;> rfl

theorem withoutPasswordsFails (other : name ≠ ANONYMOUS_USER) {e} (negative : e < 0) :
    (withoutPasswords s w name zone userZone e).status ≠ 0 := by
  unfold withoutPasswords
  rw [strangerName other]
  split
  · exact refuseOther (by decide)
  · exact refuseOther (by omega)

theorem checkAuthLoaded (valid : validateName (splitFlag userName).2 = some (name,userZone))
    (located : zoneOf s userZone = .ok zone) (loaded : loadPasswords s w name zone = .ok t) :
    dbCheckAuthOp s hash w challenge response userName =
      withPasswords s (answers hash (splitFlag userName).1 challenge response) w t name zone userZone := by
  unfold dbCheckAuthOp
  simp [valid,located,loaded]

theorem loadedIfAccepted (ok : (dbCheckAuthOp s hash w challenge response userName).status = 0) :
    ∃ name userZone zone, validateName (splitFlag userName).2 = some (name,userZone) ∧ zoneOf s userZone = .ok zone ∧
      (name ≠ ANONYMOUS_USER → ∃ t, loadPasswords s w name zone = .ok t) := by
  unfold dbCheckAuthOp at ok
  cases valid : validateName (splitFlag userName).2 with
  | none =>
    simp only [valid] at ok
    exact absurd ok (refuseOther (by decide))
  | some u =>
    obtain ⟨name,userZone⟩ := u
    simp only [valid] at ok
    cases located : zoneOf s userZone with
    | error e =>
      simp only [located] at ok
      exact absurd ok (refuseOther (Int.ne_of_lt (zoneFails located)))
    | ok zone =>
      refine ⟨name,userZone,zone,rfl,located,fun other => ?_⟩
      simp only [located] at ok
      cases loaded : loadPasswords s w name zone with
      | ok t => exact ⟨t,rfl⟩
      | error e =>
        simp only [loaded] at ok
        exact absurd ok (withoutPasswordsFails other (loadFails loaded))

theorem boundedFits {value} (short : value.length < MAX_PASSWORD_LEN) : bounded value = value := by
  rw [bounded,rstrcpyFits short]

theorem boundedShort {value} : (bounded value).length < MAX_PASSWORD_LEN := by
  have cut : (bounded value).length ≤ MAX_PASSWORD_LEN-1 := length_take_le _ _
  exact Nat.lt_of_le_of_lt cut (by decide)

theorem stampFits {value} (width : value.length ≤ 32) : bounded value = value :=
  boundedFits (Nat.lt_of_le_of_lt width (by decide))

-- Only a sum below the range wraps upwards.
theorem int64Below {v} (low : -2^63 ≤ v) : int64 v ≤ v := by
  rw [int64,BitVec.toInt_ofInt,bmod_def]
  split <;> omega

/- The bytes of a password that reach the digest. -/
def secret (decode : Text → Text) (pw : Text) : Text := (icatDescramble decode pw).take MAX_PASSWORD_LEN

abbrev accepted (s : Setting) (attempt : Attempt) : Accepted := acceptedOf s.decode (entryAt attempt)

/- An attempt that need not stand for a stored password: a zeroed slot, a password that was cut,
a temporary one whose end wraps around. -/
def Suspect (s : Setting) : Attempt → Prop
  | none => True
  | some p => MAX_PASSWORD_LEN ≤ p.rcatPassword.length ∨
    temporaryKind s p.rcatPassword p.passExpiryTs = true ∧ atoll (p.createTs.getD [])+atoll p.passExpiryTs < -2^63

/- A stored row of the user with the same password that is in order. -/
structure Backed (s : Setting) (w : World) (name zone : Text) (attempt : Attempt) (p : PasswordRow) : Prop where
  stored : p ∈ selectPasswords w.working name zone
  same : secret s.decode p.rcatPassword = secret s.decode (entryAt attempt).pw
  pamFresh : pamKind (getAuthConfig w.committed (lit "authentication")) p.passExpiryTs = true →
    s.pamNow ≤ atoll (p.modifyTs.getD [])+atoll p.passExpiryTs
  temporaryFresh : temporaryKind s p.rcatPassword p.passExpiryTs = true →
    s.temporaryNow ≤ atoll (p.createTs.getD [])+atoll p.passExpiryTs
  removed : temporaryKind s p.rcatPassword p.passExpiryTs = true → p ∈ w.committed.passwords →
    temporaryKind s (accepted s attempt).lastPw (accepted s attempt).goodPwExpiry = true

variable {p : PasswordRow} {attempt : Attempt}

theorem plainDescrambled {decode stored expiry} (kind : temporaryKind s stored expiry = true) :
    icatDescramble decode stored = stored := by
  rw [temporaryKind,Bool.and_eq_true,Bool.not_eq_true'] at kind
  rw [icatDescramble,kind.1]
  rfl

theorem attemptShort : (entryAt attempt).pw.length < MAX_PASSWORD_LEN := by
  cases attempt with
  | some p => exact boundedShort
  | none => exact show 0 < MAX_PASSWORD_LEN by decide

-- What a temporary attempt removes by its text is every row that has its password.
theorem backedText (backed : Backed s w name zone attempt p)
    (kind : temporaryKind s p.rcatPassword p.passExpiryTs = true)
    (removes : temporaryKind s (accepted s attempt).lastPw (accepted s attempt).goodPwExpiry = true) :
    p.rcatPassword = (accepted s attempt).goodPw := by
  have short := @attemptShort attempt
  have last : (accepted s attempt).lastPw = (entryAt attempt).pw := boundedFits short
  have plain : icatDescramble s.decode (entryAt attempt).pw = (entryAt attempt).pw := plainDescrambled (last ▸ removes)
  have good : (accepted s attempt).goodPw = (entryAt attempt).pw := by
    show bounded (icatDescramble s.decode (entryAt attempt).pw) = _
    rw [plain,boundedFits short]
  have same := backed.same
  rw [secret,secret,plainDescrambled kind,plain,take_of_length_le (Nat.le_of_lt short)] at same
  have length := congrArg length same
  rw [length_take] at length
  rw [good,← same,take_of_length_le (by omega)]

theorem answerSecret {kind decode left right} (same : secret decode left = secret decode right) :
    answer hash kind challenge (icatDescramble decode left) = answer hash kind challenge
      (icatDescramble decode right) := by
  unfold secret at same
  unfold answer
  rw [same]

theorem backedGenuine {r : Reply} (backed : Backed s w name zone attempt p)
    (done : Concluded s w.committed (accepted s attempt) r)
    (answered : response =
      answer hash (splitFlag userName).1 challenge (icatDescramble s.decode (entryAt attempt).pw)) :
    Genuine s hash w challenge response userName r.world name zone p := by
  have member := mem_filter.mp backed.stored
  refine ⟨member.1,of_decide_eq_true member.2,answered.trans (answerSecret backed.same.symm),
    backed.pamFresh,backed.temporaryFresh,fun kind => ?_⟩
  cases removes : temporaryKind s (accepted s attempt).lastPw (accepted s attempt).goodPwExpiry with
  | true => exact done.gone removes p (backedText backed kind removes)
  | false =>
    rw [done.kept removes]
    intro inside
    rw [backed.removed kind inside] at removes
    cases removes

theorem ownRowBacked (stored : p ∈ selectPasswords w.working name zone) (plain : ¬Suspect s (some p))
    (entered : LetIn s w.working w.committed name zone userZone (accepted s (some p))) :
    Backed s w name zone (some p) p := by
  obtain ⟨long,wraps⟩ := not_or.mp plain
  have short := boundedFits (Nat.not_le.mp long)
  have entry : accepted s (some p) = ⟨p.rcatPassword,bounded (icatDescramble s.decode p.rcatPassword),p.passExpiryTs,
      p.createTs.getD [],p.modifyTs.getD []⟩ := by
    have fits := stampFits p.expiryWidth
    have created := stampFits p.createWidth
    have modified := stampFits p.modifyWidth
    simp only [accepted,acceptedOf,entryAt,entryOf,short,fits,created,modified]
  obtain ⟨_,alive,temporary,_⟩ := entered
  rw [entry] at alive temporary
  refine ⟨stored,by rw [entryAt,entryOf,short],fun pam => ?_,fun kind => ?_,fun kind _ => by rw [entry]; exact kind⟩
  · have unexpired := Bool.eq_false_iff.mpr fun late => alive ⟨pam,late⟩
    rw [pamExpired,decide_eq_false_iff_not] at unexpired
    dsimp only at pam unexpired
    rw [pamKind,Bool.and_eq_true,Bool.and_eq_true,decide_eq_true_iff,decide_eq_true_iff] at pam
    have least := (getAuthConfig w.committed (lit "authentication")).minNonneg
    have low : -2^63 ≤ atoll (p.modifyTs.getD []) := Int.le_max_left _ _
    exact (Int.not_lt.mp unexpired).trans (int64Below (by omega))
  · have fresh := (temporary kind).fresh
    rw [temporaryExpired,Bool.or_eq_false_iff,decide_eq_false_iff_not] at fresh
    exact (Int.not_lt.mp fresh.2).trans (int64Below (Int.not_lt.mp fun wrapped => wraps ⟨kind,wrapped⟩))

theorem attemptStored (tried : some p ∈ attempts s w name zone) : p ∈ selectPasswords w.working name zone := by
  unfold attempts at tried
  dsimp only at tried
  split at tried
  · rcases mem_append.mp (mem_of_mem_take tried) with copied | zeroed
    · obtain ⟨_,inside,same⟩ := mem_map.mp copied
      cases same
      exact mem_of_mem_take inside
    · simp at zeroed
  · obtain ⟨_,inside,same⟩ := mem_map.mp tried
    cases same
    exact mem_of_mem_take inside

/- What the call does with the list of attempts. -/
theorem checkAuthAttempts (other : name ≠ ANONYMOUS_USER)
    (valid : validateName (splitFlag userName).2 = some (name,userZone)) (located : zoneOf s userZone = .ok zone) :
    match (attempts s w name zone).find? fun attempt =>
      answers hash (splitFlag userName).1 challenge response (icatDescramble s.decode (entryAt attempt).pw) with
    | none => (dbCheckAuthOp s hash w challenge response userName).status ≠ 0
    | some attempt => ∃ m, dbCheckAuthOp s hash w challenge response userName =
      conclude s {w with maxPasswords := m} (accepted s attempt) name zone userZone := by
  rcases @loadedAttempts s w name zone with ⟨e,failed,nothing⟩ | ⟨t,es,loaded,slots,all⟩
  · rw [nothing]
    show (dbCheckAuthOp s hash w challenge response userName).status ≠ 0
    unfold dbCheckAuthOp
    simp only [valid,located,failed]
    exact withoutPasswordsFails other (loadFails failed)
  rw [checkAuthLoaded valid located loaded,withPasswordsEntries slots,all,find?_map]
  unfold Function.comp
  cases (attempts s w name zone).find? fun attempt =>
      answers hash (splitFlag userName).1 challenge response (icatDescramble s.decode (entryAt attempt).pw) with
  | none => exact refuseOther (by decide)
  | some attempt => exact ⟨_,rfl⟩

/- Each suspect attempt that comes first with its password and is let in has a row behind it. -/
def Guarded (s : Setting) (w : World) (userName : Text) : Prop :=
  ∀ name userZone zone, strstr userName SHA1_FLAG_STRING = none → validateName userName = some (name,userZone) →
    zoneOf s userZone = .ok zone → name ≠ ANONYMOUS_USER →
    ∀ front attempt back, attempts s w name zone = front ++ attempt::back →
      (∀ before ∈ front, secret s.decode (entryAt before).pw ≠ secret s.decode (entryAt attempt).pw) →
      Suspect s attempt → LetIn s w.working w.committed name zone userZone (accepted s attempt) →
      ∃ p, Backed s w name zone attempt p

theorem guardedSound (guarded : Guarded s w userName) : Sound s hash w challenge response userName := by
  intro ok
  obtain ⟨name,userZone,zone,valid,located,_⟩ := loadedIfAccepted ok
  obtain ⟨plain,named⟩ := namedPlain valid
  refine ⟨name,zone,denotesPlain plain named located,fun other => ?_⟩
  have run := @checkAuthAttempts s w name zone userZone hash challenge userName response other valid located
  split at run
  · exact absurd ok run
  rename_i attempt found
  obtain ⟨m,same⟩ := run
  rw [same] at ok ⊢
  obtain ⟨answered,front,back,list,misses⟩ := find?_eq_some_iff_append.mp found
  obtain ⟨passes,done⟩ := @concludePasses s {w with maxPasswords := m} name zone (accepted s attempt) userZone
  have entered := passes.mp ok
  have backed : ∃ p, Backed s w name zone attempt p := by
    by_cases suspect : Suspect s attempt
    · refine guarded name userZone zone plain named located other front attempt back list ?_ suspect entered
      intro before inside equal
      have hit := misses before inside
      rw [Bool.not_eq_true',Bool.eq_false_iff,ne_eq,answersIff] at hit
      exact hit ((answersIff.mp answered).trans (answerSecret equal.symm))
    · cases attempt with
      | none => exact absurd trivial suspect
      | some p => exact ⟨p,ownRowBacked (attemptStored (by rw [list]; simp)) suspect entered⟩
  obtain ⟨p,backed⟩ := backed
  exact ⟨p,backedGenuine backed (done ok) (answersIff.mp answered)⟩

/- The digest that tells one password from all others. -/
def only (pw : Text) : Hash := fun _ _ other => if other = pw then fun _ => 1 else fun _ => 2
def allOnes : Digest := fun _ => 1

theorem onlyAnswers {kind decode pw stored} :
    allOnes = answer (only pw) kind challenge (icatDescramble decode stored) ↔ secret decode stored = pw := by
  unfold secret
  constructor
  · intro same
    have first := congrFun same ⟨0,by decide⟩
    by_contra other
    rw [answer,only,if_neg other] at first
    exact absurd first (by decide)
  · rintro rfl
    funext i
    simp [allOnes,answer,only]

theorem unbackedUnsound {front back} (plain : strstr userName SHA1_FLAG_STRING = none)
    (named : validateName userName = some (name,userZone)) (located : zoneOf s userZone = .ok zone)
    (other : name ≠ ANONYMOUS_USER) (list : attempts s w name zone = front ++ attempt::back)
    (first : ∀ before ∈ front, secret s.decode (entryAt before).pw ≠ secret s.decode (entryAt attempt).pw)
    (entered : LetIn s w.working w.committed name zone userZone (accepted s attempt))
    (unbacked : ¬∃ p, Backed s w name zone attempt p) :
    (dbCheckAuthOp s (only (secret s.decode (entryAt attempt).pw)) w [] allOnes userName).status = 0 ∧
    ¬Sound s (only (secret s.decode (entryAt attempt).pw)) w [] allOnes userName := by
  have valid : validateName (splitFlag userName).2 = some (name,userZone) := by rw [splitFlag,plain]; exact named
  have run := @checkAuthAttempts s w name zone userZone
    (only (secret s.decode (entryAt attempt).pw)) [] userName allOnes
    other valid located
  have found : (attempts s w name zone).find? (fun attempt' => answers (only (secret s.decode (entryAt attempt).pw))
      (splitFlag userName).1 [] allOnes (icatDescramble s.decode (entryAt attempt').pw)) = some attempt := by
    refine find?_eq_some_iff_append.mpr ⟨answersIff.mpr (onlyAnswers.mpr rfl),front,back,list,fun before inside => ?_⟩
    rw [Bool.not_eq_true',Bool.eq_false_iff,ne_eq,answersIff,onlyAnswers]
    exact first before inside
  rw [found] at run
  obtain ⟨m,same⟩ := run
  obtain ⟨passes,done⟩ := @concludePasses s {w with maxPasswords := m} name zone (accepted s attempt) userZone
  have ok : (dbCheckAuthOp s (only (secret s.decode (entryAt attempt).pw)) w [] allOnes userName).status = 0 := by
    rw [same]
    exact passes.mpr entered
  refine ⟨ok,fun sound => unbacked ?_⟩
  obtain ⟨_,_,denoted,genuine⟩ := sound ok
  rw [denotesPlain plain named located] at denoted
  cases denoted
  obtain ⟨p,g⟩ := genuine other
  refine ⟨p,mem_filter.mpr ⟨g.stored,decide_eq_true g.belongs⟩,onlyAnswers.mp g.answers,g.pamFresh,g.temporaryFresh,?_⟩
  intro kind inside
  by_contra lasting
  have gone := g.temporaryGone kind
  rw [same,((done (passes.mpr entered)).kept (Bool.eq_false_iff.mpr lasting))] at gone
  exact gone inside

theorem authenticationSoundExactly {s : Setting} {w : World} {userName : Text} :
    (∀ hash challenge response, Sound s hash w challenge response userName) ↔ Guarded s w userName := by
  constructor
  · intro sound name userZone zone plain named located other front attempt back list first _ entered
    by_contra unbacked
    exact (unbackedUnsound plain named located other list first entered unbacked).2 (sound _ _ _)
  · intro guarded _ _ _
    exact guardedSound guarded

/- A zeroed slot has no lifetime and no age: it is let in as a password that never ends, unless
the configuration makes it a temporary or a PAM password. -/
def BlankRefused (s : Setting) (w : World) : Prop :=
  0 < s.maximumLifetime ∨ (getAuthConfig w.committed (lit "authentication")).passwordMinTime = 0 ∧ 0 < s.pamNow

theorem pamBlank {c} : pamKind c [] = decide (c.passwordMinTime = 0) := by
  have low := c.minNonneg
  have high := c.maxNonneg
  have zero : atoll [] = 0 := rfl
  have start : strncmpZero 4 [] (lit "9999") = false := rfl
  rw [pamKind,start,zero,Bool.not_false,Bool.true_and,decide_eq_true high,Bool.and_true,decide_eq_decide]
  omega

theorem temporaryBlank : temporaryKind s [] [] = decide (0 < s.maximumLifetime) := by
  have zero : atoll [] = 0 := rfl
  have start : PASSWORD_SCRAMBLE_PREFIX.isPrefixOf [] = false := rfl
  rw [temporaryKind,start,zero,Bool.not_false,Bool.true_and]

theorem blankRefusedOut (refused : BlankRefused s w) :
    ¬LetIn s w.working w.committed name zone userZone (accepted s none) := by
  rintro ⟨_,alive,temporary,_⟩
  rcases refused with lifetime | ⟨least,late⟩
  · have kind : temporaryKind s [] [] = true := by rw [temporaryBlank]; exact decide_eq_true lifetime
    cases (temporary kind).fresh
  · refine alive ⟨pamBlank.trans (decide_eq_true least),?_⟩
    have zero : int64 (atoll []+atoll []) = 0 := rfl
    exact decide_eq_true (zero ▸ late)

theorem zeroedTried (tried : none ∈ attempts s w name zone) : w.maxPasswords ≤ (rows w name zone).length ∧
    fetchCount s .rereadPasswords (grownMaximum s w name) (rows w name zone).length < grownMaximum s w name := by
  have bound := @fetchBound s .readPasswords w.maxPasswords (rows w name zone).length
  unfold attempts at tried
  dsimp only at tried
  split at tried
  · rename_i full
    refine ⟨by omega,?_⟩
    rcases mem_append.mp (mem_of_mem_take tried) with copied | zeroed
    · obtain ⟨_,_,same⟩ := mem_map.mp copied
      cases same
    · have left := (mem_replicate.mp zeroed).1
      omega
  · obtain ⟨_,_,same⟩ := mem_map.mp tried
    cases same

theorem readableGuarded (named : validateName userName = some (name,userZone)) (located : zoneOf s userZone = .ok zone)
    (readable : ∀ p ∈ selectPasswords w.working name zone, ¬Suspect s (some p))
    (kept : (selectPasswords w.working name zone).length < w.maxPasswords ∨
      grownMaximum s w name ≤ fetchCount s .rereadPasswords (grownMaximum s w name) (rows w name zone).length ∨
      BlankRefused s w) : Guarded s w userName := by
  intro n uz z _ valid zoned _ front attempt back list _ suspect entered
  rw [named] at valid
  cases valid
  rw [located] at zoned
  cases zoned
  have tried : attempt ∈ attempts s w name zone := by rw [list]; simp
  cases attempt with
  | some p => exact absurd suspect (readable p (attemptStored tried))
  | none =>
    obtain ⟨many,fewer⟩ := zeroedTried tried
    rcases kept with few | all | refused
    · exact absurd few (Nat.not_lt.mpr many)
    · exact absurd fewer (Nat.not_lt.mpr all)
    · exact absurd entered (blankRefusedOut refused)

def sampleRow (userId : Int) : PasswordRow :=
  ⟨userId,lit ".E_k8",lit "9999-12-31-23.59.00",some (lit "01700000000"),some (lit "01700000000"),by decide,by decide,
    by decide⟩

def sampleCatalog (passwords : Nat) : Catalog :=
  ⟨[⟨1,lit "alice",lit "rodsuser",lit "tempZone"⟩,⟨2,lit "bob",lit "rodsuser",lit "tempZone"⟩],
    sampleRow 2::List.replicate passwords (sampleRow 1),[],by decide⟩

def sampleWorld (passwords : Nat) : World := ⟨sampleCatalog passwords,sampleCatalog passwords,40⟩

def sampleSetting (lifetime : Int) : Setting where
  fault := fun _ => none
  interrupted := fun _ => none
  decode := id
  textLess := fun _ _ => false
  localZone := lit "tempZone"
  maximumLifetime := lifetime
  defaultLifetime := 120
  pamNow := 1700000100
  temporaryNow := 1700000100
  clientName := []
  clientZone := []

theorem sampleSelected {n} :
    selectPasswords (sampleWorld n).working (lit "alice") (lit "tempZone") = replicate n (sampleRow 1) := by
  have bob : ¬Belongs (sampleWorld n).working (lit "alice") (lit "tempZone") (sampleRow 2) := by
    simp [Belongs,sampleWorld,sampleCatalog,sampleRow,lit]
  have alice : Belongs (sampleWorld n).working (lit "alice") (lit "tempZone") (sampleRow 1) :=
    ⟨_,mem_cons_self,rfl,rfl,rfl⟩
  show (sampleRow 2::replicate n (sampleRow 1)).filter _ = _
  rw [filter_cons_of_neg (by simpa using bob),filter_replicate_of_pos (by simpa using alice)]

theorem sampleCounted {n} : countPasswords (sampleWorld n).working (lit "alice") = n+1 := by
  have users : ((sampleWorld n).working.users.filter fun u => u.userName == lit "alice").length = 1 := rfl
  rw [countPasswords,users,Nat.mul_one]
  show (sampleRow 2::replicate n (sampleRow 1)).length = n+1
  rw [length_cons,length_replicate]

theorem sampleAttempts : attempts (sampleSetting 0) (sampleWorld 40) (lit "alice") (lit "tempZone") =
    replicate 40 (some (sampleRow 1)) ++ [none] := by
  have grown : grownMaximum (sampleSetting 0) (sampleWorld 40) (lit "alice") = 41 := sampleCounted
  have first : fetchCount (sampleSetting 0) .readPasswords (sampleWorld 40).maxPasswords 40 = 40 := by decide
  have second : fetchCount (sampleSetting 0) .rereadPasswords 41 40 = 40 := by decide
  unfold attempts rows
  rw [sampleSelected,grown,length_replicate,first]
  dsimp only
  rw [second]
  rfl

theorem emptyPasswordAccepted :
    (dbCheckAuthOp (sampleSetting 0) (only []) (sampleWorld 40) [] allOnes (lit "alice")).status = 0 ∧
    ¬Sound (sampleSetting 0) (only []) (sampleWorld 40) [] allOnes (lit "alice") := by
  have secretRow : secret id (entryAt (some (sampleRow 1))).pw ≠ secret id (entryAt none).pw := by decide
  have named : validateName (lit "alice") = some (lit "alice",[]) := rfl
  have located : zoneOf (sampleSetting 0) [] = .ok (lit "tempZone") := rfl
  have lasting : temporaryKind (sampleSetting 0) [] [] ≠ true := by decide
  have plainUser : lit "rodsuser" ≠ lit "rodsadmin" := by decide
  refine @unbackedUnsound _ _ _ _ _ _ none _ _ (by decide) named located (by decide) sampleAttempts ?_ ?_ ?_
  · intro before inside
    rw [eq_of_mem_replicate inside]
    exact secretRow
  · exact ⟨⟨rfl,rfl⟩,by decide,fun kind => absurd kind lasting,
        ⟨rfl,lit "rodsuser",rfl,fun admin => absurd admin plainUser⟩⟩
  · rintro ⟨p,stored,same,_⟩
    rw [sampleSelected] at stored
    rw [eq_of_mem_replicate stored] at same
    exact absurd same (by decide)

end Irods.AuthSoundness
