import Irods.StringOpr

/-! The tables behind password authentication, the reader that copies a whole
answer into fixed slots, and get_auth_config. A statement that the database
refuses gives back its negative status. -/
namespace Irods.AuthCatalog
open CText StringOpr List

def CAT_GET_ROW_ERR : Int := -807000
def CAT_NO_ROWS_FOUND : Int := -808000
def CAT_INVALID_ARGUMENT : Int := -816000
def CAT_SUCCESS_BUT_WITH_NO_INFO : Int := -819000

structure UserRow where
  userId : Int
  userName : Text
  userTypeName : Text
  zoneName : Text
  deriving DecidableEq, Repr

-- The time stamps are varchar(32), the password is varchar(250).
structure PasswordRow where
  userId : Int
  rcatPassword : Text
  passExpiryTs : Text
  createTs : Option Text
  modifyTs : Option Text
  expiryWidth : passExpiryTs.length ≤ 32
  createWidth : (createTs.getD []).length ≤ 32
  modifyWidth : (modifyTs.getD []).length ≤ 32

structure OptionRow where
  optionNamespace : Text
  optionName : Text
  optionValue : Text
  deriving DecidableEq, Repr

structure Catalog where
  users : List UserRow
  passwords : List PasswordRow
  gridConfiguration : List OptionRow
  -- idx_user_main2
  userNames : (users.map (fun u => (u.userName,u.zoneName))).Nodup

def Belongs (cat : Catalog) (name zone : Text) (p : PasswordRow) : Prop :=
  ∃ u ∈ cat.users, u.userName = name ∧ u.zoneName = zone ∧ u.userId = p.userId

instance {cat name zone p} : Decidable (Belongs cat name zone p) :=
  inferInstanceAs (Decidable (∃ u ∈ cat.users, _))

def selectPasswords (cat : Catalog) (name zone : Text) : List PasswordRow :=
  cat.passwords.filter (fun p => decide (Belongs cat name zone p))

-- select count(UP.user_id) from R_USER_PASSWORD UP, R_USER_MAIN where user_name=?
-- No join and no zone: every password counts once for each user of that name.
def countPasswords (cat : Catalog) (name : Text) : Nat :=
  cat.passwords.length*(cat.users.filter (fun u => u.userName == name)).length

def selectUserType (cat : Catalog) (name zone : Text) : Option Text :=
  (cat.users.find? (fun u => u.userName == name && u.zoneName == zone)).map (·.userTypeName)

def deletePasswords (cat : Catalog) (gone : PasswordRow → Bool) : Catalog :=
  {cat with passwords := cat.passwords.filter (fun p => !gone p)}

def deleteStatus (cat : Catalog) (gone : PasswordRow → Bool) : Int :=
  if cat.passwords.any gone then 0 else CAT_SUCCESS_BUT_WITH_NO_INFO

theorem deleteGone {cat gone p} (hit : gone p = true) : p ∉ (deletePasswords cat gone).passwords := by
  simp [deletePasswords,hit]

theorem deleteKeepsGone {cat gone p} (absent : p ∉ cat.passwords) : p ∉ (deletePasswords cat gone).passwords :=
  fun kept => absent (mem_filter.mp kept).1

/- The rows and whether cllGetRow fails behind them; slots have maxStringLen bytes, up to the limit. -/
structure Answer where
  rows : List (List Text)
  broken : Bool

def copyColumns (maxStringLen limit : Nat) : List Text → List Text → List Text × Bool
  | got,[] => (got,false)
  | got,value::values =>
    if limit ≤ got.length+1 then (got ++ [(rstrcpy value maxStringLen).1],true)
    else copyColumns maxStringLen limit (got ++ [(rstrcpy value maxStringLen).1]) values

def copyRows (maxStringLen limit : Nat) (broken : Bool) : List Text → List (List Text) → List Text × Int
  | got,[] => (got,if 0 < got.length then got.length else if broken then CAT_GET_ROW_ERR else CAT_NO_ROWS_FOUND)
  | got,row::rows =>
    match copyColumns maxStringLen limit got row with
    | (got,true) => (got,got.length)
    | (got,false) => copyRows maxStringLen limit broken got rows

def cmlGetMultiRowStringValuesFromSql (maxStringLen : Nat) (maxNumberOfStringsToGet : Int)
    (answer : Except Int Answer) (slots : List Text) : List Text × Int :=
  if maxNumberOfStringsToGet ≤ 0 then (slots,CAT_INVALID_ARGUMENT)
  else match answer with
    | .error e => (slots,e)
    | .ok a =>
      let (got,status) := copyRows maxStringLen maxNumberOfStringsToGet.toNat a.broken [] a.rows
      (got ++ slots.drop got.length,status)

def copied (maxStringLen : Nat) (values : List Text) : List Text := values.map (fun v => (rstrcpy v maxStringLen).1)

theorem copyColumnsTaken {size limit got values} (room : got.length < limit) :
    copyColumns size limit got values =
      (got ++ (copied size values).take (limit-got.length),decide (limit ≤ got.length+values.length)) := by
  induction values generalizing got with
  | nil => simp [copyColumns,copied,room]
  | cons value values ih =>
    unfold copyColumns
    split
    · have one : limit-got.length = 1 := by omega
      have ends : limit ≤ got.length+(values.length+1) := by omega
      simp [one,copied,ends]
    obtain ⟨k,left⟩ : ∃ k, limit-got.length = k+1 := ⟨limit-got.length-1,by omega⟩
    have length : (got ++ [(rstrcpy value size).1]).length = got.length+1 := by simp
    have next : limit-(got.length+1) = k := by omega
    have count : got.length+1+values.length = got.length+(value::values).length := by
      rw [length_cons]; omega
    rw [ih (by rw [length]; omega),length,next,left,count]
    simp [copied]

def copyStatus (broken : Bool) (got : List Text) : Int :=
  if 0 < got.length then got.length else if broken then CAT_GET_ROW_ERR else CAT_NO_ROWS_FOUND

theorem copyRowsTaken {size limit broken got rows}
    (room : got.length < limit) :
    copyRows size limit broken got rows =
      (got ++ (copied size rows.flatten).take (limit-got.length),
        copyStatus broken (got ++ (copied size rows.flatten).take (limit-got.length))) := by
  induction rows generalizing got with
  | nil => simp [copyRows,copyStatus,copied]
  | cons row rows ih =>
    rw [copyRows,copyColumnsTaken room]
    have parts : copied size (row::rows).flatten = copied size row ++ copied size rows.flatten := by simp [copied]
    have sized : (copied size row).length = row.length := by simp [copied]
    rw [parts]
    by_cases full : limit ≤ got.length+row.length
    · have inside : limit-got.length-row.length = 0 := by omega
      rw [decide_eq_true full,take_append,sized,inside,take_zero,append_nil]
      have nonempty : 0 < (got ++ (copied size row).take (limit-got.length)).length := by
        rw [length_append,length_take]; omega
      simp only [copyStatus,nonempty,if_true]
    · have taken : (copied size row).take (limit-got.length) = copied size row :=
        take_of_length_le (by omega)
      have length : (got ++ copied size row).length = got.length+row.length := by simp [sized]
      have next : limit-(got.length+row.length) = limit-got.length-row.length := by omega
      rw [decide_eq_false full,taken]
      simp only
      rw [ih (by rw [length]; omega),length,next,take_append,taken,sized,append_assoc]

/- std::stoll: no digits, and a number out of range, throw. -/
def stoll (a : Text) : Option Int :=
  let body := match a.dropWhile isSpace with
    | '-'::rest => rest
    | '+'::rest => rest
    | rest => rest
  if (body.head?.map Char.isDigit).getD false && decide (-2^63 ≤ leadingInteger a ∧ leadingInteger a < 2^63)
  then some (leadingInteger a) else none

structure AuthConfig where
  passwordMinTime : Int
  passwordMaxTime : Int
  minNonneg : 0 ≤ passwordMinTime
  maxNonneg : 0 ≤ passwordMaxTime
  deriving DecidableEq

def defaultPasswordMinTime : Int := 121
def defaultPasswordMaxTime : Int := 1209600
def defaultConfig : AuthConfig := ⟨defaultPasswordMinTime,defaultPasswordMaxTime,by decide,by decide⟩

def optionTime (fallback : Int) (nonneg : 0 ≤ fallback) (value : Text) : {t : Int // 0 ≤ t} :=
  match stoll value with
  | some v => if valid : 0 ≤ v then ⟨v,valid⟩ else ⟨fallback,nonneg⟩
  | none => ⟨fallback,nonneg⟩

def applyOption (c : AuthConfig) (row : OptionRow) : AuthConfig :=
  if row.optionName = lit "password_min_time" then
    let t := optionTime defaultPasswordMinTime (by decide) row.optionValue
    {c with passwordMinTime := t.val, minNonneg := t.property}
  else if row.optionName = lit "password_max_time" then
    let t := optionTime defaultPasswordMaxTime (by decide) row.optionValue
    {c with passwordMaxTime := t.val, maxNonneg := t.property}
  else c

def getAuthConfig (cat : Catalog) (optionNamespace : Text) : AuthConfig :=
  (cat.gridConfiguration.filter (fun row => row.optionNamespace == optionNamespace)).foldl applyOption defaultConfig

end Irods.AuthCatalog
