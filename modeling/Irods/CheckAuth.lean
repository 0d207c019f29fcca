import Irods.AuthCatalog

/-! db_check_auth_op of db_plugin.cpp. The digest is an arbitrary function of the
two texts its buffer holds, and the decoding of a scrambled password an arbitrary
function of its text. MAX_PASSWORDS is a static variable and so session state. -/
namespace Irods.CheckAuth
open CText StringOpr AuthCatalog

def MAX_PASSWORD_LEN : Nat := 50
def CHALLENGE_LEN : Nat := 64
def RESPONSE_LEN : Nat := 16
def ANONYMOUS_USER : Text := lit "anonymous"
def PASSWORD_SCRAMBLE_PREFIX : Text := lit ".E_"
def SHA1_FLAG_STRING : Text := lit ":::sha1"
def USER_INVALID_USERNAME_FORMAT : Int := -319000
def CAT_INVALID_AUTHENTICATION : Int := -826000
def CAT_INVALID_CLIENT_USER : Int := -832000
def CAT_PASSWORD_EXPIRED : Int := -840000

inductive HashType where
  | md5
  | sha1
  deriving DecidableEq, Repr

abbrev Digest := Fin RESPONSE_LEN → UInt8
abbrev Hash := HashType → Text → Text → Digest

inductive AuthLevel where
  | noUserAuth
  | remoteUserAuth
  | localUserAuth
  | localPrivUserAuth
  deriving DecidableEq, Repr

inductive Statement where
  | localZone
  | readPasswords
  | countPasswords
  | rereadPasswords
  | authConfig
  | deleteExpired
  | commitExpired
  | maximumLifetime
  | defaultLifetime
  | deleteTemporary
  | deleteStale
  | commitTemporary
  | userType
  | clientType
  | rollback
  deriving DecidableEq, Repr

abbrev Failure := {status : Int // status < 0}

/- Which statements fail, after how many rows a fetch breaks off, the configuration and the clock. -/
structure Setting where
  fault : Statement → Option Failure
  interrupted : Statement → Option Nat
  decode : Text → Text
  textLess : Text → Text → Bool
  localZone : Text
  maximumLifetime : Int
  defaultLifetime : Int
  pamNow : Int
  temporaryNow : Int
  clientName : Text
  clientZone : Text

structure World where
  working : Catalog
  committed : Catalog
  maxPasswords : Nat

structure Reply where
  status : Int
  userLevel : AuthLevel
  clientLevel : AuthLevel
  world : World

def refuse (status : Int) (w : World) : Reply := ⟨status,.noUserAuth,.noUserAuth,w⟩

def rollback (s : Setting) (w : World) : World :=
  match s.fault .rollback with
  | some _ => w
  | none => {w with working := w.committed}

def int32 (v : Int) : Int := (BitVec.ofInt 32 v).toInt
def int64 (v : Int) : Int := (BitVec.ofInt 64 v).toInt

-- validate_name: ((\w|[-.@])+)(#([^#]*))?
def nameChar (c : Char) : Bool := c.isAlphanum || c == '_' || c == '-' || c == '.' || c == '@'

def zonePart : Text → Option Text
  | [] => some []
  | _::zone => if zone.all (· != '#') then some zone else none

def validateName (fullUserName : Text) : Option (Text × Text) :=
  let userName := fullUserName.takeWhile (· != '#')
  match zonePart (fullUserName.dropWhile (· != '#')) with
  | none => none
  | some zoneName =>
    if userName.isEmpty || !userName.all nameChar then none
    else if userName.length ≥ NAME_LEN then none
    else if userName = lit "." ∨ userName = lit ".." then none
    else if zoneName.length ≥ NAME_LEN then none
    else some (userName,zoneName)

-- "truncate off the :::sha1 string": what is kept starts at the flag.
def splitFlag (userName : Text) : HashType × Text :=
  match strstr userName SHA1_FLAG_STRING with
  | some pos => (.sha1,userName.drop pos)
  | none => (.md5,userName)

def zoneOf (s : Setting) (userZone : Text) : Except Int Text :=
  if userZone = [] then
    match s.fault .localZone with
    | some e => .error e
    | none => .ok (boundedCopy MAX_NAME_LEN s.localZone)
  else .ok userZone

def icatDescramble (decode : Text → Text) (pw : Text) : Text :=
  if PASSWORD_SCRAMBLE_PREFIX.isPrefixOf pw then
    (decode (boundedCopy (MAX_PASSWORD_LEN+10) (pw.drop PASSWORD_SCRAMBLE_PREFIX.length))).take MAX_PASSWORD_LEN
  else pw

def answer (hash : Hash) (kind : HashType) (challenge pw : Text) : Digest := fun i =>
  let byte := hash kind (challenge.take CHALLENGE_LEN) (pw.take MAX_PASSWORD_LEN) i
  if byte = 0 then byte+1 else byte

def columns (p : PasswordRow) : List Text := [p.rcatPassword,p.passExpiryTs,p.createTs.getD [],p.modifyTs.getD []]

def passwordAnswer (s : Setting) (statement : Statement) (cat : Catalog) (name zone : Text) : Except Int Answer :=
  match s.fault statement with
  | some e => .error e
  | none =>
    match s.interrupted statement with
    | some k => .ok ⟨((selectPasswords cat name zone).take k).map columns,true⟩
    | none => .ok ⟨(selectPasswords cat name zone).map columns,false⟩

structure Table where
  maxPasswords : Nat
  nPasswords : Int
  slots : List Text

/- A full first read sets MAX_PASSWORDS from the count; failures of the second round are only logged. -/
def reloadPasswords (s : Setting) (w : World) (name zone : Text) (slots : List Text) : Table :=
  let maxPasswords := match s.fault .countPasswords with
    | some _ => w.maxPasswords
    | none => countPasswords w.working name
  let resized := slots.take (maxPasswords*4) ++ List.replicate (maxPasswords*4-slots.length) []
  let second := cmlGetMultiRowStringValuesFromSql MAX_PASSWORD_LEN (int32 (maxPasswords*4))
    (passwordAnswer s .rereadPasswords w.working name zone) resized
  ⟨maxPasswords,int32 maxPasswords,second.1⟩

def loadPasswords (s : Setting) (w : World) (name zone : Text) : Except Int Table :=
  let first := cmlGetMultiRowStringValuesFromSql MAX_PASSWORD_LEN (int32 (w.maxPasswords*4))
    (passwordAnswer s .readPasswords w.working name zone) (List.replicate (w.maxPasswords*4) [])
  if first.2 < 4 then .error first.2
  else if first.2/4 = w.maxPasswords then .ok (reloadPasswords s w name zone first.1)
  else .ok ⟨w.maxPasswords,first.2/4,first.1⟩

structure Accepted where
  lastPw : Text
  goodPw : Text
  goodPwExpiry : Text
  goodPwTs : Text
  goodPwModTs : Text
  deriving DecidableEq, Repr

def bounded (value : Text) : Text := (rstrcpy value MAX_PASSWORD_LEN).1

/- Four slots to a password; lastPwModTs is written and never read. -/
def tryPasswords (decode : Text → Text) (accepts : Text → Bool) : Nat → List Text → Option Accepted
  | n+1,pw::expiry::ts::modTs::rest =>
    if accepts (icatDescramble decode pw) then
      some ⟨bounded pw,bounded (icatDescramble decode pw),bounded expiry,bounded ts,bounded modTs⟩
    else tryPasswords decode accepts n rest
  | _,_ => none

def pamKind (c : AuthConfig) (expiry : Text) : Bool :=
  !strncmpZero 4 expiry (lit "9999") && decide (c.passwordMinTime ≤ atoll expiry) &&
    decide (atoll expiry ≤ c.passwordMaxTime)

def temporaryKind (s : Setting) (stored expiry : Text) : Bool :=
  !PASSWORD_SCRAMBLE_PREFIX.isPrefixOf stored && decide (atoll expiry < s.maximumLifetime)

def pamExpired (s : Setting) (a : Accepted) : Bool :=
  decide (int64 (atoll a.goodPwModTs+atoll a.goodPwExpiry) < s.pamNow)

def removeExpired (s : Setting) (w : World) (a : Accepted) (name zone : Text) : Reply :=
  match s.fault .deleteExpired with
  | some e => refuse e w
  | none =>
    let gone : PasswordRow → Bool := fun p =>
      p.rcatPassword == a.lastPw && p.createTs == some a.goodPwTs && decide (Belongs w.working name zone p)
    let deleted : World := {w with working := deletePasswords w.working gone}
    if deleteStatus w.working gone ≠ 0 then refuse (deleteStatus w.working gone) deleted
    else match s.fault .commitExpired with
      | some e => refuse e deleted
      | none => refuse CAT_PASSWORD_EXPIRED {deleted with committed := deleted.working}

def decimal (v : Int) : Text := (toString v).toList

-- %011d: the sign comes before the zeros.
def padded (v : Int) : Text :=
  if v < 0 then '-'::(List.replicate (10-(toString v.natAbs).length) '0' ++ (toString v.natAbs).toList)
  else List.replicate (11-(toString v.natAbs).length) '0' ++ (toString v.natAbs).toList

def staleRow (s : Setting) (p : PasswordRow) : Bool :=
  p.passExpiryTs == decimal s.defaultLifetime &&
    (p.createTs.map (fun ts => s.textLess ts (padded (int32 (s.temporaryNow-s.defaultLifetime))))).getD false

def temporaryExpired (s : Setting) (a : Accepted) : Bool :=
  decide (atoll a.goodPwTs = 0) || decide (s.temporaryNow = 0) ||
    decide (int64 (atoll a.goodPwTs+atoll a.goodPwExpiry) < s.temporaryNow)

/- The one-time password is removed by its text before its age is looked at. -/
def removeTemporary (s : Setting) (w : World) (a : Accepted) : Except Reply World :=
  match s.fault .defaultLifetime with
  | some e => .error (refuse e w)
  | none =>
    match s.fault .deleteTemporary with
    | some e => .error (refuse e (rollback s w))
    | none =>
      let used : PasswordRow → Bool := fun p => p.rcatPassword == a.goodPw
      let removed : World := {w with working := deletePasswords w.working used}
      if deleteStatus w.working used ≠ 0 then .error (refuse (deleteStatus w.working used) (rollback s removed))
      else match s.fault .deleteStale with
        | some e => .error (refuse e (rollback s removed))
        | none =>
          -- That no stale row is found is no failure here.
          let swept : World := {removed with working := deletePasswords removed.working (staleRow s)}
          if temporaryExpired s a then .error (refuse CAT_PASSWORD_EXPIRED swept)
          else match s.fault .commitTemporary with
            | some e => .error (refuse e swept)
            | none => .ok {swept with committed := swept.working}

def userTypeOf (s : Setting) (statement : Statement) (cat : Catalog) (name zone : Text) : Except Int Text :=
  match s.fault statement with
  | some e => .error e
  | none =>
    match selectUserType cat name zone with
    | none => .error CAT_NO_ROWS_FOUND
    | some userType => .ok userType

def checkLevel (s : Setting) (w : World) (name zone userZone : Text) : Reply :=
  match userTypeOf s .userType w.working name zone with
  | .error e => if e = CAT_NO_ROWS_FOUND then refuse CAT_INVALID_AUTHENTICATION w else refuse e (rollback s w)
  | .ok userType =>
    if userType ≠ lit "rodsadmin" then ⟨0,.localUserAuth,.noUserAuth,w⟩
    else if s.clientName = name ∧ s.clientZone = userZone then ⟨0,.localPrivUserAuth,.localPrivUserAuth,w⟩
    else if s.clientName = [] then ⟨0,.localPrivUserAuth,.remoteUserAuth,w⟩
    else match userTypeOf s .clientType w.working s.clientName s.clientZone with
      | .error e =>
        if e = CAT_NO_ROWS_FOUND then ⟨CAT_INVALID_CLIENT_USER,.localPrivUserAuth,.noUserAuth,w⟩
        else ⟨e,.localPrivUserAuth,.noUserAuth,rollback s w⟩
      | .ok clientType =>
        ⟨0,.localPrivUserAuth,if clientType = lit "rodsadmin" then .localPrivUserAuth else .localUserAuth,w⟩

def conclude (s : Setting) (w : World) (a : Accepted) (name zone userZone : Text) : Reply :=
  match s.fault .authConfig with
  | some e => refuse e w
  | none =>
    -- The configuration is read over a connection of its own.
    if pamKind (getAuthConfig w.committed (lit "authentication")) a.goodPwExpiry && pamExpired s a then
      removeExpired s w a name zone
    else match s.fault .maximumLifetime with
      | some e => refuse e w
      | none =>
        if temporaryKind s a.lastPw a.goodPwExpiry then
          match removeTemporary s w a with
          | .error reply => reply
          | .ok cleaned => checkLevel s cleaned name zone userZone
        else checkLevel s w name zone userZone

-- No rows is no password: only the anonymous user goes on.
def withoutPasswords (s : Setting) (w : World) (name zone userZone : Text) (status : Int) : Reply :=
  if status = CAT_NO_ROWS_FOUND then
    if strncmpZero NAME_LEN ANONYMOUS_USER name then checkLevel s w name zone userZone
    else refuse CAT_INVALID_AUTHENTICATION w
  else refuse status w

def answers (hash : Hash) (kind : HashType) (challenge : Text) (response : Digest) (pw : Text) : Bool :=
  decide (∀ i, response i = answer hash kind challenge pw i)

def withPasswords (s : Setting) (accepts : Text → Bool) (w : World) (t : Table) (name zone userZone : Text) : Reply :=
  let loaded : World := {w with maxPasswords := t.maxPasswords}
  match tryPasswords s.decode accepts (min (t.maxPasswords : Int) t.nPasswords).toNat t.slots with
  | none => refuse CAT_INVALID_AUTHENTICATION loaded
  | some a => conclude s loaded a name zone userZone

def dbCheckAuthOp (s : Setting) (hash : Hash) (w : World) (challenge : Text) (response : Digest) (userName : Text) :
    Reply :=
  match validateName (splitFlag userName).2 with
  | none => refuse USER_INVALID_USERNAME_FORMAT w
  | some (name,userZone) =>
    match zoneOf s userZone with
    | .error e => refuse e w
    | .ok zone =>
      match loadPasswords s w name zone with
      | .error status => withoutPasswords s w name zone userZone status
      | .ok table => withPasswords s (answers hash (splitFlag userName).1 challenge response) w table name zone userZone

def denotes (s : Setting) (userName : Text) : Option (Text × Text) :=
  let plain := match strstr userName SHA1_FLAG_STRING with
    | some pos => userName.take pos
    | none => userName
  (validateName plain).bind (fun u => ((zoneOf s u.2).toOption).map (fun zone => (u.1,zone)))

structure Genuine (s : Setting) (hash : Hash) (before : World) (challenge : Text) (response : Digest) (userName : Text)
    (after : World) (name zone : Text) (row : PasswordRow) : Prop where
  stored : row ∈ before.working.passwords
  belongs : Belongs before.working name zone row
  answers : response = answer hash (splitFlag userName).1 challenge (icatDescramble s.decode row.rcatPassword)
  pamFresh : pamKind (getAuthConfig before.committed (lit "authentication")) row.passExpiryTs = true →
    s.pamNow ≤ atoll (row.modifyTs.getD [])+atoll row.passExpiryTs
  temporaryFresh : temporaryKind s row.rcatPassword row.passExpiryTs = true →
    s.temporaryNow ≤ atoll (row.createTs.getD [])+atoll row.passExpiryTs
  temporaryGone : temporaryKind s row.rcatPassword row.passExpiryTs = true → row ∉ after.committed.passwords

def Sound (s : Setting) (hash : Hash) (w : World) (challenge : Text) (response : Digest) (userName : Text) : Prop :=
  (dbCheckAuthOp s hash w challenge response userName).status = 0 →
    ∃ name zone, denotes s userName = some (name,zone) ∧ (name ≠ ANONYMOUS_USER →
      ∃ row, Genuine s hash w challenge response userName
        (dbCheckAuthOp s hash w challenge response userName).world name zone row)

end Irods.CheckAuth
