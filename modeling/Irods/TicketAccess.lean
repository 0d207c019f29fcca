import Irods.TicketCatalog

/-! checkObjIdByTicket of mid_level_routines.cpp, with its three process-wide
variables as session state. The search up the collection path can run forever,
so the loop has fuel and a call returns when some fuel is enough. Paths are
boost::filesystem's; only parent_path and the comparison are used. -/
namespace Irods.TicketAccess
open CText StringOpr TicketCatalog

def CAT_TICKET_INVALID : Int := -890000
def CAT_TICKET_EXPIRED : Int := -891000
def CAT_TICKET_USES_EXCEEDED : Int := -892000
def CAT_TICKET_USER_EXCLUDED : Int := -893000
def CAT_TICKET_HOST_EXCLUDED : Int := -894000
def CAT_TICKET_GROUP_EXCLUDED : Int := -895000
def CAT_TICKET_WRITE_USES_EXCEEDED : Int := -896000
def CAT_TICKET_WRITE_BYTES_EXCEEDED : Int := -897000

structure PathOps where
  parentPath : Text → Text
  samePath : Text → Text → Bool

structure Call where
  -- What the uninitialised local holds on entry.
  status : Int
  dataId : Int64
  accessLevel : Text
  ticketStr : Text
  ticketHost : Text
  userName : Text
  userZone : Text
  now : Int64
  deriving DecidableEq, Repr

structure Session where
  previousDataId1 : Int64
  previousDataId2 : Int64
  prevTicketId : Option Int64
  deriving DecidableEq, Repr

def freshSession : Session := ⟨0,0,none⟩

structure World where
  catalog : Catalog
  session : Session

def isModify (accessLevel : Text) : Bool := strncmpZero 6 accessLevel (text "modify")
def zonePath (userZone : Text) : Text := '/'::userZone

/- The NAME_LEN buffers the row is fetched into; an empty buffer has no id, and as a number reads as 0. -/
structure Buffers where
  ticketId : Option Int64
  usesLimit : Int64
  usesCount : Int64
  ticketExpiry : Text
  writeFileCount : Int64
  writeFileLimit : Int64
  writeByteCount : Int64
  writeByteLimit : Int64
  deriving DecidableEq, Repr

def emptyBuffers : Buffers := ⟨none,0,0,[],0,0,0,0⟩

def fetched (modify : Bool) (t : TicketRow) : Buffers :=
  if modify then
    ⟨some t.ticketId,t.usesLimit,t.usesCount,boundedCopy NAME_LEN t.ticketExpiryTs,
      t.writeFileCount,t.writeFileLimit,t.writeByteCount,t.writeByteLimit⟩
  else ⟨some t.ticketId,t.usesLimit,t.usesCount,boundedCopy NAME_LEN t.ticketExpiryTs,0,0,0,0⟩

/- while (coll_path != zone_path): status keeps its old value when the body never runs. -/
def search (fs : PathOps) (cat : Catalog) (modify : Bool) (ticketStr : Text) (dataId : Int64) (zone : Text) :
    Nat → Text → Int → Option (Int × Buffers)
  | 0,_,_ => none
  | fuel+1,path,status =>
    if fs.samePath path zone then some (status,emptyBuffers)
    else match selectTicket cat modify ticketStr dataId path with
      | .ok t => some (0,fetched modify t)
      | .error e => search fs cat modify ticketStr dataId zone fuel (fs.parentPath path) e

def expired (ticketExpiry : Text) (now : Int64) : Bool :=
  if ticketExpiry = [] then false
  else if 0 < atoll ticketExpiry then decide (atoll ticketExpiry < now.toInt) else false

def listAllows {α} (rows : List α) (allows : α → Bool) : Bool := rows.isEmpty || rows.any allows

def userMatches (userName userZone row : Text) : Bool :=
  strncmpZero NAME_LEN userName row || strncmpZero NAME_LEN (userName ++ '#'::userZone) row

def restrictionsOf (cat : Catalog) (ticketId : Int64) (host user zone : Text) : Int :=
  if ¬listAllows (selectHosts cat ticketId) (fun row => strncmpZero NAME_LEN host row.host) then
    CAT_TICKET_HOST_EXCLUDED
  else if ¬listAllows (selectNames cat.allowedUsers ticketId) (userMatches user zone) then CAT_TICKET_USER_EXCLUDED
  else if ¬listAllows (selectNames cat.allowedGroups ticketId)
    (fun row => cmlCheckUserInGroup cat user zone row == 0) then
    CAT_TICKET_GROUP_EXCLUDED
  else 0

-- The first query already fails for an empty id.
def cmlCheckTicketRestrictions (cat : Catalog) (ticketId : Option Int64) (host user zone : Text) : Int :=
  match ticketId with
  | none => CAT_SQL_ERR
  | some id => restrictionsOf cat id host user zone

/- The two counted limits share one block: limit and count are read by atoi and strtol into
an int, the object id that was counted last is not counted again. The result is the count to
store, if any, and the id to remember. -/
def charge (exceeded : Int) (limit count : Int64) (previous dataId : Int64) : Except Int (Option Int32 × Int64) :=
  if 0 < limit.toInt32 then
    if previous ≠ dataId then
      if count.toInt32 ≥ limit.toInt32 then .error exceeded
      else .ok (some (count.toInt32+1),dataId)
    else .ok (none,dataId)
  else .ok (none,previous)

def storeCount (cat : Catalog) (store : Catalog → Int64 → Catalog) : Option Int32 → Catalog
  | none => cat
  | some n => store cat n.toInt64

def bytesExceeded (b : Buffers) : Bool :=
  decide (0 < b.writeByteLimit.toInt32) && decide (b.writeByteCount.toInt32 > b.writeByteLimit.toInt32)

def chargeWrite (w : World) (b : Buffers) (dataId : Int64) : Except Int World :=
  if bytesExceeded b then .error CAT_TICKET_WRITE_BYTES_EXCEEDED
  else match charge CAT_TICKET_WRITE_USES_EXCEEDED b.writeFileLimit b.writeFileCount w.session.previousDataId1
    dataId with
    | .error e => .error e
    | .ok (count,previous) =>
      .ok ⟨storeCount w.catalog (fun cat n => setWriteFileCount cat b.ticketId n) count,
        { w.session with previousDataId1 := previous }⟩

def chargeUses (w : World) (b : Buffers) (dataId : Int64) : Except Int World :=
  match charge CAT_TICKET_USES_EXCEEDED b.usesLimit b.usesCount w.session.previousDataId2 dataId with
  | .error e => .error e
  | .ok (count,previous) =>
    .ok ⟨storeCount w.catalog (fun cat n => setUsesCount cat b.ticketId n) count,
      { w.session with previousDataId2 := previous }⟩

/- The part after the lookup. A write that was counted stays counted when the uses limit then refuses. -/
def applyTicket (w : World) (c : Call) (b : Buffers) : Int × World :=
  let w := { w with session := { w.session with prevTicketId := b.ticketId } }
  if expired b.ticketExpiry c.now then (CAT_TICKET_EXPIRED,w) else
  let status := cmlCheckTicketRestrictions w.catalog b.ticketId c.ticketHost c.userName c.userZone
  if status ≠ 0 then (status,w) else
  match (if isModify c.accessLevel then chargeWrite w b c.dataId else .ok w) with
  | .error e => (e,w)
  | .ok w =>
    match chargeUses w b c.dataId with
    | .error e => (e,w)
    | .ok w => (0,w)

def checkObjIdByTicket (fs : PathOps) (fuel : Nat) (w : World) (c : Call) : Option (Int × World) :=
  match selectCollName w.catalog c.dataId with
  | none => some (CAT_NO_ROWS_FOUND,w)
  | some name =>
    match search fs w.catalog (isModify c.accessLevel) c.ticketStr c.dataId (zonePath c.userZone) fuel
        (rstrcpy name MAX_NAME_LEN).1 c.status with
    | none => none
    | some (status,b) => if status ≠ 0 then some (CAT_TICKET_INVALID,w) else some (applyTicket w c b)

def Returns (fs : PathOps) (w : World) (c : Call) (status : Int) (w' : World) : Prop :=
  ∃ fuel, checkObjIdByTicket fs fuel w c = some (status,w')

end Irods.TicketAccess
