import Irods.CText

/-! checkCondInputAccess of general_query.cpp: the permission check of a row, with the last check in
static variables. The catalog is unchanged and there is no session ticket, so the checks by
data id and by collection id are functions. A first call without conditions is not checked, so its
continuations may be, in any order: a history is any list of checks. -/
namespace Irods.AccessCache
open CText List Prod

def LONG_NAME_LEN : Nat := 256
def CAT_INVALID_ARGUMENT : Int := -816000
def CAT_NO_ACCESS_PERMISSION : Int := -818000

structure Catalog where
  cmlCheckDataObjId : Text → Text → Text → Text → Int
  cmlCheckDirId : Text → Text → Text → Text → Int
  localZone : Text

structure Check where
  continueFlag : Bool
  condInput : List (Text × Text)
  row : List (Text × Text)

structure Prev where
  dataId : Text
  user : Text
  access : Text
  status : Int
  deriving DecidableEq

def initial : Prev := ⟨[],[],[],0⟩

-- The loops go on behind a match, so the last one counts.
def lastOf (names : List Text) (pairs : List (Text × Text)) : Option Text :=
  ((pairs.filter (·.1 ∈ names)).getLast?).map Prod.snd

def Check.given (c : Check) (key : Text) : Bool := c.condInput.any (·.1 = key)
def Check.admin (c : Check) : Bool := c.given (lit "irodsAdmin")
def Check.user (c : Check) : Option Text := lastOf [lit "userNameClient"] c.condInput
def Check.zone (c : Check) : Option Text := lastOf [lit "rodsZoneClient"] c.condInput
def Check.access (c : Check) : Option Text := lastOf [lit "accessPermission"] c.condInput
def Check.dataId (c : Check) : Option Text := lastOf [lit "data_id",lit "DATA_ID"] c.row
def Check.collId (c : Check) : Option Text := lastOf [lit "coll_id",lit "COLL_ID"] c.row
def zoneName (cat : Catalog) (zone : Text) : Text := if zone.isEmpty then cat.localZone else zone

def checkCondInputAccess (cat : Catalog) (prev : Prev) (c : Check) : Int × Prev :=
  if c.admin then (0,prev)
  else if c.condInput.map Prod.fst = [lit "zone"] then (0,prev)
  else match c.user,c.zone,c.access with
    | some user,some zone,some access =>
      match c.dataId,c.collId with
      | none,none => (CAT_INVALID_ARGUMENT,prev)
      | some dataId,_ =>
        if c.continueFlag ∧ dataId = prev.dataId ∧ user = prev.user ∧ access = prev.access then (prev.status,prev)
        else
          let status := cat.cmlCheckDataObjId dataId user (zoneName cat zone) access
          (status,⟨boundedCopy LONG_NAME_LEN dataId,boundedCopy LONG_NAME_LEN user,boundedCopy LONG_NAME_LEN access,
            status⟩)
      | none,some collId =>
        let status := cat.cmlCheckDirId collId user (zoneName cat zone) access
        (status,{ prev with status := status })
    | _,_,_ => (if c.given (lit "disable_strict_acls") then 0 else CAT_INVALID_ARGUMENT,prev)

def after (cat : Catalog) (history : List Check) : Prev :=
  history.foldl (fun prev c => (checkCondInputAccess cat prev c).2) initial

-- What the check of a row with a data id should return.
def own (cat : Catalog) (c : Check) : Option Int := do
  some (cat.cmlCheckDataObjId (← c.dataId) (← c.user) (zoneName cat (← c.zone)) (← c.access))

def Exact (cat : Catalog) (calls : Check → Prop) : Prop := ∀ history, (∀ c ∈ history, calls c) →
  ∀ c status, calls c → own cat c = some status → (checkCondInputAccess cat (after cat history) c).1 = status

-- The status of a row that is checked by its collection.
def dirStatus (cat : Catalog) (c : Check) : Option Int :=
  if c.admin ∨ c.dataId.isSome then none
  else do some (cat.cmlCheckDirId (← c.collId) (← c.user) (zoneName cat (← c.zone)) (← c.access))

def Check.stored (c : Check) (status : Int) : Prev :=
  ⟨boundedCopy LONG_NAME_LEN (c.dataId.getD []),boundedCopy LONG_NAME_LEN (c.user.getD []),
    boundedCopy LONG_NAME_LEN (c.access.getD []),status⟩

def Matches (prev : Prev) (c : Check) : Prop :=
  c.dataId = some prev.dataId ∧ c.user = some prev.user ∧ c.access = some prev.access

instance (prev c) : Decidable (Matches prev c) := by unfold Matches; infer_instance

section Spec
variable {cat : Catalog} {prev : Prev} {c : Check} {status : Int}

theorem checkAdmin (admin : c.admin = true) : checkCondInputAccess cat prev c = (0,prev) := if_pos admin

theorem ownParts (asked : own cat c = some status) : ∃ dataId user zone access, c.dataId = some dataId ∧
    c.user = some user ∧
    c.zone = some zone ∧ c.access = some access ∧
    cat.cmlCheckDataObjId dataId user (zoneName cat zone) access = status := by
  simpa [own,Option.bind_eq_some_iff] using asked

theorem dirParts (asked : dirStatus cat c = some status) : c.admin = false ∧ c.dataId = none ∧
    ∃ collId user zone access,
    c.collId = some collId ∧ c.user = some user ∧ c.zone = some zone ∧ c.access = some access ∧
    cat.cmlCheckDirId collId user (zoneName cat zone) access = status := by
  simpa [dirStatus,Option.bind_eq_some_iff,and_assoc] using asked

theorem zoneAlone (alone : c.condInput.map fst = [lit "zone"]) : c.user = none := by
  obtain ⟨⟨_,_⟩,only,rfl⟩ := map_eq_singleton_iff.mp alone
  simp [Check.user,lastOf,only,show lit "zone" ≠ lit "userNameClient" by decide]

theorem userGiven {user} (given : c.user = some user) : c.condInput.map fst ≠ [lit "zone"] :=
  fun alone => nomatch given.symm.trans (zoneAlone alone)

theorem checkOwn (admin : c.admin = false) (asked : own cat c = some status) : checkCondInputAccess cat prev c =
    if c.continueFlag ∧ Matches prev c then (prev.status,prev) else (status,c.stored status) := by
  obtain ⟨_,_,_,_,data,who,place,level,answer⟩ := ownParts asked
  rw [checkCondInputAccess,if_neg (by simp [admin]),if_neg (userGiven who)]
  simp [Matches,Check.stored,data,who,place,level,answer]

theorem checkDir (asked : dirStatus cat c = some status) :
    (checkCondInputAccess cat prev c).2 = { prev with status := status } := by
  obtain ⟨admin,data,_,_,_,_,coll,who,place,level,answer⟩ := dirParts asked
  rw [checkCondInputAccess,if_neg (by simp [admin]),if_neg (userGiven who)]
  simp [data,coll,who,place,level,answer]

theorem checkOther (asked : own cat c = none) (unasked : dirStatus cat c = none) :
    (checkCondInputAccess cat prev c).2 = prev := by
  unfold checkCondInputAccess
  split
  · rfl
  split
  · rfl
  split
  · split
    · rfl
    · simp_all [own]
    · simp_all [dirStatus]
  · rfl

end Spec

section Cache
variable {cat : Catalog} {calls : Check → Prop}

-- What the static variables hold after a check by data id, or at the start.
def Held (cat : Catalog) (calls : Check → Prop) (p : Prev) : Prop :=
  p = initial ∨ ∃ a status, calls a ∧ a.admin = false ∧ own cat a = some status ∧ p = a.stored status

def Kept (cat : Catalog) (calls : Check → Prop) (prev : Prev) : Prop :=
  ∃ p, Held cat calls p ∧
    (prev = p ∨ ∃ d status, calls d ∧ dirStatus cat d = some status ∧ prev = { p with status := status })

theorem stepKept {prev c} (kept : Kept cat calls prev) (call : calls c) :
    Kept cat calls (checkCondInputAccess cat prev c).2 := by
  cases admin : c.admin with
  | true =>
    rw [checkAdmin admin]
    exact kept
  | false =>
    cases asked : own cat c with
    | some status =>
      rw [checkOwn admin asked]
      split
      · exact kept
      · exact ⟨_,.inr ⟨c,status,call,admin,asked,rfl⟩,.inl rfl⟩
    | none =>
      cases dir : dirStatus cat c with
      | none =>
        rw [checkOther asked dir]
        exact kept
      | some status =>
        rw [checkDir dir]
        obtain ⟨p,held,rfl | ⟨_,_,_,_,rfl⟩⟩ := kept
        · exact ⟨_,held,.inr ⟨c,status,call,dir,rfl⟩⟩
        · exact ⟨_,held,.inr ⟨c,status,call,dir,rfl⟩⟩

theorem runKept {prev} {history : List Check} (kept : Kept cat calls prev) (all : ∀ c ∈ history, calls c) :
    Kept cat calls (history.foldl (fun prev c => (checkCondInputAccess cat prev c).2) prev) := by
  induction history generalizing prev with
  | nil => exact kept
  | cons c _ ih =>
    obtain ⟨call,later⟩ := forall_mem_cons.mp all
    exact ih (stepKept kept call) later

theorem heldReached (exactly : Exact cat calls) {p} (held : Held cat calls p) : ∃ history, (∀ c ∈ history, calls c) ∧
    after cat history = p := by
  obtain rfl | ⟨a,status,call,admin,asked,rfl⟩ := held
  · exact ⟨[],nofun,rfl⟩
  have same := exactly [] nofun a status call asked
  refine ⟨[a],by simpa using call,?_⟩
  show (checkCondInputAccess cat initial a).2 = _
  change (checkCondInputAccess cat initial a).1 = status at same
  rw [checkOwn admin asked] at same ⊢
  split
  · rename_i hit
    rw [if_pos hit] at same
    obtain ⟨_,data,who,level⟩ := hit
    simp [Check.stored,data,who,level,← same,initial,boundedCopy]
  · rfl

theorem cacheExactly (cat : Catalog) (calls : Check → Prop) : Exact cat calls ↔
    ∀ c status, calls c → own cat c = some status →
      (c.admin = true → status = 0) ∧ (c.admin = false → c.continueFlag = true → ∀ p, Held cat calls p → Matches p c →
        p.status = status ∧ ∀ d other, calls d → dirStatus cat d = some other → other = status) := by
  constructor
  · intro exactly c status call asked
    refine ⟨fun admin => ?_,fun admin flag p held same => ?_⟩
    · have zero := exactly [] nofun c status call asked
      rw [checkAdmin admin] at zero
      exact zero.symm
    obtain ⟨history,all,rfl⟩ := heldReached exactly held
    refine ⟨?_,fun d other called dir => ?_⟩
    · have hit := exactly history all c status call asked
      rwa [checkOwn admin asked,if_pos ⟨flag,same⟩] at hit
    · have hit := exactly (history ++ [d]) (forall_mem_append.mpr ⟨all,by simpa using called⟩) c status call asked
      rw [after,foldl_concat,checkDir dir,checkOwn admin asked] at hit
      exact (congrArg fst (if_pos ⟨flag,same⟩)).symm.trans hit
  · intro safe history all c status call asked
    obtain ⟨admins,cached⟩ := safe c status call asked
    cases admin : c.admin with
    | true =>
      rw [checkAdmin admin]
      exact (admins admin).symm
    | false =>
      rw [checkOwn admin asked]
      split
      · rename_i hit
        obtain ⟨p,held,same⟩ : Kept cat calls (after cat history) := runKept ⟨_,.inl rfl,.inl rfl⟩ all
        obtain same | ⟨d,other,called,dir,same⟩ := same
        · rw [same] at hit ⊢
          exact (cached admin hit.1 p held hit.2).1
        · rw [same] at hit ⊢
          exact (cached admin hit.1 p held hit.2).2 d other called dir
      · rfl

end Cache

/- Two users of one name: only the one of tempZone may read the object. -/
def oneZone : Catalog :=
  ⟨fun _ _ zone _ => if zone = lit "tempZone" then 0 else CAT_NO_ACCESS_PERMISSION,fun _ _ _ _ => 0,lit "tempZone"⟩

def readBy (continueFlag : Bool) (zone : Text) : Check :=
  ⟨continueFlag,
    [(lit "userNameClient",lit "alice"),(lit "rodsZoneClient",zone),(lit "accessPermission",lit "read object")],
    [(lit "data_id",lit "10001")]⟩

-- The zone is not compared.
theorem otherZoneRead : ¬Exact oneZone fun _ => True := by
  intro exactly
  have read := exactly [readBy false (lit "tempZone")] (fun _ _ => trivial)
    (readBy true (lit "otherZone")) CAT_NO_ACCESS_PERMISSION
  revert read
  decide

end Irods.AccessCache
