import Irods.JsonValue

/-! The tables the permission check of the atomic metadata and ACL requests reads, the access types
of catalog_utilities.hpp and the check itself. A table is the list
of its rows. -/
namespace Irods.AtomicCatalog
open CText JsonValue

def CAT_NO_ACCESS_PERMISSION : Int := -818000
def CAT_INSUFFICIENT_PRIVILEGE_LEVEL : Int := -830000
def LOCAL_PRIV_USER_AUTH : Int := 5

structure UserRow where
  userId : Int
  userName : Text
  zoneName : Text
  deriving DecidableEq, Repr

structure UserGroupRow where
  groupUserId : Int
  userId : Int
  deriving DecidableEq, Repr

structure AccessRow where
  objectId : Int
  userId : Int
  accessTypeId : Int
  deriving DecidableEq, Repr

structure Catalog where
  users : List UserRow
  groups : List UserGroupRow
  access : List AccessRow
  deriving DecidableEq, Repr

inductive EntityType where
  | dataObject
  | collection
  | user
  | resource
  | zone
  deriving DecidableEq, Repr

inductive AccessType where
  | null
  | execute
  | annotationRead
  | readSystemMetadata
  | readMetadata
  | readObject
  | annotationWrite
  | createMetadata
  | modifyMetadata
  | deleteMetadata
  | administerObject
  | createObject
  | modifyObject
  | deleteObject
  | createToken
  | deleteToken
  | curate
  | own
  deriving DecidableEq, Repr

def AccessType.id : AccessType → Int
  | .null => 1000
  | .execute => 1010
  | .annotationRead => 1020
  | .readSystemMetadata => 1030
  | .readMetadata => 1040
  | .readObject => 1050
  | .annotationWrite => 1060
  | .createMetadata => 1070
  | .modifyMetadata => 1080
  | .deleteMetadata => 1090
  | .administerObject => 1100
  | .createObject => 1110
  | .modifyObject => 1120
  | .deleteObject => 1130
  | .createToken => 1140
  | .deleteToken => 1150
  | .curate => 1160
  | .own => 1200

structure Client where
  userName : Text
  rodsZone : Text
  authFlag : Int
  deriving DecidableEq, Repr

def isPrivilegedClient (comm : Client) : Bool := comm.authFlag == LOCAL_PRIV_USER_AUTH

/- select distinct access_type_id from R_USER_GROUP ug
inner join R_USER_MAIN u on ug.user_id = u.user_id
inner join R_OBJT_ACCESS a on ug.group_user_id = a.user_id
where u.user_name = ? and a.object_id = ? and the type is accepted. -/
def selectAccess (cat : Catalog) (userName : Text) (objectId : Int) (accepts : Int → Bool) : List Int :=
  (cat.groups.flatMap fun ug =>
    (cat.users.filter fun u => ug.userId = u.userId && u.userName = userName).flatMap fun _ =>
      (cat.access.filter fun a => ug.groupUserId = a.userId && a.objectId = objectId && accepts a.accessTypeId).map
        (·.accessTypeId)).dedup

-- A statement of the database that fails throws; otherwise row.next() tells of a row.
def nextRow (fault : Bool) (rows : List Int) : Except Exn Bool :=
  if fault then .error .databaseError else .ok !rows.isEmpty

def userHasPermissionToModifyEntity (comm : Client) (cat : Catalog) (fault : Bool) (objectId : Int) :
    EntityType → Except Exn Bool
  | .dataObject | .collection =>
    nextRow fault (selectAccess cat comm.userName objectId fun t => AccessType.modifyObject.id ≤ t)
  | .user | .resource => .ok (isPrivilegedClient comm)
  | .zone => .ok false

def userHasPermissionToModifyAcls (comm : Client) (cat : Catalog) (fault : Bool) (objectId : Int) : Except Exn Bool :=
  nextRow fault (selectAccess cat comm.userName objectId fun t => t = AccessType.own.id)

inductive Api where
  | acl
  | metadata (entity : EntityType)
  deriving DecidableEq, Repr

def userHasPermission (api : Api) (comm : Client) (cat : Catalog) (fault : Bool) (objectId : Int) : Except Exn Bool :=
  match api with
  | .acl => userHasPermissionToModifyAcls comm cat fault objectId
  | .metadata entity => userHasPermissionToModifyEntity comm cat fault objectId entity

inductive Checked where
  | passed
  | returned (code : Int)
  | escaped (e : Exn)
  deriving DecidableEq, Repr

def adminMode (input : Json) : Except Exn Bool :=
  match find input (lit "admin_mode") with
  | none => .ok false
  | some value => getBool value

/- The check between the connection to the database and the transaction. It is in no try block. -/
def permissionCheck (api : Api) (comm : Client) (cat : Catalog) (fault : Bool) (input : Json) (objectId : Int) :
    Checked :=
  match adminMode input with
  | .error e => .escaped e
  | .ok true => if isPrivilegedClient comm then .passed else .returned CAT_INSUFFICIENT_PRIVILEGE_LEVEL
  | .ok false => match userHasPermission api comm cat fault objectId with
    | .error e => .escaped e
    | .ok true => .passed
    | .ok false => .returned CAT_NO_ACCESS_PERMISSION

end Irods.AtomicCatalog
