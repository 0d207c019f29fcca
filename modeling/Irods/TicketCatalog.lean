import Irods.StringOpr

/-! The catalog rows behind a ticket check and the queries over them. A table is
the list of its rows in the order the database returns them; a query is a filter
of that list. cllExecSqlWithResultBV binds no empty text, so that a query with one fails. -/
namespace Irods.TicketCatalog
open CText StringOpr List

def CAT_SQL_ERR : Int := -806000
def CAT_NO_ROWS_FOUND : Int := -808000
def CAT_INVALID_USER : Int := -827000

structure CollRow where
  collId : Int64
  collName : Text
  deriving DecidableEq, Repr

structure DataRow where
  dataId : Int64
  collId : Int64
  deriving DecidableEq, Repr

structure UserRow where
  userId : Int64
  userName : Text
  zoneName : Text
  userTypeName : Text
  deriving DecidableEq, Repr

structure UserGroupRow where
  groupUserId : Int64
  userId : Int64
  deriving DecidableEq, Repr

/- ticket_expiry_ts and host are varchar(32). -/
structure TicketRow where
  ticketId : Int64
  ticketString : Text
  ticketType : Text
  objectId : Int64
  usesLimit : Int64
  usesCount : Int64
  writeFileLimit : Int64
  writeFileCount : Int64
  writeByteLimit : Int64
  writeByteCount : Int64
  ticketExpiryTs : Text
  expiryWidth : ticketExpiryTs.length ≤ 32
  deriving DecidableEq, Repr

structure AllowedHost where
  ticketId : Int64
  host : Text
  hostWidth : host.length ≤ 32
  deriving DecidableEq, Repr

structure AllowedName where
  ticketId : Int64
  name : Text
  deriving DecidableEq, Repr

/- Ticket ids are drawn from the object id sequence, so that no two rows share one;
ticket_string has a unique index. -/
structure Catalog where
  colls : List CollRow
  dataObjs : List DataRow
  users : List UserRow
  userGroups : List UserGroupRow
  tickets : List TicketRow
  allowedHosts : List AllowedHost
  allowedUsers : List AllowedName
  allowedGroups : List AllowedName
  ticketIds : (tickets.map TicketRow.ticketId).Nodup
  ticketStrings : (tickets.map TicketRow.ticketString).Nodup

def Holds (cat : Catalog) (dataId : Int64) (c : CollRow) : Prop :=
  c.collId = dataId ∨ ∃ row ∈ cat.dataObjs, row.dataId = dataId ∧ row.collId = c.collId

instance (cat d c) : Decidable (Holds cat d c) := by unfold Holds; infer_instance

def selectCollName (cat : Catalog) (dataId : Int64) : Option Text :=
  (cat.colls.find? (fun c => Holds cat dataId c)).map CollRow.collName

-- object_id = ? or object_id in (select coll_id from R_COLL_MAIN where coll_name = ?)
def OnObject (cat : Catalog) (dataId : Int64) (path : Text) (t : TicketRow) : Prop :=
  t.objectId = dataId ∨ ∃ c ∈ cat.colls, c.collName = path ∧ c.collId = t.objectId

instance (cat d p t) : Decidable (OnObject cat d p t) := by unfold OnObject; infer_instance

def Selected (cat : Catalog) (write : Bool) (ticketStr : Text) (dataId : Int64) (path : Text) (t : TicketRow) : Prop :=
  (write = true → t.ticketType = text "write") ∧ t.ticketString = ticketStr ∧ OnObject cat dataId path t

instance (cat w s d p t) : Decidable (Selected cat w s d p t) := by unfold Selected; infer_instance

def selectTicket (cat : Catalog) (write : Bool) (ticketStr : Text) (dataId : Int64) (path : Text) :
    Except Int TicketRow :=
  if ticketStr = [] ∨ path = [] then .error CAT_SQL_ERR
  else match cat.tickets.find? (fun t => Selected cat write ticketStr dataId path t) with
    | some t => .ok t
    | none => .error CAT_NO_ROWS_FOUND

theorem selectTicketSource {cat write s d path t} (found : selectTicket cat write s d path = .ok t) :
    t ∈ cat.tickets ∧ Selected cat write s d path t := by
  unfold selectTicket at found
  split at found <;> try contradiction
  split at found <;> try contradiction
  rename_i row
  cases Except.ok.inj found
  exact ⟨mem_of_find?_eq_some row,by simpa using find?_some row⟩

theorem selectTicketFinds {cat write s d path} : (∃ t, selectTicket cat write s d path = .ok t) ↔
    s ≠ [] ∧ path ≠ [] ∧ ∃ t ∈ cat.tickets, Selected cat write s d path t := by
  constructor
  · rintro ⟨t,found⟩
    have source := selectTicketSource found
    unfold selectTicket at found
    split at found
    · contradiction
    · rename_i bound
      exact ⟨fun empty => bound (.inl empty),fun empty => bound (.inr empty),t,source⟩
  · rintro ⟨string,path,t,mem,chosen⟩
    unfold selectTicket
    rw [if_neg (by tauto)]
    split
    · rename_i row _
      exact ⟨row,rfl⟩
    · rename_i none
      exact absurd chosen (by simpa using find?_eq_none.mp none t mem)

def selectHosts (cat : Catalog) (ticketId : Int64) : List AllowedHost :=
  cat.allowedHosts.filter (fun row => row.ticketId = ticketId)

def selectNames (rows : List AllowedName) (ticketId : Int64) : List Text :=
  (rows.filter (fun row => row.ticketId = ticketId)).map AllowedName.name

def GROUP : Text := text "rodsgroup"

def selectUserIds (cat : Catalog) (userName userZone : Text) : List Int64 :=
  (cat.users.filter (fun u => u.userName = userName ∧ u.zoneName = userZone ∧ u.userTypeName ≠ GROUP)).map
    UserRow.userId

def selectGroupIds (cat : Catalog) (groupName : Text) : List Int64 :=
  (cat.users.filter (fun u => u.userTypeName = GROUP ∧ u.userName = groupName)).map UserRow.userId

/- The group id is a scalar subquery: more than one row in it is an SQL error, none is NULL. -/
def cmlCheckUserInGroup (cat : Catalog) (userName userZone groupName : Text) : Int :=
  if userName = [] ∨ userZone = [] then CAT_SQL_ERR
  else match selectUserIds cat userName userZone with
  | [] => CAT_INVALID_USER
  | userId::_ =>
    if groupName = [] then CAT_SQL_ERR
    else match selectGroupIds cat groupName with
    | [] => CAT_NO_ROWS_FOUND
    | [groupId] =>
      if ∃ row ∈ cat.userGroups, row.userId = userId ∧ row.groupUserId = groupId then 0 else CAT_NO_ROWS_FOUND
    | _ => CAT_SQL_ERR

def Member (cat : Catalog) (userName userZone groupName : Text) : Prop :=
  ∃ u ∈ cat.users, u.userName = userName ∧ u.zoneName = userZone ∧ u.userTypeName ≠ GROUP ∧
  ∃ g ∈ cat.users, g.userTypeName = GROUP ∧ g.userName = groupName ∧
  ∃ row ∈ cat.userGroups, row.userId = u.userId ∧ row.groupUserId = g.userId

theorem selectUserIdsSource {cat user zone i} (found : i ∈ selectUserIds cat user zone) :
    ∃ u ∈ cat.users, u.userName = user ∧ u.zoneName = zone ∧ u.userTypeName ≠ GROUP ∧ u.userId = i := by
  obtain ⟨u,kept,same⟩ := mem_map.mp found
  obtain ⟨mem,name,zone,kind⟩ : u ∈ cat.users ∧ _ ∧ _ ∧ _ := by simpa using kept
  exact ⟨u,mem,name,zone,kind,same⟩

theorem selectGroupIdsSource {cat group i} (found : i ∈ selectGroupIds cat group) :
    ∃ g ∈ cat.users, g.userTypeName = GROUP ∧ g.userName = group ∧ g.userId = i := by
  obtain ⟨g,kept,same⟩ := mem_map.mp found
  obtain ⟨mem,kind,name⟩ : g ∈ cat.users ∧ _ ∧ _ := by simpa using kept
  exact ⟨g,mem,kind,name,same⟩

theorem inGroupMember {cat user zone group} (ok : cmlCheckUserInGroup cat user zone group = 0) :
    Member cat user zone group := by
  unfold cmlCheckUserInGroup at ok
  split at ok
  · simp [CAT_SQL_ERR] at ok
  split at ok
  · simp [CAT_INVALID_USER] at ok
  rename_i users
  obtain ⟨u,hu,name,zone,kind,rfl⟩ := selectUserIdsSource (by rw [users]; exact mem_cons_self)
  split at ok
  · simp [CAT_SQL_ERR] at ok
  split at ok
  · simp [CAT_NO_ROWS_FOUND] at ok
  · rename_i groups
    obtain ⟨g,hg,group,named,rfl⟩ := selectGroupIdsSource (by rw [groups]; exact mem_cons_self)
    split at ok
    · rename_i row
      exact ⟨u,hu,name,zone,kind,g,hg,group,named,row⟩
    · simp [CAT_NO_ROWS_FOUND] at ok
  · simp [CAT_SQL_ERR] at ok

/- One row's column replaced: update R_TICKET_MAIN set ... where ticket_id = ?. -/
def updateTicket (cat : Catalog) (ticketId : Option Int64) (set : TicketRow → TicketRow)
    (keepsId : ∀ t, (set t).ticketId = t.ticketId) (keepsString : ∀ t, (set t).ticketString = t.ticketString) :
    Catalog :=
  { cat with
    tickets := cat.tickets.map (fun t => if some t.ticketId = ticketId then set t else t)
    ticketIds := by
      have same : TicketRow.ticketId ∘ (fun t => if some t.ticketId = ticketId then set t else t)
          = TicketRow.ticketId := by
        funext t; simp only [Function.comp]; split <;> simp [keepsId]
      rw [List.map_map,same]; exact cat.ticketIds
    ticketStrings := by
      have same : TicketRow.ticketString ∘ (fun t => if some t.ticketId = ticketId then set t else t)
          = TicketRow.ticketString := by
        funext t; simp only [Function.comp]; split <;> simp [keepsString]
      rw [List.map_map,same]; exact cat.ticketStrings }

def setWriteFileCount (cat : Catalog) (ticketId : Option Int64) (count : Int64) : Catalog :=
  updateTicket cat ticketId (fun t => { t with writeFileCount := count }) (fun _ => rfl) (fun _ => rfl)

def setUsesCount (cat : Catalog) (ticketId : Option Int64) (count : Int64) : Catalog :=
  updateTicket cat ticketId (fun t => { t with usesCount := count }) (fun _ => rfl) (fun _ => rfl)

end Irods.TicketCatalog
