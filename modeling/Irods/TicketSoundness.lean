import Irods.TicketAccess
import Irods.PathNames

/-! What a granted ticket check says about the catalog, and when its search ends. A search that starts at the zone
collection grants nothing; any other is sound when the copied name is still on the path and name#zone is compared
whole. -/
namespace Irods.TicketSoundness
open CText StringOpr TicketCatalog TicketAccess PathNames List Option Function AllowedName

def Ancestor (fs : PathOps) (name path : Text) : Prop := ∃ n, fs.parentPath^[n] name = path

def Live (t : TicketRow) (now : Int64) : Prop :=
  leadingInteger t.ticketExpiryTs ≤ 0 ∨ now.toInt ≤ leadingInteger t.ticketExpiryTs

def Allowed {α} (rows : List α) (ticketId : α → Int64) (id : Int64) (allows : α → Prop) : Prop :=
  (∀ row ∈ rows, ticketId row ≠ id) ∨ ∃ row ∈ rows, ticketId row = id ∧ allows row

structure Grants (fs : PathOps) (cat : Catalog) (c : Call) (t : TicketRow) : Prop where
  listed : t ∈ cat.tickets
  string : t.ticketString = c.ticketStr
  kind : isModify c.accessLevel = true → t.ticketType = text "write"
  object : t.objectId = c.dataId ∨ ∃ own ∈ cat.colls, Holds cat c.dataId own ∧
    ∃ above ∈ cat.colls, above.collId = t.objectId ∧ Ancestor fs own.collName above.collName
  live : Live t c.now
  host : Allowed cat.allowedHosts AllowedHost.ticketId t.ticketId (fun row => row.host = c.ticketHost)
  user : Allowed cat.allowedUsers AllowedName.ticketId t.ticketId
    (fun row => row.name = c.userName ∨ row.name = c.userName ++ '#'::c.userZone)
  group : Allowed cat.allowedGroups AllowedName.ticketId t.ticketId
    (fun row => Member cat c.userName c.userZone row.name)

variable {fs : PathOps} {cat : Catalog} {s zone path : Text}

theorem searchSource {modify d fuel status b} (found : search fs cat modify s d zone fuel path status = some (0,b)) :
    b = emptyBuffers ∨
      ∃ n t, selectTicket cat modify s d (fs.parentPath^[n] path) = .ok t ∧ b = fetched modify t := by
  induction fuel generalizing path status with
  | zero => simp [search] at found
  | succ _ ih =>
    simp only [search] at found
    split at found
    · cases some.inj found
      exact .inl rfl
    split at found
    · rename_i t selected
      cases some.inj found
      exact .inr ⟨0,t,selected,rfl⟩
    · refine (ih found).imp_right ?_
      rintro ⟨n,t,selected,same⟩
      exact ⟨n+1,t,by rwa [iterate_succ_apply],same⟩

variable {name : Text}

theorem ancestorTrans {n} (up : Ancestor fs name path) : Ancestor fs name (fs.parentPath^[n] path) := by
  obtain ⟨k,rfl⟩ := up
  exact ⟨n+k,iterate_add_apply ..⟩

theorem expiryKept (t : TicketRow) : boundedCopy NAME_LEN t.ticketExpiryTs = t.ticketExpiryTs :=
  boundedCopyFits (Nat.lt_of_le_of_lt t.expiryWidth (by decide))

theorem fetchedId (modify t) : (fetched modify t).ticketId = some t.ticketId := by
  unfold fetched; split <;> rfl

theorem fetchedExpiry (modify t) : (fetched modify t).ticketExpiry = t.ticketExpiryTs := by
  unfold fetched; split <;> exact expiryKept t

theorem notExpiredLive {t now} (ok : expired t.ticketExpiryTs now = false) : Live t now := by
  unfold expired at ok
  split at ok
  · rename_i empty
    exact .inl (by simp [empty,leadingInteger,digits])
  by_cases positive : 0 < leadingInteger t.ticketExpiryTs
  · have inside := now.toInt_lt
    rw [if_pos (atollPositive.mpr positive),decide_eq_false_iff_not,atollLess positive inside] at ok
    exact .inr (Int.not_lt.mp ok)
  · exact .inl (Int.not_lt.mp positive)

theorem listAllowsCases {α} {rows : List α} {allows} (ok : listAllows rows allows = true) :
    rows = [] ∨ ∃ row ∈ rows, allows row = true := by
  simpa [listAllows] using ok

theorem hostsAllowed {id host}
    (ok : listAllows (selectHosts cat id) (fun row => strncmpZero NAME_LEN host row.host) = true) :
    Allowed cat.allowedHosts AllowedHost.ticketId id fun row => row.host = host := by
  rcases listAllowsCases ok with none | ⟨row,kept,same⟩
  · exact .inl (by simpa [selectHosts] using none)
  obtain ⟨mem,mine⟩ : row ∈ cat.allowedHosts ∧ row.ticketId = id := by simpa [selectHosts] using kept
  have whole := (strncmpShort (Nat.lt_of_le_of_lt row.hostWidth (by decide))).mp same
  exact .inr ⟨row,mem,mine,whole.symm⟩

theorem namesAllowed {rows} {id allows} {spec : Text → Prop}
    (sound : ∀ name, allows name = true → spec name)
    (ok : listAllows (selectNames rows id) allows = true) :
    Allowed rows ticketId id fun row => spec row.name := by
  rcases listAllowsCases ok with none | ⟨name,kept,same⟩
  · exact .inl (by simpa [selectNames] using none)
  obtain ⟨row,⟨mem,mine⟩,rfl⟩ : ∃ row, (row ∈ rows ∧ row.ticketId = id) ∧ row.name = name := by
    simpa [selectNames] using kept
  exact .inr ⟨row,mem,mine,sound _ same⟩

theorem userMatchesWhole {user zone row} (short : (user ++ '#'::zone).length < NAME_LEN)
    (ok : userMatches user zone row = true) : row = user ∨ row = user ++ '#'::zone := by
  have shorter : user.length < NAME_LEN := by
    simp only [length_append] at short; omega
  rcases Bool.or_eq_true_iff.mp ok with bare | zoned
  · exact .inl ((strncmpShortLeft shorter).mp bare).symm
  · exact .inr ((strncmpShortLeft short).mp zoned).symm

variable {user : Text}

theorem restrictionsExact {id host} : cmlCheckTicketRestrictions cat (some id) host user zone = 0 ↔
    listAllows (selectHosts cat id) (fun row => strncmpZero NAME_LEN host row.host) = true ∧
    listAllows (selectNames cat.allowedUsers id) (userMatches user zone) = true ∧
    listAllows (selectNames cat.allowedGroups id) fun row => cmlCheckUserInGroup cat user zone row == 0 = true := by
  rw [cmlCheckTicketRestrictions,restrictionsOf]
  split_ifs <;> simp_all [CAT_TICKET_HOST_EXCLUDED,CAT_TICKET_USER_EXCLUDED,CAT_TICKET_GROUP_EXCLUDED]

variable {w : World} {c : Call}

theorem applyGranted {b} (ok : (applyTicket w c b).1 = 0) :
    expired b.ticketExpiry c.now = false ∧
    cmlCheckTicketRestrictions w.catalog b.ticketId c.ticketHost c.userName c.userZone = 0 := by
  unfold applyTicket at ok
  dsimp only at ok
  split at ok
  · simp [CAT_TICKET_EXPIRED] at ok
  rename_i live
  split at ok
  · contradiction
  · rename_i free
    exact ⟨Bool.not_eq_true _ ▸ live,not_not.mp free⟩

abbrev copied (name : Text) : Text := (rstrcpy name MAX_NAME_LEN).1

theorem returnsSource {w'} (named : selectCollName w.catalog c.dataId = some name)
    (ok : Returns fs w c 0 w') :
    ∃ fuel b, search fs w.catalog (isModify c.accessLevel) c.ticketStr c.dataId (zonePath c.userZone) fuel
      (copied name) c.status = some (0,b) ∧ applyTicket w c b = (0,w') := by
  obtain ⟨fuel,run⟩ := ok
  unfold checkObjIdByTicket at run
  rw [named] at run
  dsimp only at run
  split at run <;> try contradiction
  rename_i b found
  split at run
  · simp [CAT_TICKET_INVALID] at run
  rename_i zero
  rw [not_not.mp zero] at found
  exact ⟨fuel,b,found,some.inj run⟩

def Whole (fs : PathOps) (name zone user : Text) : Prop :=
  Ancestor fs name (rstrcpy name MAX_NAME_LEN).1 ∧ (user ++ '#'::zone).length < NAME_LEN

theorem selectedObject {d n t}
    (named : selectCollName cat d = some name) (kept : Ancestor fs name (copied name))
    (found : OnObject cat d (fs.parentPath^[n] (copied name)) t) :
    t.objectId = d ∨ ∃ own ∈ cat.colls, Holds cat d own ∧
      ∃ above ∈ cat.colls, above.collId = t.objectId ∧ Ancestor fs own.collName above.collName := by
  obtain ⟨own,first,rfl⟩ := map_eq_some_iff.mp named
  rcases found with same | ⟨above,mem,path,id⟩
  · exact .inl same
  refine .inr ⟨own,mem_of_find?_eq_some first,by simpa using find?_some first,above,mem,id,?_⟩
  rw [path]
  exact ancestorTrans kept

/- A search that was left at the zone collection has no id, and the restrictions refuse it. -/
theorem grantedSource {w'} (named : selectCollName w.catalog c.dataId = some name) (ok : Returns fs w c 0 w') :
    fs.samePath (copied name) (zonePath c.userZone) = false ∧
    ∃ n t, selectTicket w.catalog (isModify c.accessLevel) c.ticketStr c.dataId
      (fs.parentPath^[n] (copied name)) = .ok t ∧
      (applyTicket w c (fetched (isModify c.accessLevel) t)).1 = 0 := by
  obtain ⟨fuel,b,found,granted⟩ := returnsSource named ok
  have full : b ≠ emptyBuffers := by
    rintro rfl
    exact absurd (applyGranted (by rw [granted])).2 (by simp [cmlCheckTicketRestrictions,emptyBuffers,CAT_SQL_ERR])
  obtain ⟨n,t,selected,rfl⟩ := (searchSource found).resolve_left full
  refine ⟨?_,n,t,selected,by rw [granted]⟩
  by_contra same
  rw [Bool.not_eq_false] at same
  cases fuel with
  | zero => simp [search] at found
  | succ _ =>
    simp only [search,same,if_true,some.injEq,Prod.mk.injEq] at found
    exact full found.2.symm

theorem grantedSound {w'} (whole : Whole fs name c.userZone c.userName)
    (named : selectCollName w.catalog c.dataId = some name) (ok : Returns fs w c 0 w') :
    ∃ t, Grants fs w.catalog c t := by
  obtain ⟨kept,short⟩ := whole
  obtain ⟨-,n,t,selected,granted⟩ := grantedSource named ok
  obtain ⟨mem,kind,string,object⟩ := selectTicketSource selected
  obtain ⟨live,free⟩ := applyGranted granted
  rw [fetchedExpiry] at live
  rw [fetchedId] at free
  obtain ⟨host,user,group⟩ := restrictionsExact.mp free
  exact ⟨t,mem,string,kind,selectedObject named kept object,notExpiredLive live,hostsAllowed host,
    namesAllowed (fun _ same => userMatchesWhole short same) user,
    namesAllowed (fun _ same => inGroupMember (by simpa using same)) group⟩

theorem applyUnlimited {b} (live : expired b.ticketExpiry c.now = false)
    (free : cmlCheckTicketRestrictions w.catalog b.ticketId c.ticketHost c.userName c.userZone = 0)
    (read : isModify c.accessLevel = false) (unlimited : b.usesLimit = 0) : (applyTicket w c b).1 = 0 := by
  simp [applyTicket,live,free,read,chargeUses,charge,unlimited]

theorem returnsApply {fuel b} (named : selectCollName w.catalog c.dataId = some name)
    (found : search fs w.catalog (isModify c.accessLevel) c.ticketStr c.dataId (zonePath c.userZone) fuel
      (copied name) c.status = some (0,b)) (ok : (applyTicket w c b).1 = 0) :
    Returns fs w c 0 (applyTicket w c b).2 := by
  refine ⟨fuel,?_⟩
  unfold checkObjIdByTicket
  rw [named]
  simp only [found]
  rw [if_neg (by simp),← ok]

def bareCatalog (colls : List CollRow) (allowedUsers : List AllowedName) (t : Option TicketRow) : Catalog where
  colls := colls
  dataObjs := []
  users := []
  userGroups := []
  tickets := t.toList
  allowedHosts := []
  allowedUsers := allowedUsers
  allowedGroups := []
  ticketIds := by cases t <;> simp
  ticketStrings := by cases t <;> simp

def plainTicket (objectId : Int64) : TicketRow := ⟨5,text "t",[],objectId,0,0,0,0,0,0,[],by simp⟩

def readCall (userName userZone : Text) : Call := ⟨0,1,[],text "t",[],userName,userZone,0⟩

def Unsound (fs : PathOps) (name zone user : Text) : Prop :=
  ∃ w w', selectCollName w.catalog (readCall user zone).dataId = some name ∧
    Returns fs w (readCall user zone) 0 w' ∧ ¬∃ t, Grants fs w.catalog (readCall user zone) t

theorem bareNamed (name rest users t) : selectCollName (bareCatalog (⟨1,name⟩::rest) users t) 1 = some name := rfl

theorem bareReturns {colls users t} (user)
    (named : selectCollName (bareCatalog colls users (some t)) 1 = some name)
    (above : fs.samePath (copied name) (zonePath zone) = false)
    (selected : selectTicket (bareCatalog colls users (some t)) false (text "t") 1 (copied name) = .ok t)
    (expiry : t.ticketExpiryTs = []) (unlimited : t.usesLimit = 0)
    (allowed : listAllows (selectNames users t.ticketId) (userMatches user zone) = true) :
    ∃ w', Returns fs ⟨bareCatalog colls users (some t),freshSession⟩ (readCall user zone) 0 w' := by
  have found : search fs (bareCatalog colls users (some t)) false (text "t") 1 (zonePath zone) 1
      (copied name) 0 = some (0,fetched false t) := by
    simp [search,above,selected]
  refine ⟨_,returnsApply named found (applyUnlimited ?_ ?_ rfl unlimited)⟩
  · rw [fetchedExpiry,expiry]; rfl
  · exact restrictionsExact.mpr ⟨rfl,allowed,rfl⟩

theorem copiedSome (named : name ≠ []) : copied name ≠ [] := by
  intro empty
  have cut : name.take (MAX_NAME_LEN-1) = [] := empty
  simp [MAX_NAME_LEN,named] at cut

theorem unsoundCut (full : name ≠ []) (above : fs.samePath (copied name) (zonePath zone) = false)
    (off : ¬Ancestor fs name (copied name)) : Unsound fs name zone user := by
  have selected : selectTicket (bareCatalog [⟨1,name⟩,⟨2,copied name⟩] [] (some (plainTicket 2)))
      false (text "t") 1 (copied name) = .ok (plainTicket 2) := by
    rw [selectTicket,if_neg (by simp [copiedSome full,text])]
    simp [bareCatalog,Selected,OnObject,plainTicket]
  obtain ⟨w',ok⟩ := bareReturns user (bareNamed ..) above selected rfl rfl rfl
  refine ⟨_,w',bareNamed ..,ok,?_⟩
  rintro ⟨t,grants⟩
  have only : t = plainTicket 2 := by simpa [bareCatalog] using grants.listed
  rcases grants.object with same | ⟨_,mem,holds,_,collMem,id,up⟩
  · rw [only] at same
    exact absurd same (by simp [plainTicket,readCall])
  rw [only] at id
  simp only [bareCatalog,mem_cons,not_mem_nil,or_false] at mem collMem
  rcases mem with rfl | rfl
  · rcases collMem with rfl | rfl
    · exact absurd id (by simp [plainTicket])
    · exact off up
  · simp [Holds,readCall,bareCatalog] at holds

/- Agrees with name#zone on the first NAME_LEN bytes and then goes another way. -/
def lookalike (whole : Text) : Text :=
  whole.take NAME_LEN ++ [if (whole.drop NAME_LEN).head? = some 'x' then 'y' else 'x']

theorem lookalikeTake {whole} (long : NAME_LEN ≤ whole.length) :
    (lookalike whole).take NAME_LEN = whole.take NAME_LEN := by
  have size : (whole.take NAME_LEN).length = NAME_LEN := by rw [length_take]; omega
  rw [lookalike,take_append_of_le_length (by omega),take_take,Nat.min_self]

theorem lookalikeLeaves (whole) : ¬lookalike whole <+: whole := by
  rintro ⟨rest,same⟩
  have tail : (if (whole.drop NAME_LEN).head? = some 'x' then 'y' else 'x')::rest = whole.drop NAME_LEN := by
    apply append_cancel_left (show whole.take NAME_LEN++_ = whole.take NAME_LEN++_ from ?_)
    simpa [lookalike] using same
  have head := congrArg head? tail
  rw [head?_cons] at head
  by_cases next : (whole.drop NAME_LEN).head? = some 'x'
  · rw [next] at head
    exact absurd head (by decide)
  · rw [if_neg next] at head
    exact next head.symm

theorem unsoundLong {zone user} (full : name ≠ []) (above : fs.samePath (copied name) (zonePath zone) = false)
    (long : NAME_LEN ≤ (user ++ '#'::zone).length) : Unsound fs name zone user := by
  let users := [mk 5 (lookalike (user ++ '#'::zone))]
  have selected : selectTicket (bareCatalog [⟨1,name⟩] users (some (plainTicket 1)))
      false (text "t") 1 (copied name) = .ok (plainTicket 1) := by
    rw [selectTicket,if_neg (by simp [copiedSome full,text])]
    rfl
  have allowed : listAllows (selectNames users 5) (userMatches user zone) = true := by
    have same := strncmpZeroIff.mpr (lookalikeTake long).symm
    simp [users,listAllows,selectNames,userMatches,same]
  obtain ⟨w',ok⟩ := bareReturns user (bareNamed ..) above selected rfl rfl allowed
  refine ⟨_,w',bareNamed ..,ok,?_⟩
  rintro ⟨t,grants⟩
  have only : t = plainTicket 1 := by simpa [bareCatalog] using grants.listed
  have listed := grants.user
  rw [only] at listed
  rcases listed with none | ⟨row,mem,_,same⟩
  · exact none _ mem_cons_self rfl
  have entry := mem_singleton.mp mem
  subst entry
  apply lookalikeLeaves (user ++ '#'::zone)
  rcases same with bare | zoned
  · exact ⟨'#'::zone,congrArg (fun row => row ++ '#'::zone) bare⟩
  · exact ⟨[],(append_nil _).trans zoned⟩

theorem ticketSoundExactly (fs : PathOps) (name zone user : Text) (full : name ≠ []) :
    (∀ (w : World) (c : Call) (w' : World), selectCollName w.catalog c.dataId = some name → c.userZone = zone →
      c.userName = user → Returns fs w c 0 w' → ∃ t, Grants fs w.catalog c t) ↔
    fs.samePath (rstrcpy name MAX_NAME_LEN).1 (zonePath zone) = true ∨
      Ancestor fs name (rstrcpy name MAX_NAME_LEN).1 ∧ (user ++ '#'::zone).length < NAME_LEN := by
  constructor
  · intro sound
    by_contra not
    obtain ⟨above,part⟩ := not_or.mp not
    rw [Bool.not_eq_true] at above
    have unsound : Unsound fs name zone user := by
      by_cases kept : Ancestor fs name (copied name)
      · exact unsoundLong full above (Nat.not_lt.mp fun short => part ⟨kept,short⟩)
      · exact unsoundCut full above kept
    obtain ⟨w,w',named,ok,unsound⟩ := unsound
    exact unsound (sound w (readCall user zone) w' named rfl rfl ok)
  · rintro (atZone | whole) w c _ named rfl rfl ok
    · exact absurd atZone (by simp [(grantedSource named ok).1])
    · exact grantedSound whole named ok

/- boost::filesystem where no two slashes stand together. -/
def plainPaths : PathOps where
  parentPath p :=
    match p.reverse.dropWhile (fun c => c != '/') with
    | [] => []
    | ['/'] => if p = ['/'] then [] else ['/']
    | _::rest => rest.reverse
  samePath a b := a == b

example : plainPaths.parentPath (text "/tempZone/home/rods") = text "/tempZone/home" := rfl

theorem ticketSoundAtHome : text "/tempZone/home" ≠ [] ∧ ∀ (w : World) (c : Call) (w' : World),
    selectCollName w.catalog c.dataId = some (text "/tempZone/home") → c.userZone = text "tempZone" →
      c.userName = text "anonymous" → Returns plainPaths w c 0 w' → ∃ t, Grants plainPaths w.catalog c t :=
  ⟨by decide,(ticketSoundExactly _ _ _ _ (by decide)).mpr (.inr ⟨⟨0,by decide⟩,by decide⟩)⟩

/- A user of sixty letters; the ticket is for the user of that name in another zone. -/
def longUser : Text := List.replicate 60 'u'

def sharedName : AllowedName := ⟨5,longUser ++ text "#temple"⟩

def longWorld : World := ⟨bareCatalog [⟨1,text "/tempZone/home"⟩] [sharedName] (some (plainTicket 1)),freshSession⟩

theorem otherUserLetIn : ∃ w', Returns plainPaths longWorld (readCall longUser (text "tempZone")) 0 w' ∧
    ¬∃ t, Grants plainPaths longWorld.catalog (readCall longUser (text "tempZone")) t := by
  refine ⟨_,⟨1,rfl⟩,?_⟩
  rintro ⟨t,grants⟩
  have only : t = plainTicket 1 := mem_singleton.mp grants.listed
  rcases grants.user with none | ⟨row,mem,-,same⟩
  · exact none sharedName mem_cons_self (by rw [only]; rfl)
  · cases mem_singleton.mp mem
    revert same
    decide

theorem searchEnds {modify d status} :
    (∃ fuel, (search fs cat modify s d zone fuel path status).isSome) ↔
    ∃ n, fs.samePath (fs.parentPath^[n] path) zone = true ∨
      ∃ t, selectTicket cat modify s d (fs.parentPath^[n] path) = .ok t := by
  constructor
  · rintro ⟨fuel,ends⟩
    induction fuel generalizing path status with
    | zero => contradiction
    | succ fuel ih =>
      unfold search at ends
      split at ends
      · rename_i atZone
        exact ⟨0,.inl atZone⟩
      split at ends
      · rename_i t selected
        exact ⟨0,.inr ⟨t,selected⟩⟩
      · obtain ⟨n,stops⟩ := ih ends
        exact ⟨n+1,stops⟩
  · rintro ⟨n,stops⟩
    induction n generalizing path status with
    | zero =>
      refine ⟨1,?_⟩
      unfold search
      split
      · rfl
      rename_i away
      obtain ⟨t,selected⟩ := stops.resolve_left away
      rw [show selectTicket cat modify s d path = .ok t from selected]
      rfl
    | succ n ih =>
      cases next : selectTicket cat modify s d path with
      | ok t => exact ⟨1,by unfold search; split <;> simp [next]⟩
      | error e =>
        obtain ⟨fuel,ends⟩ := @ih (fs.parentPath path) e stops
        refine ⟨fuel+1,?_⟩
        unfold search
        rw [next]
        split
        · rfl
        · exact ends

theorem checkEnds (named : selectCollName w.catalog c.dataId = some name) :
    (∃ fuel, (checkObjIdByTicket fs fuel w c).isSome) ↔
      ∃ path, Ancestor fs (copied name) path ∧ (fs.samePath path (zonePath c.userZone) = true ∨
        ∃ t, selectTicket w.catalog (isModify c.accessLevel) c.ticketStr c.dataId path = .ok t) := by
  have run : ∀ fuel, (checkObjIdByTicket fs fuel w c).isSome = (search fs w.catalog (isModify c.accessLevel) c.ticketStr
      c.dataId (zonePath c.userZone) fuel (copied name) c.status).isSome := by
    intro fuel
    unfold checkObjIdByTicket
    rw [named]
    dsimp only
    split
    · simp_all
    · split <;> simp_all
  simp only [run,searchEnds]
  exact ⟨fun ⟨n,stops⟩ => ⟨_,⟨n,rfl⟩,stops⟩,fun ⟨_,⟨n,same⟩,stops⟩ => ⟨n,same ▸ stops⟩⟩

theorem parentNamed {ns n} (name : IsName n) : plainPaths.parentPath (pathText (ns ++ [n])) = pathText ns := by
  have shape : pathText (ns ++ [n]) = render ns ++ '/'::n := by simp [pathText,render]
  have solid : ∀ c ∈ n.reverse, (c != '/') = true := by
    intro c mem
    have other : c ≠ '/' := fun same => name.2 (same ▸ mem_reverse.mp mem)
    simpa using other
  have cut : (pathText (ns ++ [n])).reverse.dropWhile (fun c => c != '/') = '/'::(render ns).reverse := by
    rw [shape,reverse_append,reverse_cons,append_assoc,dropWhile_append_of_pos solid]
    rfl
  unfold plainPaths
  dsimp only
  rw [cut]
  cases ns with
  | nil => simp [render,pathText,name.1]
  | cons m ms => simp [pathText,renderCons]

theorem parentSlashed {ns} (some : ns ≠ []) : plainPaths.parentPath (render ns ++ ['/']) = pathText ns := by
  obtain ⟨m,ms,rfl⟩ := exists_cons_of_ne_nil some
  unfold plainPaths
  simp [renderCons,pathText]

theorem ancestorUp {below above path} (up : plainPaths.parentPath below = above) :
    Ancestor plainPaths below path ↔ path = below ∨ Ancestor plainPaths above path := by
  constructor
  · rintro ⟨_ | k,rfl⟩
    · exact .inl rfl
    · exact .inr ⟨k,by rw [iterate_succ_apply,up]⟩
  · rintro (rfl | ⟨k,rfl⟩)
    · exact ⟨0,rfl⟩
    · exact ⟨k+1,by rw [iterate_succ_apply,up]⟩

/- The names above a path, the root and at last the empty path. -/
theorem climbed {ns} (all : AllNames ns) {path} :
    Ancestor plainPaths (pathText ns) path ↔ path = [] ∨ ∃ above, above <+: ns ∧ path = pathText above := by
  induction ns using List.reverseRecOn generalizing path with
  | nil =>
    have up : ∀ n, plainPaths.parentPath^[n+1] (pathText []) = [] := fun n => by
      rw [iterate_succ_apply]
      exact iterate_fixed rfl n
    constructor
    · rintro ⟨_ | n,rfl⟩
      · exact .inr ⟨[],prefix_rfl,rfl⟩
      · exact .inl (up n)
    · rintro (rfl | ⟨above,short,rfl⟩)
      · exact ⟨1,rfl⟩
      · exact ⟨0,by rw [prefix_nil.mp short]; rfl⟩
  | append_singleton ns n ih =>
    have here := @ih (fun m mem => all m (mem_append_left _ mem)) path
    rw [ancestorUp (parentNamed (all n (by simp))),here]
    constructor
    · rintro (rfl | empty | ⟨above,short,rfl⟩)
      · exact .inr ⟨_,prefix_rfl,rfl⟩
      · exact .inl empty
      · exact .inr ⟨above,short.trans (prefix_append _ _),rfl⟩
    · rintro (empty | ⟨above,short,rfl⟩)
      · exact .inr (.inl empty)
      · rcases prefix_concat_iff.mp short with rfl | short
        · exact .inl rfl
        · exact .inr (.inr ⟨above,short,rfl⟩)

/- A canonical text that is cut ends within a name or behind a slash. -/
theorem cutRender {ns} (all : AllNames ns) (k) :
    ∃ ms, AllNames ms ∧ ((render ns).take k = render ms ∨ (render ns).take k = render ms ++ ['/']) := by
  induction ns generalizing k with
  | nil => exact ⟨[],fun _ mem => absurd mem not_mem_nil,.inl (by simp [render])⟩
  | cons n ns ih =>
    have name := all n mem_cons_self
    rw [renderCons]
    rcases k with _ | _ | k
    · exact ⟨[],fun _ mem => absurd mem not_mem_nil,.inl rfl⟩
    · exact ⟨[],fun _ mem => absurd mem not_mem_nil,.inr rfl⟩
    · rw [take_succ_cons]
      by_cases inside : k+1 ≤ n.length
      · refine ⟨[n.take (k+1)],?_,.inl ?_⟩
        · intro m mem
          rw [mem_singleton.mp mem]
          exact ⟨by simp [name.1],fun slash => name.2 (mem_of_mem_take slash)⟩
        · rw [take_append_of_le_length inside]
          simp [render]
      · obtain ⟨ms,named,ends⟩ := ih (fun m mem => all m (mem_cons_of_mem n mem)) (k+1-n.length)
        refine ⟨n::ms,?_,?_⟩
        · intro m mem
          rcases mem_cons.mp mem with rfl | mem
          · exact name
          · exact named m mem
        · rw [take_append,take_of_length_le (by omega),renderCons]
          rcases ends with ends | ends
          · exact .inl (by rw [ends])
          · exact .inr (by rw [ends]; simp)

theorem canonicalSome (canonical : Canonical name) : name ≠ [] := by
  rw [canonical]
  unfold pathText
  split
  · decide
  · rename_i some
    obtain ⟨m,ms,shape⟩ := exists_cons_of_ne_nil (by simpa using some)
    simp [shape,renderCons]

theorem copiedCut (canonical : Canonical name) :
    ∃ ms, AllNames ms ∧ (copied name = render ms ∨ copied name = render ms ++ ['/']) := by
  show ∃ ms, AllNames ms ∧ (name.take (MAX_NAME_LEN-1) = _ ∨ name.take (MAX_NAME_LEN-1) = _)
  rw [canonical]
  unfold pathText
  split
  · exact ⟨[],fun _ mem => absurd mem not_mem_nil,.inr rfl⟩
  · exact cutRender (namesAll name) _

theorem aboveNamed {ms path} (named : AllNames ms) :
    (∃ above, above <+: ms ∧ path = pathText above) ↔ Canonical path ∧ names path <+: ms := by
  constructor
  · rintro ⟨above,short,rfl⟩
    have all : AllNames above := fun m mem => named m (short.subset mem)
    rw [(canonicalPathText all).1]
    exact ⟨(canonicalPathText all).2,short⟩
  · rintro ⟨canonical,short⟩
    exact ⟨names path,short,canonical⟩

theorem copiedClimbs {path} (canonical : Canonical name) : Ancestor plainPaths (copied name) path ↔
    path = copied name ∨ path = [] ∨ Canonical path ∧ AtOrAbove path (copied name) := by
  obtain ⟨ms,named,shape⟩ := copiedCut canonical
  have same : names (copied name) = ms := by
    rcases shape with shape | shape <;> rw [shape]
    · exact namesOfRender named
    · rw [namesSlash,namesOfRender named]
      exact append_nil ms
  rw [AtOrAbove,same,← aboveNamed named]
  by_cases slashed : ms ≠ [] ∧ copied name = render ms ++ ['/']
  · have up := parentSlashed slashed.1
    rw [← slashed.2] at up
    rw [← climbed named]
    exact ancestorUp up
  · have whole : copied name = pathText ms := by
      by_cases some : ms = []
      · subst some
        rcases shape with shape | shape
        · exact absurd shape (copiedSome (canonicalSome canonical))
        · exact shape
      · simpa [pathText,some] using shape.resolve_right fun ends => slashed ⟨some,ends⟩
    rw [whole,climbed named]
    constructor
    · exact .inr
    · rintro (rfl | other)
      · exact .inr ⟨ms,prefix_rfl,rfl⟩
      · exact other

/- The collection the ticket is for is on the way up from the name in the buffer. -/
def OnWay (cat : Catalog) (name : Text) (objectId : Int64) : Prop :=
  ∃ row ∈ cat.colls, row.collId = objectId ∧
    (row.collName = copied name ∨ Canonical row.collName ∧ AtOrAbove row.collName (copied name))

theorem zoneReached (canonical : Canonical name) (solid : '/' ∉ zone) :
    (∃ path, Ancestor plainPaths (copied name) path ∧ path = zonePath zone) ↔
      zone = [] ∨ (names (copied name)).head? = some zone := by
  have zoneNames : zone ≠ [] → names (zonePath zone) = [zone] ∧ Canonical (zonePath zone) := by
    intro full
    have shape : zonePath zone = pathText [zone] := by simp [zonePath,pathText,render]
    rw [shape]
    exact canonicalPathText fun n mem => (mem_singleton.mp mem) ▸ ⟨full,solid⟩
  have head : ∀ ns : List Text, [zone] <+: ns ↔ ns.head? = some zone := by
    intro ns
    cases ns <;> simp [eq_comm]
  simp only [exists_eq_right,copiedClimbs canonical,AtOrAbove]
  by_cases empty : zone = []
  · subst empty
    exact iff_of_true (.inr (.inr ⟨by decide, nil_prefix⟩)) (.inl rfl)
  obtain ⟨names,plain⟩ := zoneNames empty
  rw [names,head]
  constructor
  · rintro (same | absent | ⟨-,first⟩)
    · exact .inr (by rw [← same,names]; rfl)
    · contradiction
    · exact .inr first
  · rintro (none | first)
    · exact absurd none empty
    · exact .inr (.inr ⟨plain,first⟩)

theorem ticketReached {modify d} (canonical : Canonical name) :
    (∃ path, Ancestor plainPaths (copied name) path ∧ ∃ t, selectTicket cat modify s d path = .ok t) ↔
      s ≠ [] ∧ ∃ t ∈ cat.tickets, t.ticketString = s ∧ (modify = true → t.ticketType = text "write") ∧
        (t.objectId = d ∨ OnWay cat name t.objectId) := by
  have full := copiedSome (canonicalSome canonical)
  simp only [selectTicketFinds,copiedClimbs canonical]
  constructor
  · rintro ⟨path,way,string,bound,t,mem,kind,same,object⟩
    refine ⟨string,t,mem,same,kind,object.imp_right ?_⟩
    rintro ⟨row,listed,rfl,id⟩
    exact ⟨row,listed,id,way.imp_right fun up => up.resolve_left bound⟩
  · rintro ⟨string,t,mem,same,kind,own | ⟨row,listed,id,way⟩⟩
    · exact ⟨copied name,.inl rfl,string,full,t,mem,kind,same,.inl own⟩
    · refine ⟨row.collName,way.imp_right .inr,string,?_,t,mem,kind,same,.inr ⟨row,listed,rfl,id⟩⟩
      rcases way with here | ⟨plain,-⟩
      · rwa [here]
      · exact canonicalSome plain

theorem searchEndsExactly {w c name} (named : selectCollName w.catalog c.dataId = some name)
    (canonical : Canonical name) (solid : '/' ∉ c.userZone) :
    (∃ fuel, (checkObjIdByTicket plainPaths fuel w c).isSome) ↔
      (c.userZone = [] ∨ (names (rstrcpy name MAX_NAME_LEN).1).head? = some c.userZone) ∨
      c.ticketStr ≠ [] ∧ ∃ t ∈ w.catalog.tickets, t.ticketString = c.ticketStr ∧
        (isModify c.accessLevel = true → t.ticketType = text "write") ∧
        (t.objectId = c.dataId ∨ OnWay w.catalog name t.objectId) := by
  rw [checkEnds named,← ticketReached canonical,← zoneReached canonical solid,← exists_or]
  refine exists_congr fun path => ?_
  rw [← and_or_left]
  simp [plainPaths]

def homeWorld : World := ⟨bareCatalog [⟨1,text "/tempZone/home"⟩] [] none,freshSession⟩

def guessCall (userZone : Text) : Call :=
  ⟨0,1,text "read",text "guess",text "10.0.0.7",text "alice",userZone,1700000000⟩

theorem zoneSearchEnds : ∃ fuel, (checkObjIdByTicket plainPaths fuel homeWorld (guessCall (text "tempZone"))).isSome :=
  (searchEndsExactly (show selectCollName homeWorld.catalog 1 = some (text "/tempZone/home") from rfl)
    (by decide) (by decide)).mpr (.inl (.inr (by decide)))

/- The ticket string is not in the catalog: the path becomes empty and stays so. -/
theorem federatedSearchRunsOn :
    ¬∃ fuel, (checkObjIdByTicket plainPaths fuel homeWorld (guessCall (text "otherZone"))).isSome := by
  have named : selectCollName homeWorld.catalog 1 = some (text "/tempZone/home") := rfl
  rw [checkEnds named]
  have canonical : Canonical (text "/tempZone/home") := by decide
  rintro ⟨path,way,atZone | found⟩
  · have reached := (@zoneReached (text "otherZone") _ canonical (by decide)).mp ⟨path,way,beq_iff_eq.mp atZone⟩
    revert reached
    decide
  · obtain ⟨-,t,listed,-⟩ := (ticketReached canonical).mp ⟨path,way,found⟩
    exact not_mem_nil listed

end Irods.TicketSoundness
