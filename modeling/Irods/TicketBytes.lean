import Irods.TicketLimits

/-! cmlTicketUpdateWriteBytes: the bytes a write through a ticket is charged. Its query names the object
and the collection it is in, whatever the path of the loop, so a ticket of a higher collection is never found. -/
namespace Irods.TicketBytes
open CText StringOpr TicketCatalog TicketAccess TicketSoundness TicketLimits List

def selectDataCollName (cat : Catalog) (dataId : Int64) : Option Text :=
  (cat.colls.find? fun c => ∃ row ∈ cat.dataObjs, row.dataId = dataId ∧ row.collId = c.collId).map CollRow.collName

-- object_id = ? or object_id in (select coll_id from R_DATA_MAIN where data_id = ?)
def OnData (cat : Catalog) (dataId : Int64) (t : TicketRow) : Prop :=
  t.objectId = dataId ∨ ∃ row ∈ cat.dataObjs, row.dataId = dataId ∧ row.collId = t.objectId

instance (cat d t) : Decidable (OnData cat d t) := by unfold OnData; infer_instance

def selectWriteTicket (cat : Catalog) (ticketStr : Text) (dataId : Int64) : Option TicketRow :=
  cat.tickets.find? fun t => t.ticketType = text "write" ∧ t.ticketString = ticketStr ∧ OnData cat dataId t

def setWriteByteCount (cat : Catalog) (ticketId : Int64) (count : Int64) : Catalog :=
  updateTicket cat (some ticketId) (fun t => { t with writeByteCount := count }) (fun _ => rfl) (fun _ => rfl)

-- while (coll_path != "/"), with the status the local variable holds.
def bytesSearch (fs : PathOps) (cat : Catalog) (ticketStr : Text) (dataId : Int64) :
    Nat → Text → Int → Option (Int × Option TicketRow)
  | 0,_,_ => none
  | fuel+1,path,status =>
    if fs.samePath path ['/'] then some (status,none)
    else match selectWriteTicket cat ticketStr dataId with
      | some t => some (0,some t)
      | none => bytesSearch fs cat ticketStr dataId fuel (fs.parentPath path) CAT_NO_ROWS_FOUND

def cmlTicketUpdateWriteBytes (fs : PathOps) (fuel : Nat) (status : Int) (cat : Catalog) (ticketStr : Text)
    (dataSize dataId : Int64) : Option (Int × Catalog) :=
  match selectDataCollName cat dataId with
  | none => some (CAT_NO_ROWS_FOUND,cat)
  | some name =>
    if dataSize = 0 then some (0,cat)
    else match bytesSearch fs cat ticketStr dataId fuel (rstrcpy name MAX_NAME_LEN).1 status with
      | none => none
      | some (status,row) =>
        if status ≠ 0 then some (status,cat)
        else match row with
          | none => some (0,cat)
          | some t =>
            if t.writeByteLimit = 0 then some (0,cat)
            else some (0,setWriteByteCount cat t.ticketId (t.writeByteCount+dataSize))

-- The call returns 0 and the count of the ticket has grown by the size.
def Charged (fs : PathOps) (status : Int) (cat : Catalog) (ticketStr : Text) (dataSize dataId id : Int64) : Prop :=
  ∃ fuel cat' t t', cmlTicketUpdateWriteBytes fs fuel status cat ticketStr dataSize dataId = some (0,cat') ∧
    rowOf cat id = some t ∧ rowOf cat' id = some t' ∧
    t'.writeByteCount.toInt = t.writeByteCount.toInt+dataSize.toInt

/- What a ticket check may change. -/
structure Recounted (cat cat' : Catalog) : Prop where
  colls : cat'.colls = cat.colls
  dataObjs : cat'.dataObjs = cat.dataObjs
  rows : ∀ {id t}, rowOf cat id = some t →
    ∃ uses files, rowOf cat' id = some { t with usesCount := uses, writeFileCount := files }

theorem recountedRefl (cat) : Recounted cat cat := ⟨rfl,rfl,fun row => ⟨_,_,row⟩⟩

theorem recountedTrans {a b c} (one : Recounted a b) (two : Recounted b c) : Recounted a c where
  colls := two.colls.trans one.colls
  dataObjs := two.dataObjs.trans one.dataObjs
  rows row := by
    obtain ⟨_,_,row1⟩ := one.rows row
    obtain ⟨uses,files,row2⟩ := two.rows row1
    exact ⟨uses,files,row2⟩

theorem usesRecounts (cat id n) : Recounted cat (setUsesCount cat id n) where
  colls := rfl
  dataObjs := rfl
  rows row := by
    rw [setUsesCount,rowOfUpdate,row,Option.map_some]
    split <;> exact ⟨_,_,rfl⟩

theorem filesRecount (cat id n) : Recounted cat (setWriteFileCount cat id n) where
  colls := rfl
  dataObjs := rfl
  rows row := by
    rw [setWriteFileCount,rowOfUpdate,row,Option.map_some]
    split <;> exact ⟨_,_,rfl⟩

theorem chargeUsesRecounts {w b d w'} (ok : chargeUses w b d = .ok w') : Recounted w.catalog w'.catalog := by
  unfold chargeUses at ok
  split at ok <;> cases ok
  rename_i stored _ _
  cases stored with
  | none => exact recountedRefl _
  | some n => exact usesRecounts ..

theorem writeStageRecounts {w c b w'} (ok : writeStage w c b = .ok w') : Recounted w.catalog w'.catalog := by
  unfold writeStage chargeWrite at ok
  split at ok
  · split at ok
    · cases ok
    split at ok <;> cases ok
    rename_i stored _ _
    cases stored with
    | none => exact recountedRefl _
    | some n => exact filesRecount ..
  · cases ok
    exact recountedRefl _

theorem returnsRecounts {fs w c status w'} (returned : Returns fs w c status w') : Recounted w.catalog w'.catalog := by
  rcases returnsCases returned with ⟨_,rfl⟩ | ⟨b,_,run⟩
  · exact recountedRefl _
  rcases applyCases run with ⟨_,same⟩ | ⟨written,wrote,rest⟩
  · exact same ▸ recountedRefl _
  have first := writeStageRecounts wrote
  rcases rest with ⟨_,rfl⟩ | ⟨_,used⟩
  · exact first
  · exact recountedTrans first (chargeUsesRecounts used)

theorem selectWriteExactly {cat id t s d} (row : rowOf cat id = some t) (string : t.ticketString = s)
    (write : t.ticketType = text "write") {found} : selectWriteTicket cat s d = some found ↔
    found = t ∧ OnData cat d t := by
  have listed := (rowOfSource row).1
  have only : ∀ {other}, selectWriteTicket cat s d = some other → other = t ∧ OnData cat d t := by
    intro other selected
    have picked : other.ticketType = text "write" ∧ other.ticketString = s ∧ OnData cat d other := by
      simpa using find?_some selected
    cases inj_on_of_nodup_map cat.ticketStrings (mem_of_find?_eq_some selected) listed
      (picked.2.1.trans string.symm)
    exact ⟨rfl,picked.2.2⟩
  refine ⟨only,?_⟩
  rintro ⟨rfl,on⟩
  cases selected : selectWriteTicket cat s d with
  | none => exact absurd (find?_eq_none.mp selected found listed) (by simp [write,string,on])
  | some other => rw [(only selected).1]

theorem bytesSearchFound {fs cat s d fuel path status st t}
    (found : bytesSearch fs cat s d fuel path status = some (st,some t)) :
    fs.samePath path ['/'] = false ∧ selectWriteTicket cat s d = some t := by
  induction fuel generalizing path status with
  | zero => contradiction
  | succ fuel ih =>
    unfold bytesSearch at found
    split at found
    · simp at found
    rename_i below
    split at found
    · rename_i selected
      cases found
      exact ⟨by simpa using below,selected⟩
    · rename_i absent
      exact absurd (ih found).2 (by simp [absent])

theorem updateCases {fs fuel status cat s n d cat' name} (data : selectDataCollName cat d = some name)
    (ok : cmlTicketUpdateWriteBytes fs fuel status cat s n d = some (0,cat')) :
    cat' = cat ∨ ∃ t, fs.samePath (rstrcpy name MAX_NAME_LEN).1 ['/'] = false ∧ selectWriteTicket cat s d = some t ∧
      cat' = setWriteByteCount cat t.ticketId (t.writeByteCount+n) := by
  unfold cmlTicketUpdateWriteBytes at ok
  rw [data] at ok
  dsimp only at ok
  split at ok
  · cases ok
    exact .inl rfl
  split at ok
  · cases ok
  rename_i st row found
  split at ok
  · rename_i failed
    cases ok
    contradiction
  split at ok
  · cases ok
    exact .inl rfl
  split at ok
  · cases ok
    exact .inl rfl
  · rename_i t _
    cases ok
    exact .inr ⟨t,(bytesSearchFound found).1,(bytesSearchFound found).2,rfl⟩

theorem rowCharged {cat id t} (row : rowOf cat id = some t) (n) :
    rowOf (setWriteByteCount cat id n) id = some { t with writeByteCount := n } := by
  rw [setWriteByteCount,rowOfUpdate,row,Option.map_some,if_pos rfl]

theorem addedExactly {a b : Int64} (positive : 0 < b) : (a+b).toInt = a.toInt+b.toInt ↔ a.toInt+b.toInt < 2^63 := by
  have more : 0 < b.toInt := Int64.lt_iff_toInt_lt.mp positive
  have low := a.le_toInt
  have top := a.toInt_lt
  have high := b.toInt_lt
  rw [Int64.toInt_add,Int.bmod_def]
  split <;> omega

-- The row a granted write was found through.
theorem throughRow {fs w c t} (modify : isModify c.accessLevel = true) (listed : t ∈ w.catalog.tickets)
    (through : Lookup fs w c 0 (fetched true t)) : t.ticketString = c.ticketStr ∧ t.ticketType = text "write" := by
  rcases lookupBuffers through with empty | ⟨_,other,mem,selected,same⟩
  · cases empty
  · rw [modify] at selected same
    have one : t.ticketId = other.ticketId := Option.some.inj (congrArg Buffers.ticketId same)
    cases inj_on_of_nodup_map w.catalog.ticketIds listed mem one
    exact ⟨selected.2.1,selected.1 rfl⟩

theorem bytesChargedExactly {fs w c w' t name n} (status) (granted : Returns fs w c 0 w')
    (modify : isModify c.accessLevel = true)
    (listed : t ∈ w.catalog.tickets) (through : Lookup fs w c 0 (fetched true t))
    (data : selectDataCollName w.catalog c.dataId = some name) (limited : t.writeByteLimit ≠ 0) (positive : 0 < n) :
    Charged fs status w'.catalog c.ticketStr n c.dataId t.ticketId ↔
    OnData w.catalog c.dataId t ∧ fs.samePath (rstrcpy name MAX_NAME_LEN).1 ['/'] = false ∧
      t.writeByteCount.toInt+n.toInt < 2^63 := by
  obtain ⟨string,write⟩ := throughRow modify listed through
  have recounted := returnsRecounts granted
  obtain ⟨uses,files,row'⟩ := recounted.rows (rowOfListed listed)
  have selected := @selectWriteExactly _ _ _ _ c.dataId row' string write
  have data' : selectDataCollName w'.catalog c.dataId = some name := by
    rwa [selectDataCollName,recounted.colls,recounted.dataObjs]
  have on' : OnData w'.catalog c.dataId { t with usesCount := uses, writeFileCount := files } ↔
    OnData w.catalog c.dataId t := by
    simp [OnData,recounted.dataObjs]
  rw [← addedExactly positive,← on']
  constructor
  · rintro ⟨fuel,cat',old,new,ok,before,after,grown⟩
    cases before.symm.trans row'
    rcases updateCases data' ok with rfl | ⟨found,below,picked,rfl⟩
    · cases after.symm.trans row'
      have more : 0 < n.toInt := Int64.lt_iff_toInt_lt.mp positive
      omega
    · obtain ⟨rfl,on⟩ := selected.mp picked
      cases after.symm.trans (rowCharged row' _)
      exact ⟨on,below,grown⟩
  · rintro ⟨on,below,fits⟩
    have sized : n ≠ 0 := by
      rintro rfl
      exact absurd positive (by decide)
    have ran : cmlTicketUpdateWriteBytes fs 1 status w'.catalog c.ticketStr n c.dataId =
        some (0,setWriteByteCount w'.catalog t.ticketId (t.writeByteCount+n)) := by
      unfold cmlTicketUpdateWriteBytes bytesSearch
      rw [data']
      simp [below,selected.mpr ⟨rfl,on⟩,limited,sized]
    exact ⟨1,_,_,_,ran,row',rowCharged row' _,fits⟩

/- Collection 2 is /tempZone/home/rods, collection 1 its parent, object 3 is in collection 2. -/
def nestedCatalog (objectId : Int64) : Catalog where
  colls := [⟨1,text "/tempZone/home"⟩,⟨2,text "/tempZone/home/rods"⟩]
  dataObjs := [⟨3,2⟩]
  users := []
  userGroups := []
  tickets := [⟨5,text "t",text "write",objectId,0,0,0,0,100,0,[],Nat.zero_le _⟩]
  allowedHosts := []
  allowedUsers := []
  allowedGroups := []
  ticketIds := nodup_singleton _
  ticketStrings := nodup_singleton _

def writeCall : Call := ⟨0,3,text "modify",text "t",[],text "anonymous",text "tempZone",0⟩
def noted : Session := ⟨0,0,some 5⟩

theorem ownCollectionCharged : Returns plainPaths ⟨nestedCatalog 2,freshSession⟩ writeCall 0 ⟨nestedCatalog 2,noted⟩ ∧
    Charged plainPaths 0 (nestedCatalog 2) writeCall.ticketStr 7 writeCall.dataId 5 := by
  have granted : Returns plainPaths ⟨nestedCatalog 2,freshSession⟩ writeCall 0 ⟨nestedCatalog 2,noted⟩ := ⟨1,rfl⟩
  exact ⟨granted,
      (bytesChargedExactly 0 granted (by decide) mem_cons_self ⟨_,1,rfl,rfl⟩ rfl (by decide) (by decide)).mpr
    ⟨by decide,by decide,by decide⟩⟩

/- The ticket of the parent collection grants the write, and nothing is charged. -/
theorem parentUncharged : Returns plainPaths ⟨nestedCatalog 1,freshSession⟩ writeCall 0 ⟨nestedCatalog 1,noted⟩ ∧
    ¬Charged plainPaths 0 (nestedCatalog 1) writeCall.ticketStr 7 writeCall.dataId 5 := by
  refine ⟨⟨2,rfl⟩,?_⟩
  rintro ⟨fuel,cat',old,new,ok,before,after,grown⟩
  rcases updateCases rfl ok with rfl | ⟨found,_,picked,_⟩
  · cases before.symm.trans after
    have seven : (7 : Int64).toInt = 7 := by decide
    omega
  · have unfound : selectWriteTicket (nestedCatalog 1) writeCall.ticketStr writeCall.dataId = none := by decide
    rw [unfound] at picked
    contradiction

end Irods.TicketBytes
