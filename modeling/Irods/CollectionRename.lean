import Irods.CollMain
import Irods.StringOpr
import Irods.PathRelocation

/-! Renaming and moving: db_rename_object_op and db_move_object_op of db_plugin.cpp on the
collections and data objects of a catalog. The access queries are a parameter; a failed update
is rolled back. -/
namespace Irods.CollectionRename
open CText StringOpr CollMain PathNames PathRelocation List Nat

def CATALOG_ALREADY_HAS_ITEM_BY_THAT_NAME : Int := -809000
def CAT_UNKNOWN_COLLECTION : Int := -814000
def CAT_INVALID_ARGUMENT : Int := -816000
def CAT_NO_ACCESS_PERMISSION : Int := -818000
def CAT_NAME_EXISTS_AS_COLLECTION : Int := -833000
def CAT_NAME_EXISTS_AS_DATAOBJ : Int := -834000
def CAT_NOT_A_DATAOBJ_AND_NOT_A_COLLECTION : Int := -836000
def CAT_RECURSIVE_MOVE : Int := -837000

structure DataRow where
  dataId : Int
  collId : Int
  dataName : Text
  deriving DecidableEq, Repr

/- coll_name has a unique index; coll_id is drawn from the sequence of object ids. -/
structure Catalog where
  colls : List CollRow
  datas : List DataRow
  collIds : (colls.map (·.collId)).Nodup
  collNames : (colls.map (·.collName)).Nodup
  deriving DecidableEq, Repr

structure World where
  own : Int → Bool
  modify : Int → Bool
  checkDir : Text → Int
  fault : Nat → Option Int

/- An update that would give two collections one name fails. -/
def mapColls (cat : Catalog) (f : CollRow → CollRow) (kept : ∀ r, (f r).collId = r.collId) : Except Int Catalog :=
  if distinct : ((cat.colls.map f).map (·.collName)).Nodup then
    .ok {cat with
      colls := cat.colls.map f
      collIds := by
        have same : (fun r : CollRow => r.collId) ∘ f = (·.collId) := funext kept
        rw [map_map,same]
        exact cat.collIds
      collNames := distinct}
  else .error CATALOG_ALREADY_HAS_ITEM_BY_THAT_NAME

-- substr(s,1,n) and substr(s,n+1); SQL counts from one.
def substrFirst (s : Text) (n : Nat) : Text := s.take n
def substrFrom (s : Text) (n : Nat) : Text := s.drop n

/- The checks go on for CAT_NO_ROWS_FOUND alone, so that a query that fails counts as one with a row. An empty text is
not bound, and its query fails. -/
def dataNamed (cat : Catalog) (name : Text) (collId : Int) : Bool :=
  name.isEmpty || cat.datas.any fun d => d.dataName = name && d.collId = collId

def dataInColl (cat : Catalog) (name collName : Text) : Bool :=
  name.isEmpty || collName.isEmpty || cat.colls.any fun p => p.collName = collName && dataNamed cat name p.collId

def collNamed (cat : Catalog) (name : Text) : Bool := name.isEmpty || cat.colls.any (·.collName = name)

/- where substr(parent_coll_name,1,char_length(?)) = ? or parent_coll_name = ? -/
def under (collNameSlash collName : Text) (r : CollRow) : Bool :=
  substrFirst r.parentCollName collNameSlash.length = collNameSlash || r.parentCollName = collName

section Rename
def renamedName (parentCollName slashNewName collName name : Text) : Text :=
  substrFirst name parentCollName.length ++ slashNewName ++ substrFrom name collName.length

def renameCollNames (parentCollName slashNewName collName collNameSlash : Text) (r : CollRow) : CollRow :=
  if under collNameSlash collName r then
    {r with collName := renamedName parentCollName slashNewName collName r.collName} else r

def renameParentNames (parentCollName slashNewName collName collNameSlash : Text) (r : CollRow) : CollRow :=
  if under collNameSlash collName r then
    {r with parentCollName := renamedName parentCollName slashNewName collName r.parentCollName}
  else r

def setCollName (collId : Int) (name : Text) (r : CollRow) : CollRow :=
  if r.collId = collId then {r with collName := name} else r

-- Whether an update goes through; no changed row is no failure here.
def updated (w : World) (i : Nat) (next : Except Int Catalog) : Except Int Catalog :=
  match w.fault i with
  | some status => .error status
  | none => next

def renameUpdates (w : World) (cat : Catalog) (objId : Int) (parentCollName collName newName : Text) :
    Except Int Catalog := do
  let isRootDir := parentCollName = lit "/"
  let collNameSlash := boundedCopy MAX_NAME_LEN (collName ++ lit "/")
  let slashNewName :=
    if isRootDir then boundedCopy MAX_NAME_LEN newName else boundedCopy MAX_NAME_LEN (lit "/" ++ newName)
  let cat ← updated w 0 (mapColls cat (renameCollNames parentCollName slashNewName collName collNameSlash)
    fun r => by unfold renameCollNames; split <;> rfl)
  let cat ← updated w 1 (mapColls cat (renameParentNames parentCollName slashNewName collName collNameSlash)
    fun r => by unfold renameParentNames; split <;> rfl)
  let collNameTmp :=
    if isRootDir then boundedCopy MAX_NAME_LEN (parentCollName ++ newName)
    else boundedCopy MAX_NAME_LEN (parentCollName ++ lit "/" ++ newName)
  updated w 2 (mapColls cat (setCollName objId collNameTmp) fun r => by unfold setCollName; split <;> rfl)

def renameCollection (w : World) (cat : Catalog) (objId : Int) (c : CollRow) (newName : Text) : Except Int Catalog :=
  let parentCollName := boundedCopy MAX_NAME_LEN c.parentCollName
  let collName := boundedCopy MAX_NAME_LEN c.collName
  if dataInColl cat newName parentCollName then .error CAT_NAME_EXISTS_AS_DATAOBJ
  else if collNamed cat (boundedCopy MAX_NAME_LEN (parentCollName ++ lit "/" ++ newName)) then
    .error CAT_NAME_EXISTS_AS_COLLECTION
  else if parentCollName.length ≤ 0 ∨ collName.length ≤ 0 then .error CAT_INVALID_ARGUMENT
  else renameUpdates w cat objId parentCollName collName newName

def renameDataObject (w : World) (cat : Catalog) (objId : Int) (d : DataRow) (newName : Text) : Except Int Catalog :=
  if dataNamed cat newName d.collId then .error CAT_NAME_EXISTS_AS_DATAOBJ
  else if cat.colls.any
    (fun p => p.collId = d.collId && collNamed cat (p.collName ++ boundedCopy MAX_NAME_LEN (lit "/" ++ newName))) then
    .error CAT_NAME_EXISTS_AS_COLLECTION
  else do
    let cat ← updated w 0
      (.ok {cat with datas := cat.datas.map fun r => if r.dataId = objId then {r with dataName := newName} else r})
    updated w 1 (.ok cat)

-- Neither query found an object the client owns: say why.
def notFound (cat : Catalog) (objId : Int) : Int :=
  if cat.datas.any (·.dataId = objId) || cat.colls.any (·.collId = objId) then CAT_NO_ACCESS_PERMISSION
  else CAT_NOT_A_DATAOBJ_AND_NOT_A_COLLECTION

def dbRenameObjectOp (w : World) (cat : Catalog) (objId : Int) (newName : Text) : Except Int Catalog :=
  if (strstr newName (lit "/")).isSome then .error CAT_INVALID_ARGUMENT
  else match cat.datas.find? fun d => d.dataId = objId && w.own objId with
    | some d => renameDataObject w cat objId d newName
    | none => match cat.colls.find? fun c => c.collId = objId && w.own objId with
      | some c => renameCollection w cat objId c newName
      | none => .error (notFound cat objId)

end Rename

section Move
/- for (i = ocLen; i > 0; i--): what follows the last slash, unless it is the first byte. -/
def endCollName (oldCollName : Text) : Nat → Option Text
  | 0 => none
  | i+1 => if oldCollName[i+1]? = some '/' then some (boundedCopy MAX_NAME_LEN (oldCollName.drop (i+2)))
    else endCollName oldCollName i

def intoOwnSubtree (targetCollName oldCollName : Text) : Bool :=
  strstr targetCollName oldCollName = some 0 &&
    (targetCollName[oldCollName.length]? = some '/' || targetCollName[oldCollName.length]? = none)

def setMoved (collId : Int) (name parent : Text) (r : CollRow) : CollRow :=
  if r.collId = collId then {r with collName := name, parentCollName := parent} else r

def moveNames (newCollName oldCollName collNameSlash : Text) (r : CollRow) : CollRow :=
  if under collNameSlash oldCollName r then
    {r with
      parentCollName := newCollName ++ substrFrom r.parentCollName oldCollName.length
      collName := newCollName ++ substrFrom r.collName oldCollName.length}
  else r

def moveCollection (w : World) (cat : Catalog) (objId : Int) (c target : CollRow) : Except Int Catalog :=
  let parentCollName := boundedCopy MAX_NAME_LEN c.parentCollName
  let oldCollName := boundedCopy MAX_NAME_LEN c.collName
  let targetCollName := boundedCopy MAX_NAME_LEN target.collName
  if parentCollName.length ≤ 0 ∨ oldCollName.length ≤ 0 then .error CAT_INVALID_ARGUMENT
  else match endCollName oldCollName oldCollName.length with
    | none => .error CAT_INVALID_ARGUMENT
    | some last =>
      let newCollName := targetCollName ++ lit "/" ++ last
      if w.checkDir parentCollName < 0 then .error (w.checkDir parentCollName)
      else if dataNamed cat last target.collId then .error CAT_NAME_EXISTS_AS_DATAOBJ
      else if collNamed cat newCollName then .error CAT_NAME_EXISTS_AS_COLLECTION
      else if intoOwnSubtree targetCollName oldCollName then .error CAT_RECURSIVE_MOVE
      else do
        let cat ← updated w 0 (mapColls cat (setMoved objId newCollName targetCollName)
          fun r => by unfold setMoved; split <;> rfl)
        let collNameSlash := boundedCopy MAX_NAME_LEN (oldCollName ++ lit "/")
        updated w 1 (mapColls cat (moveNames newCollName oldCollName collNameSlash)
          fun r => by unfold moveNames; split <;> rfl)

def moveDataObject (w : World) (cat : Catalog) (objId : Int) (d : DataRow) (target : CollRow) : Except Int Catalog :=
  let dataObjName := boundedCopy MAX_NAME_LEN d.dataName
  if dataNamed cat dataObjName target.collId then .error CAT_NAME_EXISTS_AS_DATAOBJ
  else if collNamed cat (target.collName ++ boundedCopy MAX_NAME_LEN (lit "/" ++ dataObjName)) then
    .error CAT_NAME_EXISTS_AS_COLLECTION
  else do
    let cat ← updated w 0
      (.ok {cat with datas := cat.datas.map fun r => if r.dataId = objId then {r with collId := target.collId} else r})
    updated w 1 (.ok cat)

def dbMoveObjectOp (w : World) (cat : Catalog) (objId targetCollId : Int) : Except Int Catalog :=
  match cat.colls.find? fun c => c.collId = targetCollId && w.modify targetCollId with
  | none => .error (if cat.colls.any (·.collId = targetCollId) then
      CAT_NO_ACCESS_PERMISSION else CAT_UNKNOWN_COLLECTION)
  | some target => match cat.datas.find? fun d => d.dataId = objId && w.own objId with
    | some d => moveDataObject w cat objId d target
    | none => match cat.colls.find? fun c => c.collId = objId && w.own objId with
      | some c => moveCollection w cat objId c target
      | none => .error (notFound cat objId)

end Move

variable {r k : CollRow} {cat' : Catalog}
section Tree
def ProperName (n : Text) : Prop := IsName n ∧ n ≠ lit "." ∧ n ≠ lit ".."

instance (n) : Decidable (ProperName n) := by unfold ProperName; infer_instance

def CanonicalPath (t : Text) : Prop := Canonical t ∧ ∀ n ∈ names t, ProperName n

instance (t) : Decidable (CanonicalPath t) := by unfold CanonicalPath; infer_instance

def directory (t : Text) : Text := pathText (names t).dropLast

/- The path of a data object has one name more than the path of its collection. -/
structure Tree (cat : Catalog) : Prop where
  canonical : ∀ r ∈ cat.colls, CanonicalPath r.collName
  distinct : (cat.colls.map (·.collName)).Nodup
  parents : ∀ r ∈ cat.colls, (∃ p ∈ cat.colls, p.collName = r.parentCollName) ∧ r.parentCollName = directory r.collName
  separate : ∀ d ∈ cat.datas, ∀ k ∈ cat.colls, k.collId = d.collId → ∀ r ∈ cat.colls,
    names r.collName ≠ names k.collName ++ [d.dataName]
  short : ∀ r ∈ cat.colls, r.collName.length < MAX_NAME_LEN

def relocatedName (old new t : Text) : Text := if AtOrBeneath old t then new ++ t.drop old.length else t

def relocatedRow (old newParent new : Text) (r : CollRow) : CollRow :=
  {r with
    parentCollName := if r.collName = old then newParent else relocatedName old new r.parentCollName
    collName := relocatedName old new r.collName}

structure Kept (cat cat' : Catalog) (old newParent new : Text) : Prop where
  tree : Tree cat'
  rows : cat'.colls = cat.colls.map (relocatedRow old newParent new)
  changed : ∀ r ∈ cat.colls, relocatedRow old newParent new r ≠ r ↔ AtOrBeneath old r.collName
  datas : cat'.datas = cat.datas

variable {cat : Catalog}

theorem properAll {t} (canonical : CanonicalPath t) : t = pathText (names t) ∧ AllNames (names t) :=
  ⟨canonical.1,fun n member => (canonical.2 n member).1⟩

theorem properNames {ns} (proper : ∀ n ∈ ns, ProperName n) :
    names (pathText ns) = ns ∧ CanonicalPath (pathText ns) := by
  obtain ⟨same,canonical⟩ := canonicalPathText fun n member => (proper n member).1
  exact ⟨same,canonical,by rwa [same]⟩

theorem pathTextRender {ns} (nonempty : ns ≠ []) : pathText ns = render ns := by
  simp [pathText,nonempty]

theorem rowOf (tree : Tree cat) (here : r ∈ cat.colls) (there : k ∈ cat.colls)
    (same : names r.collName = names k.collName) : r = k :=
  inj_on_of_nodup_map tree.distinct here there
    (canonicalInjective (tree.canonical r here).1 (tree.canonical k there).1 same)

theorem rowOfId (here : r ∈ cat.colls) (there : k ∈ cat.colls) (same : r.collId = k.collId) : r = k :=
  inj_on_of_nodup_map cat.collIds here there same

def IsPath (cat : Catalog) (p : List Text) : Prop := ∃ r ∈ cat.colls, names r.collName = p

theorem parentNames (tree : Tree cat) (here : r ∈ cat.colls) :
    names r.parentCollName = (names r.collName).dropLast := by
  rw [(tree.parents r here).2]
  exact (properNames fun n member => (tree.canonical r here).2 n (mem_of_mem_dropLast member)).1

theorem pathsClosed (tree : Tree cat) (p) (here : IsPath cat p) : IsPath cat p.dropLast := by
  obtain ⟨r,row,rfl⟩ := here
  obtain ⟨k,there,same⟩ := (tree.parents r row).1
  exact ⟨k,there,by rw [same,parentNames tree row]⟩

theorem beneathNames {old} (new) {t} (nonempty : old ≠ []) (proper : AllNames old) (canonical : CanonicalPath t) :
    (AtOrBeneath (render old) t ↔ old <+: names t) ∧
      (relocatedName (render old) (render new) t = if old <+: names t then
        render (new ++ (names t).drop old.length) else t) := by
  obtain ⟨text,all⟩ := properAll canonical
  have base := canonicalPathText proper
  rw [pathTextRender nonempty] at base
  have notRoot : render old ≠ ['/'] := by
    intro root
    have empty : names (render old) = [] := by rw [root]; rfl
    exact nonempty (base.1.symm.trans empty)
  have beneath : AtOrBeneath (render old) t ↔ old <+: names t := by
    rw [atOrBeneathCanonical base.2 canonical.1 notRoot,AtOrAbove,base.1]
  refine ⟨beneath,?_⟩
  unfold relocatedName
  by_cases inside : old <+: names t
  · rw [if_pos (beneath.mpr inside),if_pos inside]
    obtain ⟨rest,parts⟩ := inside
    have full : names t ≠ [] := by
      rw [← parts]
      simp [nonempty]
    rw [text,pathTextRender full,← parts,renderAppend]
    have back : names (render old ++ render rest) = old ++ rest := by
      rw [← renderAppend]
      exact namesOfRender (by rw [parts]; exact all)
    rw [back,drop_left,drop_left,renderAppend]
  · rw [if_neg fun position => inside (beneath.mp position),if_neg inside]

section
variable {k : CollRow} (tree : Tree cat) (there : k ∈ cat.colls) (below : names k.collName ≠ [])
include tree there below

theorem collText : k.collName = render (names k.collName) := by
  conv_lhs => rw [(tree.canonical k there).1]
  exact pathTextRender below

theorem collBeneath {t} (canonical : CanonicalPath t) : AtOrBeneath k.collName t ↔ names k.collName <+: names t := by
  have bridge := (beneathNames [] below (namesAll k.collName) canonical).1
  rwa [← collText tree there below] at bridge

theorem joinText (last) :
    k.collName ++ lit "/" ++ last = render (names k.collName ++ [last]) := by
  rw [renderAppend,← collText tree there below]
  simp [render,lit]

theorem noPath {last}
    (absent : ∀ r ∈ cat.colls, r.collName ≠ k.collName ++ lit "/" ++ last) :
    ¬IsPath cat (names k.collName ++ [last]) := by
  rintro ⟨r,here,path⟩
  refine absent r here ?_
  rw [joinText tree there below,(tree.canonical r here).1,path,pathTextRender (by simp)]

end

structure Relocation (cat : Catalog) (c k : CollRow) (last : Text) : Prop where
  tree : Tree cat
  moved : c ∈ cat.colls
  below : names c.collName ≠ []
  target : k ∈ cat.colls
  targetBelow : names k.collName ≠ []
  outside : ¬names c.collName <+: names k.collName
  proper : ProperName last
  noColl : ¬IsPath cat (names k.collName ++ [last])
  noData : ∀ d ∈ cat.datas, d.collId = k.collId → d.dataName ≠ last
  fits : ∀ r ∈ cat.colls, (relocatedName c.collName (k.collName ++ lit "/" ++ last) r.collName).length < MAX_NAME_LEN

section Relocation
variable {c k : CollRow} {last : Text} (moves : Relocation cat c k last)
include moves

theorem pathsFree (p) (here : IsPath cat p) : ¬names k.collName ++ [last] <+: p :=
  freeBelow (pathsClosed moves.tree) moves.noColl here

theorem newProper (here : r ∈ cat.colls) :
    ∀ n ∈ relocate (names c.collName) (names k.collName ++ [last]) (names r.collName), ProperName n := by
  have own := (moves.tree.canonical r here).2
  intro n member
  by_cases inside : names c.collName <+: names r.collName
  · rw [relocate,if_pos inside] at member
    rcases mem_append.mp member with front | rest
    · rcases mem_append.mp front with up | new
      · exact (moves.tree.canonical k moves.target).2 n up
      · rw [mem_singleton.mp new]
        exact moves.proper
    · exact own n (mem_of_mem_drop rest)
  · rw [relocateOther inside] at member
    exact own n member

theorem movedBeneath {t} (canonical : CanonicalPath t) :
    AtOrBeneath c.collName t ↔ names c.collName <+: names t := collBeneath moves.tree moves.moved moves.below canonical

theorem movedText (here : r ∈ cat.colls) :
    relocatedName c.collName (k.collName ++ lit "/" ++ last) r.collName =
      pathText (relocate (names c.collName) (names k.collName ++ [last]) (names r.collName)) := by
  have bridge := (beneathNames (names k.collName ++ [last]) moves.below (namesAll c.collName)
    (moves.tree.canonical r here)).2
  rw [← collText moves.tree moves.moved moves.below,← joinText moves.tree moves.target moves.targetBelow] at bridge
  rw [bridge]
  unfold relocate
  split
  · rw [pathTextRender (by simp)]
  · exact (moves.tree.canonical r here).1

theorem movedNames (here : r ∈ cat.colls) :
    names (relocatedName c.collName (k.collName ++ lit "/" ++ last) r.collName) =
        relocate (names c.collName) (names k.collName ++ [last]) (names r.collName) ∧
      CanonicalPath (relocatedName c.collName (k.collName ++ lit "/" ++ last) r.collName) := by
  rw [movedText moves here]
  exact properNames (newProper moves here)

theorem targetStays : relocatedName c.collName (k.collName ++ lit "/" ++ last) k.collName = k.collName := by
  have outside : ¬AtOrBeneath c.collName k.collName := fun position =>
    moves.outside ((movedBeneath moves (moves.tree.canonical k moves.target)).mp position)
  exact if_neg outside

theorem movedParent (here : r ∈ cat.colls) (other : r.collName ≠ c.collName) :
    relocatedName c.collName (k.collName ++ lit "/" ++ last) r.parentCollName =
      directory (relocatedName c.collName (k.collName ++ lit "/" ++ last) r.collName) := by
  obtain ⟨p,there,same⟩ := (moves.tree.parents r here).1
  have differs : names r.collName ≠ names c.collName := fun equal =>
    other (canonicalInjective (moves.tree.canonical r here).1 (moves.tree.canonical c moves.moved).1 equal)
  rw [← same,movedText moves there,directory,(movedNames moves here).1,← relocateParent differs,same,
    parentNames moves.tree here]

theorem relocatedTree
    (rows : cat'.colls = cat.colls.map (relocatedRow c.collName k.collName (k.collName ++ lit "/" ++ last)))
    (datas : cat'.datas = cat.datas) : Tree cat' where
  canonical := by
    rw [rows]
    intro r' member
    obtain ⟨r,here,rfl⟩ := mem_map.mp member
    exact (movedNames moves here).2
  distinct := cat'.collNames
  parents := by
    rw [rows]
    intro r' member
    obtain ⟨r,here,rfl⟩ := mem_map.mp member
    by_cases self : r.collName = c.collName
    · refine ⟨⟨_,mem_map_of_mem moves.target,?_⟩,?_⟩
      · simp only [relocatedRow,self]
        exact targetStays moves
      have own := rowOf moves.tree here moves.moved (congrArg names self)
      simp only [relocatedRow,self]
      rw [own] at here
      rw [directory,(movedNames moves here).1,relocateSelf,dropLast_concat]
      exact (moves.tree.canonical k moves.target).1
    · obtain ⟨p,there,same⟩ := (moves.tree.parents r here).1
      refine ⟨⟨_,mem_map_of_mem there,?_⟩,?_⟩
      · simp only [relocatedRow,self,if_false]
        rw [same]
      · simp only [relocatedRow,self]
        exact movedParent moves here self
  separate := by
    rw [rows,datas]
    intro d leaf _ qMember id r' rMember same
    obtain ⟨q,there,rfl⟩ := mem_map.mp qMember
    obtain ⟨r,here,rfl⟩ := mem_map.mp rMember
    simp only [relocatedRow] at same id
    rw [(movedNames moves here).1,(movedNames moves there).1] at same
    rcases relocateLeaf (pathsFree moves) ⟨q,there,rfl⟩ ⟨r,here,rfl⟩ same with before | ⟨_,meets⟩
    · exact moves.tree.separate d leaf q there id r here before
    obtain ⟨up,name⟩ := append_inj' meets rfl
    have target := rowOf moves.tree there moves.target up.symm
    rw [target] at id
    exact moves.noData d leaf id.symm (by simpa using name.symm)
  short := by
    rw [rows]
    intro _ member
    obtain ⟨r,here,rfl⟩ := mem_map.mp member
    exact moves.fits r here

attribute [simp] relocatedName relocatedRow

theorem relocatedChanged (here : r ∈ cat.colls) :
    relocatedRow c.collName k.collName (k.collName ++ lit "/" ++ last) r ≠ r ↔ AtOrBeneath c.collName r.collName := by
  constructor
  · intro differs
    by_contra outside
    have self : r.collName ≠ c.collName := fun same => outside (.inl same)
    have above : ¬AtOrBeneath c.collName r.parentCollName := by
      obtain ⟨p,there,same⟩ := (moves.tree.parents r here).1
      rw [← same,movedBeneath moves (moves.tree.canonical p there),same,parentNames moves.tree here]
      intro position
      exact outside ((movedBeneath moves (moves.tree.canonical r here)).mpr (position.trans ( dropLast_prefix _)))
    exact differs (by simp [self,outside,above])
  · intro inside same
    have text := congrArg (fun row => names (CollRow.collName row)) same
    simp only [relocatedRow] at text
    have position := (movedBeneath moves (moves.tree.canonical r here)).mp inside
    rw [(movedNames moves here).1,relocate,if_pos position] at text
    exact pathsFree moves _ ⟨r,here,rfl⟩ ⟨_,text⟩

theorem relocatedKept
    (rows : cat'.colls = cat.colls.map (relocatedRow c.collName k.collName (k.collName ++ lit "/" ++ last)))
    (datas : cat'.datas = cat.datas) : Kept cat cat' c.collName k.collName (k.collName ++ lit "/" ++ last) :=
  ⟨relocatedTree moves rows datas,rows,fun _ here => relocatedChanged moves here,datas⟩

end Relocation

theorem underCond {slash old} :
    under slash old r = true ↔ r.parentCollName.take slash.length = slash ∨ r.parentCollName = old := by
  unfold under
  rw [Bool.or_eq_true,decide_eq_true_eq,decide_eq_true_eq]
  rfl

theorem underIff {old} (fits : old.length < MAX_NAME_LEN) (short : r.parentCollName.length < MAX_NAME_LEN) :
    under (boundedCopy MAX_NAME_LEN (old ++ lit "/")) old r = true ↔ AtOrBeneath old r.parentCollName := by
  have slash : old ++ lit "/" = old ++ ['/'] := rfl
  rw [underCond,AtOrBeneath,slash]
  by_cases room : old.length+1 < MAX_NAME_LEN
  · have whole : boundedCopy MAX_NAME_LEN (old ++ ['/']) = old ++ ['/'] := boundedCopyFits (by simpa using room)
    rw [whole,or_comm,prefix_iff_eq_take,eq_comm (a := old ++ ['/'])]
  have size : MAX_NAME_LEN-1 = old.length := by omega
  have cut : boundedCopy MAX_NAME_LEN (old ++ ['/']) = old := by
    rw [boundedCopy,size,take_left]
  have whole : r.parentCollName.take old.length = r.parentCollName := take_of_length_le (by omega)
  have none : ¬old ++ ['/'] <+: r.parentCollName := fun start => by
    have len := start.length_le
    simp only [length_append,length_singleton] at len
    omega
  rw [cut,whole,or_self,or_iff_left none]

section Updates
variable {c : CollRow} (tree : Tree cat) (row : c ∈ cat.colls) (below : names c.collName ≠ [])
include tree

theorem parentShort (here : r ∈ cat.colls) : r.parentCollName.length < MAX_NAME_LEN := by
  obtain ⟨p,there,same⟩ := (tree.parents r here).1
  rw [← same]
  exact tree.short p there

include row below

theorem beneathParent (here : r ∈ cat.colls) :
    AtOrBeneath c.collName r.parentCollName ↔ AtOrBeneath c.collName r.collName ∧ r ≠ c := by
  obtain ⟨p,there,same⟩ := (tree.parents r here).1
  rw [← same,collBeneath tree row below (tree.canonical p there),same,parentNames tree here,
    collBeneath tree row below (tree.canonical r here)]
  constructor
  · intro start
    refine ⟨start.trans ( dropLast_prefix _),?_⟩
    rintro rfl
    have size := start.length_le
    rw [length_dropLast] at size
    have nonempty := length_pos_iff.mpr below
    omega
  · rintro ⟨⟨rest,parts⟩,other⟩
    have more : rest ≠ [] := by
      rintro rfl
      rw [append_nil] at parts
      exact other (rowOf tree here row parts.symm)
    rw [← parts,dropLast_append_of_ne_nil more]
    exact prefix_append _ _

end Updates
end Tree

variable {w : World} {i : Nat} {result : Catalog}
section RenameRows
variable {cat : Catalog} {c : CollRow}

theorem renamedSame {parent slash old t} (start : parent <+: t) :
    renamedName parent slash old t = parent ++ slash ++ t.drop old.length := by
  obtain ⟨_,rfl⟩ := start
  simp [renamedName,substrFirst,substrFrom]

theorem updatedOk {next} (run : updated w i next = .ok result) : next = .ok result := by
  unfold updated at run
  split at run
  · cases run
  · exact run

theorem mapCollsOk {f kept} (run : mapColls cat f kept = .ok result) :
    result.colls = cat.colls.map f ∧ result.datas = cat.datas := by
  unfold mapColls at run
  split at run <;> cases run
  exact ⟨rfl,rfl⟩

theorem bindUpdated {next} {f : Catalog → Except Int Catalog}
    (run : (updated w i next >>= f) = .ok result) : ∃ after, next = .ok after ∧ f after = .ok result := by
  cases first : updated w i next with
  | error _ => simp [first,bind,Except.bind] at run
  | ok after => exact ⟨after,updatedOk first,by simpa [first,bind,Except.bind] using run⟩

structure Renamed (cat : Catalog) (c : CollRow) (newName : Text) (cat' : Catalog) : Prop where
  name : IsName newName
  noData : ∀ p ∈ cat.colls, p.collName = c.parentCollName → ∀ d ∈ cat.datas, d.collId = p.collId → d.dataName ≠ newName
  noColl : ∀ r ∈ cat.colls, r.collName ≠ c.parentCollName ++ lit "/" ++ newName
  rows : cat'.colls = cat.colls.map (relocatedRow c.collName c.parentCollName (c.parentCollName ++ lit "/" ++ newName))
  datas : cat'.datas = cat.datas

theorem newFits {new} (row : c ∈ cat.colls)
    (fits : ∀ r ∈ cat.colls, (relocatedName c.collName new r.collName).length < MAX_NAME_LEN) :
    new.length < MAX_NAME_LEN := by
  have size := fits c row
  rw [relocatedName,if_pos (.inl rfl)] at size
  simpa using size

theorem collectionFound {objId access} (row : c ∈ cat.colls) (id : c.collId = objId) {c'}
    (found : cat.colls.find? (fun c => c.collId = objId && access) = some c') : c' = c := by
  have both := find?_some found
  simp only [Bool.and_eq_true,decide_eq_true_eq] at both
  exact rowOfId (mem_of_find?_eq_some found) row (both.1.trans id.symm)

theorem noDataFound {objId} (isColl : ∀ d ∈ cat.datas, d.dataId ≠ objId) :
    cat.datas.find? (fun d => d.dataId = objId && w.own objId) = none :=
  find?_eq_none.mpr fun d member => by simp [isColl d member]

theorem notNamed {name collId} (absent : ¬dataNamed cat name collId = true) :
    ∀ d ∈ cat.datas, d.collId = collId → d.dataName ≠ name := by
  intro d member same named
  exact absent (Bool.or_eq_true_iff.mpr (.inr (any_eq_true.mpr ⟨d,member,by simp [same,named]⟩)))

theorem notInColl {name collName} (absent : ¬dataInColl cat name collName = true) :
    name ≠ [] ∧ ∀ p ∈ cat.colls, p.collName = collName → ∀ d ∈ cat.datas, d.collId = p.collId → d.dataName ≠ name := by
  simp only [dataInColl,Bool.or_eq_true,not_or,List.isEmpty_iff] at absent
  refine ⟨absent.1.1,fun p member named => notNamed fun there => ?_⟩
  exact absent.2 (any_eq_true.mpr ⟨p,member,by simp [named,there]⟩)

theorem notThere {name} (absent : ¬collNamed cat name = true) : ∀ r ∈ cat.colls, r.collName ≠ name := by
  intro r member same
  exact absent (Bool.or_eq_true_iff.mpr (.inr (any_eq_true.mpr ⟨r,member,by simp [same]⟩)))

section
variable (tree : Tree cat) (row : c ∈ cat.colls) (below : names c.collName ≠ []) (above : c.parentCollName ≠ lit "/")
include tree row below above

theorem renameRow {newName} (here : r ∈ cat.colls) :
    setCollName c.collId (c.parentCollName ++ lit "/" ++ newName)
        (renameParentNames c.parentCollName (lit "/" ++ newName) c.collName
          (boundedCopy MAX_NAME_LEN (c.collName ++ lit "/"))
          (renameCollNames c.parentCollName (lit "/" ++ newName) c.collName
            (boundedCopy MAX_NAME_LEN (c.collName ++ lit "/")) r)) =
      relocatedRow c.collName c.parentCollName (c.parentCollName ++ lit "/" ++ newName) r := by
  have cond := underIff (tree.short c row) (parentShort tree here)
  have parts := beneathParent tree row below here
  by_cases self : r = c
  · subst self
    have outside : ¬AtOrBeneath r.collName r.parentCollName := fun position => (parts.mp position).2 rfl
    have idle := mt cond.mp outside
    simp [renameCollNames,renameParentNames,setCollName,idle,AtOrBeneath]
  have otherName : r.collName ≠ c.collName := fun same => self (rowOf tree here row (congrArg names same))
  have otherId : r.collId ≠ c.collId := fun same => self (rowOfId here row same)
  by_cases inside : AtOrBeneath c.collName r.parentCollName
  · have position := (parts.mp inside).1
    have hit := cond.mpr inside
    -- The parent of the collection starts every name below the collection.
    have up : c.parentCollName <+: c.collName := by
      have root : (names c.collName).dropLast ≠ [] := by
        intro none
        rw [(tree.parents c row).2,directory,none] at above
        exact above rfl
      rw [(tree.parents c row).2,directory,pathTextRender root]
      conv_rhs => rw [collText tree row below,← dropLast_append_getLast below,renderAppend]
      exact prefix_append _ _
    have start : ∀ {t : Text}, AtOrBeneath c.collName t → c.parentCollName <+: t := by
      rintro t (rfl | further)
      · exact up
      · exact up.trans ((prefix_append _ _).trans further)
    have named := @renamedSame _ (lit "/" ++ newName) c.collName _ (start position)
    have above := @renamedSame _ (lit "/" ++ newName) c.collName _ (start inside)
    have first : renameCollNames c.parentCollName (lit "/" ++ newName) c.collName _ r = {r with collName := _} :=
      if_pos hit
    have second name : renameParentNames c.parentCollName (lit "/" ++ newName) c.collName _ {r with collName := name} =
      {r with parentCollName := _, collName := name} := if_pos hit
    rw [first,second,setCollName,if_neg otherId,named,above]
    simp [otherName,inside,position]
  · have idle := mt cond.mp inside
    have outside : ¬AtOrBeneath c.collName r.collName := fun position => inside (parts.mpr ⟨position,self⟩)
    simp [renameCollNames,renameParentNames,setCollName,idle,inside,outside,otherId,otherName]

theorem renameUpdatesOk {newName}
    (new : (c.parentCollName ++ lit "/" ++ newName).length < MAX_NAME_LEN)
    (run : renameUpdates w cat c.collId c.parentCollName c.collName newName = .ok cat') :
    cat'.colls = cat.colls.map (relocatedRow c.collName c.parentCollName (c.parentCollName ++ lit "/" ++ newName)) ∧
      cat'.datas = cat.datas := by
  have slashed : boundedCopy MAX_NAME_LEN (lit "/" ++ newName) = lit "/" ++ newName := boundedCopyFits (by
    rw [append_assoc,length_append] at new
    omega)
  unfold renameUpdates at run
  simp only [if_neg above,slashed,boundedCopyFits new] at run
  obtain ⟨_,first,run⟩ := bindUpdated run
  obtain ⟨_,second,run⟩ := bindUpdated run
  obtain ⟨rows,datas⟩ := mapCollsOk first
  obtain ⟨rows',datas'⟩ := mapCollsOk second
  obtain ⟨last,datas''⟩ := mapCollsOk (updatedOk run)
  rw [rows] at rows'
  rw [rows',map_map,map_map] at last
  refine ⟨last.trans ?_,by rw [datas'',datas',datas]⟩
  exact map_congr_left fun r here => renameRow tree row below above here

theorem renamedOk {objId newName} (id : c.collId = objId)
    (isColl : ∀ d ∈ cat.datas, d.dataId ≠ objId)
    (fits : ∀ r ∈ cat.colls,
      (relocatedName c.collName (c.parentCollName ++ lit "/" ++ newName) r.collName).length < MAX_NAME_LEN)
    (run : dbRenameObjectOp w cat objId newName = .ok cat') : Renamed cat c newName cat' := by
  have new := newFits row fits
  unfold dbRenameObjectOp at run
  split at run
  · cases run
  next noSlash =>
  rw [noDataFound isColl] at run
  dsimp only at run
  split at run
  · next c' found =>
    cases collectionFound row id found
    unfold renameCollection at run
    rw [boundedCopyFits (parentShort tree row),boundedCopyFits (tree.short c row)] at run
    dsimp only at run
    rw [boundedCopyFits new] at run
    split at run
    · cases run
    next noData =>
    split at run
    · cases run
    next noColl =>
    split at run
    · cases run
    rw [← id] at run
    obtain ⟨rows,datas⟩ := renameUpdatesOk tree row below above new run
    refine ⟨⟨(notInColl noData).1,fun slash => ?_⟩,(notInColl noData).2,notThere noColl,rows,datas⟩
    obtain ⟨front,rest,split⟩ := append_of_mem slash
    exact noSlash (strstrSome.mpr ⟨front,rest,by rw [split]; simp [lit]⟩)
  · cases run

theorem parentOf :
    ∃ k ∈ cat.colls, k.collName = c.parentCollName ∧ names k.collName ≠ [] ∧
    ¬names c.collName <+: names k.collName := by
  obtain ⟨k,there,same⟩ := (tree.parents c row).1
  have up : names k.collName = (names c.collName).dropLast := by rw [same,parentNames tree row]
  refine ⟨k,there,same,fun none => ?_,fun start => ?_⟩
  · have root : k.collName = lit "/" := by rw [(tree.canonical k there).1,none]; rfl
    exact above (same.symm.trans root)
  have size := start.length_le
  have nonempty := length_pos_iff.mpr below
  rw [up,length_dropLast] at size
  omega

end

theorem renameKeeps {objId newName} (tree : Tree cat) (row : c ∈ cat.colls)
    (above : c.parentCollName ≠ lit "/") (id : c.collId = objId) (isColl : ∀ d ∈ cat.datas, d.dataId ≠ objId)
    (fits : ∀ r ∈ cat.colls,
      (relocatedName c.collName (c.parentCollName ++ lit "/" ++ newName) r.collName).length < MAX_NAME_LEN)
    (run : dbRenameObjectOp w cat objId newName = .ok cat') :
    Kept cat cat' c.collName c.parentCollName (c.parentCollName ++ lit "/" ++ newName) ↔
      newName ≠ lit "." ∧ newName ≠ lit ".." := by
  have below : names c.collName ≠ [] := fun none => above (by rw [(tree.parents c row).2,directory,none]; rfl)
  have renamed := renamedOk tree row below above id isColl fits run
  obtain ⟨k,there,same,targetBelow,outside⟩ := parentOf tree row below above
  constructor
  · intro kept
    -- The row of the collection itself carries the new path.
    have own : relocatedRow c.collName c.parentCollName (c.parentCollName ++ lit "/" ++ newName) c ∈ cat'.colls := by
      rw [kept.rows]
      exact mem_map_of_mem row
    have canonical := kept.tree.canonical _ own
    have path : (relocatedRow c.collName c.parentCollName (c.parentCollName ++ lit "/" ++ newName) c).collName =
        c.parentCollName ++ '/'::newName := by
      simp [AtOrBeneath,lit]
    rw [path] at canonical
    have split : names (c.parentCollName ++ '/'::newName) = names c.parentCollName ++ names newName := namesSlash _ _
    exact (canonical.2 newName (by rw [split,namesOfName renamed.name]; simp)).2
  · intro noDots
    have absent : ∀ r ∈ cat.colls, r.collName ≠ k.collName ++ lit "/" ++ newName := by
      rw [same]
      exact renamed.noColl
    have moves : Relocation cat c k newName :=
      ⟨tree,row,below,there,targetBelow,outside,⟨renamed.name,noDots⟩,noPath tree there targetBelow absent,
        renamed.noData k there same,by rw [same]; exact fits⟩
    have kept : _ → _ → Kept cat cat' _ _ _ := relocatedKept moves
    rw [same] at kept
    exact kept renamed.rows renamed.datas

end RenameRows

section MoveRows
variable {cat : Catalog} {c target : CollRow}

theorem endSkips {t n} (below : i ≤ n) (plain : ∀ j, i < j → j ≤ n → t[j]? ≠ some '/') :
    endCollName t n = endCollName t i := by
  induction n with
  | zero => rw [le_zero.mp below]
  | succ n ih =>
    by_cases last : i = n+1
    · rw [last]
    have step : endCollName t (n+1) = endCollName t n := if_neg (plain (n+1) (by omega) (le_refl _))
    rw [step]
    exact ih (by omega) fun j above least => plain j above (by omega)

theorem endFound {front last} (nonempty : front ≠ []) (plain : '/' ∉ last) :
    endCollName (front ++ '/'::last) (front ++ '/'::last).length = some (boundedCopy MAX_NAME_LEN last) := by
  have size : front.length ≤ (front ++ '/'::last).length := by simp
  rw [endSkips size ?_]
  · obtain ⟨m,length⟩ : ∃ m, front.length = m+1 := ⟨front.length-1,by have := length_pos_iff.mpr nonempty; omega⟩
    have here : (front ++ '/'::last)[m+1]? = some '/' := by simp [← length]
    have rest : (front ++ '/'::last).drop (m+2) = last := by
      have whole : m+2 = (front ++ ['/']).length := by simp [length]
      have joined : front ++ '/'::last = front ++ ['/'] ++ last := by simp
      rw [joined,whole,drop_left]
    rw [length,endCollName,if_pos here,rest]
  · intro j _ _ slash
    obtain ⟨i,rfl⟩ : ∃ i, j = front.length+(i+1) := ⟨j-front.length-1,by omega⟩
    rw [getElem?_append_right (by omega),Nat.add_sub_cancel_left] at slash
    exact plain (mem_of_getElem? slash)

theorem endAbsent {last} (plain : '/' ∉ last) : endCollName ('/'::last) ('/'::last).length = none := by
  rw [endSkips (zero_le _) ?_]
  · rfl
  intro j _ _ slash
  obtain ⟨i,rfl⟩ : ∃ i, j = i+1 := ⟨j-1,by omega⟩
  exact plain (mem_of_getElem? slash)

theorem ownSubtree {t old} : intoOwnSubtree t old = true ↔ AtOrBeneath old t := by
  have start : strstr t old = some 0 ↔ old <+: t := by simp [strstrFirst]
  unfold intoOwnSubtree AtOrBeneath
  simp only [Bool.and_eq_true,Bool.or_eq_true,decide_eq_true_eq,start]
  constructor
  · rintro ⟨⟨rest,rfl⟩,slash | ended⟩
    · rw [getElem?_append_right (Nat.le_refl _),Nat.sub_self] at slash
      obtain ⟨rest',rfl⟩ : ∃ rest', rest = '/'::rest' := by
        cases rest with
        | nil => cases slash
        | cons x xs => exact ⟨xs,by rw [Option.some.inj slash]⟩
      exact .inr ⟨rest',by simp⟩
    · have empty : rest = [] := by
        have size := getElem?_eq_none_iff.mp ended
        rw [length_append] at size
        exact length_eq_zero_iff.mp (by omega)
      exact .inl (by rw [empty,append_nil])
  · rintro (rfl | ⟨rest,rfl⟩)
    · exact ⟨prefix_rfl,.inr (by simp)⟩
    · exact ⟨⟨'/'::rest,by simp⟩,.inl (by simp)⟩

def lastName (c : CollRow) : Text := (names c.collName).getLastD []

theorem endIsLast (tree : Tree cat) (row : c ∈ cat.colls) {last}
    (found : endCollName c.collName c.collName.length = some last) :
    names c.collName ≠ [] ∧ last = lastName c ∧ ProperName last := by
  have canonical := tree.canonical c row
  have short := tree.short c row
  rcases eq_nil_or_concat (names c.collName) with root | ⟨front,name,parts⟩
  · have text : c.collName = ['/'] := by rw [canonical.1,root]; rfl
    rw [text] at found
    have absent := endAbsent not_mem_nil
    exact absurd (found.symm.trans absent) (by simp)
  rw [concat_eq_append] at parts
  have nonempty : names c.collName ≠ [] := by simp [parts]
  have proper := canonical.2 name (by simp [parts])
  have text : c.collName = render front ++ '/'::name := by
    rw [collText tree row nonempty,parts]
    simp [render]
  rw [text] at found short
  have size : name.length < MAX_NAME_LEN := by
    simp only [length_append,length_cons] at short
    omega
  by_cases top : front = []
  · rw [top] at found
    exact absurd (found.symm.trans (endAbsent proper.1.2)) (by simp)
  have below : render front ≠ [] := by
    obtain ⟨n,_,cons⟩ := exists_cons_of_ne_nil top
    rw [cons]
    exact cons_ne_nil _ _
  rw [endFound below proper.1.2,boundedCopyFits size] at found
  cases found
  exact ⟨nonempty,by simp [lastName,parts],proper⟩

theorem moveRow (tree : Tree cat) (row : c ∈ cat.colls) (below : names c.collName ≠ []) {new parent}
    (parentFits : parent.length < MAX_NAME_LEN) (outside : ¬AtOrBeneath c.collName parent) (here : r ∈ cat.colls) :
    moveNames new c.collName (boundedCopy MAX_NAME_LEN (c.collName ++ lit "/")) (setMoved c.collId new parent r) =
      relocatedRow c.collName parent new r := by
  have parts := beneathParent tree row below here
  by_cases self : r = c
  · subst self
    have idle := mt
      (underIff (r := {r with parentCollName := parent, collName := new}) (tree.short r row) parentFits).mp
      outside
    have assigned : setMoved r.collId new parent r = {r with collName := new, parentCollName := parent} := if_pos rfl
    rw [assigned,moveNames,if_neg idle]
    simp [AtOrBeneath]
  have otherName : r.collName ≠ c.collName := fun same => self (rowOf tree here row (congrArg names same))
  have assigned : setMoved c.collId new parent r = r := if_neg fun same => self (rowOfId here row same)
  have cond := underIff (tree.short c row) (parentShort tree here)
  rw [assigned]
  by_cases inside : AtOrBeneath c.collName r.parentCollName
  · simp [moveNames,cond.mpr inside,otherName,inside,(parts.mp inside).1,substrFrom]
  have away : ¬AtOrBeneath c.collName r.collName := fun position => inside (parts.mpr ⟨position,self⟩)
  have idle := mt cond.mp inside
  simp [moveNames,idle,otherName,inside,away]

structure Moved (cat : Catalog) (c target : CollRow) (cat' : Catalog) : Prop where
  below : names c.collName ≠ []
  proper : ProperName (lastName c)
  outside : ¬AtOrBeneath c.collName target.collName
  noData : ∀ d ∈ cat.datas, d.collId = target.collId → d.dataName ≠ lastName c
  noColl : ∀ r ∈ cat.colls, r.collName ≠ target.collName ++ lit "/" ++ lastName c
  rows : cat'.colls = cat.colls.map (relocatedRow c.collName target.collName (target.collName ++ lit "/" ++ lastName c))
  datas : cat'.datas = cat.datas

section
variable {objId} (tree : Tree cat) (row : c ∈ cat.colls) (id : c.collId = objId)
    (isColl : ∀ d ∈ cat.datas, d.dataId ≠ objId)
    (there : target ∈ cat.colls)
include tree row id isColl there

theorem movedOk (run : dbMoveObjectOp w cat objId target.collId = .ok cat') : Moved cat c target cat' := by
  unfold dbMoveObjectOp at run
  split at run
  · cases run
  next target' found =>
  cases collectionFound there rfl found
  rw [noDataFound isColl] at run
  dsimp only at run
  split at run
  · next c' found' =>
    cases collectionFound row id found'
    simp only [moveCollection,boundedCopyFits (tree.short c row),
      boundedCopyFits (tree.short target there)] at run
    split at run
    · cases run
    split at run
    · cases run
    next last ends =>
    obtain ⟨below,rfl,proper⟩ := endIsLast tree row ends
    split at run
    · cases run
    split at run
    · cases run
    next noData =>
    split at run
    · cases run
    next noColl =>
    split at run
    · cases run
    next notInside =>
    have outside : ¬AtOrBeneath c.collName target.collName := fun position => notInside (ownSubtree.mpr position)
    obtain ⟨_,first,run⟩ := bindUpdated run
    obtain ⟨rows,datas⟩ := mapCollsOk first
    obtain ⟨last,datas'⟩ := mapCollsOk (updatedOk run)
    refine ⟨below,proper,outside,notNamed noData,notThere noColl,?_,by rw [datas',datas]⟩
    rw [last,rows,← id,map_map]
    exact map_congr_left fun r here => moveRow tree row below (tree.short target there) outside here
  · cases run

theorem moveKeeps (notRoot : target.collName ≠ lit "/") (fits : ∀ r ∈ cat.colls,
      (relocatedName c.collName (target.collName ++ lit "/" ++ lastName c) r.collName).length < MAX_NAME_LEN) (run :
      dbMoveObjectOp w cat objId target.collId = .ok cat') :
    Kept cat cat' c.collName target.collName (target.collName ++ lit "/" ++ lastName c) := by
  have targetBelow : names target.collName ≠ [] := fun none => notRoot (by
    rw [(tree.canonical target there).1,none]
    rfl)
  have moved := movedOk tree row id isColl there run
  have moves : Relocation cat c target (lastName c) :=
    ⟨tree,row,moved.below,there,targetBelow,
      fun position => moved.outside ((collBeneath tree row moved.below (tree.canonical target there)).mpr position),
      moved.proper,noPath tree there targetBelow moved.noColl,moved.noData,fits⟩
  exact relocatedKept moves moved.rows moved.datas

end

end MoveRows

theorem collectionsKeptExactly {w : World} {cat cat' : Catalog} {objId : Int} {c : CollRow} (tree : Tree cat)
    (row : c ∈ cat.colls)
    (id : c.collId = objId) (isColl : ∀ d ∈ cat.datas, d.dataId ≠ objId) :
    (∀ newName, c.parentCollName ≠ lit "/" →
      (∀ r ∈ cat.colls,
        (relocatedName c.collName (c.parentCollName ++ lit "/" ++ newName) r.collName).length < MAX_NAME_LEN) →
      dbRenameObjectOp w cat objId newName = .ok cat' →
      (Kept cat cat' c.collName c.parentCollName (c.parentCollName ++ lit "/" ++ newName) ↔
        newName ≠ lit "." ∧ newName ≠ lit "..")) ∧
    ∀ target ∈ cat.colls, target.collName ≠ lit "/" →
      (∀ r ∈ cat.colls,
        (relocatedName c.collName (target.collName ++ lit "/" ++ lastName c) r.collName).length < MAX_NAME_LEN) →
      dbMoveObjectOp w cat objId target.collId = .ok cat' →
      Kept cat cat' c.collName target.collName (target.collName ++ lit "/" ++ lastName c) :=
  ⟨fun _ above fits run => renameKeeps tree row above id isColl fits run,
    fun _ there notRoot fits run => moveKeeps tree row id isColl there notRoot fits run⟩

section Instances
def allowed : World := ⟨fun _ => true,fun _ => true,fun _ => 1,fun _ => none⟩

def collAt (collId : Int) (parentCollName collName : Text) : CollRow := ⟨collId,parentCollName,collName,false⟩

def collA : CollRow := collAt 3 (lit "/z") (lit "/z/a")

/- The collection /z/a, its sibling /z/ab and its subcollection, under some name of the former. -/
def named (a below : Text) (distinct : ([lit "/",lit "/z",a,lit "/z/ab",below]).Nodup) : Catalog where
  colls := [collAt 1 (lit "/") (lit "/"),collAt 2 (lit "/") (lit "/z"),collAt 3 (lit "/z") a,
    collAt 4 (lit "/z") (lit "/z/ab"),collAt 5 a below]
  datas := [⟨9,3,lit "d"⟩]
  collIds := by simp [collAt]
  collNames := distinct

def siblings : Catalog := named (lit "/z/a") (lit "/z/a/a") (by decide)

theorem siblingsTree : Tree siblings where
  canonical := by decide
  distinct := by decide
  parents := by decide
  separate := by decide
  short := by decide

theorem siblingsKept : Kept siblings (named (lit "/z/b") (lit "/z/b/a") (by decide)) (lit "/z/a") (lit "/z")
    (lit "/z/b") :=
  ((collectionsKeptExactly (w := allowed) (c := collA) siblingsTree (by decide) rfl (by decide)).1 (lit "b") (by decide)
    (by decide) rfl).mpr (by decide)

theorem dotBreaksTree : Tree siblings ∧
    dbRenameObjectOp allowed siblings 3 (lit ".") = .ok (named (lit "/z/.") (lit "/z/./a") (by decide)) ∧
    ¬Tree (named (lit "/z/.") (lit "/z/./a") (by decide)) :=
  ⟨siblingsTree,rfl,fun tree => absurd (tree.canonical (collAt 3 (lit "/z") (lit "/z/.")) (by decide)) (by decide)⟩

example : dbRenameObjectOp allowed siblings 3 [] = .error CAT_NAME_EXISTS_AS_DATAOBJ := rfl

end Instances

end Irods.CollectionRename
