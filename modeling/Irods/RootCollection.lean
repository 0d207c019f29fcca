import Irods.CollectionRename
import Irods.RecursiveAccess

/-! The collection "/" where the operations put a slash and a name behind a collection's name: recursive changes from
it, moves into it and renames below it. -/
namespace Irods.RootCollection
open CText StringOpr CollMain PathNames CollectionRename List

-- The collection c can be named by its id.
structure IsColl (cat : Catalog) (c : CollRow) : Prop where
  row : c ∈ cat.colls
  noData : ∀ d ∈ cat.datas, d.dataId ≠ c.collId

structure RootOrdinary (cat : Catalog) : Prop where
  recursive : ∀ r ∈ cat.colls, selects (lit "/") r.collName = true
  moves : ∀ w c, IsColl cat c → ∀ root ∈ cat.colls, root.collName = lit "/" → ∀ cat',
    dbMoveObjectOp w cat c.collId root.collId = .ok cat' → Tree cat'
  renames : ∀ w c, IsColl cat c → w.own c.collId = true → c.collName ≠ lit "/" → c.parentCollName = lit "/" →
    ∀ r ∈ cat.colls, r ≠ c → ∀ newName, IsName newName → r.collName = lit "/" ++ newName →
      dbRenameObjectOp w cat c.collId newName = .error CAT_NAME_EXISTS_AS_COLLECTION

theorem doubledSlash (t) : ¬Canonical ('/' :: '/' :: t) := by
  intro canonical
  have all := namesAll t
  rw [Canonical,namesOfSlash,namesOfSlash] at canonical
  cases these : names t with
  | nil => simp [these,pathText] at canonical
  | cons n _ =>
    obtain ⟨nonempty,plain⟩ := all n (by simp [these])
    obtain ⟨x,_,rfl⟩ := exists_cons_of_ne_nil nonempty
    simp only [these,pathText,isEmpty_cons,Bool.false_eq_true,if_false,renderCons,cons_append,cons.injEq,
        true_and] at canonical
    exact plain (canonical.1 ▸ mem_cons_self)

variable {cat : Catalog}

theorem selectedByRoot (tree : Tree cat) {r} (here : r ∈ cat.colls) :
    selects (lit "/") r.collName = true ↔ r.collName = lit "/" :=
  (selectsExactly _ _).trans (atOrBeneathRoot (tree.canonical r here).1)

theorem movedIntoRoot {w c root cat'} (tree : Tree cat) (coll : IsColl cat c) (there : root ∈ cat.colls)
    (isRoot : root.collName = lit "/")
    (run : dbMoveObjectOp w cat c.collId root.collId = .ok cat') : ¬Tree cat' := by
  have moved := movedOk tree coll.row rfl coll.noData there run
  have row : relocatedRow c.collName root.collName (root.collName ++ lit "/" ++ lastName c) c ∈ cat'.colls := by
    rw [moved.rows]
    exact mem_map_of_mem coll.row
  intro after
  have canonical := (after.canonical _ row).1
  simp only [relocatedRow,relocatedName,AtOrBeneath,isRoot] at canonical
  exact doubledSlash _ canonical

section Refused
variable {f : CollRow → CollRow} {kept : ∀ r, (f r).collId = r.collId}

theorem mapCollsFails {e} (failed : mapColls cat f kept = .error e) : e = CATALOG_ALREADY_HAS_ITEM_BY_THAT_NAME := by
  unfold mapColls at failed
  split at failed <;> cases failed
  rfl

theorem twinRefused {a b} (one : a ∈ cat.colls) (two : b ∈ cat.colls) (other : a ≠ b)
    (same : (f a).collName = (f b).collName) :
    mapColls cat f kept = .error CATALOG_ALREADY_HAS_ITEM_BY_THAT_NAME := by
  refine dif_neg fun distinct => other ?_
  rw [map_map] at distinct
  exact inj_on_of_nodup_map distinct one two same

theorem laterRefused {w i} {next : Catalog → Except Int Catalog} (sound : w.fault i = none)
    (later : ∀ cat', mapColls cat f kept = .ok cat' → next cat' = .error CATALOG_ALREADY_HAS_ITEM_BY_THAT_NAME) :
    (updated w i (mapColls cat f kept) >>= next) = .error CATALOG_ALREADY_HAS_ITEM_BY_THAT_NAME := by
  unfold updated
  rw [sound]
  cases run : mapColls cat f kept with
  | error e => exact congrArg _ (mapCollsFails run)
  | ok cat' => exact later cat' run

end Refused

section Rows
variable {parent slashed old slash : Text} {r : CollRow}

theorem renamedId : (renameParentNames parent slashed old slash (renameCollNames parent slashed old slash r)).collId =
    r.collId := by
  unfold renameParentNames renameCollNames
  repeat' split
  all_goals rfl

theorem renamedIdle (idle : ¬under slash old r = true) :
    renameParentNames parent slashed old slash (renameCollNames parent slashed old slash r) = r := by
  rw [renameCollNames,if_neg idle,renameParentNames,if_neg idle]

end Rows

/- The last update runs into the unique index, if none before it does. -/
theorem renameUpdatesRefused {w c r newName} (tree : Tree cat) (row : c ∈ cat.colls) (sound : ∀ i, w.fault i = none)
    (proper : c.collName ≠ lit "/") (there : r ∈ cat.colls) (other : r ≠ c) (name : IsName newName)
    (taken : r.collName = lit "/" ++ newName) :
    renameUpdates w cat c.collId (lit "/") c.collName newName = .error CATALOG_ALREADY_HAS_ITEM_BY_THAT_NAME := by
  have top : r.parentCollName = lit "/" := by
    have single : names r.collName = [newName] := by
      rw [taken]
      exact (namesOfSlash newName).trans (namesOfName name)
    rw [(tree.parents r there).2,directory,single]
    rfl
  have outside : ¬AtOrBeneath c.collName r.parentCollName := by
    rw [top]
    rintro (same | start)
    · exact proper same.symm
    have size := start.length_le
    have canonical := (tree.canonical c row).1
    simp only [length_append,length_singleton] at size
    rw [length_eq_zero_iff.1 (Nat.le_zero.1 (Nat.le_of_succ_le_succ size))] at canonical
    cases canonical
  have idle := mt (underIff (tree.short c row) (parentShort tree there)).mp outside
  have fits : boundedCopy MAX_NAME_LEN (lit "/" ++ newName) = lit "/" ++ newName :=
    boundedCopyFits (taken ▸ tree.short r there)
  have otherId : r.collId ≠ c.collId := fun same => other (rowOfId there row same)
  unfold renameUpdates
  refine laterRefused (sound 0) fun one first => laterRefused (sound 1) fun two second => ?_
  obtain ⟨rows,-⟩ := mapCollsOk first
  obtain ⟨rows',-⟩ := mapCollsOk second
  rw [rows,map_map] at rows'
  have left : r ∈ two.colls := by
    rw [rows']
    exact mem_map.mpr ⟨r,there,renamedIdle idle⟩
  obtain ⟨own,right,id⟩ : ∃ own ∈ two.colls, own.collId = c.collId := by
    rw [rows']
    exact ⟨_,mem_map_of_mem row,renamedId⟩
  unfold updated
  rw [sound]
  refine twinRefused left right (fun same => otherId (same ▸ id)) ?_
  rw [setCollName,if_neg otherId,setCollName,if_pos id,taken,if_pos rfl,fits]

theorem renamedUnderRoot {w c r newName} (tree : Tree cat) (coll : IsColl cat c) (own : w.own c.collId = true)
    (sound : ∀ i, w.fault i = none) (proper : c.collName ≠ lit "/") (above : c.parentCollName = lit "/")
    (there : r ∈ cat.colls) (other : r ≠ c) (name : IsName newName) (taken : r.collName = lit "/" ++ newName) :
    dbRenameObjectOp w cat c.collId newName = .error CATALOG_ALREADY_HAS_ITEM_BY_THAT_NAME := by
  have noSlash : ¬(strstr newName (lit "/")).isSome = true := fun found =>
    name.2 ((strstrSome.1 found).subset (by decide))
  have found : cat.colls.find? (fun k => k.collId = c.collId && w.own c.collId) = some c := by
    cases search : cat.colls.find? fun k => k.collId = c.collId && w.own c.collId with
    | none => simpa [own] using List.find?_eq_none.mp search c coll.row
    | some k => rw [collectionFound coll.row rfl search]
  have full : newName.isEmpty = false := by simpa using name.1
  have noData : ¬dataInColl cat newName (lit "/") = true := by
    intro taking
    simp only [dataInColl,dataNamed,full,Bool.false_or] at taking
    obtain ⟨p,row,both⟩ := any_eq_true.1 ((Bool.or_eq_true_iff.1 taking).resolve_left (by decide))
    simp only [Bool.and_eq_true,decide_eq_true_eq] at both
    obtain ⟨d,data,same⟩ := any_eq_true.1 both.2
    simp only [Bool.and_eq_true,decide_eq_true_eq] at same
    refine tree.separate d data p row same.2.symm r there ?_
    rw [taken,both.1,same.1]
    exact (namesOfSlash newName).trans (namesOfName name)
  have noColl : ¬collNamed cat (boundedCopy MAX_NAME_LEN (lit "/" ++ lit "/" ++ newName)) = true := by
    intro taking
    obtain ⟨k,row,same⟩ :=
      any_eq_true.1 ((Bool.or_eq_true_iff.1 taking).resolve_left (by simp [boundedCopy,lit,MAX_NAME_LEN]))
    exact doubledSlash _ (of_decide_eq_true same ▸ (tree.canonical k row).1)
  have long : ¬((lit "/").length ≤ 0 ∨ c.collName.length ≤ 0) := by
    rintro (none | none)
    · cases none
    have canonical := (tree.canonical c coll.row).1
    rw [length_eq_zero_iff.1 (Nat.le_zero.1 none)] at canonical
    cases canonical
  unfold dbRenameObjectOp
  rw [if_neg noSlash,noDataFound coll.noData,found]
  dsimp only [renameCollection]
  rw [above,boundedCopyFits (by decide),boundedCopyFits (tree.short c coll.row),if_neg noData,if_neg noColl,if_neg long]
  exact renameUpdatesRefused tree coll.row sound proper there other name taken

theorem rootOrdinaryExactly (tree : Tree cat) : (RootOrdinary cat ↔ ∀ r ∈ cat.colls, r.collName = lit "/") ∧
    (∀ w c, IsColl cat c → ∀ root ∈ cat.colls, root.collName = lit "/" → ∀ cat',
      dbMoveObjectOp w cat c.collId root.collId = .ok cat' → ¬Tree cat') ∧
    ∀ w c, IsColl cat c → w.own c.collId = true → (∀ i, w.fault i = none) → c.collName ≠ lit "/" →
      c.parentCollName = lit "/" → ∀ r ∈ cat.colls, r ≠ c → ∀ newName, IsName newName →
      r.collName = lit "/" ++ newName →
        dbRenameObjectOp w cat c.collId newName = .error CATALOG_ALREADY_HAS_ITEM_BY_THAT_NAME := by
  refine ⟨⟨fun ordinary r here => (selectedByRoot tree here).1 (ordinary.recursive r here),fun only => ⟨?_,?_,?_⟩⟩,
    fun _ _ coll _ there isRoot _ run => movedIntoRoot tree coll there isRoot run,
    fun _ _ coll own sound proper above _ there other _ name taken =>
      renamedUnderRoot tree coll own sound proper above there other name taken⟩
  · exact fun r here => (selectedByRoot tree here).2 (only r here)
  · intro w c coll _ there _ _ run
    exact absurd ((movedOk tree coll.row rfl coll.noData there run).below) (by rw [only c coll.row]; decide)
  · intro w c coll _ proper
    exact absurd (only c coll.row) proper

theorem siblingsNotFromRoot : Tree siblings ∧ ¬RootOrdinary siblings :=
  ⟨siblingsTree,fun ordinary => absurd ((rootOrdinaryExactly siblingsTree).1.1 ordinary collA (by decide)) (by decide)⟩

theorem rootOverlooked : Tree siblings ∧ selects (lit "/") (lit "/z") = false ∧ ¬RootOrdinary siblings ∧
    (dbMoveObjectOp allowed siblings 3 1).toOption.any (fun cat => cat.colls.any (·.collName = lit "//a")) = true :=
  ⟨siblingsTree,by decide,fun ordinary => absurd (ordinary.recursive collA (by decide)) (by decide),by decide⟩

end Irods.RootCollection
