import Irods.CollMain

/-! The recursive branches of db_mod_access_control_op and _modInheritance. The collections of a subtree are
selected by their names, and the access rows of one user to them and to their data objects are replaced. -/
namespace Irods.RecursiveAccess
open CText CollMain PathNames List

structure DataRow where
  dataId : Int
  collId : Int
  deriving DecidableEq

structure AccessRow where
  objectId : Int
  userId : Int
  accessTypeId : Int
  deriving DecidableEq

/- Collections and data objects share one sequence of ids; each replica has a row. -/
structure Catalog where
  colls : List CollRow
  data : List DataRow
  access : List AccessRow
  tokenId : Text → Int
  apart : ∀ c ∈ colls, ∀ d ∈ data, d.dataId ≠ c.collId

def modInheritance (inheritFlag : Nat) (pathName : Text) (cat : Catalog) : List CollRow :=
  cat.colls.map fun c => if selects pathName c.collName then { c with inheritance := inheritFlag == 1 } else c

/- The temporary table is selected by the same predicate. No level only removes. -/
def modAccessControl (pathName : Text) (userId : Int) (level : Option Text) (cat : Catalog) : List AccessRow :=
  let temp := cat.colls.filter (selects pathName ·.collName)
  let collIds := (temp.filter (selects pathName ·.collName)).map CollRow.collId
  let dataIds := (cat.data.filter (·.collId ∈ collIds)).map DataRow.dataId
  let access := cat.access.filter fun a => !(a.userId == userId && dataIds.contains a.objectId)
  let access := access.filter fun a => !(a.userId == userId && collIds.contains a.objectId)
  match level with
  | none => access
  | some level =>
    let access := access ++ dataIds.dedup.map (⟨·,userId,cat.tokenId level⟩)
    access ++ ((cat.colls.filter (selects pathName ·.collName)).map CollRow.collId).dedup.map
      (⟨·,userId,cat.tokenId level⟩)

section Subtree
variable (cat : Catalog) (pathName : Text) (userId : Int) (level : Option Text)

def collsBelow : List Int := (cat.colls.filter (AtOrBeneath pathName ·.collName)).map CollRow.collId
def dataBelow : List Int := (cat.data.filter (·.collId ∈ collsBelow cat pathName)).map DataRow.dataId

-- The objects of the subtree.
def Below (objectId : Int) : Prop := objectId ∈ dataBelow cat pathName ∨ objectId ∈ collsBelow cat pathName

instance (objectId) : Decidable (Below cat pathName objectId) := by unfold Below; infer_instance

def Theirs (a : AccessRow) : Prop := a.userId = userId ∧ Below cat pathName a.objectId

instance (a) : Decidable (Theirs cat pathName userId a) := by unfold Theirs; infer_instance

theorem changedRows : modAccessControl pathName userId level cat = cat.access.filter (¬Theirs cat pathName userId ·) ++
    level.toList.flatMap fun level => ((dataBelow cat pathName).dedup ++ (collsBelow cat pathName).dedup).map
      (⟨·,userId,cat.tokenId level⟩) := by
  have same : selects pathName = fun name => decide (AtOrBeneath pathName name) := by
    funext name
    rw [Bool.eq_iff_iff,selectsExactly,decide_eq_true_eq]
  have remains :
    (cat.access.filter fun a => !(a.userId == userId && (dataBelow cat pathName).contains a.objectId)).filter
      (fun a => !(a.userId == userId && (collsBelow cat pathName).contains a.objectId)) =
      cat.access.filter (¬Theirs cat pathName userId ·) := by
    rw [filter_filter]
    refine filter_congr fun a _ => ?_
    rw [Bool.eq_iff_iff]
    simp [Theirs,Below]
    tauto
  have idle : (cat.colls.filter (AtOrBeneath pathName ·.collName)).filter (AtOrBeneath pathName ·.collName) =
      cat.colls.filter (AtOrBeneath pathName ·.collName) := by simp
  unfold modAccessControl
  rw [same]
  dsimp only
  rw [idle]
  rw [← remains]
  cases level with
  | none => exact (append_nil _).symm
  | some _ =>
    simp only [Option.toList_some,flatMap_singleton,map_append,← append_assoc]
    rfl

theorem subtreeApart {objectId} (data : objectId ∈ dataBelow cat pathName) : objectId ∉ collsBelow cat pathName := by
  intro coll
  obtain ⟨d,kept,rfl⟩ := mem_map.mp data
  obtain ⟨c,held,same⟩ := mem_map.mp coll
  exact cat.apart c (mem_filter.mp held).1 d (mem_filter.mp kept).1 same.symm

theorem dedupOnce (ids : List Int) (objectId) :
    ids.dedup.filter (· = objectId) = if objectId ∈ ids then [objectId] else [] := by
  refine (filter_beq objectId).trans ?_
  rw [count_dedup]
  split <;> rfl

-- Every object of the subtree is inserted once.
theorem insertedOnce {objectId} (below : Below cat pathName objectId) :
    ((dataBelow cat pathName).dedup ++ (collsBelow cat pathName).dedup).filter (· = objectId) = [objectId] := by
  rw [filter_append,dedupOnce,dedupOnce]
  by_cases data : objectId ∈ dataBelow cat pathName
  · rw [if_pos data,if_neg (subtreeApart cat pathName data),append_nil]
  · rw [if_neg data,if_pos (below.resolve_left data),nil_append]

theorem recursiveChangeExact (canonical : Canonical pathName) (proper : pathName ≠ ['/']) :
    (∀ name, selects pathName name = true ↔ AtOrBeneath pathName name) ∧
    (∀ name, Canonical name → (selects pathName name = true ↔ AtOrAbove pathName name)) ∧
    (∀ flag, modInheritance flag pathName cat =
      cat.colls.map fun c => if AtOrBeneath pathName c.collName then { c with inheritance := flag == 1 } else c) ∧
    (∀ objectId, Below cat pathName objectId →
      (modAccessControl pathName userId level cat).filter (fun a => a.userId = userId ∧ a.objectId = objectId) =
        level.toList.map (⟨objectId,userId,cat.tokenId ·⟩)) ∧
    (modAccessControl pathName userId level cat).filter (¬Theirs cat pathName userId ·) =
      cat.access.filter (¬Theirs cat pathName userId ·) := by
  refine ⟨selectsExactly pathName,fun name path => ?_,fun flag => ?_,fun objectId below => ?_,?_⟩
  · rw [selectsExactly,atOrBeneathCanonical canonical path proper]
  · simp [modInheritance,selectsExactly]
  · have removed : (cat.access.filter (¬Theirs cat pathName userId ·)).filter fun a => a.userId = userId ∧
      a.objectId = objectId = [] := by
      simp only [filter_eq_nil_iff,mem_filter,decide_eq_true_eq]
      rintro a ⟨_,other⟩ ⟨mine,rfl⟩
      exact other ⟨mine,below⟩
    rw [changedRows,filter_append,removed]
    cases level with
    | none => rfl
    | some level =>
      have once := insertedOnce cat pathName below
      have asked : (fun a : AccessRow => decide (a.userId = userId ∧ a.objectId = objectId)) ∘
          (fun o => ⟨o,userId,cat.tokenId level⟩) = fun o => decide (o = objectId) := by
        funext o
        simp
      rw [Option.toList_some,flatMap_singleton,filter_map,asked,once]
      rfl
  · have inserted :
      (level.toList.flatMap fun level => ((dataBelow cat pathName).dedup ++ (collsBelow cat pathName).dedup).map
        fun o => (⟨o,userId,cat.tokenId level⟩ : AccessRow)).filter (¬Theirs cat pathName userId ·) = [] := by
      simp only [filter_eq_nil_iff,mem_flatMap,mem_map,mem_append,mem_dedup]
      rintro _ ⟨_,_,o,below,rfl⟩
      simp [Theirs,Below,below]
    rw [changedRows,filter_append,inserted]
    simp

end Subtree

-- The underscore stands for itself, so the row of /z/axb stays.
def twoHomes : Catalog :=
  ⟨[⟨1,lit "/z",lit "/z/a_b",false⟩,⟨2,lit "/z",lit "/z/axb",false⟩,⟨3,lit "/z/a_b",lit "/z/a_b/c",false⟩],[⟨4,3⟩],
    [⟨2,9,7⟩,⟨4,9,7⟩],fun _ => 5,by decide⟩

theorem wildcardHomeChanged : Canonical (lit "/z/a_b") ∧ lit "/z/a_b" ≠ ['/'] ∧
    (modAccessControl (lit "/z/a_b") 9 (some (lit "own")) twoHomes).filter
    (¬Theirs twoHomes (lit "/z/a_b") 9 ·) = [⟨2,9,7⟩] :=
  ⟨by decide,by decide,
    (recursiveChangeExact twoHomes (lit "/z/a_b") 9 (some (lit "own")) (by decide) (by decide)).2.2.2.2.trans
    (by decide)⟩

end Irods.RecursiveAccess
