import Irods.CollMain

/-! Logical quotas on collections, db_plugin.cpp: which quota rows a check reports and which
rows a calculation charges with a data object. The statements are those of the PostgreSQL
catalog; LIKE without ESCAPE has no escape character, as in the standard. -/
namespace Irods.LogicalQuota
open CText CollMain PathNames SqlLike List

structure QuotaRow where
  collId : Int
  maxBytes : Int
  maxObjects : Int
  overBytes : Int
  overObjects : Int
  modifyTs : Text
  deriving DecidableEq, Repr

structure DataRow where
  dataId : Nat
  collId : Int
  dataSize : Int
  dataIsDirty : Int
  deriving DecidableEq, Repr

/- R_COLL_MAIN, R_LOGICAL_QUOTA_MAIN and R_DATA_MAIN. Collections have one row each,
under a canonical absolute path. -/
structure Catalog where
  collections : List CollRow
  quotas : List QuotaRow
  data : List DataRow
  oneRow : (collections.map (·.collId)).Nodup
  canonical : ∀ r ∈ collections, Canonical r.collName

def PATH_SEPARATOR : Text := ['/']
def CAT_INSUFFICIENT_PRIVILEGE_LEVEL : Int := -830000

abbrev Quota := Text × Int × Int × Int × Int × Text

def quotaOf (r : CollRow) (q : QuotaRow) : Quota :=
  (r.collName,q.maxBytes,q.maxObjects,q.overBytes,q.overObjects,q.modifyTs)

-- (SIGN(x)+1)*(-1)*SIGN(x)*(SIGN(x)-2): 2 where the limit is violated, else 0.
def violated (excess : Int) : Int := (excess.sign+1)*(-1)*excess.sign*(excess.sign-2)

def severity : Quota → Int
  | (_,_,_,overBytes,overObjects,_) => violated overBytes+violated overObjects

def ordered (qs : List Quota) : List Quota := qs.mergeSort (fun a b => severity b ≤ severity a)

def reportedRows (cat : Catalog) (collName : Text) : List Quota :=
  cat.quotas.flatMap fun q => (cat.collections.filter fun r =>
    decide (r.collId = q.collId) && like none (r.collName ++ ['%']) collName).map (quotaOf · q)

def allRows (cat : Catalog) : List Quota :=
  cat.quotas.flatMap fun q => (cat.collections.filter fun r => decide (r.collId = q.collId)).map (quotaOf · q)

/- accessCheck is what cmlCheckDir answers for the caller. -/
def dbCheckLogicalQuotaOp (cat : Catalog) (admin : Bool) (accessCheck : Int) (collName : Text) :
    Except Int (List Quota) :=
  if collName ≠ [] then
    if accessCheck < 0 then .error accessCheck else .ok (ordered (reportedRows cat collName))
  else if !admin then .error CAT_INSUFFICIENT_PRIVILEGE_LEVEL
  else .ok (ordered (allRows cat))

/- The usage of one quota row: what of R_DATA_MAIN the subquery joins with its collection. -/
def beneath (base name : Text) : Bool :=
  like (some '\\') (escapeWildcards base ++ PATH_SEPARATOR ++ ['%']) name || name == base

def charged (cat : Catalog) (q : QuotaRow) (d : DataRow) : Bool :=
  cat.collections.any fun one => decide (one.collId = q.collId) &&
    cat.collections.any fun two => decide (d.collId = two.collId) && beneath one.collName two.collName

def chargedRows (cat : Catalog) (q : QuotaRow) : List DataRow := cat.data.filter (charged cat q)

def countedSize (d : DataRow) : Int :=
  if d.dataIsDirty = 0 ∨ d.dataIsDirty = 1 ∨ d.dataIsDirty = 4 then d.dataSize else 0

def replicaRank (d : DataRow) : Int :=
  if d.dataIsDirty = 1 then 4 else if d.dataIsDirty = 4 then 3 else if d.dataIsDirty = 0 then 2 else 1

/- ROW_NUMBER over one data object: the replica of highest rank, the largest of those. -/
def outranks (a b : DataRow) : Bool :=
  decide (replicaRank b < replicaRank a) || (replicaRank a == replicaRank b && decide (b.dataSize ≤ a.dataSize))

def topReplica (rows : List DataRow) (dataId : Nat) : Option DataRow :=
  ((rows.filter (·.dataId = dataId)).mergeSort outranks).head?

def topReplicas (rows : List DataRow) : List DataRow :=
  (rows.map (·.dataId)).dedup.filterMap (topReplica rows)

def updatedQuota (cat : Catalog) (now : Text) (q : QuotaRow) : QuotaRow :=
  let tops := topReplicas (chargedRows cat q)
  {q with
    overBytes := q.maxBytes.sign*q.maxBytes.sign*((tops.map countedSize).sum-q.maxBytes)
    overObjects := q.maxObjects.sign*q.maxObjects.sign*(tops.length-q.maxObjects)
    modifyTs := now}

def dbCalcLogicalUsageAndQuotaOp (cat : Catalog) (admin : Bool) (now : Text) : Except Int Catalog :=
  if !admin then .error CAT_INSUFFICIENT_PRIVILEGE_LEVEL
  else .ok {cat with quotas := cat.quotas.map (updatedQuota cat now)}

theorem beneathSelects (base name) : beneath base name = selects base name := by
  rw [beneath,selects,escapedPath,Bool.or_comm]
  exact congrArg (_ || like _ · name) (append_assoc ..)

theorem beneathIff (base name) : beneath base name = true ↔ AtOrBeneath base name :=
  beneathSelects base name ▸ selectsExactly base name

theorem aboveLike {base name} (left : Canonical base) (right : Canonical name) (above : AtOrAbove base name) :
    like none (base ++ ['%']) name = true := by
  have start : base <+: name := by
    by_cases root : base = ['/']
    · rw [root,right]
      unfold pathText
      split
      · exact prefix_rfl
      rename_i full
      obtain ⟨n,_,parts⟩ := exists_cons_of_ne_nil (by simpa using full)
      rw [parts]
      exact ⟨_,rfl⟩
    · rcases (atOrBeneathCanonical left right root).mpr above with same | below
      · exact same ▸ prefix_rfl
      · exact (prefix_append base _).trans below
  obtain ⟨w,rfl⟩ := start
  exact likeExtension base w

section Rows
variable {cat : Catalog}

theorem collUnique {a b} (left : a ∈ cat.collections) (right : b ∈ cat.collections)
    (same : a.collId = b.collId) : a = b := inj_on_of_nodup_map cat.oneRow left right same

def Applies (cat : Catalog) (name : Text) (q : QuotaRow) : Prop :=
  ∃ r ∈ cat.collections, r.collId = q.collId ∧ AtOrAbove r.collName name

def applicable (cat : Catalog) (name : Text) : List Quota :=
  cat.quotas.flatMap fun q => (cat.collections.filter fun r =>
    decide (r.collId = q.collId) && decide (AtOrAbove r.collName name)).map (quotaOf · q)

theorem memReported {name t} : t ∈ reportedRows cat name ↔
    ∃ q ∈ cat.quotas, ∃ r ∈ cat.collections, r.collId = q.collId ∧ like none (r.collName ++ ['%']) name = true ∧
      quotaOf r q = t := by
  simp [reportedRows,and_assoc]

theorem memApplicable {name t} : t ∈ applicable cat name ↔
    ∃ q ∈ cat.quotas, ∃ r ∈ cat.collections, r.collId = q.collId ∧ AtOrAbove r.collName name ∧ quotaOf r q = t := by
  simp [applicable,and_assoc]

variable {c : CollRow} (member : c ∈ cat.collections)
include member

theorem chargedIff {q d} (lies : d.collId = c.collId) : charged cat q d = true ↔
    ∃ r ∈ cat.collections, r.collId = q.collId ∧ AtOrBeneath r.collName c.collName := by
  simp only [charged,any_eq_true,Bool.and_eq_true,decide_eq_true_iff,beneathIff]
  constructor
  · rintro ⟨r,inside,same,_,inside2,here,below⟩
    obtain rfl := collUnique member inside2 (lies.symm.trans here)
    exact ⟨r,inside,same,below⟩
  · rintro ⟨r,inside,same,below⟩
    exact ⟨r,inside,same,c,member,lies,below⟩

theorem chargedApplies {q} : (∀ d, d.collId = c.collId → (charged cat q d = true ↔ Applies cat c.collName q)) ↔
    ∀ r ∈ cat.collections, r.collId = q.collId → r.collName = ['/'] → c.collName = ['/'] := by
  have right := cat.canonical c member
  constructor
  · intro agree r inside same root
    have applies : Applies cat c.collName q := ⟨r,inside,same,by rw [root]; exact nil_prefix⟩
    obtain ⟨_,inside2,same2,below⟩ := (chargedIff member rfl).mp ((agree ⟨0,c.collId,0,0⟩ rfl).mpr applies)
    obtain rfl := collUnique inside2 inside (same2.trans same.symm)
    rw [root] at below
    exact (atOrBeneathRoot right).mp below
  · intro root d lies
    rw [chargedIff member lies]
    refine exists_congr fun r => and_congr_right fun inside => and_congr_right fun same => ?_
    by_cases top : r.collName = ['/']
    · have here := root r inside same top
      rw [top,here]
      exact iff_of_true (.inl rfl) prefix_rfl
    · exact atOrBeneathCanonical (cat.canonical r inside) right top

theorem reportedApplicable : (reportedRows cat c.collName).Perm (applicable cat c.collName) ↔
    ∀ q ∈ cat.quotas, ∀ r ∈ cat.collections, r.collId = q.collId →
      like none (r.collName ++ ['%']) c.collName = true → AtOrAbove r.collName c.collName := by
  have right := cat.canonical c member
  constructor
  · intro same q quota r inside key found
    have row := same.mem_iff.mp (memReported.mpr ⟨q,quota,r,inside,key,found,rfl⟩)
    obtain ⟨_,-,r2,-,-,above,tuple⟩ := memApplicable.mp row
    have name : r2.collName = r.collName := congrArg Prod.fst tuple
    rwa [name] at above
  · intro exactly
    have rows : reportedRows cat c.collName = applicable cat c.collName := by
      refine flatMap_congr fun q quota => congrArg _ (filter_congr fun r inside => ?_)
      by_cases key : r.collId = q.collId
      · rw [Bool.eq_iff_iff]
        simp only [key,decide_true,Bool.true_and,decide_eq_true_iff]
        exact ⟨exactly q quota r inside key,aboveLike (cat.canonical r inside) right⟩
      · simp [key]
    rw [rows]

end Rows

structure QuotasAgree (cat : Catalog) (admin : Bool) (accessCheck : Int) (c : CollRow) : Prop where
  reported : ∃ rows, dbCheckLogicalQuotaOp cat admin accessCheck c.collName = .ok rows ∧
    rows.Perm (applicable cat c.collName)
  charged : ∀ q ∈ cat.quotas, ∀ d : DataRow, d.collId = c.collId →
    (charged cat q d = true ↔ Applies cat c.collName q)

/- A quota names C only from C or above, also when its name is read as a pattern; and a
quota on the root is met at the root alone. -/
def QuotasApart (cat : Catalog) (c : CollRow) : Prop :=
  ∀ q ∈ cat.quotas, ∀ r ∈ cat.collections, r.collId = q.collId →
    (like none (r.collName ++ ['%']) c.collName = true → AtOrAbove r.collName c.collName) ∧
    (r.collName = ['/'] → c.collName = ['/'])

theorem quotasAgreeExactly {cat : Catalog} {admin : Bool} {accessCheck : Int} {c : CollRow}
    (member : c ∈ cat.collections) (readable : 0 ≤ accessCheck) :
    QuotasAgree cat admin accessCheck c ↔ QuotasApart cat c := by
  have named : c.collName ≠ [] := by
    rw [cat.canonical c member,pathText]
    split
    · simp
    rename_i full
    obtain ⟨n,_,parts⟩ := exists_cons_of_ne_nil (by simpa using full)
    simp [parts,renderCons]
  have answer : dbCheckLogicalQuotaOp cat admin accessCheck c.collName =
    .ok (ordered (reportedRows cat c.collName)) := by
    rw [dbCheckLogicalQuotaOp,if_pos named,if_neg (Int.not_lt.mpr readable)]
  have sorted : (ordered (reportedRows cat c.collName)).Perm (reportedRows cat c.collName) := mergeSort_perm _ _
  constructor
  · rintro ⟨⟨_,same,perm⟩,charges⟩ q quota r inside key
    rw [answer] at same
    cases same
    exact ⟨(reportedApplicable member).mp (sorted.symm.trans perm) q quota r inside key,
      (chargedApplies member).mp (charges q quota) r inside key⟩
  · intro apart
    refine ⟨⟨_,answer,sorted.trans ((reportedApplicable member).mpr ?_)⟩,fun q quota => (chargedApplies member).mpr ?_⟩
    · exact fun q quota r inside key => (apart q quota r inside key).1
    · exact fun r inside key => (apart q quota r inside key).2

def siblings (other : Text) (canonical : Canonical other) : Catalog where
  collections := [⟨1,lit "/",lit "/z",false⟩,⟨2,lit "/z",lit "/z/ab",false⟩,⟨3,lit "/z",other,false⟩]
  quotas := [⟨2,0,1,0,5,lit "01700000000"⟩]
  data := []
  oneRow := by simp
  canonical := by simpa using ⟨rfl,rfl,canonical⟩

theorem quotasAgreeBelow :
    ⟨3,lit "/z",lit "/z/ab/c",false⟩ ∈ (siblings (lit "/z/ab/c") (by decide)).collections ∧
    QuotasAgree (siblings (lit "/z/ab/c") (by decide)) false 3 ⟨3,lit "/z",lit "/z/ab/c",false⟩ := by
  refine ⟨by decide,(quotasAgreeExactly (by decide) (by decide)).mpr ?_⟩
  intro q quota r inside key
  have one : q = ⟨2,0,1,0,5,lit "01700000000"⟩ := by simpa [siblings] using quota
  subst q
  have two : r = ⟨2,lit "/z",lit "/z/ab",false⟩ := collUnique inside (by decide) key
  subst r
  exact ⟨fun _ => by decide,fun root => absurd root (by decide)⟩

theorem siblingReported :
    dbCheckLogicalQuotaOp (siblings (lit "/z/abc") (by decide)) false 3 (lit "/z/abc") =
      .ok [(lit "/z/ab",0,1,0,5,lit "01700000000")] ∧
    ¬AtOrAbove (lit "/z/ab") (lit "/z/abc") ∧
    charged (siblings (lit "/z/abc") (by decide)) ⟨2,0,1,0,5,lit "01700000000"⟩ ⟨9,3,100,1⟩ = false := by
  refine ⟨?_,by decide,by decide⟩
  have rows : reportedRows (siblings (lit "/z/abc") (by decide)) (lit "/z/abc") =
      [(lit "/z/ab",0,1,0,5,lit "01700000000")] := rfl
  rw [dbCheckLogicalQuotaOp,if_pos (by decide),if_neg (by decide),rows,ordered,mergeSort_singleton]

end Irods.LogicalQuota
