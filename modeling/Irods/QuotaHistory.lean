import Irods.LogicalQuota

/-! The row of R_LOGICAL_QUOTA_MAIN a collection has after successful calls of db_set_logical_quota_op and
db_calc_logical_usage_and_quota_op; coll_id is its primary key. -/
namespace Irods.QuotaHistory
open CText LogicalQuota Option

abbrev Table := Int → Option QuotaRow

-- A negative limit is not in the statement that updates.
def given (limit before : Int) : Int := if limit < 0 then before else limit

def setRow (collId : Int) (byteLimit objectLimit : Int) (now : Text) (row : Option QuotaRow) : Option QuotaRow :=
  if byteLimit < 0 ∧ objectLimit < 0 then row
  else
    let updated := row.map fun q =>
      {q with maxBytes := given byteLimit q.maxBytes, maxObjects := given objectLimit q.maxObjects, modifyTs := now}
    if byteLimit ≤ 0 ∧ objectLimit ≤ 0 then updated.filter fun q => ¬(q.maxBytes = 0 ∧ q.maxObjects = 0)
    else some (updated.getD ⟨collId,given byteLimit 0,given objectLimit 0,-given byteLimit 0,-given objectLimit 0,now⟩)

-- The statement treats each row of the table by itself.
def calculateRow (cat : Catalog) (now : Text) (q : QuotaRow) : Option QuotaRow :=
  (dbCalcLogicalUsageAndQuotaOp {cat with quotas := [q]} true now).toOption.bind (·.quotas.head?)

inductive Call where
  | setQuota (collId : Int) (byteLimit objectLimit : Int) (now : Text)
  | calculate (cat : Catalog) (now : Text)

def Call.run (t : Table) : Call → Table
  | .setQuota collId byteLimit objectLimit now =>
      Function.update t collId (setRow collId byteLimit objectLimit now (t collId))
  | .calculate cat now => fun collId => (t collId).bind (calculateRow cat now)

-- The last limits given for a collection, and what they were at the last calculation.
structure Limits where
  bytes : Int
  objects : Int
  bytesThen : Int
  objectsThen : Int

def Limits.after (collId : Int) (l : Limits) : Call → Limits
  | .setQuota i byteLimit objectLimit _ =>
    if i = collId then {l with bytes := given byteLimit l.bytes, objects := given objectLimit l.objects} else l
  | .calculate _ _ => {l with bytesThen := l.bytes, objectsThen := l.objects}

structure Kept (l : Limits) (row : Option QuotaRow) : Prop where
  present : row ≠ none ↔ 0 < l.bytes ∨ 0 < l.objects
  limits : ∀ q ∈ row, q.maxBytes = l.bytes ∧ q.maxObjects = l.objects
  excess : ∀ q ∈ row, (0 < q.overBytes → 0 < l.bytesThen) ∧ (0 < q.overObjects → 0 < l.objectsThen)
  nonneg : 0 ≤ l.bytes ∧ 0 ≤ l.objects

theorem overSome {limit used : Int} (nonneg : 0 ≤ limit) (more : 0 < limit.sign*limit.sign*(used-limit)) :
    0 < limit := by
  rcases Int.lt_or_eq_of_le nonneg with nonempty | none
  · exact nonempty
  · simp [← none] at more

theorem givenNonneg {limit before} (nonneg : 0 ≤ before) : 0 ≤ given limit before := by
  unfold given
  split <;> omega

theorem setKept {l row} (kept : Kept l row) (collId byteLimit objectLimit now) :
    Kept {l with bytes := given byteLimit l.bytes, objects := given objectLimit l.objects}
      (setRow collId byteLimit objectLimit now row) := by
  have nonneg := kept.nonneg
  have bytes : 0 ≤ given byteLimit l.bytes := givenNonneg nonneg.1
  have objects : 0 ≤ given objectLimit l.objects := givenNonneg nonneg.2
  unfold setRow
  by_cases idle : byteLimit < 0 ∧ objectLimit < 0
  · rw [if_pos idle]
    simpa [given,idle] using kept
  rw [if_neg idle]
  -- Unless both limits are gone the new row or the updated one is there.
  have positive : 0 < byteLimit ∨ 0 < objectLimit → 0 < given byteLimit l.bytes ∨ 0 < given objectLimit l.objects := by
    unfold given
    split_ifs <;> omega
  cases row with
  | none =>
    have none : l.bytes = 0 ∧ l.objects = 0 := by have := kept.present; simp at this; omega
    rw [none.1] at bytes positive
    rw [none.2] at objects positive
    simp only [none,map_none,getD_none]
    split
    · refine ⟨?_,nofun,nofun,bytes,objects⟩
      unfold given
      split_ifs <;> simp <;> omega
    · exact ⟨by simpa using positive (by omega),by rintro _ ⟨⟩; exact ⟨rfl,rfl⟩,by rintro _ ⟨⟩; dsimp only; omega,bytes,
          objects⟩
  | some q =>
    obtain ⟨b,o⟩ := kept.limits q rfl
    have stays nonempty :
        Kept {l with bytes := given byteLimit l.bytes, objects := given objectLimit l.objects}
          (some {q with
            maxBytes := given byteLimit l.bytes, maxObjects := given objectLimit l.objects, modifyTs := now}) :=
      ⟨by simpa using nonempty,by rintro _ ⟨⟩; exact ⟨rfl,rfl⟩,by rintro _ ⟨⟩; exact kept.excess q rfl,bytes,objects⟩
    simp only [map_some,b,o]
    split
    · by_cases zero : given byteLimit l.bytes = 0 ∧ given objectLimit l.objects = 0
      · rw [filter_some,if_neg (by simpa using zero)]
        exact ⟨by simp [zero],nofun,nofun,bytes,objects⟩
      · rw [filter_some,if_pos (decide_eq_true zero)]
        exact stays (by omega)
    · exact stays (positive (by omega))

theorem rowCalculated (cat now q) : calculateRow cat now q = some (updatedQuota {cat with quotas := [q]} now q) := rfl

theorem keptStep {collId l t} (kept : Kept l (t collId)) (call) : Kept (l.after collId call) (call.run t collId) := by
  cases call with
  | calculate cat now =>
    simp only [Call.run,Limits.after]
    cases row : t collId with
    | none => exact ⟨by simpa [row] using kept.present,nofun,nofun,kept.nonneg⟩
    | some q =>
      obtain ⟨b,o⟩ := kept.limits q row
      rw [bind_some,rowCalculated]
      refine ⟨by simpa [row] using kept.present,?_,?_,kept.nonneg⟩
      · rintro _ ⟨⟩
        exact ⟨b,o⟩
      · rintro _ ⟨⟩
        rw [← b,← o]
        exact ⟨overSome (b ▸ kept.nonneg.1),overSome (o ▸ kept.nonneg.2)⟩
  | setQuota i byteLimit objectLimit now =>
    simp only [Call.run,Limits.after]
    by_cases same : i = collId
    · subst same
      simpa using setKept kept i byteLimit objectLimit now
    · simpa [same,Function.update_of_ne (Ne.symm same)] using kept

theorem quotaKept (collId) (calls : List Call) (t : Table) (fresh : t collId = none) :
    Kept (calls.foldl (Limits.after collId) ⟨0,0,0,0⟩) (calls.foldl Call.run t collId) := by
  have run : ∀ l t, Kept l (t collId) → Kept (calls.foldl (Limits.after collId) l) (calls.foldl Call.run t collId) := by
    induction calls with
    | nil => exact fun _ _ kept => kept
    | cons call _ ih => exact fun l t kept => ih _ _ (keptStep kept call)
  exact run _ t ⟨by simp [fresh],by simp [fresh],by simp [fresh],by simp⟩

def oneObject : Catalog := ⟨[⟨1,lit "/",lit "/z",false⟩],[],[⟨7,1,100,1⟩],by decide,by decide⟩
def limitedThenFreed : List Call := [.setQuota 1 10 5 [],.calculate oneObject [],.setQuota 1 0 (-1) []]

theorem freedKept : Kept ⟨0,5,10,5⟩ (limitedThenFreed.foldl Call.run (fun _ => none) 1) :=
  quotaKept 1 limitedThenFreed _ rfl

theorem freedStillOver : limitedThenFreed.foldl Call.run (fun _ => none) 1 = some ⟨1,0,5,90,-4,[]⟩ := by decide +kernel

end Irods.QuotaHistory
