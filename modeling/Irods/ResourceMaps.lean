import Irods.CText

/-! resource_manager::init_from_catalog, called again and again. A resource object is known by the call that made it
and its row; rows whose plugin cannot be loaded are skipped and not listed here. -/
namespace Irods.ResourceMaps
open CText List Option

structure Row where
  id : Int
  name : Text
  parent : Text
  deriving DecidableEq

structure Listing where
  rows : List Row
  names : (rows.map Row.name).Nodup
  ids : (rows.map Row.id).Nodup

abbrev Resource := Nat × Row

structure Manager where
  calls : Nat
  nameMap : Text → Option Resource
  idMap : Int → Option Resource
  parent : Resource → Option Resource
  children : Resource → Text → Option Resource

def Manager.start : Manager := ⟨0,fun _ => none,fun _ => none,fun _ => none,fun _ _ => none⟩

section Loading
variable (lexicalCast : Text → Option Int)

-- The last row with a key counts.
def latest (call : Nat) (listing : Listing) (p : Row → Bool) : Option Resource :=
  (listing.rows.reverse.find? p).map (call,·)

def above (idMap : Int → Option Resource) (child : Resource) : Option Resource :=
  if child.2.parent = [] then none else (lexicalCast child.2.parent).bind idMap

/- Only the map of names is cleared. The objects made by this call start without parent and children. -/
def initFromCatalog (m : Manager) (listing : Listing) : Manager :=
  let idMap i := (latest m.calls listing (·.id = i)).or (m.idMap i)
  { calls := m.calls+1
    nameMap := fun n => latest m.calls listing (·.name = n)
    idMap
    parent := fun r => if r.1 = m.calls then above lexicalCast idMap r else m.parent r
    children := fun r n => ((latest m.calls listing (·.name = n)).filter (above lexicalCast idMap · = some r)).or
      (if r.1 = m.calls then none else m.children r n) }

def runs (listings : List Listing) : Manager := listings.foldl (initFromCatalog lexicalCast) .start

def Held (m : Manager) (r : Resource) : Prop := (∃ n, m.nameMap n = some r) ∨ ∃ i, m.idMap i = some r

structure Exact (m : Manager) (call : Nat) (listing : Listing) : Prop where
  names : ∀ n r, m.nameMap n = some r ↔ r.1 = call ∧ r.2 ∈ listing.rows ∧ r.2.name = n
  ids : ∀ i r, m.idMap i = some r ↔ r.1 = call ∧ r.2 ∈ listing.rows ∧ r.2.id = i
  parents : ∀ r, Held m r → ∀ p, m.parent r = some p → p.1 = call
  childMaps : ∀ r, Held m r → ∀ n c, m.children r n = some c → c.1 = call

variable {lexicalCast}

theorem latestFound {α : Type} [DecidableEq α] {listing} {f : Row → α} (once : (listing.rows.map f).Nodup) (k a r) :
    latest k listing (f · = a) = some r ↔ r.1 = k ∧ r.2 ∈ listing.rows ∧ f r.2 = a := by
  unfold latest
  cases found : listing.rows.reverse.find? (f · = a) with
  | none =>
    have absent : ∀ x ∈ listing.rows, f x ≠ a := by simpa using found
    exact iff_of_false (by simp) fun its => absent r.2 its.2.1 its.2.2
  | some y =>
    have here := mem_reverse.1 (mem_of_find?_eq_some found)
    have its : f y = a := by simpa using List.find?_some found
    constructor
    · rintro ⟨⟩
      exact ⟨rfl,here,its⟩
    · rintro ⟨rfl,mem,same⟩
      rw [inj_on_of_nodup_map once here mem (its.trans same.symm)]
      rfl

theorem aboveMapped {idMap child r} (found : above lexicalCast idMap child = some r) : ∃ i, idMap i = some r := by
  unfold above at found
  split at found
  · cases found
  · obtain ⟨i,_,its⟩ := bind_eq_some_iff.1 found
    exact ⟨i,its⟩

/- An id once listed stays in the map of ids. -/
theorem keptRuns (lexicalCast listings) : (runs lexicalCast listings).calls = listings.length ∧
    ∀ i, ((runs lexicalCast listings).idMap i).isSome = true ↔ ∃ l ∈ listings, ∃ r ∈ l.rows, r.id = i := by
  induction listings using reverseRecOn with
  | nil => simp [runs,Manager.start]
  | append_singleton _ _ ih =>
    rw [runs,foldl_append,← runs]
    simp [initFromCatalog,latest,ih,or_comm]

theorem mapsExactly (lexicalCast before last) : Exact (runs lexicalCast (before ++ [last])) before.length last ↔
    ∀ l ∈ before, ∀ r ∈ l.rows, ∃ r' ∈ last.rows, r'.id = r.id := by
  obtain ⟨calls,kept⟩ := keptRuns lexicalCast before
  have done : runs lexicalCast (before ++ [last]) = initFromCatalog lexicalCast (runs lexicalCast before) last := by
    simp [runs]
  rw [done,← calls]
  generalize runs lexicalCast before = m at kept
  constructor
  · intro exactly l earlier r here
    obtain ⟨o,its⟩ := isSome_iff_exists.1 ((kept r.id).2 ⟨l,earlier,r,here,rfl⟩)
    cases new : latest m.calls last (·.id = r.id) with
    | some o' => exact ⟨o'.2,((latestFound last.ids _ _ _).1 new).2⟩
    | none =>
      have stale : (initFromCatalog lexicalCast m last).idMap r.id = some o := by simp [initFromCatalog,new,its]
      exact ⟨o.2,((exactly.ids _ _).1 stale).2⟩
  · intro again
    have ids : ∀ i r, (initFromCatalog lexicalCast m last).idMap i = some r ↔
      r.1 = m.calls ∧ r.2 ∈ last.rows ∧ r.2.id = i := by
      intro i r
      rw [← latestFound last.ids m.calls i r]
      cases new : latest m.calls last (·.id = i) with
      | some o => simp [initFromCatalog,new]
      | none =>
        have gone := not_isSome_iff_eq_none.1 fun nonempty => by
          obtain ⟨l,earlier,x,here,rfl⟩ := (kept i).1 nonempty
          obtain ⟨x',there,same⟩ := again l earlier x here
          exact absurd ((latestFound last.ids m.calls _ (m.calls,x')).2 ⟨rfl,there,same⟩) (by simp [new])
        simp [initFromCatalog,new,gone]
    have names := latestFound last.names m.calls
    have new : ∀ r, Held (initFromCatalog lexicalCast m last) r → r.1 = m.calls := by
      rintro r (⟨n,found⟩ | ⟨i,found⟩)
      · exact ((names n r).1 found).1
      · exact ((ids i r).1 found).1
    refine ⟨names,ids,fun r held p found => ?_,fun r held n c found => ?_⟩
    · obtain ⟨i,its⟩ := aboveMapped ((if_pos (new r held)).symm.trans found)
      exact ((ids i p).1 its).1
    rcases or_eq_some_iff.1 found with wired | ⟨_,old⟩
    · exact ((names n c).1 (filter_eq_some_iff.1 wired).1).1
    · rw [if_pos (new r held)] at old
      cases old

end Loading

def oneResource (id : Int) (name : Text) : Listing := ⟨[⟨id,name,[]⟩],by simp,by simp⟩

theorem removedResourceStays :
    (runs (fun _ => none) [oneResource 1 (lit "a"),oneResource 2 (lit "b")]).idMap 1 = some (0,⟨1,lit "a",[]⟩) ∧
    ¬Exact (runs (fun _ => none) [oneResource 1 (lit "a"),oneResource 2 (lit "b")]) 1 (oneResource 2 (lit "b")) :=
  ⟨by decide,fun exactly => absurd ((exactly.ids 1 (0,⟨1,lit "a",[]⟩)).1 (by decide)) (by decide)⟩

end Irods.ResourceMaps
