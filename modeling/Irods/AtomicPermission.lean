import Irods.AtomicCatalog

/-! Whom the atomic metadata and ACL requests authorise. A user is a name and a zone; the check
looks at the name. -/
namespace Irods.AtomicPermission
open CText JsonValue AtomicCatalog List

def onObject : Api → Bool
  | .acl => true
  | .metadata entity => entity = .dataObject || entity = .collection

/- Which access the request asks for: own, or at least modify_object. -/
def accepts : Api → Int → Bool
  | .acl,t => t = AccessType.own.id
  | .metadata _,t => AccessType.modifyObject.id ≤ t

def InGroup (cat : Catalog) (name : Text) (zones : Text → Prop) (g : Int) : Prop :=
  ∃ u ∈ cat.users, u.userName = name ∧ zones u.zoneName ∧ ⟨g,u.userId⟩ ∈ cat.groups

def Granted (cat : Catalog) (api : Api) (objectId g : Int) : Prop :=
  ∃ a ∈ cat.access, a.userId = g ∧ a.objectId = objectId ∧ accepts api a.accessTypeId = true

def Holds (cat : Catalog) (api : Api) (objectId : Int) (name zone : Text) : Prop :=
  ∃ g, InGroup cat name (· = zone) g ∧ Granted cat api objectId g

variable {cat : Catalog} {name : Text} {objectId : Int}

theorem accessSelected {api} :
    selectAccess cat name objectId (accepts api) ≠ [] ↔
      ∃ g, InGroup cat name (fun _ => True) g ∧ Granted cat api objectId g := by
  rw [Ne,eq_nil_iff_forall_not_mem,not_forall]
  simp only [not_not,selectAccess,mem_dedup,mem_flatMap,mem_map,mem_filter,Bool.and_eq_true,
    decide_eq_true_eq]
  constructor
  · rintro ⟨t,ug,grouped,u,⟨member,joined,named⟩,a,⟨row,⟨granted,object⟩,accepted⟩,_⟩
    exact ⟨ug.groupUserId,⟨u,member,named,trivial,by rw [← joined]; exact grouped⟩,a,row,granted.symm,object,accepted⟩
  · rintro ⟨g,⟨u,member,named,_,grouped⟩,a,row,granted,object,accepted⟩
    exact ⟨a.accessTypeId,⟨g,u.userId⟩,grouped,u,⟨member,rfl,named⟩,a,⟨row,⟨granted.symm,object⟩,accepted⟩,rfl⟩

variable {comm : Client} {fault : Bool}

theorem permissionIsAccess {api} (object : onObject api = true) :
    userHasPermission api comm cat fault objectId =
      nextRow fault (selectAccess cat comm.userName objectId (accepts api)) := by
  cases api with
  | acl => rfl
  | metadata entity => cases entity <;> first | rfl | simp [onObject] at object

variable {input : Json}

theorem passesIff {api} (object : onObject api = true)
    (ordinary : isPrivilegedClient comm = false) :
    permissionCheck api comm cat fault input objectId = .passed ↔
      adminMode input = .ok false ∧ fault = false ∧
        ∃ g, InGroup cat comm.userName (fun _ => True) g ∧ Granted cat api objectId g := by
  rw [← accessSelected]
  unfold permissionCheck
  cases mode : adminMode input with
  | error e => simp
  | ok admin =>
    cases admin with
    | true => simp [ordinary]
    | false =>
      simp only [permissionIsAccess object,nextRow]
      cases fault with
      | true => simp
      | false => cases found : selectAccess cat comm.userName objectId (accepts api) <;> simp

theorem checkSame {api cat'} (object : onObject api = true)
    (same : (∃ g, InGroup cat' comm.userName (fun _ => True) g ∧ Granted cat' api objectId g) ↔
      ∃ g, InGroup cat comm.userName (fun _ => True) g ∧ Granted cat api objectId g) :
    permissionCheck api comm cat' fault input objectId = permissionCheck api comm cat fault input objectId := by
  rw [← accessSelected,← accessSelected] at same
  have rows : (selectAccess cat' comm.userName objectId (accepts api)).isEmpty =
      (selectAccess cat comm.userName objectId (accepts api)).isEmpty := by
    rw [Bool.eq_iff_iff,List.isEmpty_iff,List.isEmpty_iff]
    exact not_iff_not.mp same
  unfold permissionCheck
  rw [permissionIsAccess object,permissionIsAccess object,nextRow,nextRow,rows]

def Own (cat : Catalog) (name zone : Text) (g : Int) : Prop :=
  ∃ u ∈ cat.users, u.userName = name ∧ u.zoneName = zone ∧ (g = u.userId ∨ ⟨g,u.userId⟩ ∈ cat.groups)

structure OthersChanged (cat cat' : Catalog) (name zone : Text) : Prop where
  users : cat'.users = cat.users
  groups : cat'.groups = cat.groups
  kept : ∀ a, Own cat name zone a.userId → (a ∈ cat'.access ↔ a ∈ cat.access)

variable {zone : Text} {g : Int}

theorem grantedKept {cat' api} (others : OthersChanged cat cat' name zone)
    (own : Own cat name zone g) : Granted cat' api objectId g ↔ Granted cat api objectId g := by
  constructor <;> rintro ⟨a,row,rfl,rest⟩
  · exact ⟨a,(others.kept a own).mp row,rfl,rest⟩
  · exact ⟨a,(others.kept a own).mpr row,rfl,rest⟩

theorem inGroupKept {cat' zones} (others : OthersChanged cat cat' name zone) :
    InGroup cat' name zones g ↔ InGroup cat name zones g := by
  unfold InGroup
  rw [others.users,others.groups]

theorem inGroupOwn : InGroup cat name (· = zone) g → Own cat name zone g :=
  fun ⟨u,member,named,here,grouped⟩ => ⟨u,member,named,here,.inr grouped⟩

theorem inGroupSplit (inside : InGroup cat name (fun _ => True) g) :
    InGroup cat name (· = zone) g ∨ InGroup cat name (· ≠ zone) g := by
  obtain ⟨u,member,named,_,grouped⟩ := inside
  by_cases here : u.zoneName = zone
  · exact .inl ⟨u,member,named,here,grouped⟩
  · exact .inr ⟨u,member,named,here,grouped⟩

theorem inGroupAny {zones} (inside : InGroup cat name zones g) :
    InGroup cat name (fun _ => True) g := by
  obtain ⟨u,member,named,_,grouped⟩ := inside
  exact ⟨u,member,named,trivial,grouped⟩

structure Authorised (api : Api) (comm : Client) (cat : Catalog) (fault : Bool) (input : Json) (objectId : Int) :
    Prop where
  actual : permissionCheck api comm cat fault input objectId = .passed →
    Holds cat api objectId comm.userName comm.rodsZone
  unaffected : ∀ cat', OthersChanged cat cat' comm.userName comm.rodsZone →
    permissionCheck api comm cat' fault input objectId = permissionCheck api comm cat fault input objectId

/- Every group of a user of that name in another zone is one of the client's, or the client's
own row without the access. -/
def Separate (cat : Catalog) (api : Api) (objectId : Int) (name zone : Text) : Prop :=
  ∀ g, InGroup cat name (· ≠ zone) g →
    InGroup cat name (· = zone) g ∨ Own cat name zone g ∧ ¬Granted cat api objectId g

section
variable {api} (object : onObject api = true)
include object

theorem separateAuthorised (ordinary : isPrivilegedClient comm = false)
    (separate : Separate cat api objectId comm.userName comm.rodsZone) :
    Authorised api comm cat fault input objectId where
  actual passed := by
    obtain ⟨_,_,g,inside,granted⟩ := (passesIff object ordinary).mp passed
    rcases inGroupSplit inside with here | there
    · exact ⟨g,here,granted⟩
    rcases separate g there with here | ⟨_,bare⟩
    · exact ⟨g,here,granted⟩
    · contradiction
  unaffected cat' others := checkSame object (exists_congr fun g => by
    rw [inGroupKept others]
    refine and_congr_right fun inside => grantedKept others ?_
    rcases inGroupSplit inside with here | there
    · exact inGroupOwn here
    · exact (separate g there).elim inGroupOwn And.left)

theorem holdsAuthorised (holds : Holds cat api objectId comm.userName comm.rodsZone) :
    Authorised api comm cat fault input objectId where
  actual _ := holds
  unaffected cat' others := by
    obtain ⟨g,inside,granted⟩ := holds
    exact checkSame object (iff_of_true
      ⟨g,(inGroupKept others).mpr (inGroupAny inside),(grantedKept others (inGroupOwn inside)).mpr granted⟩
      ⟨g,inGroupAny inside,granted⟩)

theorem refusedAuthorised (ordinary : isPrivilegedClient comm = false)
    (refused : adminMode input ≠ .ok false ∨ fault = true) :
    Authorised api comm cat fault input objectId where
  actual passed := by
    obtain ⟨plain,sound,_⟩ := (passesIff object ordinary).mp passed
    rcases refused with other | broken
    · contradiction
    · rw [sound] at broken
      cases broken
  unaffected cat' _ := by
    unfold permissionCheck
    rw [permissionIsAccess object,permissionIsAccess object]
    rcases refused with other | broken
    · cases mode : adminMode input with
      | error e => rfl
      | ok admin => cases admin with
        | true => rfl
        | false => contradiction
    · rw [nextRow,nextRow,if_pos broken,if_pos broken]

end

def granting (cat : Catalog) (objectId g : Int) : Catalog :=
  {cat with access := ⟨objectId,g,AccessType.own.id⟩::cat.access}

theorem grantingOthers (foreign : ¬Own cat name zone g) :
    OthersChanged cat (granting cat objectId g) name zone where
  users := rfl
  groups := rfl
  kept a own := by
    have differs : a ≠ ⟨objectId,g,AccessType.own.id⟩ := by
      rintro rfl
      exact foreign own
    simp [granting,differs]

theorem grantingGrants {api} : Granted (granting cat objectId g) api objectId g :=
  ⟨⟨objectId,g,AccessType.own.id⟩,mem_cons_self,rfl,rfl,by cases api <;> rfl⟩

theorem authorisedSeparate {api} (object : onObject api = true)
    (ordinary : isPrivilegedClient comm = false) (plain : adminMode input = .ok false) (sound : fault = false)
    (authorised : Authorised api comm cat fault input objectId)
    (none : ¬Holds cat api objectId comm.userName comm.rodsZone) :
    Separate cat api objectId comm.userName comm.rodsZone := by
  intro g there
  have bare : ¬Granted cat api objectId g := fun granted =>
    none (authorised.actual ((passesIff object ordinary).mpr ⟨plain,sound,g,inGroupAny there,granted⟩))
  refine .inr ⟨?_,bare⟩
  by_contra foreign
  have others : OthersChanged cat (granting cat objectId g) comm.userName comm.rodsZone := grantingOthers foreign
  have changed := authorised.unaffected _ others
  have passed :=
    (passesIff object ordinary).mpr ⟨plain,sound,g,(inGroupKept others).mpr (inGroupAny there),grantingGrants⟩
  exact none (authorised.actual (changed.symm.trans passed))

theorem authorisedExactly {api : Api} {comm : Client} {cat : Catalog} {fault : Bool} {input : Json} {objectId : Int}
    (object : onObject api = true) (ordinary : isPrivilegedClient comm = false) :
    Authorised api comm cat fault input objectId ↔
      adminMode input ≠ .ok false ∨ fault = true ∨ Holds cat api objectId comm.userName comm.rodsZone ∨
        Separate cat api objectId comm.userName comm.rodsZone := by
  constructor
  · intro authorised
    by_cases plain : adminMode input = .ok false
    · by_cases broken : fault = true
      · exact .inr (.inl broken)
      by_cases holds : Holds cat api objectId comm.userName comm.rodsZone
      · exact .inr (.inr (.inl holds))
      exact .inr (.inr (.inr (authorisedSeparate object ordinary plain (by simpa using broken) authorised holds)))
    · exact .inl plain
  · rintro (other | broken | holds | separate)
    · exact refusedAuthorised object ordinary (.inl other)
    · exact refusedAuthorised object ordinary (.inr broken)
    · exact holdsAuthorised object holds
    · exact separateAuthorised object ordinary separate

def twoZones : Catalog where
  users := [⟨1,lit "alice",lit "tempZone"⟩,⟨2,lit "alice",lit "otherZone"⟩]
  groups := [⟨1,1⟩,⟨2,2⟩]
  access := [⟨9,2,1200⟩]

def aliceAt (zone : Text) : Client := ⟨lit "alice",zone,3⟩

theorem ownerAuthorised : Authorised .acl (aliceAt (lit "otherZone")) twoZones false (.object []) 9 :=
  (authorisedExactly rfl rfl).mpr (.inr (.inr (.inl
    ⟨2,⟨⟨2,lit "alice",lit "otherZone"⟩,by decide,rfl,rfl,by decide⟩,⟨9,2,1200⟩,by decide,rfl,rfl,by decide⟩)))

theorem namesakePasses :
    permissionCheck .acl (aliceAt (lit "tempZone")) twoZones false (.object []) 9 = .passed ∧
    permissionCheck (.metadata .dataObject) (aliceAt (lit "tempZone")) twoZones false (.object []) 9 = .passed ∧
    ∀ api, ¬Holds twoZones api 9 (lit "alice") (lit "tempZone") := by
  refine ⟨rfl,rfl,?_⟩
  rintro _ ⟨g,⟨u,member,_,zone,grouped⟩,a,row,_,_⟩
  have first : u.userId = 1 := by
    have either : u = ⟨1,lit "alice",lit "tempZone"⟩ ∨ u = ⟨2,lit "alice",lit "otherZone"⟩ := by
      simpa [twoZones] using member
    rcases either with rfl | rfl
    · rfl
    · exact absurd zone (by decide)
  have own : g = 1 := by
    have either : g = 1 ∧ u.userId = 1 ∨ g = 2 ∧ u.userId = 2 := by simpa [twoZones] using grouped
    omega
  have foreign : a.userId = 2 := by
    have only : a = ⟨9,2,1200⟩ := by simpa [twoZones] using row
    rw [only]
  omega

end Irods.AtomicPermission
