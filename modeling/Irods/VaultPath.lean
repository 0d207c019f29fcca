import Irods.PathNames

/-! Whose vault a physical path is in: isValidFilePath and matchCliVaultPath of fileOpr.cpp,
validate_vault_path of irods_resource_manager.cpp. -/
namespace Irods.VaultPath
open CText PathNames List

def SYS_INVALID_INPUT_PARAM : Int := -130000
def SYS_INVALID_FILE_PATH : Int := -31000

-- path.compare(path.size()-3,...) throws when the path is shorter than three bytes.
def isValidFilePath (path : Text) : Option Int :=
  if (strstr path (lit "/../")).isSome then some SYS_INVALID_FILE_PATH
  else if path.length < 3 then none
  else if path.drop (path.length-3) = lit "/.." then some SYS_INVALID_FILE_PATH
  else some 0

/- One entry of resource_name_map_: the two properties that are read, none where
get_property fails. A host is known by its pointer. -/
structure Resource where
  host : Option Nat
  path : Option Text
  deriving DecidableEq, Repr

def validateVaultPath (physicalPath : Text) (svrHost : Nat) : List Resource → Option Text
  | [] => none
  | r::rest =>
    if r.host ≠ some svrHost then validateVaultPath physicalPath svrHost rest
    else match r.path with
      | none => validateVaultPath physicalPath svrHost rest
      | some path =>
        if !path.isEmpty && (strstr physicalPath path).isSome then some path
        else validateVaultPath physicalPath svrHost rest

def matchCliVaultPath (table : List Resource) (svrHost : Nat) (userName path : Text) : Int :=
  if path.isEmpty then SYS_INVALID_INPUT_PARAM
  else match validateVaultPath path svrHost table with
    | none => 0
    | some vaultPath =>
      let userPath := path.drop vaultPath.length
      let homePos := if userPath.head? = some '/' then 1 else 0
      if strstr userPath (lit "home/") ≠ some homePos then -1
      else if strstr userPath userName ≠ some (homePos+5) then -1
      else 1

/- The vaults of a host, in the order of the table. Nodes without storage have an empty path. -/
def vaults (table : List Resource) (svrHost : Nat) : List Text :=
  (table.filter (fun r => r.host = some svrHost)).filterMap (·.path) |>.filter (!·.isEmpty)

theorem validateFinds (path svrHost table) :
    validateVaultPath path svrHost table = (vaults table svrHost).find? fun v => (strstr path v).isSome := by
  induction table with
  | nil => rfl
  | cons r rest ih =>
    unfold validateVaultPath
    by_cases here : r.host = some svrHost
    · rw [if_neg (not_not_intro here)]
      cases found : r.path with
      | none =>
        rw [ih]
        simp [vaults,found]
      | some v =>
        by_cases empty : v.isEmpty
        · simp only [ih]
          simp [vaults,here,found,empty]
        · have kept : vaults (r::rest) svrHost = v::vaults rest svrHost := by simp [vaults,here,found,empty]
          simp only [empty]
          split <;> simp_all
    · rw [ih]
      simp [vaults,here]

def home : Text := lit "home"

def StartsAtHome (userName rest : Text) : Prop :=
  ¬userName <:+: home ∧ (lit "/home/" ++ userName <+: rest ∨ lit "home/" ++ userName <+: rest)

instance (userName rest) : Decidable (StartsAtHome userName rest) := by unfold StartsAtHome; infer_instance

section User
variable {u : Text} (named : u ≠ []) (solid : '/' ∉ u)
include named solid

theorem notAtSlash (rest) : ¬u <+: '/'::rest := by
  intro start
  cases u with
  | nil => exact named rfl
  | cons c u =>
    have same : c = '/' := (cons_prefix_cons.mp start).1
    exact solid (by simp [same])

theorem foundBehindHome {a} (rest) (front : a = [] ∨ a = ['/']) :
    strstr (a ++ home ++ '/'::rest) u = some (a.length+5) ↔ ¬u <:+: home ∧ u <+: rest := by
  have size : home.length = 4 := rfl
  rw [strstrFirst]
  have behind : (a ++ home ++ '/'::rest).drop (a.length+5) = rest := by
    have parts : a ++ home ++ '/'::rest = (a ++ home ++ ['/']) ++ rest := by simp
    rw [parts,drop_left' (by simp [size])]
  rw [behind]
  constructor
  · rintro ⟨-,here,earlier⟩
    refine ⟨?_,here⟩
    intro inside
    obtain ⟨t,start,s,whole⟩ := infix_iff_prefix_suffix.mp inside
    have sizes := congrArg List.length whole
    rw [length_append] at sizes
    refine earlier (a.length+s.length) (by omega) ?_
    have parts : a ++ home ++ '/'::rest = (a ++ s) ++ (t ++ '/'::rest) := by rw [← whole]; simp
    rw [parts,drop_left' (by simp)]
    exact start.trans (prefix_append t _)
  · rintro ⟨apart,here⟩
    refine ⟨by simp; omega,here,?_⟩
    intro j _ start
    by_cases short : j < a.length
    · rcases front with rfl | rfl
      · simp at short
      · obtain rfl : j = 0 := by simpa using short
        exact notAtSlash named solid _ start
    · obtain ⟨i,rfl⟩ := Nat.exists_eq_add_of_le (Nat.le_of_not_lt short)
      have cut : (a ++ home ++ '/'::rest).drop (a.length+i) = home.drop i ++ '/'::rest := by
        rw [append_assoc,drop_append,drop_append_of_le_length (by omega)]
        simp
      rw [cut,prefixBefore solid] at start
      exact apart (infix_iff_prefix_suffix.mpr ⟨_,start,drop_suffix i home⟩)

theorem startsAtHomeIff (t) :
    strstr t (lit "home/") = some (if t.head? = some '/' then 1 else 0) ∧
      strstr t u = some ((if t.head? = some '/' then 1 else 0)+5) ↔ StartsAtHome u t := by
  have word : lit "home/" = home ++ ['/'] := rfl
  by_cases slash : t.head? = some '/'
  · obtain ⟨r,rfl⟩ : ∃ r, t = '/'::r := by
      cases t with
      | nil => cases slash
      | cons c r => exact ⟨r,by rw [show c = '/' by simpa using slash]⟩
    have atOne : strstr ('/'::r) (lit "home/") = some 1 ↔ lit "home/" <+: r := by
      rw [strstrFirst]
      constructor
      · exact fun found => found.2.1
      intro start
      refine ⟨by simp,start,?_⟩
      intro j _
      obtain rfl : j = 0 := by omega
      intro early
      exact absurd (cons_prefix_cons.mp early).1 (by decide)
    rw [if_pos slash,atOne]
    constructor
    · rintro ⟨⟨x,rfl⟩,found⟩
      have both := (foundBehindHome named solid x (.inr rfl)).mp found
      exact ⟨both.1,.inl (by
        have grown := (prefix_append_right_inj (lit "/home/")).mpr both.2
        exact grown)⟩
    · rintro ⟨apart,start | start⟩
      · obtain ⟨y,whole⟩ := start
        obtain rfl : r = lit "home/" ++ (u ++ y) := by simpa [lit] using whole.symm
        have found := (foundBehindHome named solid (u ++ y) (.inr rfl)).mpr
          ⟨apart,prefix_append _ _⟩
        simpa [word] using found
      · exact absurd (cons_prefix_cons.mp start).1 (by decide)
  · have atZero : strstr t (lit "home/") = some 0 ↔ lit "home/" <+: t := by
      rw [strstrFirst]
      simp
    rw [if_neg slash,atZero]
    constructor
    · rintro ⟨⟨x,rfl⟩,found⟩
      have both := (foundBehindHome named solid x (.inl rfl)).mp found
      exact ⟨both.1,.inr (by
        have grown := (prefix_append_right_inj (lit "home/")).mpr both.2
        exact grown)⟩
    · rintro ⟨apart,start | start⟩
      · obtain ⟨y,rfl⟩ := start
        contradiction
      obtain ⟨y,rfl⟩ := start
      have found := (foundBehindHome named solid (u ++ y) (.inl rfl)).mpr
        ⟨apart,prefix_append _ _⟩
      simpa [word] using found

end User

def InVault (vs : List Text) (p : Text) : Prop := ∃ v ∈ vs, AtOrBeneath v p
def InHome (vs : List Text) (u p : Text) : Prop := ∃ v ∈ vs, AtOrBeneath (v ++ lit "/home/" ++ u) p

instance (vs p) : Decidable (InVault vs p) := by unfold InVault; infer_instance

instance (vs u p) : Decidable (InHome vs u p) := by unfold InHome; infer_instance

theorem homeBeneath {v u p} (here : AtOrBeneath (v ++ lit "/home/" ++ u) p) : AtOrBeneath v p := by
  right
  have below : v ++ ['/'] <+: v ++ lit "/home/" ++ u := ⟨lit "home/" ++ u,by simp [lit]⟩
  rcases here with same | beneath
  · rw [same]
    exact below
  · exact below.trans ((prefix_append _ _).trans beneath)

theorem homeInVault {vs u p} (inside : InHome vs u p) : InVault vs p := by
  obtain ⟨v,member,here⟩ := inside
  exact ⟨v,member,homeBeneath here⟩

theorem aboveStarts {v p} (inside : AtOrBeneath v p) : v <+: p := by
  rcases inside with rfl | beneath
  · exact prefix_rfl
  · exact (prefix_append v _).trans beneath

structure OwnershipDecided (table : List Resource) (svrHost : Nat) (u p : Text) : Prop where
  own : matchCliVaultPath table svrHost u p = 1 ↔ InHome (vaults table svrHost) u p
  foreign : matchCliVaultPath table svrHost u p = -1 ↔
    InVault (vaults table svrHost) p ∧ ¬InHome (vaults table svrHost) u p
  outside : matchCliVaultPath table svrHost u p = 0 ↔ ¬InVault (vaults table svrHost) p

def firstOccurring (vs : List Text) (p : Text) : Option Text := vs.find? (fun v => v <:+: p)

theorem matchResult (table svrHost) {u p} (named : u ≠ []) (solid : '/' ∉ u)
    (full : p ≠ []) : matchCliVaultPath table svrHost u p =
      match firstOccurring (vaults table svrHost) p with
      | none => 0
      | some v => if StartsAtHome u (p.drop v.length) then 1 else -1 := by
  have search : validateVaultPath p svrHost table = firstOccurring (vaults table svrHost) p := by
    rw [validateFinds]
    congr 1
    funext v
    rw [Bool.eq_iff_iff,strstrSome,decide_eq_true_iff]
  unfold matchCliVaultPath
  rw [if_neg (by simpa using full),search]
  cases firstOccurring (vaults table svrHost) p with
  | none => rfl
  | some v =>
    have test := startsAtHomeIff named solid (p.drop v.length)
    by_cases starts : StartsAtHome u (p.drop v.length)
    · have both := test.mpr starts
      simp only [if_neg (not_not_intro both.1),if_neg (not_not_intro both.2),if_pos starts]
    by_cases word : strstr (p.drop v.length) (lit "home/") = some (if (p.drop v.length).head? = some '/' then 1 else 0)
    · have other : strstr (p.drop v.length) u ≠ some ((if (p.drop v.length).head? = some '/' then 1 else 0)+5) :=
        fun name => starts (test.mp ⟨word,name⟩)
      simp only [if_neg (not_not_intro word),if_pos other,if_neg starts]
    · simp only [ne_eq,word,not_false_eq_true,if_true,if_neg starts]

theorem acceptedNonempty {p} (accepted : isValidFilePath p = some 0) : p ≠ [] := by
  rintro rfl
  cases accepted

theorem vaultOwnershipExactly {table : List Resource} {svrHost : Nat} {u p : Text}
    (accepted : isValidFilePath p = some 0) (named : u ≠ []) (solid : '/' ∉ u) :
    OwnershipDecided table svrHost u p ↔
      ∀ v, firstOccurring (vaults table svrHost) p = some v →
        InVault (vaults table svrHost) p ∧
          (StartsAtHome u (p.drop v.length) ↔ InHome (vaults table svrHost) u p) := by
  have result := matchResult table svrHost named solid (acceptedNonempty accepted)
  cases found : firstOccurring (vaults table svrHost) p with
  | none =>
    have outside : ¬InVault (vaults table svrHost) p := by
      rintro ⟨v,member,inside⟩
      exact absurd ((aboveStarts inside).isInfix) (by simpa using List.find?_eq_none.mp found v member)
    have away : ¬InHome (vaults table svrHost) u p := fun inside => outside (homeInVault inside)
    rw [found] at result
    refine iff_of_true ⟨?_,?_,?_⟩ (by simp)
    · simp [result,away]
    · simp [result,outside]
    · simp [result,outside]
  | some v =>
    rw [found] at result
    have codes : (if StartsAtHome u (p.drop v.length) then 1 else -1) ≠ 0 := by split <;> decide
    constructor
    · rintro ⟨own,-,outside⟩ w same
      rw [result] at own outside
      rw [← own]
      split <;> simp_all
    · intro condition
      obtain ⟨inside,_⟩ := condition v rfl
      refine ⟨?_,?_,?_⟩
      · rw [result]
        split <;> simp_all
      · rw [result]
        split <;> simp_all
      · rw [result]
        simp [codes,inside]

/-! Vaults that do not nest and occur only above their files, and names that do not continue the
user's: the searches then find what they look for. -/
theorem beneathNested {v w p : Text} (above : AtOrBeneath v p) (other : w <+: p) (start : v <+: w) :
    AtOrBeneath v w := by
  obtain ⟨r,rfl⟩ := start
  cases r with
  | nil => exact .inl (append_nil v)
  | cons c r =>
    right
    rcases above with rfl | beneath
    · have longer := other.length_le
      simp at longer
    · have size : (v ++ ['/']).length ≤ (v ++ c::r).length := by simp
      exact prefix_of_prefix_length_le beneath other size

theorem vaultUnique {vs : List Text} (unnested : ∀ v ∈ vs, ∀ w ∈ vs, AtOrBeneath v w → v = w) {v w p}
    (first : v ∈ vs) (second : w ∈ vs) (above : AtOrBeneath v p) (other : AtOrBeneath w p) : v = w := by
  rcases prefix_or_prefix_of_prefix (aboveStarts above) (aboveStarts other) with below | below
  · exact unnested v first w second (beneathNested above (aboveStarts other) below)
  · exact (unnested w second v first (beneathNested other (aboveStarts above) below)).symm

theorem anchoredDecided {vs : List Text} {u p : Text} (unnested : ∀ v ∈ vs, ∀ w ∈ vs, AtOrBeneath v w → v = w)
    (anchored : ∀ v ∈ vs, v <:+: p → AtOrBeneath v p) (apart : ¬u <:+: home)
    (ends : ∀ v ∈ vs, ∀ rest, p = v ++ lit "/home/" ++ u ++ rest → rest = [] ∨ rest.head? = some '/') :
    ∀ v, firstOccurring vs p = some v → InVault vs p ∧ (StartsAtHome u (p.drop v.length) ↔ InHome vs u p) := by
  intro v found
  have member := mem_of_find?_eq_some found
  have above := anchored v member (by simpa using find?_some found)
  refine ⟨⟨v,member,above⟩,?_⟩
  constructor
  · rintro ⟨-,⟨rest,start⟩ | start⟩
    · have whole : p = v ++ lit "/home/" ++ u ++ rest := by
        rw [append_assoc v,append_assoc v,start]
        exact (prefix_iff_eq_append.mp (aboveStarts above)).symm
      refine ⟨v,member,?_⟩
      rcases ends v member rest whole with rfl | slash
      · exact .inl (whole.trans (append_nil _))
      · obtain ⟨tail,rfl⟩ := head?_eq_some_iff.mp slash
        exact .inr ⟨tail,by rw [whole,append_assoc _ ['/']]; rfl⟩
    · -- Behind the vault there is nothing or a slash.
      rcases above with rfl | ⟨tail,rfl⟩
      · rw [drop_length] at start
        exact absurd start (by simp [lit])
      · rw [append_assoc,drop_left] at start
        exact absurd (cons_prefix_cons.mp start).1 (by decide)
  · rintro ⟨w,second,beneath⟩
    obtain rfl : v = w := vaultUnique unnested member second above (homeBeneath beneath)
    refine ⟨apart,.inl ?_⟩
    obtain ⟨tail,rfl⟩ := aboveStarts beneath
    rw [append_assoc v,append_assoc v,drop_left]
    exact prefix_append _ _

def oneVault : List Resource := [⟨some 0,some (lit "/vault")⟩]

theorem ownershipOfAlice :
    isValidFilePath (lit "/vault/home/alice/f") = some 0 ∧
    OwnershipDecided oneVault 0 (lit "alice") (lit "/vault/home/alice/f") := by
  refine ⟨by decide,(vaultOwnershipExactly (by decide) (by decide) (by decide)).mpr ?_⟩
  intro v found
  cases found
  exact ⟨by decide,iff_of_true (by decide) (by decide)⟩

theorem aliceOwnsAlice2 :
    isValidFilePath (lit "/vault/home/alice2/f") = some 0 ∧
    matchCliVaultPath oneVault 0 (lit "alice") (lit "/vault/home/alice2/f") = 1 ∧
    InVault (vaults oneVault 0) (lit "/vault/home/alice2/f") ∧
    ¬InHome (vaults oneVault 0) (lit "alice") (lit "/vault/home/alice2/f") := by decide

end Irods.VaultPath
