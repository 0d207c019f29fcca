import Irods.CText

/-! Paths as texts and as lists of names. A name has no slash; runs of slashes
separate names. The text of a list of names puts one slash in front of each. -/
namespace Irods.PathNames
open CText List

def IsName (n : Text) : Prop := n ≠ [] ∧ '/' ∉ n

instance (n) : Decidable (IsName n) := by unfold IsName; infer_instance

def AllNames (ns : List Text) : Prop := ∀ n ∈ ns, IsName n

def keep (name : Text) : List Text := if name.isEmpty then [] else [name]

def namesFrom (name : Text) : Text → List Text
  | [] => keep name
  | c::t => if c = '/' then keep name ++ namesFrom [] t else namesFrom (name ++ [c]) t

def names (t : Text) : List Text := namesFrom [] t

def render (ns : List Text) : Text := ns.flatMap ('/'::·)

theorem renderCons (n ns) : render (n::ns) = '/'::(n ++ render ns) := rfl

theorem renderAppend (a b) : render (a ++ b) = render a ++ render b := by simp [render]

theorem namesFromSlash (name a b) : namesFrom name (a ++ '/'::b) = namesFrom name a ++ names b := by
  induction a generalizing name with
  | nil => simp [namesFrom,names]
  | cons c a ih =>
    rw [cons_append,namesFrom,namesFrom]
    split
    · rw [ih,append_assoc]
    · exact ih _

theorem namesSlash (a b) : names (a ++ '/'::b) = names a ++ names b := namesFromSlash [] a b

theorem namesOfSlash (t) : names ('/'::t) = names t := namesSlash [] t

theorem namesFromPlain (name) {n} (plain : '/' ∉ n) : namesFrom name n = keep (name ++ n) := by
  induction n generalizing name with
  | nil => simp [namesFrom]
  | cons c n ih =>
    simp only [mem_cons,not_or] at plain
    rw [namesFrom,if_neg (Ne.symm plain.1),ih _ plain.2,append_assoc]
    rfl

theorem namesOfName {n} (name : IsName n) : names n = [n] := by
  rw [names,namesFromPlain [] name.2]
  simp [keep,name.1]

theorem namesFromAll {name} (plain : '/' ∉ name) (t) : AllNames (namesFrom name t) := by
  have kept : ∀ {n : Text}, '/' ∉ n → AllNames (keep n) := by
    intro n solid m member
    unfold keep at member
    split at member
    · contradiction
    rename_i full
    rw [mem_singleton.mp member]
    exact ⟨by simpa using full,solid⟩
  induction t generalizing name with
  | nil => exact kept plain
  | cons c t ih =>
    rw [namesFrom]
    split
    · intro n member
      rcases mem_append.mp member with here | later
      · exact kept plain n here
      · exact ih (by simp) n later
    · rename_i other
      exact ih (by simp [plain,Ne.symm other])

theorem namesAll (t) : AllNames (names t) := namesFromAll (by simp) t

theorem namesOfRender {ns} (all : AllNames ns) : names (render ns) = ns := by
  induction ns with
  | nil => rfl
  | cons n ns ih =>
    have name := all n mem_cons_self
    have rest := ih fun m member => all m (mem_cons_of_mem n member)
    rw [renderCons,namesOfSlash]
    cases ns with
    | nil => simpa [render] using namesOfName name
    | cons m _ => rw [renderCons,namesSlash,namesOfName name,← namesOfSlash,← renderCons,rest,singleton_append]

theorem renderInjective {a b} (left : AllNames a) (right : AllNames b) (same : render a = render b) :
    a = b := by rw [← namesOfRender left,same,namesOfRender right]

/- A path is a base itself or goes on behind it with a slash. -/
def AtOrBeneath (base p : Text) : Prop := p = base ∨ base ++ ['/'] <+: p

instance (base p) : Decidable (AtOrBeneath base p) := by unfold AtOrBeneath; infer_instance

theorem atOrBeneathRender {a b} (left : AllNames a) (right : AllNames b) :
    AtOrBeneath (render a) (render b) ↔ a <+: b := by
  constructor
  · rintro (same | ⟨t,same⟩)
    · exact (renderInjective right left same) ▸ prefix_rfl
    refine ⟨names t,?_⟩
    have parts := congrArg names same
    rwa [append_assoc,singleton_append,namesSlash,namesOfRender left,namesOfRender right] at parts
  · rintro ⟨c,rfl⟩
    rw [renderAppend]
    cases c with
    | nil => exact .inl (by simp [render])
    | cons n c =>
      refine .inr ⟨n ++ render c,?_⟩
      rw [append_assoc]
      rfl

def pathText (ns : List Text) : Text := if ns.isEmpty then ['/'] else render ns
def Canonical (t : Text) : Prop := t = pathText (names t)

instance (t) : Decidable (Canonical t) := by unfold Canonical; infer_instance

def AtOrAbove (base t : Text) : Prop := names base <+: names t

instance (base t) : Decidable (AtOrAbove base t) := by unfold AtOrAbove; infer_instance

theorem canonicalPathText {ns} (all : AllNames ns) : names (pathText ns) = ns ∧ Canonical (pathText ns) := by
  have same : names (pathText ns) = ns := by
    unfold pathText
    split
    · rename_i empty
      rw [isEmpty_iff.mp empty]
      rfl
    · exact namesOfRender all
  exact ⟨same,by rw [Canonical,same]⟩

theorem canonicalInjective {a b} (left : Canonical a) (right : Canonical b) (same : names a = names b) : a = b := by
  rw [left,right,same]

theorem atOrBeneathCanonical {base t} (left : Canonical base) (right : Canonical t) (below : base ≠ ['/']) :
    AtOrBeneath base t ↔ AtOrAbove base t := by
  have full : names base ≠ [] := by
    intro empty
    rw [Canonical,empty] at left
    exact below left
  have baseText : base = render (names base) := by
    conv_lhs => rw [left]
    simp [pathText,full]
  by_cases root : names t = []
  · have rootText : t = ['/'] := by rw [right,root]; rfl
    have above : ¬AtOrAbove base t := by
      rw [AtOrAbove,root]
      simpa using full
    refine iff_of_false ?_ above
    rw [rootText]
    rintro (same | start)
    · exact below same.symm
    obtain ⟨n,_,parts⟩ := exists_cons_of_ne_nil full
    rw [baseText,parts,renderCons] at start
    have size := start.length_le
    simp at size
  · have wording : t = render (names t) := by
      conv_lhs => rw [right]
      simp [pathText,root]
    rw [baseText,wording,atOrBeneathRender (namesAll _) (namesAll _),AtOrAbove,namesOfRender (namesAll _),
      namesOfRender (namesAll _)]

theorem atOrBeneathRoot {t} (canonical : Canonical t) : AtOrBeneath ['/'] t ↔ t = ['/'] := by
  refine ⟨?_,.inl⟩
  rintro (same | ⟨_,same⟩)
  · exact same
  have all := namesAll t
  by_cases root : names t = []
  · rw [canonical,root]
    rfl
  -- A canonical text other than the root has a name right behind its first slash.
  obtain ⟨n,ns,parts⟩ := exists_cons_of_ne_nil root
  have wording : t = '/'::(n ++ render ns) := by
    conv_lhs => rw [canonical]
    simp [pathText,parts,renderCons]
  have name := all n (by rw [parts]; exact mem_cons_self)
  rw [wording] at same
  cases n with
  | nil => contradiction
  | cons c n =>
    have second : c = '/' := (List.cons.inj (List.cons.inj same).2).1.symm
    exact absurd (by simp [second]) name.2

end Irods.PathNames
