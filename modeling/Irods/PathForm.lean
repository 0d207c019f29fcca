import Irods.PathElements

/-! Paths in the form lexically_normal keeps: a root or none, names each followed
by one separator, and perhaps a last name without. -/
namespace Irods.LogicalPath
open CText PathNames List Option

structure Form where
  root : Bool
  dirs : List Text
  file : Option Text
  deriving DecidableEq, Repr

def rootText (root : Bool) : Text := if root then ['/'] else []
def dirText (dirs : List Text) : Text := dirs.flatMap (· ++ ['/'])
def Form.value (f : Form) : Text := rootText f.root ++ (dirText f.dirs ++ f.file.getD [])
def Form.all (f : Form) : List Text := f.dirs ++ f.file.toList
def Form.Named (f : Form) : Prop := AllNames f.all

def Form.close (f : Form) : Form := ⟨f.root,f.all,none⟩
def Form.push (f : Form) (n : Text) : Form := ⟨f.root,f.all,some n⟩

attribute [simp] Form.all

theorem closeAll (f : Form) : f.close.all = f.all := by simp [Form.close]

theorem pushAll (f : Form) (n) : (f.push n).all = f.all ++ [n] := rfl

theorem dirTextAppend (a b) : dirText (a ++ b) = dirText a ++ dirText b := by simp [dirText]

theorem dirTextCons (n ns) : dirText (n::ns) = n ++ '/'::dirText ns := by simp [dirText]

theorem dirTextLast (ds d) : dirText (ds ++ [d]) = dirText ds ++ (d ++ ['/']) := by simp [dirText]

theorem dirTextEnds (ds) : dirText ds = [] ∧ ds = [] ∨ (dirText ds).getLast? = some '/' ∧ ds ≠ [] := by
  rcases eq_nil_or_concat' ds with rfl | ⟨_,d,rfl⟩
  · exact .inl ⟨rfl,rfl⟩
  · rw [dirTextLast]
    simp

theorem namesDirs {ns} (all : AllNames ns) (t) : names (dirText ns ++ t) = ns ++ names t := by
  induction ns with
  | nil => rfl
  | cons n _ ih =>
    have name := all n mem_cons_self
    rw [dirTextCons,append_assoc,cons_append,namesSlash,namesOfName name,
      ih (forall_mem_cons.mp all).2]
    rfl

theorem namesFile {file : Option Text} (all : AllNames file.toList) : names (file.getD []) = file.toList := by
  cases file with
  | none => rfl
  | some n => exact namesOfName (all n (by simp))

section
variable {f : Form} (named : f.Named)
include named

theorem namedDirs : AllNames f.dirs := fun n mem => named n (mem_append_left _ mem)

theorem namedFile : AllNames f.file.toList := fun n mem => named n (mem_append_right _ mem)

theorem namesBelowRoot : names (dirText f.dirs ++ f.file.getD []) = f.all := by
  rw [namesDirs (namedDirs named),namesFile (namedFile named)]
  rfl

theorem namesValue : names f.value = f.all := by
  rw [← namesBelowRoot named,Form.value]
  cases f.root with
  | false => rfl
  | true => exact namesOfSlash _

theorem belowRootHead : (dirText f.dirs ++ f.file.getD []).head? ≠ some '/' := by
  have first : ∀ {n : Text} t, IsName n → (n ++ t).head? ≠ some '/' := by
    intro n t name
    obtain ⟨c,m,rfl⟩ := exists_cons_of_ne_nil name.1
    intro slash
    cases some.inj slash
    exact name.2 mem_cons_self
  cases dirs : f.dirs with
  | nil =>
    cases file : f.file with
    | none => simp [dirText]
    | some n =>
      have name := named n (by simp [file])
      simpa [dirText] using first [] name
  | cons n _ =>
    have name := named n (by simp [dirs])
    rw [dirTextCons,append_assoc]
    exact first _ name

theorem absoluteValue : isAbsolute f.value = f.root := by
  rw [isAbsolute,Form.value]
  cases f.root with
  | false =>
    have other := belowRootHead named
    simpa [rootText] using other
  | true => rfl

theorem trailingBelowRoot : trailing (dirText f.dirs ++ f.file.getD []) = if f.file = none ∧
    f.dirs ≠ [] then [[]] else [] := by
  cases file : f.file with
  | none =>
    rw [trailing]
    rcases dirTextEnds f.dirs with ⟨empty,none⟩ | ⟨last,some⟩
    · rw [empty]
      simp [none]
    · simp [last,some]
  | some n =>
    have name := named n (by simp [file])
    rw [getD_some,trailing,if_neg (nameEnds name _)]
    simp

theorem elementsValue : elements f.value = (if f.root then [['/']] else []) ++ (f.all ++
    if f.file = none ∧ f.dirs ≠ [] then [[]] else []) := by
  have absolute := absoluteValue named
  rw [← namesBelowRoot named,← trailingBelowRoot named]
  unfold Form.value at absolute ⊢
  cases root : f.root with
  | false =>
    rw [root] at absolute
    exact elementsRelative absolute
  | true => exact elementsAbsolute _
end

variable {f : Form}

theorem valueEmpty (named : f.Named) : f.value = [] ↔ f = ⟨false,[],none⟩ := by
  constructor
  · intro empty
    have none : f.all = [] := by rw [← namesValue named,empty]; rfl
    obtain ⟨_,file⟩ := append_eq_nil_iff.mp none
    obtain ⟨root,_,x⟩ := f
    cases root with
    | true => simp [Form.value,rootText] at empty
    | false =>
      cases x with
      | none => simp_all
      | some n => simp at file
  · rintro rfl
    rfl

theorem wordBeforeEnd {front n} (start : front = [] ∨ front.getLast? = some '/') (plain : '/' ∉ n) (rest) :
    wordBefore (front ++ (n ++ rest)) (front.length+n.length) = n := by
  have cut : (front ++ (n ++ rest)).take (front.length+n.length) = front ++ n := by
    rw [← append_assoc,← length_append,take_left]
  have solid : ∀ c ∈ n.reverse, (c != '/') = true := by
    intro c mem
    simp only [bne_iff_ne]
    rintro rfl
    exact plain (mem_reverse.mp mem)
  rw [wordBefore,cut,reverse_append,takeWhile_append_of_pos solid]
  rcases start with rfl | last
  · simp
  · obtain ⟨u,rfl⟩ := getLast?_eq_some_iff.mp last
    simp

theorem separatorBeforeNot {front n} (name : IsName n) (rest) :
    separatorBefore (front ++ (n ++ rest)) (front.length+n.length) = false := by
  have cut : (front ++ (n ++ rest)).take (front.length+n.length) = front ++ n := by
    rw [← append_assoc,← length_append,take_left]
  rw [separatorBefore,cut]
  simpa using nameEnds name front

theorem prevName {front n} (start : front = [] ∨ front.getLast? = some '/') (name : IsName n) (rest e) :
    (⟨front.length+n.length,e⟩ : Iter).prev (front ++ (n ++ rest)) = ⟨front.length,n⟩ := by
  rw [Iter.prev]
  simp only [separatorBeforeNot name,Bool.false_eq_true,and_false,if_false,wordBeforeEnd start name.2]
  rw [Nat.add_sub_cancel]

def Form.front (f : Form) : Text := rootText f.root ++ dirText f.dirs

theorem frontEnds (f : Form) : f.front = [] ∨ f.front.getLast? = some '/' := by
  unfold Form.front
  rcases dirTextEnds f.dirs with ⟨empty,-⟩ | ⟨last,_⟩
  · rw [empty]
    cases f.root with
    | false => exact .inl rfl
    | true => exact .inr rfl
  · right
    rw [getLast?_append,last]
    rfl

theorem lastFile {n} (name : IsName n) (file : f.file = some n) :
    (endOf f.value).prev f.value = ⟨f.front.length,n⟩ := by
  have shape : f.value = f.front ++ (n ++ []) := by simp [Form.value,Form.front,file]
  have size : f.value.length = f.front.length+n.length := by rw [shape]; simp
  rw [endOf,size,shape]
  exact prevName (frontEnds f) name [] []

theorem lastDir {root ds d v} (name : IsName d) (is : Form.value ⟨root,ds ++ [d],none⟩ = v) :
    (endOf v).prev v = ⟨v.length-1,[]⟩ ∧
    ((endOf v).prev v).prev v = ⟨(Form.front ⟨root,ds,none⟩).length,d⟩ := by
  have shape : v = Form.front ⟨root,ds,none⟩ ++ (d ++ ['/']) := by
    simp [← is,Form.value,Form.front,dirTextLast]
  have size : v.length = (Form.front ⟨root,ds,none⟩).length+d.length+1 := by
    rw [shape]
    simp
    omega
  have long := length_pos_iff.mpr name.1
  have first : (endOf v).prev v = ⟨v.length-1,[]⟩ := by
    rw [Iter.prev,if_pos]
    · rfl
    refine ⟨rfl,by omega,?_⟩
    simp only [separatorBefore,endOf,take_length]
    rw [shape]
    simp
  refine ⟨first,?_⟩
  rw [first,size,shape]
  exact prevName (frontEnds ⟨root,ds,none⟩) name ['/'] []

theorem valueEnds (named : f.Named) : f.value = [] ∨ f.value.getLast? = some '/' ↔ f.file = none := by
  have shape : f.value = f.front ++ f.file.getD [] := by simp [Form.value,Form.front]
  cases file : f.file with
  | none =>
    rw [shape,file]
    simpa using frontEnds f
  | some n =>
    have name := named n (by simp [file])
    refine iff_of_false ?_ (by simp)
    rw [shape,file]
    rintro (empty | last)
    · exact name.1 (append_eq_nil_iff.mp empty).2
    · exact nameEnds name _ last

theorem valueClose (f : Form) : f.close.value = if f.file = none then f.value else f.value ++ ['/'] := by
  cases file : f.file with
  | none => simp [Form.close,Form.value,file]
  | some n => simp [Form.close,Form.value,file,dirText]

theorem valuePush (f : Form) (n) : (f.push n).value = f.close.value ++ n := by
  simp [Form.push,Form.close,Form.value]

section
variable {f : Form} (named : f.Named)
include named

theorem appendNothing : appendPath f.value [] = f.close.value := by
  have ends := valueEnds named
  rw [appendPath,if_pos rfl,valueClose]
  by_cases file : f.file = none
  · rw [if_pos file,if_neg]
    rintro ⟨full,solid⟩
    exact (ends.mpr file).elim full solid
  · rw [if_neg file,if_pos]
    exact ⟨fun empty => file (ends.mp (.inl empty)),fun last => file (ends.mp (.inr last))⟩

theorem appendName {n} (name : IsName n) : appendPath f.value n = (f.push n).value := by
  have ends := valueEnds named
  obtain ⟨c,m,rfl⟩ := exists_cons_of_ne_nil name.1
  have other : c ≠ '/' := by
    rintro rfl
    exact name.2 mem_cons_self
  rw [appendPath,if_neg (by simp),if_neg (by simp [isAbsolute,other]),valuePush,valueClose]
  by_cases file : f.file = none
  · rw [if_pos file,if_pos]
    exact (ends.mpr file).elim .inl fun last => .inr (.inl last)
  rw [if_neg file,if_neg]
  · simp
  rintro (empty | last | slash)
  · exact file (ends.mp (.inl empty))
  · exact file (ends.mp (.inr last))
  · exact other (some.inj slash)

theorem pushNamed {n} (name : IsName n) : (f.push n).Named := by
  intro m mem
  rcases mem_append.mp mem with old | new
  · exact named m old
  · rw [mem_singleton.mp new]
    exact name

theorem closeNamed : f.close.Named := by
  intro m mem
  rw [closeAll] at mem
  exact named m mem

theorem joinNames {ns} (all : AllNames ns) :
    ns.foldl appendPath f.value = (ns.foldl Form.push f).value := by
  induction ns generalizing f with
  | nil => rfl
  | cons n _ ih =>
    have name := all n mem_cons_self
    rw [foldl_cons,appendName named name]
    exact ih (pushNamed named name) (forall_mem_cons.mp all).2

end

theorem pushesLast (f) (ds d) : (ds ++ [d]).foldl Form.push f = ⟨f.root,f.all ++ ds,some d⟩ := by
  induction ds generalizing f with
  | nil => simp [Form.push]
  | cons n _ ih => rw [cons_append,foldl_cons,ih,pushAll]; simp [Form.push]

def bare (root : Bool) : Form := ⟨root,[],none⟩

theorem bareNamed (root) : (bare root).Named := by
  intro n mem
  simp [bare] at mem

theorem joinRoot (ns) : join (['/']::ns) = ns.foldl appendPath (bare true).value := rfl

theorem joinBare (ns) : join ns = ns.foldl appendPath (bare false).value := rfl

theorem appendFull {v} (full : v ≠ []) (e) : appendPath v e ≠ [] := by
  unfold appendPath
  split
  · split
    · simp
    · exact full
  · split
    · assumption
    · split <;> simp [full]

theorem joinFull {n} (name : n ≠ []) (es) : join (n::es) ≠ [] := by
  have keeps : ∀ (es : List Text) {v : Text}, v ≠ [] → es.foldl appendPath v ≠ [] := by
    intro es
    induction es with
    | nil => exact fun full => full
    | cons e es ih => exact fun full => ih (appendFull full e)
  refine keeps es ?_
  unfold appendPath
  rw [if_neg name]
  split <;> exact name

theorem relativeEmpty (named : f.Named) : relativePath f.value = [] ↔ f.all = [] := by
  have absolute := absoluteValue named
  unfold relativePath
  rw [absolute]
  cases root : f.root with
  | false =>
    rw [if_neg (by simp),valueEmpty named]
    obtain ⟨r,_,x⟩ := f
    cases root
    cases x with
    | none => simp
    | some n => simp
  | true =>
    have shape : f.value = '/'::(dirText f.dirs ++ f.file.getD []) := by simp [Form.value,root,rootText]
    rw [shape,rangeBehindRoot (.inl rfl),namesBelowRoot named,trailingBelowRoot named]
    cases whole : f.all with
    | nil =>
      have dirs := (append_eq_nil_iff.mp whole).1
      simp [dirs,join]
    | cons n _ =>
      refine iff_of_false (joinFull ?_ _) (by simp)
      exact (named n (by rw [whole]; exact mem_cons_self)).1

theorem objectNameValue (named : f.Named) : objectName f.value = f.file.getD [] := by
  unfold objectName
  by_cases empty : f.all = []
  · rw [if_pos ((relativeEmpty named).mpr empty)]
    cases file : f.file with
    | none => rfl
    | some n => simp [file] at empty
  · rw [if_neg fun same => empty ((relativeEmpty named).mp same)]
    cases file : f.file with
    | some n =>
      rw [lastFile (named n (by simp [file])) file]
      rfl
    | none =>
      obtain ⟨_,dirs,x⟩ := f
      cases file
      rcases eq_nil_or_concat' dirs with rfl | ⟨_,d,rfl⟩
      · simp at empty
      · rw [(lastDir (named d (by simp)) rfl).1]
        rfl

theorem removeFile (named : f.Named) {n} (file : f.file = some n) :
    removeObjectName f.value = if f.root = true ∨
    f.dirs ≠ [] then (⟨f.root,f.dirs,none⟩ : Form).value else f.value := by
  have name := named n (by simp [file])
  have shape : f.value = f.front ++ (n ++ []) := by simp [Form.value,Form.front,file]
  have size : f.value.length = f.front.length+n.length := by rw [shape]; simp
  have word : wordBefore f.value f.value.length = n := by
    rw [size,shape]
    exact wordBeforeEnd (frontEnds f) name.2 []
  have slash : '/' ∈ f.value ↔ f.root = true ∨ f.dirs ≠ [] := by
    rw [shape]
    simp only [append_nil,mem_append,name.2,or_false,Form.front]
    rcases dirTextEnds f.dirs with ⟨empty,none⟩ | ⟨last,some⟩
    · rw [empty,none]
      cases f.root <;> simp [rootText]
    · exact iff_of_true (.inr (mem_of_getLast? last)) (.inr some)
  have cut : f.value.take (f.value.length-n.length) = (⟨f.root,f.dirs,none⟩ : Form).value := by
    rw [size,Nat.add_sub_cancel,shape,take_left]
    simp [Form.value,Form.front]
  unfold removeObjectName
  rw [if_pos (by rw [objectNameValue named,file]; exact name.1),word,cut]
  by_cases inside : '/' ∈ f.value
  · rw [if_pos inside,if_pos (slash.mp inside)]
  · rw [if_neg inside,if_neg fun other => inside (slash.mpr other)]

theorem parentDir {root} {ds d} (named : Form.Named ⟨root,ds ++ [d],none⟩) :
    parentPath (Form.value ⟨root,ds ++ [d],none⟩) = Form.value ⟨root,ds,some d⟩ := by
  have name := named d (by simp)
  have full : relativePath (Form.value ⟨root,ds ++ [d],none⟩) ≠ [] := by
    rw [ne_eq,relativeEmpty named]
    simp
  have positive : 0 < (dirText (ds ++ [d])).length := by
    simp only [dirTextLast,length_append,length_cons]
    omega
  have below : names (dirText (ds ++ [d])) = ds ++ [d] := by
    simpa using namesBelowRoot named
  have last : (Form.value ⟨root,ds ++ [d],none⟩).getLast? = some '/' := by
    simp [Form.value,dirTextLast]
  have all : AllNames (ds ++ [d]) := by simpa [Form.Named] using named
  rw [parentPath,if_neg full,(lastDir name rfl).1]
  cases root with
  | false =>
    have shape : Form.value ⟨false,ds ++ [d],none⟩ = dirText (ds ++ [d]) := by simp [Form.value,rootText]
    rw [shape] at last ⊢
    have some := length_pos_iff.mp positive
    have relative := shape ▸ absoluteValue named
    rw [rangeRelative relative some (.inr ⟨rfl,last,some⟩)]
    rw [if_neg (by omega),below,append_nil,joinBare,joinNames (bareNamed false) all,pushesLast]
    rfl
  | true =>
    have shape : Form.value ⟨true,ds ++ [d],none⟩ = '/'::dirText (ds ++ [d]) := by simp [Form.value,rootText]
    rw [shape] at last ⊢
    rw [rangeAbsolute (.inr ⟨rfl,last,length_pos_iff.mp positive⟩)]
    rw [length_cons,if_neg (by omega),below,append_nil,joinRoot,joinNames (bareNamed true) all,pushesLast]
    rfl

theorem elementsName {n} (name : IsName n) : elements n = [n] := by
  have named : Form.Named ⟨false,[],some n⟩ := by
    intro m mem
    simp only [Form.all,nil_append,toList_some,mem_singleton] at mem
    rw [mem]
    exact name
  exact elementsValue named

theorem sameName {n m} (left : IsName n) (right : IsName m) : samePath n m = decide (n = m) := by
  rw [samePath,elementsName left,elementsName right]
  simp [Bool.beq_eq_decide_eq]

theorem dotName : IsName dot := ⟨by simp [dot],by simp [dot]⟩

theorem dotDotName : IsName dotDot := ⟨by simp [dotDot],by simp [dotDot]⟩

theorem sameRoot (named : f.Named) : samePath ['/'] f.value = decide (f = bare true) := by
  have single : elements ['/'] = [['/']] := rfl
  have same : elements f.value = [['/']] ↔ f = bare true := by
    rw [elementsValue named]
    obtain ⟨root,dirs,file⟩ := f
    have plain : ['/'] ∉ Form.all ⟨root,dirs,file⟩ := fun mem => (named _ mem).2 mem_cons_self
    cases root with
    | false =>
      refine iff_of_false ?_ (by simp [bare])
      intro other
      have mem : ['/'] ∈ [['/']] := mem_singleton.mpr rfl
      rw [← other] at mem
      simp only [Bool.false_eq_true,if_false,mem_append,plain] at mem
      split at mem <;> simp at mem
    | true =>
      simp only [if_true,singleton_append,cons.injEq,true_and,append_eq_nil_iff,bare,Form.mk.injEq]
      constructor
      · rintro ⟨none,-⟩
        obtain ⟨dirs,file⟩ := append_eq_nil_iff.mp none
        exact ⟨dirs,by simpa using file⟩
      · rintro ⟨rfl,rfl⟩
        simp
  rw [samePath,single]
  by_cases here : f = bare true
  · rw [same.mpr here,decide_eq_true here]
    rfl
  · have other : elements f.value ≠ [['/']] := fun equal => here (same.mp equal)
    simp [here,other.symm]

def Form.dotDotStep (f : Form) : Form :=
  match f.file with
  | some n => if n = dotDot then f.push dotDot else if f.root = true ∨ f.dirs ≠ [] then ⟨f.root,f.dirs,none⟩ else f
  | none => if f = bare true then f else f.push dotDot

def Form.step (f : Form) (e : Text) : Form :=
  if e = [] ∨ e = dot then f.close else if e = dotDot then f.dotDotStep else f.push e

theorem stepUp (f : Form) : f.step dotDot = f.dotDotStep := by
  rw [Form.step,if_neg (by decide),if_pos rfl]

section
variable {f : Form} (named : f.Named)
include named

theorem stepNothing : normalStep f.value [] = f.close.value := by
  exact appendNothing named

theorem stepDotDot : normalStep f.value dotDot = f.dotDotStep.value := by
  have first : samePath dotDot dot = false := by decide
  have second : samePath dotDot dotDot = true := rfl
  rw [normalStep,first,second,objectNameValue named,sameRoot named,if_neg (by simp),if_pos rfl]
  unfold Form.dotDotStep
  cases file : f.file with
  | none =>
    by_cases root : f = bare true
    · simp [root]
    · simp only [root]
      exact appendName named dotDotName
  | some n =>
    have inside := named n (by simp [file])
    have deep : f ≠ bare true := by
      rintro rfl
      simp [bare] at file
    rw [getD_some,sameName inside dotDotName]
    by_cases up : n = dotDot
    · simp only [up,deep]
      exact appendName named dotDotName
    rw [if_pos (by simp [inside.1,up])]
    dsimp only
    rw [removeFile named file]
    split <;> rfl

theorem stepValue {e} (name : e = [] ∨ IsName e) : normalStep f.value e = (f.step e).value := by
  rcases name with rfl | name
  · exact stepNothing named
  unfold Form.step
  by_cases one : e = dot
  · rw [one]
    exact appendNothing named
  rw [if_neg fun either => either.elim name.1 one]
  by_cases two : e = dotDot
  · rw [two]
    exact stepDotDot named
  · rw [normalStep,sameName name dotName,sameName name dotDotName]
    simp only [one,two]
    exact appendName named name

theorem stepNamed {e} (name : e = [] ∨ IsName e) : (f.step e).Named := by
  unfold Form.step
  split
  · exact closeNamed named
  rename_i other
  split
  · unfold Form.dotDotStep
    split
    · split
      · exact pushNamed named dotDotName
      split
      · intro n mem
        exact named n (mem_append_left _ (by simpa using mem))
      · exact named
    · split
      · exact named
      · exact pushNamed named dotDotName
  · exact pushNamed named (name.resolve_left fun empty => other (.inl empty))

end

theorem runValue {es : List Text} (all : ∀ e ∈ es, e = [] ∨ IsName e) (named : f.Named) :
    es.foldl normalStep f.value = (es.foldl Form.step f).value ∧ (es.foldl Form.step f).Named := by
  induction es generalizing f with
  | nil => exact ⟨rfl,named⟩
  | cons e _ ih =>
    have name := all e mem_cons_self
    rw [foldl_cons,stepValue named name]
    exact ih (forall_mem_cons.mp all).2 (stepNamed named name)

def normalForm (t : Text) : Form := (names t ++ trailing t).foldl Form.step (bare (isAbsolute t))

def Form.settle (f : Form) : Form :=
  if f.file = none ∧ f.dirs.getLast? = some dotDot then ⟨f.root,f.dirs.dropLast,some dotDot⟩ else f

def Form.text (f : Form) : Text := if f = bare false then dot else f.settle.value

theorem elementsNamed (t) : ∀ e ∈ names t ++ trailing t, e = [] ∨ IsName e := by
  intro e mem
  rcases mem_append.mp mem with name | last
  · exact .inr (namesAll t e name)
  unfold trailing at last
  split at last
  · exact .inl (mem_singleton.mp last)
  · contradiction

theorem normalRun {t : Text} (full : t ≠ []) : (elements t).foldl normalStep [] = (normalForm t).value ∧
    (normalForm t).Named := by
  unfold normalForm
  cases absolute : isAbsolute t with
  | false =>
    rw [elementsRelative absolute]
    exact runValue (elementsNamed t) (bareNamed false)
  | true =>
    obtain ⟨u,rfl⟩ := absoluteCons absolute
    -- the root's own separator is no element behind the names
    have same : (names ('/'::u) ++ trailing ('/'::u)).foldl Form.step (bare true) =
        (names u ++ trailing u).foldl Form.step (bare true) := by
      rw [namesOfSlash]
      cases u with
      | nil => rfl
      | cons d u => rw [show trailing ('/'::d::u) = trailing (d::u) from rfl]
    rw [elementsAbsolute,same]
    exact runValue (elementsNamed u) (bareNamed true)

theorem textValue (named : f.Named) (full : f ≠ bare false) :
    (if ((endOf f.value).prev f.value).element = [] ∧
      samePath dotDot ((((endOf f.value).prev f.value)).prev f.value).element
      then parentPath f.value else f.value) = f.settle.value := by
  unfold Form.settle
  obtain ⟨root,dirs,file⟩ := f
  cases file with
  | some n =>
    have name := named n (by simp)
    have last := lastFile name (show (Form.mk root dirs (some n)).file = some n from rfl)
    rw [last,if_neg fun both => name.1 both.1,if_neg (by simp)]
  | none =>
    rcases eq_nil_or_concat' dirs with rfl | ⟨ds,d,rfl⟩
    · cases root with
      | false => contradiction
      | true => decide
    have name := named d (by simp)
    obtain ⟨last,before⟩ := @lastDir root ds d _ name rfl
    rw [before,last,sameName dotDotName name]
    by_cases up : dotDot = d
    · subst up
      rw [parentDir named]
      simp
    · rw [if_neg (by simp [up]),if_neg (by simp [Ne.symm up])]

theorem normalText {t : Text} (full : t ≠ []) : lexicallyNormal t = (normalForm t).text := by
  obtain ⟨value,named⟩ := normalRun full
  unfold lexicallyNormal Form.text
  rw [if_neg full]
  rw [value]
  by_cases empty : normalForm t = bare false
  · rw [if_pos ((valueEmpty named).mpr empty),if_pos empty]
  · rw [if_neg fun none => empty ((valueEmpty named).mp none),if_neg empty]
    exact textValue named empty

end Irods.LogicalPath
