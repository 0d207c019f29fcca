import Irods.PathNormalExact

/-! lexically_relative, and the pairs of paths for which its result leads back from the base. -/
namespace Irods.LogicalPath
open CText PathNames List Option Form

-- std::mismatch over the two ranges of elements: what is left of each behind the shared front.
def mismatch : List Text → List Text → List Text × List Text
  | a::as,b::bs => if samePath a b then mismatch as bs else (a::as,b::bs)
  | as,bs => (as,bs)

def lexicallyRelative (fp base : Text) : Text :=
  let mm := mismatch (elements fp) (elements base)
  if mm.1 = [] ∧ mm.2 = [] then dot
  else mm.1.foldl appendPath (mm.2.foldl (fun p _ => appendPath p dotDot) [])

example : lexicallyRelative (lit "/a/d") (lit "/a/b/c") = lit "../../d" := rfl

example : lexicallyRelative (lit "a/b/c") (lit "a/b/c/x/y") = lit "../.." := rfl

structure Form.Plain (f : Form) : Prop where
  root : f.root = true
  named : f.Named
  dot : dot ∉ f.all
  dotDot : dotDot ∉ f.all

def Form.mark (f : Form) : List Text := if f.file = none ∧ f.dirs ≠ [] then [[]] else []
def Form.rest (f : Form) : List Text := f.all ++ f.mark

theorem stepRoot (f : Form) (e) : (f.step e).root = f.root := by
  unfold step
  split
  · rfl
  split
  · unfold dotDotStep
    split
    · split
      · rfl
      · split <;> rfl
    · split <;> rfl
  · rfl

theorem stepsRoot (f) (es : List Text) : (es.foldl step f).root = f.root := by
  induction es generalizing f with
  | nil => rfl
  | cons e _ ih => rw [foldl_cons,ih,stepRoot]

def filled (es : List Text) : Nat := (es.filter (· ≠ [])).length

theorem filledNames {ns} (full : ∀ n ∈ ns, n ≠ []) : filled ns = ns.length := by
  rw [filled,filter_eq_self.mpr fun n mem => decide_eq_true (full n mem)]

theorem filledAppend (as bs) : filled (as ++ bs) = filled as+filled bs := by
  simp [filled]

theorem stepLength (f : Form) (e) : (f.step e).all.length ≤ f.all.length+filled [e] := by
  have pushed : ∀ n, n ≠ [] → (f.push n).all.length ≤ f.all.length+filled [n] := by
    intro n full
    rw [pushAll,length_append,filledNames (by simpa using full)]
  unfold Form.step
  split
  · rw [closeAll]
    omega
  rename_i plain
  have full : e ≠ [] := fun same => plain (.inl same)
  split
  · rename_i up
    rw [up]
    unfold Form.dotDotStep
    split
    · split
      · exact pushed dotDot dotDotName.1
      split
      · simp only [Form.all,toList_none,length_append,length_nil]
        omega
      · omega
    · split
      · omega
      · exact pushed dotDot dotDotName.1
  · exact pushed e full

theorem stepsLength (f) (es) : (es.foldl step f).all.length ≤ f.all.length+filled es := by
  induction es generalizing f with
  | nil => exact Nat.le_add_right _ _
  | cons e es ih =>
    have one := stepLength f e
    have others := ih (f.step e)
    have both : filled (e::es) = filled [e]+filled es := filledAppend [e] es
    rw [foldl_cons]
    omega

theorem pushedUp {ns : List Text} (plain : dotDot ∉ ns) :
    ((ns.foldl push (bare true)).step dotDot) = ⟨true,ns.dropLast,none⟩ := by
  rcases eq_nil_or_concat' ns with rfl | ⟨_,d,rfl⟩
  · rfl
  have other : d ≠ dotDot := fun same => plain (by simp [same])
  rw [pushesLast,stepUp]
  simp [dotDotStep,other]

theorem normalPlain {t} (absolute : isAbsolute t = true) (normal : lexicallyNormal t = t) :
    ∃ f : Form, f.Plain ∧ f.value = t := by
  have full : t ≠ [] := by
    rintro rfl
    simp [isAbsolute] at absolute
  have named := (normalRun full).2
  have root : (normalForm t).root = true := by rw [normalForm,stepsRoot,absolute]; rfl
  have other : normalForm t ≠ bare false := fun same => by rw [same] at root; cases root
  have text : (normalForm t).settle.value = t := by
    rwa [normalText full,Form.text,if_neg other] at normal
  have whole : (normalForm t).all = names t := by
    rw [← settleAll,← namesValue (settleNamed named),text]
  have run : (normalForm t) = (names t ++ trailing t).foldl Form.step (bare true) := by rw [normalForm,absolute]
  have free : dot ∉ (normalForm t).all := by
    exact noDot stepAdds (by simp) _
  refine ⟨(normalForm t).settle,⟨?_,settleNamed named,?_,?_⟩,text⟩
  · rw [settleRoot,root]
  · rw [settleAll]
    exact free
  rw [settleAll]
  intro up
  rw [whole] at up free
  obtain ⟨as,bs,shape,first⟩ := eq_append_cons_of_mem up
  have solid : ∀ n ∈ as, n ≠ [] ∧ n ≠ dot ∧ n ≠ dotDot := by
    intro n mem
    have inside : n ∈ names t := by rw [shape]; exact mem_append_left _ mem
    exact ⟨(namesAll t n inside).1,fun same => free (same ▸ inside),fun same => first (same ▸ mem)⟩
  have following : filled (bs ++ trailing t) = bs.length := by
    have ends : filled (trailing t) = 0 := by unfold trailing; split <;> rfl
    rw [filledAppend,ends,filledNames]
    · rfl
    · intro n mem
      exact (namesAll t n (by rw [shape]; exact mem_append_right _ (mem_cons_of_mem _ mem))).1
  -- the names behind the first ".." cannot make up for the one it does not add
  have long := stepsLength ⟨true,as.dropLast,none⟩ (bs ++ trailing t)
  have size := congrArg length whole
  rw [run,shape,append_assoc,foldl_append,stepNames solid,cons_append,foldl_cons,pushedUp first] at size
  have start : (Form.all ⟨true,as.dropLast,none⟩).length = as.length-1 := by simp
  rw [length_append,length_cons] at size
  omega

variable {f : Form}

theorem elementsRest (named : f.Named) (root : f.root = true) : elements f.value = ['/']::f.rest := by
  rw [elementsValue named,root]
  rfl

theorem markCases (f : Form) : f.mark = [] ∨ f.mark = [[]] := by
  unfold mark
  split
  · exact .inr rfl
  · exact .inl rfl

theorem restAll (named : f.Named) : f.rest.filter (· ≠ []) = f.all := by
  have mark : f.mark.filter (· ≠ []) = [] := by rcases markCases f with none | one <;> simp [*]
  rw [rest,filter_append,mark,append_nil]
  exact filter_eq_self.mpr fun n mem => decide_eq_true (named n mem).1

theorem restMark (named : f.Named) : [] ∈ f.rest ↔ f.file = none ∧ f.dirs ≠ [] := by
  have absent : [] ∉ f.all := fun mem => (named [] mem).1 rfl
  rw [rest,mem_append,mark]
  split
  · rename_i ends
    exact iff_of_true (.inr mem_cons_self) ends
  · rename_i ends
    simpa [ends] using absent

variable {g : Form}

theorem restUnique (left : f.Named) (right : g.Named) (root : f.root = g.root) (same : f.rest = g.rest) : f = g := by
  have whole : f.all = g.all := by rw [← restAll left,← restAll right,same]
  have ends : f.file = none ∧ f.dirs ≠ [] ↔ g.file = none ∧ g.dirs ≠ [] := by
    rw [← restMark left,← restMark right,same]
  obtain ⟨r,ds,x⟩ := f
  obtain ⟨_,ds',x'⟩ := g
  cases x with
  | none =>
    cases x' with
    | none =>
      simp only [Form.all,toList_none,append_nil] at whole root
      rw [whole,root]
    | some n =>
      -- a last directory is not a last object
      have empty : ds = [] := by simpa using ends
      simp [empty] at whole
  | some m =>
    cases x' with
    | none =>
      have empty : ds' = [] := by simpa using ends
      simp [empty] at whole
    | some n =>
      obtain ⟨dirs,file⟩ := append_inj' whole rfl
      simpa using ⟨root,dirs,by simpa using file⟩

section
variable {f : Form} (plain : f.Plain)
include plain

theorem plainNames : ∀ n ∈ f.all, n ≠ [] ∧ n ≠ dot ∧ n ≠ dotDot :=
  fun n mem => ⟨(plain.named n mem).1,fun same => plain.dot (same ▸ mem),fun same => plain.dotDot (same ▸ mem)⟩

theorem plainRest : ∀ e ∈ f.rest, e = [] ∨ IsName e ∧ e ≠ dot ∧ e ≠ dotDot := by
  intro e mem
  rcases mem_append.mp mem with name | last
  · exact .inr ⟨plain.named e name,(plainNames plain e name).2⟩
  rcases markCases f with none | one
  · simp [none] at last
  · exact .inl (mem_singleton.mp (one ▸ last))

theorem plainPushes : f.all.foldl step (bare true) = f.all.foldl push (bare true) :=
  stepNames (plainNames plain) _

attribute [simp] close

theorem restRun : f.rest.foldl Form.step (bare true) = f := by
  have root := plain.root
  rw [Form.rest,foldl_append,plainPushes plain]
  obtain ⟨r,ds,x⟩ := f
  subst root
  cases x with
  | some n =>
    simp only [Form.all,toList_some,pushesLast]
    rfl
  | none =>
    rcases eq_nil_or_concat' ds with rfl | ⟨_,d,rfl⟩
    · rfl
    · simp only [Form.all,toList_none,append_nil,pushesLast]
      simp [Form.mark,Form.step]

end

theorem settlePlain (plain : dotDot ∉ f.all) : f.settle = f := by
  refine if_neg ?_
  rintro ⟨-,last⟩
  exact plain (mem_append_left _ (mem_of_getLast? last))

theorem textSame {r : Form} (named : r.Named) (root : r.root = true) (plain : f.Plain) :
    samePath r.text f.value = true ↔ r.settle = f := by
  have other : r ≠ bare false := fun same => by rw [same] at root; cases root
  have root' : r.settle.root = true := by rw [settleRoot,root]
  rw [Form.text,if_neg other,samePath,beq_iff_eq,elementsRest (settleNamed named) root',
      elementsRest plain.named plain.root]
  constructor
  · intro same
    exact restUnique (settleNamed named) plain.named (root'.trans plain.root.symm) (cons.inj same).2
  · intro same
    rw [same]

theorem rootedFull (root : f.root = true) : f.value ≠ [] := by simp [value,root,rootText]

theorem rootedEnds (root : f.root = true) (named : f.Named) : f.value.getLast? = some '/' ↔ f.file = none := by
  simpa [rootedFull root] using valueEnds named

variable {b : Form}

theorem appendForm (root : b.root = true) (left : b.Named) (inside : g.root = false) (right : g.Named) :
    appendPath b.value g.value = (⟨true,b.all ++ g.dirs,g.file⟩ : Form).value := by
  have whole : b.close.value ++ g.value = (⟨true,b.all ++ g.dirs,g.file⟩ : Form).value := by
    simp [value,root,inside,rootText,dirTextAppend]
  have full := rootedFull root
  by_cases empty : g.value = []
  · rw [← whole,empty,appendNothing left,append_nil]
  have relative : isAbsolute g.value = false := by rw [absoluteValue right,inside]
  have head : g.value.head? ≠ some '/' := by simpa [isAbsolute] using relative
  have ends := rootedEnds root left
  rw [← whole,appendPath,if_neg empty,relative,if_neg (by simp),valueClose]
  by_cases file : b.file = none
  · rw [if_pos (.inr (.inl (ends.mpr file))),if_pos file]
  · rw [if_neg (by simp [full,ends,file,head]),if_neg file]
    simp

theorem formRun {h : Form} (named : h.Named) (root : h.root = true) :
    normalForm h.value = (h.all ++ if h.file = none then [[]] else []).foldl step (bare true) := by
  have ends := rootedEnds root named
  rw [normalForm,absoluteValue named,namesValue named,root,trailing]
  simp [ends]

variable {front back : List Text}

theorem restBehind (shape : f.rest = front ++ back) (full : back ≠ []) :
    ∃ ns, f.all = front ++ ns ∧ back = ns ++ f.mark := by
  unfold rest at shape
  rcases markCases f with mark | mark
  · exact ⟨back,by simpa [mark] using shape,by simp [mark]⟩
  obtain ⟨ns,_,rfl⟩ := (eq_nil_or_concat' back).resolve_left full
  rw [mark,← append_assoc] at shape
  obtain ⟨whole,same⟩ := append_inj' shape rfl
  exact ⟨ns,whole,by rw [mark,same]⟩

theorem upsFold (B : List Text) (v) :
    B.foldl (fun p _ => appendPath p dotDot) v = (replicate B.length dotDot).foldl appendPath v := by
  induction B generalizing v with
  | nil => rfl
  | cons b B ih => exact ih _

theorem pushesForm (f) (ns) : (ns.foldl push f).all = f.all ++ ns ∧
    (ns.foldl push f).root = f.root ∧ (ns ≠ [] → (ns.foldl push f).file ≠ none) := by
  rcases eq_nil_or_concat' ns with rfl | ⟨_,d,rfl⟩
  · simp
  · rw [pushesLast]
    simp

theorem joinedRun (base : b.Plain) (inside : g.root = false) (named : g.Named) :
    normalForm (appendPath b.value g.value) =
      (b.all ++ g.all ++ if g.file = none then [[]] else []).foldl step (bare true) := by
  have whole : all ⟨true,b.all ++ g.dirs,g.file⟩ = b.all ++ g.all := append_assoc ..
  have both : Form.Named ⟨true,b.all ++ g.dirs,g.file⟩ := by
    intro n mem
    rw [whole] at mem
    rcases mem_append.mp mem with old | new
    · exact base.named n old
    · exact named n new
  rw [appendForm base.root base.named inside named,formRun both rfl,whole]

variable {C P B : List Text}

theorem relativeRun (base : b.Plain) (path : f.Plain) (left : f.rest = C ++ P)
    (nonempty : ¬(P = [] ∧ B = [])) :
    normalForm (appendPath b.value (P.foldl appendPath (B.foldl (fun p _ => appendPath p dotDot) []))) =
      P.foldl step ((b.all ++ replicate B.length dotDot).foldl step (bare true)) := by
  have parts : ∃ ns mark, P = ns ++ mark ∧ AllNames ns ∧ (mark = [] ∨ mark = [[]]) := by
    by_cases empty : P = []
    · exact ⟨[],[],empty,by simp [AllNames],.inl rfl⟩
    obtain ⟨ns,whole,shape⟩ := restBehind left empty
    refine ⟨ns,f.mark,shape,?_,markCases f⟩
    intro n mem
    exact path.named n (by rw [whole]; exact mem_append_right _ mem)
  obtain ⟨ns,_,rfl,all,single⟩ := parts
  have both : AllNames (replicate B.length dotDot ++ ns) := by
    intro n mem
    rcases mem_append.mp mem with up | name
    · rw [eq_of_mem_replicate up]
      exact dotDotName
    · exact all n name
  have run := joinNames (bareNamed false) both
  obtain ⟨whole,root,file⟩ := pushesForm (bare false) (replicate B.length dotDot ++ ns)
  have named : ((replicate B.length dotDot ++ ns).foldl push (bare false)).Named := by
    intro n mem
    rw [whole] at mem
    exact both n mem
  rw [upsFold,← foldl_append,← append_assoc]
  rw [foldl_append,show [] = (bare false).value from rfl,run]
  generalize (replicate B.length dotDot ++ ns).foldl push (bare false) = g at *
  have namesOnly : g.all = replicate B.length dotDot ++ ns := whole
  rcases single with rfl | rfl
  · have unclosed := file (by simpa [and_comm] using nonempty)
    rw [foldl_nil,joinedRun base root named,namesOnly,if_neg unclosed]
    simp
  · rw [foldl_cons,foldl_nil,appendNothing named,
        joinedRun base (show g.close.root = false from root) (closeNamed named),closeAll,namesOnly]
    simp

def Apart (P B : List Text) : Prop := ∀ x, P.head? = some x → B.head? ≠ some x

theorem sameElement {e d} (left : e = [] ∨ IsName e) (right : d = [] ∨ IsName d) : samePath e d = true ↔ e = d := by
  have single : ∀ {x : Text}, x = [] ∨ IsName x → elements x = if x = [] then [] else [x] := by
    rintro x (rfl | name)
    · rfl
    · rw [elementsName name,if_neg name.1]
  rw [samePath,single left,single right]
  by_cases first : e = [] <;> by_cases second : d = [] <;> simp [first,second]

variable {es ds : List Text}

theorem mismatchFront (left : ∀ e ∈ es, e = [] ∨ IsName e) (right : ∀ d ∈ ds, d = [] ∨ IsName d) :
    ∃ C, es = C ++ (mismatch es ds).1 ∧ ds = C ++ (mismatch es ds).2 ∧ Apart (mismatch es ds).1 (mismatch es ds).2 := by
  induction es generalizing ds with
  | nil => exact ⟨[],rfl,rfl,by simp [Apart,mismatch]⟩
  | cons e _ ih =>
    cases ds with
    | nil => exact ⟨[],rfl,rfl,by simp [Apart,mismatch]⟩
    | cons d _ =>
      have same := sameElement (left e mem_cons_self) (right d mem_cons_self)
      unfold mismatch
      split
      · rename_i equal
        obtain ⟨C,first,second,apart⟩ := ih (forall_mem_cons.mp left).2
          (forall_mem_cons.mp right).2
        refine ⟨e::C,?_,?_,apart⟩
        · rw [cons_append,← first]
        · rw [cons_append,← second,same.mp equal]
      · rename_i other
        refine ⟨[],rfl,rfl,?_⟩
        intro x first second
        simp only [head?_cons,some.injEq] at first second
        exact other (same.mpr (first.trans second.symm))

theorem apartFront {D} (apart : Apart P B) (left : D <+: C ++ P) (right : D <+: C ++ B) : D <+: C := by
  induction C generalizing D with
  | nil =>
    cases D with
    | nil => exact nil_prefix
    | cons d D =>
      obtain ⟨p,rfl⟩ := left
      obtain ⟨b,rfl⟩ := right
      exact absurd rfl (apart d rfl)
  | cons c C ih =>
    cases D with
    | nil => exact nil_prefix
    | cons d D =>
      obtain ⟨same,left⟩ := cons_prefix_cons.mp left
      exact cons_prefix_cons.mpr ⟨same,ih left (cons_prefix_cons.mp right).2⟩

theorem closeStep (f : Form) {e} (plain : e ≠ dotDot) : f.close.step e = f.step e := by
  unfold step
  split
  · rw [close,closeAll]
    rfl
  · rw [push,closeAll]
    rfl

theorem stepsAll (plain : ∀ e ∈ es, e ≠ dot ∧ e ≠ dotDot) (f) :
    (es.foldl step f).all = f.all ++ es.filter (· ≠ []) := by
  induction es generalizing f with
  | nil => simp
  | cons e _ ih =>
    obtain ⟨one,two⟩ := plain e mem_cons_self
    rw [foldl_cons,ih (forall_mem_cons.mp plain).2]
    by_cases empty : e = []
    · rw [step,if_pos (.inl empty),closeAll]
      simp [empty]
    · rw [stepName f empty one two,pushAll]
      simp [empty]

theorem firstUp (base : b.Plain) (ups) :
    (b.all ++ dotDot::ups).foldl step (bare true) = ups.foldl step ⟨true,b.all.dropLast,none⟩ := by
  rw [foldl_append,plainPushes base,foldl_cons,pushedUp base.dotDot]

theorem rootUps (k) : (replicate k dotDot).foldl step (bare true) = bare true := by
  induction k with
  | zero => rfl
  | succ k ih =>
    exact ih

theorem upsStay (file : f.file = some dotDot) (k) :
    ((replicate k dotDot).foldl step f).file = some dotDot := by
  induction k generalizing f with
  | zero => exact file
  | succ k ih =>
    refine ih ?_
    rw [stepUp,dotDotStep,file]
    rfl

theorem secondUp (deep : ds ≠ []) (k) :
    dotDot ∈ ((replicate (k+1) dotDot).foldl Form.step ⟨true,ds,none⟩).all := by
  have first : Form.step ⟨true,ds,none⟩ dotDot = Form.push ⟨true,ds,none⟩ dotDot := by
    rw [stepUp]
    simp [Form.dotDotStep,deep]
  rw [replicate_succ,foldl_cons,first]
  have file := @upsStay (Form.push ⟨true,ds,none⟩ dotDot) rfl k
  rw [Form.all,file]
  simp

section
variable {b f : Form} (base : b.Plain) (path : f.Plain) {C P B : List Text}
  (left : f.rest = C ++ P) (right : b.rest = C ++ B)

include path left in
theorem backPlain : ∀ e ∈ P, e ≠ dot ∧ e ≠ dotDot := by
  intro e mem
  rcases plainRest path e (by rw [left]; exact mem_append_right _ mem) with rfl | ⟨-,plain⟩
  · decide
  · exact plain
include path left in
theorem pathRun : P.foldl step (C.foldl step (bare true)) = f := by
  rw [← foldl_append,← left,restRun path]
include path left right in
theorem downBase (none : B = []) (nonempty : P ≠ []) : b.all = C := by
  obtain ⟨_,whole,-⟩ := restBehind left nonempty
  have absent : [] ∉ b.rest := by
    rw [right,none,append_nil]
    intro mem
    exact (path.named [] (by rw [whole]; exact mem_append_left _ mem)).1 rfl
  have mark : b.mark = [] := by
    refine if_neg ?_
    intro ends
    refine absent (mem_append_right _ ?_)
    rw [mark,if_pos ends]
    exact mem_cons_self
  rw [← append_nil b.all,← mark]
  exact right.trans (by rw [none,append_nil])
include base right in
theorem oneBelow {x} (single : B = [x]) : b.all = C ++ [x] ∧ x ≠ [] ∨ b.all = C ∧ x = [] ∧ C ≠ [] := by
  obtain ⟨ns,whole,shape⟩ := restBehind right (by simp [single])
  unfold mark at shape
  split at shape
  · rename_i ends
    obtain ⟨empty,last⟩ := append_inj' (show [] ++ [x] = ns ++ [[]] by rw [← shape,single]; rfl) rfl
    rw [← empty,append_nil] at whole
    refine .inr ⟨whole,by simpa using last,?_⟩
    rintro rfl
    exact ends.2 (append_eq_nil_iff.mp whole).1
  · rw [← append_nil ns,← shape,single] at whole
    refine .inl ⟨whole,?_⟩
    exact (base.named x (by rw [whole]; simp)).1

def Lands (f : Form) (C P B : List Text) : Prop :=
  B = [] ∧ (P ≠ [] ∨ f.file = none) ∨ (∃ n, n ≠ [] ∧ B = [n]) ∧ (P ≠ [] ∨ C = []) ∨ C = [] ∧ ∃ n, B = [n,[]]

include path in
theorem frontPushes (inside : ∀ n ∈ C, n ∈ f.all) : C.foldl step (bare true) = C.foldl push (bare true) :=
  stepNames (fun n mem => plainNames path n (inside n mem)) _
include base path left in
theorem parentLands {x} (whole : b.all = C ++ [x]) :
    (P.foldl step ⟨true,C,none⟩).settle = f ↔ P ≠ [] ∨ C = [] := by
  have inside : ∀ n ∈ C, n ∈ b.all := fun n mem => by rw [whole]; exact mem_append_left _ mem
  have closed : (C.foldl step (bare true)).close = ⟨true,C,none⟩ := by
    obtain ⟨all,root,-⟩ := pushesForm (bare true) C
    rw [frontPushes base inside,close,all,root]
    rfl
  have run := pathRun path left
  cases P with
  | nil =>
    have same : f.rest = C := by rw [left,append_nil]
    rw [settlePlain fun up => base.dotDot (inside dotDot (by simpa using up))]
    constructor
    · intro here
      refine .inr (Classical.byContradiction fun deep => ?_)
      rw [← here] at same
      simp [rest,mark,deep] at same
    · rintro (nonempty | rfl)
      · contradiction
      · exact run
  | cons e P =>
    have other := (backPlain path left e mem_cons_self).2
    refine iff_of_true ?_ (.inl (by simp))
    rw [foldl_cons,← closed,closeStep _ other]
    exact (congrArg settle run).trans (settlePlain path.dotDot)
include base path left in
theorem markMisses (whole : b.all = C) (deep : C ≠ []) : (P.foldl Form.step ⟨true,C.dropLast,none⟩).settle ≠ f := by
  intro same
  have plain := backPlain path left
  have here := congrArg Form.all same
  have there := congrArg Form.all (pathRun path left)
  rw [settleAll,stepsAll plain] at here
  rw [stepsAll plain,frontPushes base fun n mem => whole ▸ mem,(pushesForm _ _).1,← here] at there
  have equal : C = C.dropLast := by simpa using there
  have size := congrArg length equal
  have positive := length_pos_iff.mpr deep
  rw [length_dropLast] at size
  omega
include right in
theorem shallowBase {x y} {B'} (two : B = x::y::B') (shallow : b.all.dropLast = []) :
    C = [] ∧ ∃ n, B = [n,[]] := by
  have size := congrArg length right
  have short := congrArg length shallow
  rw [rest,two] at size
  rw [length_dropLast,length_nil] at short
  simp only [length_append,length_cons] at size
  rcases markCases b with mark | mark
  · rw [mark,length_nil] at size
    omega
  rw [mark,length_singleton] at size
  have none : C = [] := length_eq_zero_iff.mp (by omega)
  obtain ⟨n,single⟩ := length_eq_one_iff.mp (show b.all.length = 1 by omega)
  refine ⟨none,n,?_⟩
  rw [none,rest,mark,single] at right
  exact right.symm
include base path left right in
theorem landsExactly (nonempty : ¬(P = [] ∧ B = [])) :
    (P.foldl step ((b.all ++ replicate B.length dotDot).foldl step (bare true))).settle = f ↔ Lands f C P B := by
  match two : B with
  | [] =>
    have full : P ≠ [] := fun empty => nonempty ⟨empty,rfl⟩
    refine iff_of_true ?_ (.inl ⟨rfl,.inl full⟩)
    rw [length_nil,replicate_zero,append_nil,downBase path left right rfl full,pathRun path left]
    exact settlePlain path.dotDot
  | [x] =>
    have up := firstUp base []
    rw [show replicate [x].length dotDot = [dotDot] from rfl,up,foldl_nil]
    rcases oneBelow base right rfl with ⟨whole,name⟩ | ⟨whole,rfl,deep⟩
    · rw [whole,dropLast_concat,parentLands base path left whole]
      simp [Lands,name]
    · rw [whole]
      exact iff_of_false (markMisses base path left whole deep) (by simp [Lands])
  | x::y::B' =>
    rw [show replicate (x::y::B').length dotDot = dotDot::replicate (B'.length+1) dotDot from rfl,firstUp base]
    by_cases shallow : b.all.dropLast = []
    · have landed := shallowBase right rfl shallow
      refine iff_of_true ?_ (.inr (.inr landed))
      have run := pathRun path left
      rw [landed.1] at run
      rw [shallow,show (⟨true,[],none⟩ : Form) = bare true from rfl,rootUps]
      exact (congrArg settle run).trans (settlePlain path.dotDot)
    · refine iff_of_false ?_ ?_
      · intro same
        refine path.dotDot ?_
        rw [← same,settleAll,stepsAll (backPlain path left)]
        exact mem_append_left _ (secondUp shallow _)
      · rintro (⟨none,-⟩ | ⟨⟨n,-,single⟩,-⟩ | ⟨none,n,pair⟩)
        · cases none
        · cases single
        refine shallow ?_
        have all := restAll base.named
        rw [right,none,pair] at all
        rw [← all]
        by_cases empty : n = [] <;> simp [empty]
include base path left right in
theorem dotLands (empty : P = []) (none : B = []) :
    (normalForm (appendPath b.value dot)).settle = f ↔ Lands f C P B := by
  have same := restUnique path.named base.named (path.root.trans base.root.symm) (by rw [left,right,empty,none])
  have named : Form.Named ⟨false,[],some dot⟩ := by
    intro n mem
    simp only [Form.all,nil_append,Option.toList_some,mem_singleton] at mem
    rw [mem]
    exact dotName
  have run : normalForm (appendPath b.value dot) = b.close := by
    have joined := joinedRun base rfl named
    rw [show Form.value ⟨false,[],some dot⟩ = dot from rfl] at joined
    obtain ⟨all,root,-⟩ := pushesForm (bare true) b.all
    rw [joined]
    simp only [Form.all,nil_append,Option.toList_some,reduceCtorEq,if_false,append_nil]
    rw [← Form.all,foldl_append,plainPushes base,foldl_cons,Form.step,Form.close,all,root]
    simp [base.root]
  rw [run,settlePlain (by rw [closeAll]; exact base.dotDot)]
  have closed : b.close = b ↔ b.file = Option.none := by
    constructor
    · intro equal
      rw [← equal]
      rfl
    · intro file
      obtain ⟨r,_,x⟩ := b
      cases file
      simp
  rw [same,closed]
  simp [Lands,empty,none]
end

/-! The pairs that lead back: the path is below the base, or is the base with a separator at its end;
it is below the base's parent and not that parent without a separator; or the base is a collection
of the root with a separator at its end and the path is not inside it. -/
def LeadsBack (p base : Text) : Prop :=
  elements base <+: elements p ∧ (elements p ≠ elements base ∨ p.getLast? = some '/') ∨
  (∃ front n, n ≠ [] ∧ elements base = front ++ [n] ∧ front <+: elements p ∧ ¬elements base <+: elements p ∧
    (elements p ≠ front ∨ front = [['/']])) ∨
  ∃ n, elements base = [['/'],n,[]] ∧ ¬[['/'],n] <+: elements p

theorem apartPrefix (apart : Apart P B) : C ++ B <+: C ++ P ↔ B = [] := by
  rw [prefix_append_right_inj]
  constructor
  · intro front
    cases B with
    | nil => rfl
    | cons b B =>
      obtain ⟨_,rfl⟩ := front
      exact absurd rfl (apart b rfl)
  · rintro rfl
    exact nil_prefix

theorem leadsLands (base : b.Plain) (path : f.Plain) (left : f.rest = C ++ P)
    (right : b.rest = C ++ B) (apart : Apart P B) : LeadsBack f.value b.value ↔ Lands f C P B := by
  have ends := rootedEnds path.root path.named
  unfold LeadsBack Lands
  rw [elementsRest path.named path.root,elementsRest base.named base.root,left,right,ends]
  simp only [cons_prefix_cons,true_and,apartPrefix apart]
  refine or_congr ?_ (or_congr ?_ ?_)
  · refine and_congr_right ?_
    rintro rfl
    simp
  · constructor
    · rintro ⟨front,n,name,shape,inside,other,rest⟩
      cases front with
      | nil =>
        have both := (cons.inj shape).2
        exact absurd (append_eq_nil_iff.mp both).2 other
      | cons c F =>
        obtain ⟨slash,whole⟩ := cons.inj shape
        have shorter := apartFront apart (cons_prefix_cons.mp inside).2 (by rw [whole]; exact prefix_append _ _)
        obtain ⟨more,rfl⟩ := shorter
        have single : more ++ B = [n] := by simpa using whole
        obtain ⟨rfl,here⟩ : more = [] ∧ B = [n] := by
          rcases append_eq_singleton_iff.mp single with both | ⟨-,none⟩
          · exact both
          · contradiction
        refine ⟨⟨n,name,here⟩,?_⟩
        simpa [← slash] using rest
    · rintro ⟨⟨n,name,single⟩,rest⟩
      refine ⟨['/']::C,n,name,by simp [single],?_,by simp [single],by simpa using rest⟩
      exact cons_prefix_cons.mpr ⟨rfl,prefix_append _ _⟩
  · constructor
    · rintro ⟨n,shape,outside⟩
      have whole := (cons.inj shape).2
      cases C with
      | nil => exact ⟨rfl,n,whole⟩
      | cons c C =>
        refine absurd ?_ outside
        rw [(cons.inj whole).1]
        simp
    · rintro ⟨rfl,n,pair⟩
      refine ⟨n,by simp [pair],?_⟩
      rintro ⟨_,shape⟩
      exact apart n (by rw [← nil_append P,← shape]; rfl) (by rw [pair]; rfl)

theorem appendAbsolute {v} (absolute : isAbsolute v = true) (w) : isAbsolute (appendPath v w) = true := by
  obtain ⟨u,rfl⟩ := absoluteCons absolute
  have kept : ∀ t, isAbsolute ('/'::u ++ t) = true := fun _ => rfl
  unfold appendPath
  split
  · split
    · exact kept _
    · exact absolute
  · split
    · assumption
    · split <;> exact kept _

theorem leadsBackExactly {p base : Text} (pAbsolute : isAbsolute p = true) (pNormal : lexicallyNormal p = p)
    (baseAbsolute : isAbsolute base = true) (baseNormal : lexicallyNormal base = base) :
    samePath (lexicallyNormal (appendPath base (lexicallyRelative p base))) (lexicallyNormal p) = true ↔
    LeadsBack p base := by
  obtain ⟨f,path,rfl⟩ := normalPlain pAbsolute pNormal
  obtain ⟨b,plain,rfl⟩ := normalPlain baseAbsolute baseNormal
  obtain ⟨C,left,right,apart⟩ := mismatchFront (fun e mem => (plainRest path e mem).imp_right And.left)
    fun e mem => (plainRest plain e mem).imp_right And.left
  have following : mismatch (elements f.value) (elements b.value) = mismatch f.rest b.rest := by
    rw [elementsRest path.named path.root,elementsRest plain.named plain.root,mismatch,if_pos (by decide)]
  have nonempty := appendFull (rootedFull plain.root) (lexicallyRelative f.value b.value)
  have root : (normalForm (appendPath b.value (lexicallyRelative f.value b.value))).root = true := by
    rw [normalForm,stepsRoot]
    exact appendAbsolute baseAbsolute _
  rw [pNormal,normalText nonempty,textSame (normalRun nonempty).2 root path,leadsLands plain path left right apart]
  unfold lexicallyRelative
  rw [following]
  by_cases both : (mismatch f.rest b.rest).1 = [] ∧ (mismatch f.rest b.rest).2 = []
  · rw [if_pos both]
    exact dotLands plain path left right both.1 both.2
  · rw [if_neg both,relativeRun plain path left both]
    exact landsExactly plain path left right both

theorem siblingLeadsBack :
    samePath (lexicallyNormal
      (appendPath (lit "/tempZone/home") (lexicallyRelative (lit "/tempZone/trash/") (lit "/tempZone/home"))))
    (lexicallyNormal (lit "/tempZone/trash/")) = true :=
  (leadsBackExactly rfl rfl rfl rfl).mpr
    (.inr (.inl ⟨[['/'],lit "tempZone"],lit "home",by decide,by decide,by decide,by decide,by decide⟩))

theorem deepBaseLost : isAbsolute (lit "/c") = true ∧ lexicallyNormal (lit "/c") = lit "/c" ∧
    isAbsolute (lit "/a/b") = true ∧ lexicallyNormal (lit "/a/b") = lit "/a/b" ∧
    lexicallyRelative (lit "/c") (lit "/a/b") = lit "../../c" ∧
    lexicallyNormal (appendPath (lit "/a/b") (lexicallyRelative (lit "/c") (lit "/a/b"))) = lit "/a/../c" ∧
    samePath (lexicallyNormal (appendPath (lit "/a/b") (lexicallyRelative (lit "/c") (lit "/a/b"))))
      (lexicallyNormal (lit "/c")) = false := by
  decide

end Irods.LogicalPath
