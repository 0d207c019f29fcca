import Irods.PathNames

/-! irods::experimental::filesystem::path: its iterator over positions of the
string, the decompositions built on it, and lexically_normal. -/
namespace Irods.LogicalPath
open CText PathNames List

def dot : Text := ['.']
def dotDot : Text := ['.','.']

structure Iter where
  pos : Nat
  element : Text
  deriving DecidableEq, Repr

def isAbsolute (fp : Text) : Bool := fp.head? == some '/'
def skipSeparators (fp : Text) (pos : Nat) : Nat := pos+((fp.drop pos).takeWhile (· == '/')).length
def wordAt (fp : Text) (pos : Nat) : Text := (fp.drop pos).takeWhile (· != '/')
def wordBefore (fp : Text) (pos : Nat) : Text := ((fp.take pos).reverse.takeWhile (· != '/')).reverse
def separatorBefore (fp : Text) (pos : Nat) : Bool := (fp.take pos).getLast? == some '/'

def begin (fp : Text) : Iter :=
  if fp = [] then ⟨0,[]⟩ else if isAbsolute fp then ⟨0,['/']⟩ else ⟨0,wordAt fp 0⟩

def endOf (fp : Text) : Iter := ⟨fp.length,[]⟩

-- operator++ behind the element it stood on.
def behind (fp : Text) (pos : Nat) : Iter :=
  if fp.length = pos then ⟨pos,[]⟩
  else
    let pos := skipSeparators fp pos
    if fp.length = pos ∧ fp.getLast? = some '/' then ⟨fp.length-1,[]⟩ else ⟨pos,wordAt fp pos⟩

def Iter.next (fp : Text) (it : Iter) : Iter :=
  if fp.length-1 = it.pos ∧ it.element = [] then ⟨it.pos+1,it.element⟩ else behind fp (it.pos+it.element.length)

def Iter.prev (fp : Text) (it : Iter) : Iter :=
  if fp.length = it.pos ∧ 1 < fp.length ∧ separatorBefore fp it.pos then ⟨it.pos-1,[]⟩
  else if 0 < it.pos ∧ separatorBefore fp it.pos then
    if it.pos-1 = 0 then ⟨0,['/']⟩
    else
      let stop := it.pos-((fp.take it.pos).reverse.takeWhile (· == '/')).length
      ⟨stop-(wordBefore fp stop).length,wordBefore fp stop⟩
  else ⟨it.pos-(wordBefore fp it.pos).length,wordBefore fp it.pos⟩

def walk (fp : Text) (stop : Nat) : Nat → Iter → List Iter
  | 0,_ => []
  | fuel+1,it => if it.pos = stop then [] else it::walk fp stop fuel (it.next fp)

def range (fp : Text) (first : Iter) (stop : Nat) : List Text := (walk fp stop (fp.length+1) first).map Iter.element
def elements (fp : Text) : List Text := range fp (begin fp) fp.length

-- compare() == 0: the same elements.
def samePath (a b : Text) : Bool := elements a == elements b

def appendPath (v p : Text) : Text :=
  if p = [] then
    if v ≠ [] ∧ v.getLast? ≠ some '/' then v ++ ['/'] else v
  else if isAbsolute p then p
  else if v = [] ∨ v.getLast? = some '/' ∨ p.head? = some '/' then v ++ p else v ++ '/'::p

def join (es : List Text) : Text := es.foldl appendPath []

def relativePath (fp : Text) : Text :=
  if isAbsolute fp then join (range fp ((begin fp).next fp) fp.length) else fp

def parentPath (fp : Text) : Text :=
  if relativePath fp = [] then fp else join (range fp (begin fp) ((endOf fp).prev fp).pos)

def objectName (fp : Text) : Text := if relativePath fp = [] then [] else ((endOf fp).prev fp).element

-- find_last_of and erase behind it; without a separator nothing is erased.
def removeObjectName (fp : Text) : Text :=
  if objectName fp ≠ [] then
    if '/' ∈ fp then fp.take (fp.length-(wordBefore fp fp.length).length) else fp
  else fp

def normalStep (p next_element : Text) : Text :=
  if samePath next_element dot then appendPath p []
  else if samePath next_element dotDot then
    if objectName p ≠ [] ∧ !samePath (objectName p) dotDot then removeObjectName p
    else if !samePath ['/'] p then appendPath p next_element
    else p
  else appendPath p next_element

def lexicallyNormal (fp : Text) : Text :=
  if fp = [] then []
  else
    let p := (elements fp).foldl normalStep []
    if p = [] then dot
    else
      let last := (endOf p).prev p
      if last.element = [] ∧ samePath dotDot (last.prev p).element then parentPath p else p

example : lexicallyNormal (lit "/tempZone/home/rods/..") = lit "/tempZone/home/" := rfl

example : lexicallyNormal (lit "../file/../..") = lit "../.." := rfl

example : lexicallyNormal (lit "foo/.///bar/../") = lit "foo/" := rfl

def trailing (t : Text) : List Text := if t.getLast? = some '/' then [[]] else []

theorem namesWord {n t} (name : IsName n) (ends : t = [] ∨ t.head? = some '/') : names (n ++ t) = n::names t := by
  rcases ends with rfl | slash
  · simpa [names,namesFrom,keep] using namesOfName name
  obtain ⟨c,t,rfl⟩ : ∃ c s, t = c::s := by
    cases t with
    | nil => contradiction
    | cons c s => exact ⟨c,s,rfl⟩
  cases Option.some.inj slash
  rw [namesSlash,namesOfName name]
  rfl

theorem namesSlashes {s} (slashes : ∀ c ∈ s, c = '/') (t) : names (s ++ t) = names t := by
  induction s with
  | nil => rfl
  | cons c s ih =>
    cases slashes c mem_cons_self
    exact ih (forall_mem_cons.mp slashes).2

theorem splitText (t) : ∃ s r, t = s ++ r ∧ (∀ c ∈ s, c = '/') ∧ t.takeWhile (· == '/') = s ∧
    (r = [] ∨ ∃ n u, r = n ++ u ∧ IsName n ∧ (u = [] ∨ u.head? = some '/') ∧ r.takeWhile (· != '/') = n) := by
  refine ⟨t.takeWhile (· == '/'),t.dropWhile (· == '/'),(takeWhile_append_dropWhile ..).symm,?_,rfl,?_⟩
  · intro c mem
    simpa using mem_takeWhile_imp mem
  generalize whole : t.dropWhile (· == '/') = r
  cases r with
  | nil => exact .inl rfl
  | cons c r =>
    have other : c ≠ '/' := by
      have head := head?_dropWhile_not (fun c => c == '/') t
      rw [whole] at head
      simpa using head
    refine .inr ⟨(c::r).takeWhile (· != '/'),(c::r).dropWhile (· != '/'),(takeWhile_append_dropWhile ..).symm,⟨?_,?_⟩,
        ?_,rfl⟩
    · simp [other]
    · intro mem
      simpa using mem_takeWhile_imp mem
    generalize rest : (c::r).dropWhile (· != '/') = u
    cases u with
    | nil => exact .inl rfl
    | cons d u =>
      have head := head?_dropWhile_not (fun c => c != '/') (c::r)
      rw [rest] at head
      exact .inr (by simpa using head)

theorem nameEnds {n} (name : IsName n) (t) : (t ++ n).getLast? ≠ some '/' := by
  rw [getLast?_append_of_ne_nil _ name.1]
  intro slash
  exact name.2 (mem_of_getLast? slash)

theorem trailingWord {n u} (name : IsName n) (t) : trailing (t ++ (n ++ u)) = trailing u := by
  unfold trailing
  cases u with
  | nil =>
    rw [append_nil,if_neg (nameEnds name t)]
    rfl
  | cons c u =>
    rw [getLast?_append_of_ne_nil _ (by simp),getLast?_append_of_ne_nil _ (by simp)]

def Stops (fp rest : Text) (stop : Nat) : Prop :=
  stop = fp.length ∨ stop = fp.length-1 ∧ fp.getLast? = some '/' ∧ rest ≠ []

theorem behindEnd {fp pos} (last : fp.length = pos) : behind fp pos = ⟨pos,[]⟩ := if_pos last

theorem behindSlashes {front s} (slashes : ∀ c ∈ s, c = '/') (full : s ≠ []) :
    behind (front ++ s) front.length = ⟨(front ++ s).length-1,[]⟩ := by
  have positive := length_pos_iff.mpr full
  have last : (front ++ s).getLast? = some '/' := by
    rw [getLast?_append_of_ne_nil _ full,getLast?_eq_some_getLast full,slashes _ (getLast_mem full)]
  have all : s.takeWhile (· == '/') = s := takeWhile_eq_self_iff.mpr fun c mem => by simp [slashes c mem]
  have skipped : skipSeparators (front ++ s) front.length = (front ++ s).length := by
    rw [skipSeparators,drop_left,all,length_append]
  rw [behind,if_neg (by rw [length_append]; omega)]
  simp [skipped,last]

theorem behindWord {front s n u} (slashes : (s ++ (n ++ u)).takeWhile (· == '/') = s) (name : IsName n)
    (word : (n ++ u).takeWhile (· != '/') = n) :
    behind (front ++ (s ++ (n ++ u))) front.length = ⟨front.length+s.length,n⟩ := by
  have positive := length_pos_iff.mpr name.1
  have skipped : skipSeparators (front ++ (s ++ (n ++ u))) front.length = front.length+s.length := by
    rw [skipSeparators,drop_left,slashes]
  have here : wordAt (front ++ (s ++ (n ++ u))) (front.length+s.length) = n := by
    rw [wordAt,← drop_drop,drop_left,drop_left,word]
  rw [behind,if_neg (by simp only [length_append]; omega)]
  simp only [skipped,here]
  rw [if_neg]
  rintro ⟨short,-⟩
  simp only [length_append] at short
  omega

theorem walkEnd (fp fuel e) : walk fp fp.length fuel ⟨fp.length,e⟩ = [] := by
  cases fuel with
  | zero => rfl
  | succ _ => simp [walk]

theorem walkBehind {fp stop front rest} (same : fp = front ++ rest) (stops : Stops fp rest stop)
    {fuel} (enough : rest.length ≤ fuel) : (walk fp stop fuel (behind fp front.length)).map Iter.element =
      names rest ++ if stop = fp.length then trailing rest else [] := by
  induction size : rest.length using Nat.strong_induction_on generalizing rest front fuel with
  | _ k ih =>
    have total : fp.length = front.length+rest.length := by rw [same,length_append]
    by_cases empty : rest = []
    · subst empty
      have last : fp.length = front.length := total
      rcases stops with rfl | ⟨-,-,full⟩
      · rw [behindEnd last,← last,walkEnd]
        simp [names,namesFrom,keep,trailing]
      · contradiction
    · have positive := length_pos_iff.mpr empty
      obtain ⟨fuel,rfl⟩ : ∃ f, fuel = f+1 := ⟨fuel-1,by omega⟩
      obtain ⟨s,r,shape,slashes,leading,parts⟩ := splitText rest
      rcases parts with rfl | ⟨n,u,rfl,name,ends,word⟩
      · -- only separators are left
        rw [append_nil] at shape
        have plain := shape ▸ slashes
        have last : rest.getLast? = some '/' := by
          rw [getLast?_eq_some_getLast empty,plain _ (getLast_mem empty)]
        have none : names rest = [] := by simpa [names,namesFrom,keep] using namesSlashes plain []
        have here : behind fp front.length = ⟨fp.length-1,[]⟩ := by rw [same,behindSlashes plain empty]
        have on : (⟨fp.length-1,[]⟩ : Iter).next fp = ⟨fp.length,[]⟩ := by
          rw [Iter.next,if_pos ⟨rfl,rfl⟩,Nat.sub_add_cancel (by omega)]
        rw [here,none,walk]
        rcases stops with rfl | ⟨rfl,-,-⟩
        · rw [if_neg (show fp.length-1 ≠ fp.length by omega),on,walkEnd,if_pos rfl,trailing,if_pos last]
          rfl
        · rw [if_pos rfl,if_neg (by omega)]
          rfl
      · have here : behind fp front.length = ⟨front.length+s.length,n⟩ := by
          rw [same,shape,behindWord (shape ▸ leading) name word]
        have long := length_pos_iff.mpr name.1
        have sizes : rest.length = s.length+(n.length+u.length) := by rw [shape,length_append,length_append]
        have again : fp = (front ++ (s ++ n)) ++ u := by rw [same,shape]; simp
        -- the last character is a separator, so it is not in the name
        have stops' : Stops fp u stop := by
          rcases stops with atEnd | ⟨before,last,-⟩
          · exact .inl atEnd
          refine .inr ⟨before,last,?_⟩
          rintro rfl
          rw [again,append_nil,← append_assoc] at last
          exact nameEnds name _ last
        have apart : front.length+s.length ≠ stop := by
          rcases stops' with rfl | ⟨rfl,-,full⟩
          · omega
          · have := length_pos_iff.mpr full
            omega
        have on : (⟨front.length+s.length,n⟩ : Iter).next fp = behind fp (front ++ (s ++ n)).length := by
          rw [Iter.next,if_neg fun both => name.1 both.2]
          simp [Nat.add_assoc]
        rw [here,walk,if_neg apart,on,map_cons,ih u.length (by omega) again stops' (by omega) rfl,shape,
          namesSlashes slashes,namesWord name ends,trailingWord name]
        rfl

theorem nextAbsolute (t) : (begin ('/'::t)).next ('/'::t) = behind ('/'::t) ['/'].length := by
  show (if _ then _ else _) = _
  rw [if_neg (by simp [begin,isAbsolute])]
  rfl

theorem rangeBehindRoot {t stop} (stops : Stops ('/'::t) t stop) :
    range ('/'::t) ((begin ('/'::t)).next ('/'::t)) stop = names t ++ if stop = t.length+1 then trailing t else [] := by
  rw [nextAbsolute]
  exact walkBehind (show '/'::t = ['/'] ++ t from rfl) stops (by simp only [length_cons]; omega)

theorem rangeAbsolute {t stop} (stops : Stops ('/'::t) t stop) :
    range ('/'::t) (begin ('/'::t)) stop = ['/']::(names t ++ if stop = t.length+1 then trailing t else []) := by
  have apart : 0 ≠ stop := by
    rcases stops with rfl | ⟨rfl,-,full⟩
    · simp
    have := length_pos_iff.mpr full
    simp only [length_cons]
    omega
  have rest := walkBehind (show '/'::t = ['/'] ++ t from rfl) stops (show t.length ≤ t.length+1 by omega)
  have start : begin ('/'::t) = ⟨0,['/']⟩ := rfl
  rw [range,walk,start,if_neg apart,← start,nextAbsolute]
  exact congrArg _ rest

theorem absoluteCons {t} (absolute : isAbsolute t = true) : ∃ u, t = '/'::u := by
  cases t with
  | nil => cases absolute
  | cons c u =>
    have slash : c = '/' := by simpa [isAbsolute] using absolute
    exact ⟨u,by rw [slash]⟩

theorem elementsAbsolute (t) : elements ('/'::t) = ['/']::(names t ++ trailing t) := by
  rw [elements,rangeAbsolute (.inl rfl),length_cons,if_pos rfl]

theorem rangeRelative {t} (relative : isAbsolute t = false) (full : t ≠ []) {stop} (stops : Stops t t stop) :
    range t (begin t) stop = names t ++ if stop = t.length then trailing t else [] := by
  have start : begin t = behind t 0 := by
    obtain ⟨c,u,rfl⟩ := exists_cons_of_ne_nil full
    have other : c ≠ '/' := by
      rintro rfl
      simp [isAbsolute] at relative
    have none : skipSeparators (c::u) 0 = 0 := by simp [skipSeparators,other]
    rw [begin,if_neg full,if_neg (by simp [relative]),behind,if_neg (by simp)]
    simp only [none]
    rw [if_neg (by simp)]
  rw [start]
  exact walkBehind (show t = [] ++ t from rfl) stops (by omega)

theorem elementsRelative {t} (relative : isAbsolute t = false) : elements t = names t ++ trailing t := by
  cases t with
  | nil => rfl
  | cons c t => rw [elements,rangeRelative relative (by simp) (.inl rfl),if_pos rfl]

end Irods.LogicalPath
