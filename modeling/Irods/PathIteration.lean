import Irods.PathForm

/-! The iterator of a path in both directions. Forwards a path begins with its root, whatever
number of separators stands there; backwards the root is found at one separator only. -/
namespace Irods.LogicalPath
open CText PathNames List

inductive Runs (step : Iter → Iter) (stop : Nat) : Iter → List Iter → Prop where
  | done {it : Iter} : it.pos = stop → Runs step stop it []
  | more {it : Iter} {rest : List Iter} : it.pos ≠ stop → Runs step stop (step it) rest → Runs step stop it (it::rest)

structure Forward (fp : Text) (it : Iter) : Prop where
  within : it.pos+it.element.length ≤ fp.length
  last : it.pos < fp.length → it.element = [] → it.pos = fp.length-1

theorem skipBounds (fp) {pos} (within : pos ≤ fp.length) :
    pos ≤ skipSeparators fp pos ∧ skipSeparators fp pos ≤ fp.length := by
  have short := (takeWhile_sublist (l := fp.drop pos) fun c => c == '/').length_le
  rw [length_drop] at short
  unfold skipSeparators
  omega

theorem wordAfterSkip (fp pos) (inside : skipSeparators fp pos < fp.length) :
    wordAt fp (skipSeparators fp pos) ≠ [] := by
  have whole := takeWhile_append_dropWhile (p := fun c => c == '/') (l := fp.drop pos)
  have rest : fp.drop (skipSeparators fp pos) = (fp.drop pos).dropWhile (· == '/') := by
    calc fp.drop (skipSeparators fp pos)
        = ((fp.drop pos).takeWhile (· == '/') ++ (fp.drop pos).dropWhile (· == '/')).drop
            ((fp.drop pos).takeWhile (· == '/')).length := by rw [whole,drop_drop]; rfl
      _ = (fp.drop pos).dropWhile (· == '/') := drop_left
  have some : (fp.drop pos).dropWhile (· == '/') ≠ [] := by
    rw [← rest]
    exact ne_nil_of_length_pos (by rw [length_drop]; omega)
  have head := head?_dropWhile_not (fun c => c == '/') (fp.drop pos)
  obtain ⟨c,u,shape⟩ := exists_cons_of_ne_nil some
  rw [shape] at head
  unfold wordAt
  rw [rest,shape,takeWhile_cons_of_pos (by simpa using head)]
  simp

theorem nextForward {fp it} (good : Forward fp it) (inside : it.pos < fp.length) :
    Forward fp (it.next fp) ∧ it.pos < (it.next fp).pos := by
  have within := good.within
  unfold Iter.next
  split
  · rename_i atLast
    exact ⟨⟨by simp only [atLast.2,length_nil]; omega,by simp only; omega⟩,by simp only; omega⟩
  rename_i other
  have some : 0 < it.element.length := by
    apply length_pos_iff.mpr
    intro empty
    exact other ⟨(good.last inside empty).symm,empty⟩
  unfold behind
  split
  · exact ⟨⟨by simp only [length_nil]; omega,by simp only; omega⟩,by simp only; omega⟩
  obtain ⟨_,_⟩ := skipBounds fp within
  dsimp only
  split
  · exact ⟨⟨by simp only [length_nil]; omega,fun _ _ => rfl⟩,by simp only; omega⟩
  have size := (takeWhile_sublist (l := fp.drop (skipSeparators fp (it.pos+it.element.length))) fun c =>
      c != '/').length_le
  rw [length_drop] at size
  refine ⟨⟨?_,?_⟩,?_⟩
  · unfold wordAt
    simp only
    omega
  · intro short empty
    exact absurd empty (wordAfterSkip fp _ short)
  · simp only
    omega

theorem walkRuns {fp fuel it} (good : Forward fp it) (enough : fp.length-it.pos < fuel) :
    Runs (Iter.next fp) fp.length it (walk fp fp.length fuel it) := by
  induction fuel generalizing it with
  | zero => omega
  | succ _ ih =>
    have within := good.within
    rw [walk]
    split
    · exact .done ‹_›
    rename_i before
    obtain ⟨next,_⟩ := nextForward good (by omega)
    exact .more before (ih next (by omega))

attribute [simp] isAbsolute

theorem beginForward (fp) : Forward fp (begin fp) := by
  unfold begin
  split
  · rename_i empty
    subst empty
    exact ⟨Nat.le_refl _,fun inside => absurd inside (by simp)⟩
  rename_i full
  have positive := length_pos_iff.mpr full
  split
  · exact ⟨by simp only [length_singleton]; omega,fun _ empty => absurd empty (by simp)⟩
  rename_i relative
  have size := (takeWhile_sublist (l := fp) fun c => c != '/').length_le
  refine ⟨by simpa [wordAt] using size,fun _ empty => ?_⟩
  obtain ⟨c,u,rfl⟩ := exists_cons_of_ne_nil full
  have other : c ≠ '/' := by
    rintro rfl
    simp at relative
  simp [wordAt,other] at empty

theorem forwardRuns (fp) : ∃ its, Runs (Iter.next fp) fp.length (begin fp) its ∧
    its.map Iter.element = elements fp := by
  refine ⟨_,walkRuns (beginForward fp) ?_,rfl⟩
  omega

theorem splitBack (t) : ∃ r s, t = r ++ s ∧ (∀ c ∈ s, c = '/') ∧ (t.reverse.takeWhile (· == '/')).length = s.length ∧
    (r = [] ∨ ∃ f n, r = f ++ n ∧ IsName n ∧ (f = [] ∨ f.getLast? = some '/')) := by
  obtain ⟨s,r,shape,slashes,leading,parts⟩ := splitText t.reverse
  have whole : t = r.reverse ++ s.reverse := by rw [← reverse_append,← shape,reverse_reverse]
  refine ⟨r.reverse,s.reverse,whole,fun c mem => slashes c (mem_reverse.mp mem),by rw [leading,length_reverse],?_⟩
  rcases parts with rfl | ⟨n,u,rfl,name,ends,-⟩
  · exact .inl rfl
  refine .inr ⟨u.reverse,n.reverse,reverse_append,⟨by simpa using name.1,by simpa using name.2⟩,?_⟩
  rcases ends with rfl | slash
  · exact .inl rfl
  · exact .inr (by rw [getLast?_reverse]; exact slash)

def rootBack : Text → List Text
  | '/':: '/'::_ => [[]]
  | '/'::_ => [['/']]
  | _ => []

attribute [simp] rootBack

theorem rootBackWord {f n u} (name : IsName n) : rootBack (f ++ (n ++ u)) = rootBack f := by
  obtain ⟨c,m,rfl⟩ := exists_cons_of_ne_nil name.1
  have other : c ≠ '/' := by
    rintro rfl
    exact name.2 mem_cons_self
  match f with
  | [] => simp [other]
  | [a] =>
    by_cases slash : a = '/'
    · simp [slash,other]
    · simp [slash]
  | a::b::f =>
    by_cases slash : a = '/'
    · by_cases again : b = '/' <;> simp [slash,again]
    · simp [slash]

theorem namesBehind {f n s} (start : f = [] ∨ f.getLast? = some '/') (name : IsName n) (slashes : ∀ c ∈ s, c = '/') :
    names (f ++ (n ++ s)) = names f ++ [n] := by
  have ends : s = [] ∨ s.head? = some '/' := by
    cases s with
    | nil => exact .inl rfl
    | cons c s => exact .inr (by rw [slashes c mem_cons_self]; rfl)
  have tail : names s = [] := by simpa [names,namesFrom,keep] using namesSlashes slashes []
  have word : names (n ++ s) = [n] := by rw [namesWord name ends,tail]
  rcases start with rfl | last
  · rw [nil_append,word]
    rfl
  · obtain ⟨u,rfl⟩ := getLast?_eq_some_iff.mp last
    rw [append_assoc,singleton_append,namesSlash,namesSlash,word]
    simp [names,namesFrom,keep]

section Back
variable {fp front rest : Text} (whole : fp = front ++ rest)
  (inner : rest ≠ [] ∨ front.getLast? ≠ some '/' ∨ fp.length ≤ 1)
include whole inner

theorem notTrailing : ¬ (fp.length = front.length ∧ 1 < fp.length ∧ separatorBefore fp front.length = true) := by
  rintro ⟨size,_,last⟩
  have cut : fp.take front.length = front := by rw [whole,take_left]
  rw [separatorBefore,cut] at last
  rcases inner with some | plain | _
  · have positive := length_pos_iff.mpr some
    rw [whole,length_append] at size
    omega
  · exact plain (by simpa using last)
  · omega

theorem prevSlashes {f n s} (shape : front = f ++ (n ++ s)) (start : f = [] ∨ f.getLast? = some '/') (name : IsName n)
    (some : s ≠ []) (slashes : ∀ c ∈ s, c = '/') (count : (front.reverse.takeWhile (· == '/')).length = s.length) (e) :
    (⟨front.length,e⟩ : Iter).prev fp = ⟨f.length,n⟩ := by
  have cut : fp.take front.length = front := by rw [whole,take_left]
  have last : separatorBefore fp front.length = true := by
    rw [separatorBefore,cut,shape,← append_assoc,getLast?_append_of_ne_nil _ some,getLast?_eq_some_getLast some,
      slashes _ (getLast_mem some)]
    rfl
  have long := length_pos_iff.mpr some
  have word := length_pos_iff.mpr name.1
  have size : front.length = f.length+(n.length+s.length) := by rw [shape,length_append,length_append]
  have stop : front.length-(front.reverse.takeWhile (· == '/')).length = f.length+n.length := by omega
  have before : wordBefore fp (f.length+n.length) = n := by
    rw [whole,shape,append_assoc,append_assoc]
    exact wordBeforeEnd start name.2 (s ++ rest)
  rw [Iter.prev,if_neg (notTrailing whole inner)]
  dsimp only
  rw [if_pos ⟨by omega,last⟩,if_neg (by omega),cut,stop,before,Nat.add_sub_cancel]

theorem prevRoot (shape : front = ['/']) (e) : (⟨front.length,e⟩ : Iter).prev fp = ⟨0,['/']⟩ := by
  have last : separatorBefore fp front.length = true := by rw [whole,shape]; rfl
  rw [Iter.prev,if_neg (notTrailing whole inner)]
  rw [if_pos ⟨by simp [shape],last⟩,if_pos (by simp [shape])]

theorem prevRoots (slashes : ∀ c ∈ front, c = '/') (two : 2 ≤ front.length) (e) :
    (⟨front.length,e⟩ : Iter).prev fp = ⟨0,[]⟩ := by
  have some : front ≠ [] := ne_nil_of_length_pos (by omega)
  have cut : fp.take front.length = front := by rw [whole,take_left]
  have last : separatorBefore fp front.length = true := by
    rw [separatorBefore,cut,getLast?_eq_some_getLast some,slashes _ (getLast_mem some)]
    rfl
  have all : front.reverse.takeWhile (· == '/') = front.reverse :=
    takeWhile_eq_self_iff.mpr fun c mem => by simp [slashes c (mem_reverse.mp mem)]
  have none : wordBefore fp 0 = [] := rfl
  rw [Iter.prev,if_neg (notTrailing whole inner)]
  dsimp only
  rw [if_pos ⟨by omega,last⟩,if_neg (by omega),cut,all,length_reverse,Nat.sub_self]
  rfl

end Back

def Iter.before (fp : Text) (it : Iter) : Text := (it.prev fp).element

theorem backRuns {fp front rest} (whole : fp = front ++ rest)
    (inner : rest ≠ [] ∨ front.getLast? ≠ some '/' ∨ fp.length ≤ 1) (e) :
    ∃ its, Runs (Iter.prev fp) 0 ⟨front.length,e⟩ its ∧
    its.map (Iter.before fp) = (names front).reverse ++ rootBack front := by
  induction size : front.length using Nat.strong_induction_on generalizing front rest e with
  | _ k ih =>
    subst size
    by_cases empty : front = []
    · subst empty
      exact ⟨[],.done rfl,rfl⟩
    have positive := length_pos_iff.mpr empty
    -- one step to an iterator from which the run is known
    have step : ∀ {it : Iter} {its : List Iter} {es : List Text}, (⟨front.length,e⟩ : Iter).prev fp = it →
      Runs (Iter.prev fp) 0 it its →
        its.map (Iter.before fp) = es → ∃ its, Runs (Iter.prev fp) 0 ⟨front.length,e⟩ its ∧
          its.map (Iter.before fp) = it.element::es := by
      intro _ its _ moved run same
      refine ⟨⟨front.length,e⟩::its,.more (by simp only; omega) (moved ▸ run),?_⟩
      rw [map_cons,same,Iter.before,moved]
    obtain ⟨r,s,shape,slashes,count,parts⟩ := splitBack front
    rcases parts with rfl | ⟨f,n,rfl,name,start⟩
    · rw [nil_append] at shape
      have plain := shape ▸ slashes
      have none : names front = [] := by simpa [names,namesFrom,keep] using namesSlashes plain []
      rw [none]
      by_cases single : front = ['/']
      · obtain ⟨its,run,same⟩ := step (prevRoot whole inner single e) (.done rfl) rfl
        exact ⟨its,run,same.trans (by rw [single]; rfl)⟩
      obtain ⟨c,d,u,rfl⟩ : ∃ c d u, front = c::d::u := by
        rcases front with _ | ⟨c,_ | ⟨d,u⟩⟩
        · contradiction
        · exact absurd (by rw [plain c mem_cons_self]) single
        · exact ⟨c,d,u,rfl⟩
      obtain ⟨its,run,same⟩ := step (prevRoots whole inner plain (by simp) e) (.done rfl) rfl
      refine ⟨its,run,same.trans ?_⟩
      rw [plain c mem_cons_self,plain d (by simp)]
      rfl
    · have longer := length_pos_iff.mpr name.1
      rw [append_assoc] at shape
      have less : f.length < front.length := by rw [shape,length_append,length_append]; omega
      have moved : (⟨front.length,e⟩ : Iter).prev fp = ⟨f.length,n⟩ := by
        by_cases some : s = []
        · subst some
          rw [append_nil] at shape
          rw [shape,length_append,whole,shape,append_assoc]
          exact prevName start name rest e
        · exact prevSlashes whole inner shape start name some slashes count e
      have again : fp = f ++ (n ++ (s ++ rest)) := by rw [whole,shape]; simp
      obtain ⟨its,run,same⟩ := ih f.length less again (.inl (append_ne_nil_of_left_ne_nil name.1 _)) n rfl
      obtain ⟨its,run,same⟩ := step moved run same
      refine ⟨its,run,same.trans ?_⟩
      rw [shape,namesBehind start name slashes,rootBackWord name,reverse_append]
      rfl

def inside (fp : Text) : Text := if 1 < fp.length ∧ fp.getLast? = some '/' then fp.dropLast else fp
def lastEmpty (fp : Text) : List Text := if 1 < fp.length ∧ fp.getLast? = some '/' then [[]] else []

theorem backwardRuns (fp) : ∃ its, Runs (Iter.prev fp) 0 (endOf fp) its ∧
    its.map (Iter.before fp) = lastEmpty fp ++ ((names fp).reverse ++ rootBack (inside fp)) := by
  by_cases trails : 1 < fp.length ∧ fp.getLast? = some '/'
  · obtain ⟨u,rfl⟩ := getLast?_eq_some_iff.mp trails.2
    have first : (endOf (u ++ ['/'])).prev (u ++ ['/']) = ⟨u.length,[]⟩ := by
      rw [Iter.prev,if_pos]
      · simp [endOf]
      refine ⟨rfl,trails.1,?_⟩
      rw [separatorBefore,endOf,take_length,trails.2]
      rfl
    obtain ⟨its,run,same⟩ := @backRuns (u ++ ['/']) u ['/'] rfl (.inl (by simp)) []
    refine ⟨endOf (u ++ ['/'])::its,.more (by simp [endOf]) (first ▸ run),?_⟩
    rw [map_cons,same,Iter.before,first,lastEmpty,inside,if_pos trails,if_pos trails,namesSlash]
    simp [names,namesFrom,keep]
  · obtain ⟨its,run,same⟩ := @backRuns fp fp [] (by simp) (by
      by_cases long : 1 < fp.length
      · exact .inr (.inl fun last => trails ⟨long,last⟩)
      · exact .inr (.inr (by omega))) []
    refine ⟨its,run,?_⟩
    rw [same,lastEmpty,inside,if_neg trails,if_neg trails]
    rfl

theorem trailingBack (t) : (trailing t).reverse = trailing t := by
  unfold trailing
  split <;> rfl

theorem elementsBack (fp) : (elements fp).reverse =
    lastEmpty fp ++ ((names fp).reverse ++ if isAbsolute fp then [['/']] else []) := by
  cases absolute : isAbsolute fp with
  | true =>
    obtain ⟨t,rfl⟩ := absoluteCons absolute
    have last : lastEmpty ('/'::t) = trailing t := by
      cases t with
      | nil => rfl
      | cons c t => simp [lastEmpty,trailing]
    rw [elementsAbsolute,last,reverse_cons,reverse_append,trailingBack,append_assoc]
    rfl
  | false =>
    have last : lastEmpty fp = trailing fp := by
      rcases fp with _ | ⟨c,_ | ⟨d,t⟩⟩
      · rfl
      · have other : c ≠ '/' := by simpa using absolute
        simp [lastEmpty,trailing,other]
      · simp [lastEmpty,trailing]
    rw [elementsRelative absolute,last,reverse_append,trailingBack]
    simp

/- Two separators in front are passed over backwards, unless they are all there is. -/
def RootMissed (fp : Text) : Prop := ['/','/'] <+: fp ∧ fp ≠ ['/','/']

instance (fp) : Decidable (RootMissed fp) := by unfold RootMissed; infer_instance

theorem insideTwo (a b c u) : ∃ v, inside (a::b::c::u) = a::b::v := by
  unfold inside
  split
  · exact ⟨(c::u).dropLast,rfl⟩
  · exact ⟨c::u,rfl⟩

theorem insidePlain {a b} (other : b ≠ '/') : inside [a,b] = [a,b] := by simp [inside,other]

attribute [simp] RootMissed

theorem rootFound (fp) : rootBack (inside fp) = (if isAbsolute fp then [['/']] else []) ↔ ¬ RootMissed fp := by
  match fp with
  | [] => decide
  | [a] =>
    by_cases root : a = '/'
    · subst root
      decide
    · simp [inside,root]
  | [a,b] =>
    by_cases second : b = '/'
    · subst second
      by_cases root : a = '/'
      · subst root
        decide
      · simp [inside,root,Ne.symm root]
    · rw [insidePlain second]
      by_cases root : a = '/'
      · simp [root,second,Ne.symm second]
      · simp [root,Ne.symm root]
  | a::b::c::u =>
    obtain ⟨v,shape⟩ := insideTwo a b c u
    rw [shape]
    by_cases root : a = '/'
    · by_cases second : b = '/'
      · simp [root,second]
      · simp [root,second,Ne.symm second]
    · simp [root,Ne.symm root]

theorem bidirectionalExactly (fp : Text) : ∃ forwards backwards, Runs (Iter.next fp) fp.length (begin fp) forwards ∧
    Runs (Iter.prev fp) 0 (endOf fp) backwards ∧
    (backwards.map (Iter.before fp) = (forwards.map Iter.element).reverse ↔ ¬ RootMissed fp) := by
  obtain ⟨forwards,run,same⟩ := forwardRuns fp
  obtain ⟨backwards,run',same'⟩ := backwardRuns fp
  refine ⟨forwards,backwards,run,run',?_⟩
  rw [same,same',elementsBack,append_cancel_left_eq,append_cancel_left_eq,rootFound]

theorem rootLostBackwards : RootMissed (lit "//a") ∧ elements (lit "//a") = [lit "/",lit "a"] ∧
    ((endOf (lit "//a")).prev (lit "//a")) = ⟨2,lit "a"⟩ ∧
    ((endOf (lit "//a")).prev (lit "//a")).prev (lit "//a") = ⟨0,[]⟩ := by decide

end Irods.LogicalPath
