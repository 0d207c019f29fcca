import Irods.PathForm

/-! Order, equality and hashing of paths. Two paths are compared by their elements; the hash is
taken over the characters of the string. -/
namespace Irods.LogicalPath
open CText PathNames List

/- std::lexicographical_compare: a first difference decides, then the shorter is less. -/
def lexLess {α : Type} (less : α → α → Bool) : List α → List α → Bool
  | _,[] => false
  | [],_::_ => true
  | a::as,b::bs => if less a b then true else if less b a then false else lexLess less as bs

-- operator< of std::string compares the characters as unsigned.
def textLess : Text → Text → Bool := lexLess (fun a b => decide (a.toNat < b.toNat))
def lexicographicalCompare (p q : Text) : Bool := lexLess textLess (elements p) (elements q)

def compareElements : List Text → List Text → Int
  | [],[] => 0
  | [],_::_ => -1
  | _::_,[] => 1
  | a::as,b::bs => if textLess a b then -1 else if textLess b a then 1 else compareElements as bs

def comparePaths (p q : Text) : Int := compareElements (elements p) (elements q)

-- What hash_value gives to boost::hash_range.
def hashInput (p : Text) : Text := p

theorem lexLessIff {α} [LinearOrder α] {less} (orders : ∀ a b, less a b = true ↔ a < b) (as bs : List α) :
    lexLess less as bs = true ↔ as < bs := by
  induction as generalizing bs with
  | nil =>
    cases bs with
    | nil => exact ⟨nofun,fun same => absurd same (lt_irrefl _)⟩
    | cons b bs => exact ⟨fun _ => List.Lex.nil,fun _ => rfl⟩
  | cons a _ ih =>
    cases bs with
    | nil => exact ⟨nofun,fun less => by cases less⟩
    | cons b _ =>
      rw [lexLess,cons_lt_cons_iff]
      rcases lt_trichotomy a b with below | rfl | above
      · rw [if_pos ((orders a b).mpr below)]
        exact ⟨fun _ => .inl below,fun _ => rfl⟩
      · have none : ¬ less a a = true := fun yes => lt_irrefl a ((orders a a).mp yes)
        rw [if_neg none,if_neg none,ih]
        exact ⟨fun rest => .inr ⟨rfl,rest⟩,fun either => either.elim (fun yes => absurd yes (lt_irrefl a)) And.right⟩
      · have no : ¬ less a b = true := fun yes => lt_asymm above ((orders a b).mp yes)
        rw [if_neg no,if_pos ((orders b a).mpr above)]
        exact ⟨nofun,fun either => either.elim (fun yes => absurd yes (lt_asymm above)) fun both =>
            absurd both.1 (ne_of_gt above)⟩

theorem textLessIff (a b) : textLess a b = true ↔ a < b :=
  lexLessIff (fun c d => by rw [decide_eq_true_iff]; exact .rfl) a b

theorem compareOrders (as bs) :
    (compareElements as bs = -1 ∧ as < bs) ∨ (compareElements as bs = 0 ∧ as = bs) ∨
    (compareElements as bs = 1 ∧ bs < as) := by
  induction as generalizing bs with
  | nil =>
    cases bs with
    | nil => exact .inr (.inl ⟨rfl,rfl⟩)
    | cons b bs => exact .inl ⟨rfl,List.Lex.nil⟩
  | cons a _ ih =>
    cases bs with
    | nil => exact .inr (.inr ⟨rfl,List.Lex.nil⟩)
    | cons b bs =>
      rw [compareElements,cons_lt_cons_iff,cons_lt_cons_iff]
      rcases lt_trichotomy a b with below | rfl | above
      · exact .inl ⟨if_pos ((textLessIff a b).mpr below),.inl below⟩
      · have none : ¬ textLess a a = true := fun yes => lt_irrefl a ((textLessIff a a).mp yes)
        rw [if_neg none,if_neg none]
        rcases ih bs with ⟨value,less⟩ | ⟨value,rfl⟩ | ⟨value,less⟩
        · exact .inl ⟨value,.inr ⟨rfl,less⟩⟩
        · exact .inr (.inl ⟨value,rfl⟩)
        · exact .inr (.inr ⟨value,.inr ⟨rfl,less⟩⟩)
      · have no : ¬ textLess a b = true := fun yes => lt_asymm above ((textLessIff a b).mp yes)
        exact .inr (.inr ⟨by rw [if_neg no,if_pos ((textLessIff b a).mpr above)],.inl above⟩)

section Order
variable (p q r : Text)

theorem compareLess : comparePaths p q < 0 ↔ elements p < elements q := by
  unfold comparePaths
  rcases compareOrders (elements p) (elements q) with ⟨value,less⟩ | ⟨value,same⟩ | ⟨value,more⟩
  · simp [value,less]
  · rw [value,same]
    simp
  · simp [value,lt_asymm more]

theorem compareZero : comparePaths p q = 0 ↔ elements p = elements q := by
  unfold comparePaths
  rcases compareOrders (elements p) (elements q) with ⟨value,less⟩ | ⟨value,same⟩ | ⟨value,more⟩
  · simp [value,ne_of_lt less]
  · rw [value,same]
    simp
  · simp [value,ne_of_gt more]

theorem compareAtMost : comparePaths p q ≤ 0 ↔ elements p ≤ elements q := by
  rw [@le_iff_lt_or_eq _ _ (elements p) (elements q),← compareLess,← compareZero]
  omega

theorem compareSwap : comparePaths q p = -comparePaths p q := by
  unfold comparePaths
  rcases compareOrders (elements p) (elements q) with ⟨value,less⟩ | ⟨value,same⟩ | ⟨value,more⟩ <;>
    rcases compareOrders (elements q) (elements p) with ⟨value',less'⟩ | ⟨value',same'⟩ | ⟨value',more'⟩
  · exact absurd less (lt_asymm less')
  · exact absurd same'.symm (ne_of_lt less)
  · rw [value,value']; rfl
  · exact absurd same.symm (ne_of_lt less')
  · rw [value,value']; rfl
  · exact absurd same (ne_of_lt more')
  · rw [value,value']
  · exact absurd same' (ne_of_lt more)
  · exact absurd more (lt_asymm more')

end Order

def runsFrom : Nat → Text → List Nat
  | n,[] => if n = 0 then [] else [n]
  | n,c::t => if c = '/' then runsFrom (n+1) t else (if n = 0 then [] else [n]) ++ runsFrom 0 t

def runs (t : Text) : List Nat := runsFrom 0 t

theorem runsSlashes {s} (slashes : ∀ c ∈ s, c = '/') (n t) : runsFrom n (s ++ t) = runsFrom (n+s.length) t := by
  induction s generalizing n with
  | nil => rfl
  | cons c s ih =>
    rw [cons_append,runsFrom,if_pos (slashes c mem_cons_self),ih (forall_mem_cons.mp slashes).2,
      length_cons]
    congr 1
    omega

theorem runsPlain {n} (plain : '/' ∉ n) (t) : runsFrom 0 (n ++ t) = runs t := by
  induction n with
  | nil => rfl
  | cons c n ih =>
    simp only [mem_cons,not_or] at plain
    rw [cons_append,runsFrom,if_neg (Ne.symm plain.1)]
    exact ih plain.2

theorem runsName {n} (name : IsName n) (k t) :
    runsFrom k (n ++ t) = (if k = 0 then [] else [k]) ++ runs t := by
  obtain ⟨c,m,rfl⟩ := exists_cons_of_ne_nil name.1
  have plain := name.2
  simp only [mem_cons,not_or] at plain
  rw [cons_append,runsFrom,if_neg (Ne.symm plain.1),runsPlain plain.2]

theorem slashesLength {s s' : Text} (left : ∀ c ∈ s, c = '/') (right : ∀ c ∈ s', c = '/')
    (same : s.length = s'.length) : s = s' := by
  rw [eq_replicate_of_mem left,eq_replicate_of_mem right,same]

def Separated (t : Text) : Prop := t = [] ∨ t.head? = some '/'

inductive Shape : Text → Prop where
  | none : Shape []
  | only {s : Text} : s ≠ [] → names s = [] → runs s = [s.length] → (∀ c ∈ s, c = '/') → Shape s
  | word {s n u : Text} : s ≠ [] → (∀ c ∈ s, c = '/') → IsName n → Separated u → names (s ++ (n ++ u)) = n::names u →
      runs (s ++ (n ++ u)) = s.length::runs u → Shape (s ++ (n ++ u))

theorem separatedShape {t} (separated : Separated t) : Shape t := by
  obtain ⟨s,r,rfl,slashes,_,parts⟩ := splitText t
  by_cases empty : s = []
  · subst empty
    rcases separated with none | head
    · rw [none]
      exact .none
    exfalso
    rcases parts with rfl | ⟨n,u,rfl,name,-,-⟩
    · cases head
    · obtain ⟨c,m,rfl⟩ := exists_cons_of_ne_nil name.1
      exact name.2 (by cases head; exact mem_cons_self)
  · have some : s.length ≠ 0 := fun zero => empty (length_eq_zero_iff.mp zero)
    rcases parts with rfl | ⟨n,u,rfl,name,ends,-⟩
    · rw [append_nil]
      refine .only empty (by simpa [names,namesFrom,keep] using namesSlashes slashes []) ?_ slashes
      have all := runsSlashes slashes 0 []
      rwa [append_nil,Nat.zero_add,runsFrom,if_neg some] at all
    · refine .word empty slashes name ends ?_ ?_
      · rw [namesSlashes slashes,namesWord name ends]
      · rw [runs,runsSlashes slashes,runsName name,Nat.zero_add,if_neg some]
        rfl

theorem separatedSame {a b} (left : Separated a) (right : Separated b) (sameNames : names a = names b)
    (sameRuns : runs a = runs b) : a = b := by
  induction size : a.length using Nat.strong_induction_on generalizing a b with
  | _ k ih =>
    cases separatedShape left with
    | none =>
      cases separatedShape right with
      | none => rfl
      | only _ _ lengths _ =>
        rw [lengths] at sameRuns
        cases sameRuns
      | word _ _ _ _ _ lengths =>
        rw [lengths] at sameRuns
        cases sameRuns
    | only some none lengths slashes =>
      cases separatedShape right with
      | none =>
        rw [lengths] at sameRuns
        cases sameRuns
      | only _ _ lengths' slashes' =>
        rw [lengths,lengths'] at sameRuns
        exact slashesLength slashes slashes' (cons.inj sameRuns).1
      | word _ _ _ _ words _ =>
        rw [none,words] at sameNames
        cases sameNames
    | @word s n u some slashes _ ends words lengths =>
      cases separatedShape right with
      | none =>
        rw [lengths] at sameRuns
        cases sameRuns
      | only _ none _ _ =>
        rw [none,words] at sameNames
        cases sameNames
      | @word _ _ _ _ slashes' _ ends' words' lengths' =>
        rw [lengths,lengths'] at sameRuns
        rw [words,words'] at sameNames
        obtain ⟨count,restRuns⟩ := cons.inj sameRuns
        obtain ⟨rfl,restNames⟩ := cons.inj sameNames
        have positive := length_pos_iff.mpr some
        have shorter : u.length < k := by
          rw [← size,length_append,length_append]
          omega
        rw [slashesLength slashes slashes' count,ih u.length shorter ends ends' restNames restRuns rfl]

theorem elementNames (t) : names t = (elements t).filter fun e => decide (IsName e) := by
  have keeps : ∀ u, (names u ++ trailing u).filter (fun e => decide (IsName e)) = names u := by
    intro u
    have all := filter_eq_self.mpr fun e mem => decide_eq_true (namesAll u e mem)
    have none : (trailing u).filter (fun e => decide (IsName e)) = [] := by
      unfold trailing
      split <;> rfl
    rw [filter_append,all,none,append_nil]
  cases absolute : isAbsolute t with
  | true =>
    obtain ⟨u,rfl⟩ := absoluteCons absolute
    have root : (['/']::(names u ++ trailing u)).filter (fun e => decide (IsName e)) =
        (names u ++ trailing u).filter fun e => decide (IsName e) := filter_cons_of_neg (by decide)
    rw [elementsAbsolute,root,keeps,namesOfSlash]
  | false => rw [elementsRelative absolute,keeps]

theorem elementAbsolute (t) : isAbsolute t = true ↔ (elements t).head? = some ['/'] := by
  cases absolute : isAbsolute t with
  | true =>
    obtain ⟨u,rfl⟩ := absoluteCons absolute
    exact ⟨fun _ => rfl,fun _ => rfl⟩
  | false =>
    refine ⟨nofun,fun head => ?_⟩
    have mem := mem_of_mem_head? (Option.mem_def.mpr head)
    rw [elementsRelative absolute] at mem
    rcases elementsNamed t ['/'] mem with empty | name
    · cases empty
    · exact absurd name (by decide)

theorem relativeShape {t} (relative : isAbsolute t = false) :
    t = [] ∨ ∃ n u, t = n ++ u ∧ IsName n ∧ Separated u := by
  obtain ⟨s,r,rfl,slashes,-,parts⟩ := splitText t
  cases s with
  | cons c s =>
    rw [slashes c mem_cons_self] at relative
    cases relative
  | nil =>
    rcases parts with rfl | ⟨n,u,rfl,name,ends,-⟩
    · exact .inl rfl
    · exact .inr ⟨n,u,rfl,name,ends⟩

theorem sameString {p q} (same : elements p = elements q) : p = q ↔ runs p = runs q := by
  refine ⟨fun eq => by rw [eq],fun sameRuns => ?_⟩
  have sameNames : names p = names q := by rw [elementNames,elementNames,same]
  have sameRoot : isAbsolute p = true ↔ isAbsolute q = true := by rw [elementAbsolute,elementAbsolute,same]
  cases absolute : isAbsolute p with
  | true =>
    have left : p.head? = some '/' := by simpa [isAbsolute] using absolute
    have right : q.head? = some '/' := by simpa [isAbsolute] using sameRoot.mp absolute
    exact separatedSame (.inr left) (.inr right) sameNames sameRuns
  | false =>
    have other : isAbsolute q = false := by grind
    rcases relativeShape absolute with rfl | ⟨n,u,rfl,name,ends⟩
    · rcases relativeShape other with rfl | ⟨n,u,rfl,name,ends⟩
      · rfl
      · rw [namesWord name ends] at sameNames
        cases sameNames
    · rcases relativeShape other with rfl | ⟨m,v,rfl,name',ends'⟩
      · rw [namesWord name ends] at sameNames
        cases sameNames
      rw [namesWord name ends,namesWord name' ends'] at sameNames
      obtain ⟨rfl,rest⟩ := cons.inj sameNames
      have sizes := (runsPlain name.2 u).symm.trans (sameRuns.trans (runsPlain name.2 v))
      rw [separatedSame ends ends' rest sizes]

structure OrderAgrees (p q r : Text) : Prop where
  total : comparePaths p q = -1 ∨ comparePaths p q = 0 ∨ comparePaths p q = 1
  swapped : comparePaths q p = -comparePaths p q
  transitive : comparePaths p q ≤ 0 → comparePaths q r ≤ 0 → comparePaths p r ≤ 0
  zero : comparePaths p q = 0 ↔ elements p = elements q
  iterators : lexicographicalCompare p q = true ↔ comparePaths p q < 0

theorem orderHashExactly (p q r : Text) : OrderAgrees p q r ∧
    ((comparePaths p q = 0 → hashInput p = hashInput q) ↔ (comparePaths p q = 0 → runs p = runs q)) := by
  refine ⟨⟨?_,compareSwap p q,?_,compareZero p q,?_⟩,?_⟩
  · rcases compareOrders (elements p) (elements q) with ⟨value,-⟩ | ⟨value,-⟩ | ⟨value,-⟩
    · exact .inl value
    · exact .inr (.inl value)
    · exact .inr (.inr value)
  · rw [compareAtMost,compareAtMost,compareAtMost]
    exact le_trans
  · rw [compareLess]
    exact lexLessIff textLessIff (elements p) (elements q)
  · exact forall_congr' fun zero => sameString ((compareZero p q).mp zero)

theorem equalHashApart : comparePaths (lit "/a//b") (lit "/a/b") = 0 ∧
    hashInput (lit "/a//b") ≠ hashInput (lit "/a/b") := by
  decide

end Irods.LogicalPath
