import Irods.PathForm

/-! has_prefix of rodsPath.cpp. -/
namespace Irods.LogicalPath
open CText PathNames List

def leadsElements : List Text → List Text → Bool
  | [],_ => true
  | _::_,[] => false
  | p::ps,c::cs => samePath p c && leadsElements ps cs

/- The last iterator of the prefix steps back over an empty element, that of the path does not. -/
def lastElement (fp : Text) : Nat :=
  if samePath [] ((endOf fp).prev fp).element then ((endOf fp).prev fp).pos else fp.length

def hasPrefix (path pre : Text) : Bool :=
  if pre = [] ∨ samePath pre path = true then false
  else leadsElements (range pre (begin pre) (lastElement pre)) (elements path)

/- The elements without a trailing empty one. -/
def core (t : Text) : List Text := if (elements t).getLast? = some [] then (elements t).dropLast else elements t

def Single (e : Text) : Prop := e ≠ [] ∧ elements e = [e]
def body (t : Text) : List Text := (if isAbsolute t then [['/']] else []) ++ names t

theorem bodySingle {t e} (mem : e ∈ body t) : Single e := by
  rcases mem_append.mp mem with root | name
  · split at root
    · rw [mem_singleton.mp root]
      exact ⟨by decide,by decide⟩
    · cases root
  · have named := namesFromAll not_mem_nil t e name
    exact ⟨named.1,elementsName named⟩

theorem elementsBody (t) : elements t = body t ++ if 1 < t.length then trailing t else [] := by
  cases absolute : isAbsolute t with
  | true =>
    obtain ⟨u,rfl⟩ := absoluteCons absolute
    cases u with
    | nil => decide
    | cons c u => simp [elementsAbsolute,body,absolute,namesOfSlash,trailing]
  | false =>
    cases t with
    | nil => decide
    | cons c t =>
      rw [elementsRelative absolute,body,absolute]
      cases t with
      | nil =>
        have other : c ≠ '/' := by simpa [isAbsolute] using absolute
        simp [trailing,other]
      | cons d t => simp

theorem stopsBefore {t} (ends : 1 < t.length ∧ t.getLast? = some '/') : range t (begin t) (t.length-1) = body t := by
  cases absolute : isAbsolute t with
  | true =>
    obtain ⟨u,rfl⟩ := absoluteCons absolute
    have some : u ≠ [] := by rintro rfl; simp at ends
    rw [rangeAbsolute (.inr ⟨rfl,ends.2,some⟩),if_neg (by simp),append_nil]
    rfl
  | false =>
    have some : t ≠ [] := by rintro rfl; simp at ends
    rw [rangeRelative absolute some (.inr ⟨rfl,ends.2,some⟩),if_neg (by omega),append_nil,body,absolute]
    rfl

theorem lastSingle {t} (full : t ≠ []) (unclosed : ¬(1 < t.length ∧ t.getLast? = some '/')) :
    Single ((endOf t).prev t).element := by
  by_cases slash : t.getLast? = some '/'
  · obtain ⟨front,rfl⟩ := getLast?_eq_some_iff.mp slash
    have none : front = [] := by simpa using unclosed
    subst none
    exact ⟨by decide,by decide⟩
  · have before : separatorBefore t t.length = false := by simpa [separatorBefore] using slash
    have word : ((endOf t).prev t).element = wordBefore t t.length := by simp [Iter.prev,endOf,before]
    have named : IsName (wordBefore t t.length) := by
      refine ⟨?_,fun mem => ?_⟩
      · obtain ⟨front,c,rfl⟩ : ∃ front c, t = front ++ [c] := ⟨_,_,(dropLast_append_getLast full).symm⟩
        have other : c ≠ '/' := by simpa using slash
        simp [wordBefore,other]
      · simpa using mem_takeWhile_imp (mem_reverse.mp mem)
    rw [word]
    exact ⟨named.1,elementsName named⟩

theorem rangeBody {t} (full : t ≠ []) : range t (begin t) (lastElement t) = body t := by
  by_cases ends : 1 < t.length ∧ t.getLast? = some '/'
  · have before : (endOf t).prev t = ⟨t.length-1,[]⟩ := if_pos ⟨rfl,ends.1,by simp [separatorBefore,endOf,ends.2]⟩
    rw [lastElement,before]
    exact stopsBefore ends
  have last := lastSingle full ends
  have whole : lastElement t = t.length := if_neg (by simp [samePath,last.2,show elements [] = [] from rfl])
  have none : (if 1 < t.length then trailing t else []) = [] := by
    split
    · exact if_neg fun slash => ends ⟨‹_›,slash⟩
    · rfl
  rw [whole,← elements,elementsBody,none,append_nil]

theorem leadsIff {ps cs} (left : ∀ e ∈ ps, Single e) (right : ∀ e ∈ cs, e = [] ∨ Single e) :
    leadsElements ps cs = true ↔ ps <+: cs := by
  induction ps generalizing cs with
  | nil => simp [leadsElements]
  | cons p ps ih =>
    cases cs with
    | nil => simp [leadsElements]
    | cons c cs =>
      have single := left p mem_cons_self
      have same : samePath p c = true ↔ p = c := by
        rcases right c mem_cons_self with rfl | other
        · simp [samePath,single.2,single.1,show elements [] = [] from rfl]
        · simp [samePath,single.2,other.2]
      rw [leadsElements,Bool.and_eq_true,same,cons_prefix_cons,
          ih (forall_mem_cons.mp left).2 (forall_mem_cons.mp right).2]

theorem elementsEnd (t) : elements t = body t ∨ elements t = body t ++ [[]] := by
  rw [elementsBody,trailing]
  split
  · split
    · exact .inr rfl
    · exact .inl (append_nil _)
  · exact .inl (append_nil _)

theorem coreBody (t) : core t = body t := by
  unfold core
  rcases elementsEnd t with whole | whole <;> rw [whole]
  · exact if_neg fun last => (bodySingle (mem_of_getLast? last)).1 rfl
  · simp

theorem hasPrefixIff {p q} (full : q ≠ []) : hasPrefix p q = true ↔ elements q ≠ elements p ∧ body q <+: body p := by
  have right : ∀ e ∈ elements p, e = [] ∨ Single e := by
    intro e mem
    rcases elementsEnd p with whole | whole <;> rw [whole] at mem
    · exact .inr (bodySingle mem)
    · exact (mem_append.mp mem).symm.imp mem_singleton.mp bodySingle
  have lead : body q <+: elements p ↔ body q <+: body p := by
    rcases elementsEnd p with whole | whole <;> rw [whole]
    rw [prefix_concat_iff,or_iff_right]
    intro same
    exact (bodySingle (same ▸ mem_append_right _ mem_cons_self : [] ∈ body q)).1 rfl
  simp [hasPrefix,full,rangeBody full,leadsIff (fun _ => bodySingle) right,lead,samePath]

theorem prefixExactly {p q : Text} (full : q ≠ []) :
    (hasPrefix p q = true ↔ core q <+: core p ∧ (core q).length < (core p).length) ↔
      ¬(core p = core q ∧ elements p ≠ elements q) := by
  rw [coreBody,coreBody,hasPrefixIff full]
  by_cases same : body p = body q
  · simp [same,eq_comm]
  have apart : elements q ≠ elements p := by
    intro equal
    apply same
    rw [← coreBody,← coreBody,core,core,equal]
  refine iff_of_true ⟨fun ⟨_,lead⟩ => ⟨lead,?_⟩,fun ⟨lead,_⟩ => ⟨apart,lead⟩⟩ fun both => same both.1
  exact lt_of_le_of_ne lead.length_le fun size => same (lead.eq_of_length size).symm

theorem childHasPrefix : hasPrefix (lit "/a/b") (lit "/a/") = true := by
  have short : (core (lit "/a/")).length < (core (lit "/a/b")).length := by decide
  refine ((prefixExactly (by decide)).mpr ?_).mpr ⟨by decide,short⟩
  exact fun same => absurd short (by rw [same.1]; exact Nat.lt_irrefl _)

theorem ownPrefix : hasPrefix (lit "/a") (lit "/a/") = true ∧ hasPrefix (lit "/a") (lit "/a") = false ∧
    core (lit "/a/") = core (lit "/a") := by decide

theorem prefixTransitive {p q r} (first : hasPrefix p q = true) (second : hasPrefix q r = true) :
    hasPrefix p r = true ↔ elements r ≠ elements p := by
  have full : ∀ {t u}, hasPrefix t u = true → u ≠ [] := by
    rintro t _ holds rfl
    simp [hasPrefix] at holds
  have lower := (hasPrefixIff (full first)).mp first
  have upper := (hasPrefixIff (full second)).mp second
  rw [hasPrefixIff (full second)]
  exact and_iff_left (upper.2.trans lower.2)

theorem grandchildPrefix : hasPrefix (lit "/a/b/c") (lit "/a") = true :=
  (@prefixTransitive _ (lit "/a/b") _ rfl rfl).mpr (by decide)

end Irods.LogicalPath
