import Irods.RodsPathParse

/-! The rewriting of parseRodsPath works on the components behind each slash. The
three loops resolve all of them but the last; the end of the function looks at
that one. -/
namespace Irods.RodsPath
open CText PathNames StringOpr List Option
open LogicalPath (dot dotDot)

def Solid (cs : List Text) : Prop := ∀ c ∈ cs, '/' ∉ c
def Plain (n : Text) : Prop := IsName n ∧ n ≠ dot ∧ n ≠ dotDot
def AllPlain (ns : List Text) : Prop := ∀ n ∈ ns, Plain n
def between (w : Text) : Text := '/'::(w ++ ['/'])

theorem renderLast (cs last) : render (cs ++ [last]) = render cs ++ '/'::last := by
  simp [render]

theorem lengthRender (cs) : cs.length ≤ (render cs).length := by
  induction cs with
  | nil => simp
  | cons c _ _ =>
    rw [renderCons]
    simp only [length_cons,length_append]
    omega

theorem renderSplit (t) : ∃ inner last, Solid inner ∧ '/' ∉ last ∧ '/'::t = render (inner ++ [last]) := by
  induction t with
  | nil => exact ⟨[],[],by simp [Solid],by simp,by simp [render]⟩
  | cons c t ih =>
    obtain ⟨inner,last,solid,plain,shape⟩ := ih
    by_cases slash : c = '/'
    · subst slash
      refine ⟨[]::inner,last,?_,plain,?_⟩
      · intro d member
        rcases mem_cons.mp member with rfl | later
        · simp
        · exact solid d later
      · rw [cons_append,renderCons,← shape,nil_append]
    · cases inner with
      | nil =>
        have same : t = last := by simpa [render] using shape
        subst same
        exact ⟨[],c::t,by simp [Solid],by simp [plain,Ne.symm slash],by simp [render]⟩
      | cons d ds =>
        refine ⟨(c::d)::ds,last,?_,plain,?_⟩
        · intro e member
          rcases mem_cons.mp member with rfl | later
          · simp [solid d mem_cons_self,Ne.symm slash]
          · exact solid e (mem_cons_of_mem d later)
        · rw [(cons.inj shape).2]
          rfl

theorem namesRender {cs} (solid : Solid cs) : names (render cs) = cs.filter (· ≠ []) := by
  induction cs with
  | nil => rfl
  | cons c cs ih =>
    have rest := ih fun d member => solid d (mem_cons_of_mem c member)
    have one : names c = [c].filter (· ≠ []) := by
      rw [names,namesFromPlain [] (solid c mem_cons_self)]
      cases c <;> simp [keep]
    rw [renderCons,namesOfSlash,← singleton_append,filter_append,← one,← rest]
    cases cs with
    | nil => simp [render,names,namesFrom,keep]
    | cons d _ => rw [renderCons,namesSlash,namesOfSlash]

theorem cutAtSlash {v} (free : '/' ∉ v) (r) : (v ++ '/'::r).takeWhile (· != '/') = v := by
  have inside : ∀ c ∈ v, (c != '/') = true := fun c member => bne_iff_ne.mpr fun same => free (same ▸ member)
  rw [takeWhile_append_of_pos inside]
  simp

theorem suffixLast {front w last} (free : '/' ∉ w) (ending : '/' ∉ last) :
    '/'::w <:+ front ++ '/'::last ↔ last = w := by
  constructor
  · rintro ⟨r,same⟩
    have back := congrArg (fun t => t.reverse.takeWhile (· != '/')) same
    simp only [reverse_append,reverse_cons,append_assoc,singleton_append] at back
    rw [cutAtSlash (by simpa using free),cutAtSlash (by simpa using ending)] at back
    exact (reverse_injective back).symm
  · rintro rfl
    exact suffix_append front _

variable {c last : Text} {fuel : Nat}
section Search
variable {w : Text} (free : '/' ∉ w)
include free

theorem betweenStarts {c cs} (solid : '/' ∉ c) : w ++ ['/'] <+: c ++ render cs ↔ c = w ∧ cs ≠ [] := by
  constructor
  · rintro ⟨r,same⟩
    rw [append_assoc,singleton_append] at same
    cases cs with
    | nil =>
      rw [render,flatMap_nil,append_nil] at same
      exact absurd (same ▸ by simp) solid
    | cons d ds =>
      rw [renderCons] at same
      have cuts := congrArg (takeWhile (· != '/')) same
      rw [cutAtSlash free,cutAtSlash solid] at cuts
      exact ⟨cuts.symm,by simp⟩
  · rintro ⟨rfl,full⟩
    cases cs with
    | nil => contradiction
    | cons d ds => exact ⟨d ++ render ds,by simp [renderCons]⟩

theorem strstrRender {cs} (solid : '/' ∉ c) : strstr (render (c::cs)) (between w) =
    if c = w ∧ cs ≠ [] then some 0 else (strstr (render cs) (between w)).map (·+(c.length+1)) := by
  have start : (between w).isPrefixOf ('/'::(c ++ render cs)) = true ↔ c = w ∧ cs ≠ [] := by
    rw [between]
    simp [betweenStarts free solid]
  rw [renderCons,strstr]
  by_cases here : c = w ∧ cs ≠ []
  · rw [if_pos (start.mpr here),if_pos here]
  · rw [if_neg fun found => here (start.mp found),if_neg here,between,strstrBehind solid,Option.map_map]
    rfl

theorem notBetween {inner} (solid : Solid inner) (ending : '/' ∉ last) (absent : w ∉ inner) :
    strstr (render (inner ++ [last])) (between w) = none := by
  induction inner with
  | nil =>
    rw [nil_append,strstrRender free ending]
    simp [render,strstr,between]
  | cons c _ ih =>
    simp only [mem_cons,not_or] at absent
    rw [cons_append,strstrRender free (solid c mem_cons_self),if_neg fun both => absent.1 both.1.symm,
      ih (fun d member => solid d (mem_cons_of_mem c member)) absent.2]
    rfl

theorem firstBetween {front rest} (solid : Solid front) (absent : w ∉ front) (full : rest ≠ []) :
    strstr (render (front ++ w::rest)) (between w) = some (render front).length := by
  induction front with
  | nil =>
    rw [nil_append,strstrRender free free,if_pos ⟨rfl,full⟩]
    rfl
  | cons c _ ih =>
    simp only [mem_cons,not_or] at absent
    rw [cons_append,strstrRender free (solid c mem_cons_self),if_neg fun both => absent.1 both.1.symm,
      ih (fun d member => solid d (mem_cons_of_mem c member)) absent.2,renderCons]
    simp only [map_some,length_cons,length_append,some.injEq]
    omega

omit free in
theorem renderRest {rest} (full : rest ≠ []) : ∃ r, ∀ front, render (front ++ rest) = render front ++ '/'::r := by
  cases rest with
  | nil => contradiction
  | cons d ds => exact ⟨d ++ render ds,fun front => by rw [renderAppend,renderCons]⟩

theorem takeOutRender {inner} (solid : Solid inner) (ending : '/' ∉ last)
    (enough : inner.length ≤ fuel) :
    takeOut (between w) fuel (render (inner ++ [last])) = render (inner.filter (· ≠ w) ++ [last]) := by
  induction fuel generalizing inner with
  | zero =>
    rw [length_eq_zero_iff.mp (Nat.le_zero.mp enough)]
    rfl
  | succ _ ih =>
    by_cases member : w ∈ inner
    · obtain ⟨front,rest,rfl,absent⟩ := eq_append_cons_of_mem member
      have found :=
        @firstBetween w free front (rest ++ [last]) (fun d mem => solid d (mem_append_left _ mem)) absent (by simp)
      obtain ⟨r,joined⟩ := @renderRest (rest ++ [last]) (by simp)
      have wording : render (front ++ w::rest ++ [last]) = render front ++ between w ++ r := by
        have whole := joined (front ++ [w])
        rw [renderLast] at whole
        simpa [between] using whole
      have next : (render front ++ between w ++ r).take ((render front).length+1) ++
          (render front ++ between w ++ r).drop ((render front).length+(between w).length) =
            render (front ++ rest ++ [last]) := by
        rw [append_assoc front,joined front,append_assoc,take_length_add_append]
        simp [between]
      rw [append_assoc,cons_append] at wording ⊢
      rw [takeOut,found]
      dsimp only
      rw [wording,next,ih ?_ ?_]
      · simp
      · intro d mem
        exact solid d (by simp at mem ⊢; rcases mem with _ | _ <;> simp [*])
      · simp at enough ⊢
        omega
    · rw [takeOut,notBetween free solid ending member,filter_eq_self.mpr]
      intro c mem
      exact decide_eq_true fun same => member (same ▸ mem)

end Search

theorem resolveAppend (a b) : resolve (a ++ b) = (resolve a).bind fun done => b.foldlM resolveStep done := by
  rw [resolve,foldlM_append]
  rfl

theorem resolveLast (a n) : resolve (a ++ [n]) = (resolve a).bind fun done => resolveStep done n := by
  rw [resolveAppend]
  simp

theorem stepPlain {n} (plain : Plain n) (done) : resolveStep done n = some (done ++ [n]) := by
  rw [resolveStep,if_neg plain.2.1,if_neg plain.2.2]

theorem resolvePlain {ns} (plain : AllPlain ns) (done) :
    ns.foldlM resolveStep done = some (done ++ ns) := by
  induction ns generalizing done with
  | nil => simp
  | cons n _ ih =>
    rw [foldlM_cons,stepPlain (plain n mem_cons_self)]
    simpa using ih (fun m member => plain m (mem_cons_of_mem n member)) (done ++ [n])

theorem resolveStepPlain {done next n} (plain : AllPlain done) (name : IsName n)
    (step : resolveStep done n = some next) : AllPlain next := by
  unfold resolveStep at step
  split at step
  · cases step
    exact plain
  rename_i noDot
  split at step
  · split at step
    · contradiction
    · cases step
      exact fun m member => plain m (dropLast_subset done member)
  · rename_i noDotDot
    cases step
    intro m member
    rcases mem_append.mp member with before | here
    · exact plain m before
    · rw [mem_singleton.mp here]
      exact ⟨name,noDot,noDotDot⟩

theorem resolvedPlain {ns done} (all : AllNames ns) (resolved : resolve ns = some done) : AllPlain done := by
  have run : ∀ ns start, AllNames ns → AllPlain start → ns.foldlM resolveStep start = some done → AllPlain done := by
    intro ns
    induction ns with
    | nil =>
      intro start _ plain same
      cases same
      exact plain
    | cons n ns ih =>
      intro _ all plain same
      obtain ⟨next,step,rest⟩ := bind_eq_some_iff.mp same
      exact ih next (fun m member => all m (mem_cons_of_mem n member))
        (resolveStepPlain plain (all n mem_cons_self) step) rest
  exact run ns [] all (by simp [AllPlain]) resolved

theorem resolveDots (ns) : resolve (ns.filter (· ≠ dot)) = resolve ns := by
  have run : ∀ start, (ns.filter (· ≠ dot)).foldlM resolveStep start = ns.foldlM resolveStep start := by
    induction ns with
    | nil => intro start; rfl
    | cons n _ ih =>
      intro _
      by_cases skipped : n = dot
      · rw [filter_cons_of_neg (by simp [skipped]),ih,foldlM_cons,resolveStep,if_pos skipped]
        rfl
      rw [filter_cons_of_pos (by simp [skipped]),foldlM_cons]
      congr
      funext next
      exact ih next
  exact run []

theorem resolvePair {front} (plain : AllPlain front) {p} (name : Plain p) (rest) :
    resolve (front ++ [p] ++ dotDot::rest) = resolve (front ++ rest) := by
  have both : AllPlain (front ++ [p]) := by
    intro n member
    rcases mem_append.mp member with before | here
    · exact plain n before
    · rw [mem_singleton.mp here]
      exact name
  have up : resolveStep (front ++ [p]) dotDot = some front := by
    rw [resolveStep,if_neg (by decide),if_pos rfl,if_neg (by simp),dropLast_concat]
  have left : resolve (front ++ [p]) = some (front ++ [p]) := resolvePlain both []
  have right : resolve front = some front := resolvePlain plain []
  rw [resolveAppend,resolveAppend front rest,left,right,bind_some,foldlM_cons,up]
  rfl

variable {lastByte : Char}

theorem goBackStart (quiet : lastByte ≠ '/') (t) : goBack lastByte t 0 = none := by
  rw [goBack,if_pos rfl,if_neg quiet]

theorem goBackOver (lastByte front) {p} (free : '/' ∉ p) (rest) :
    goBack lastByte (render (front ++ [p]) ++ rest)
      (render (front ++ [p])).length = some ((render front).length+1) := by
  have wording : (render (front ++ [p]) ++ rest).take (render (front ++ [p])).length = render front ++ '/'::p :=
    (take_left).trans (renderLast front p)
  have inside : ∀ c ∈ p.reverse, (c != '/') = true := fun c member =>
    bne_iff_ne.mpr fun same => free (same ▸ mem_reverse.mp member)
  rw [goBack,if_neg (by rw [renderLast]; simp),wording,reverse_append,reverse_cons,
    append_assoc,dropWhile_append_of_pos inside]
  simp

theorem takeOutParentsRender (quiet : lastByte ≠ '/') {inner}
    (all : AllNames inner) (noDot : dot ∉ inner) (ending : '/' ∉ last) (enough : inner.length ≤ fuel) :
    takeOutParents lastByte fuel (render (inner ++ [last])) = match resolve inner with
      | none => .error USER_INPUT_PATH_ERR
      | some done => .ok (render (done ++ [last])) := by
  have free : '/' ∉ dotDot := by decide
  induction fuel generalizing inner with
  | zero =>
    rw [length_eq_zero_iff.mp (Nat.le_zero.mp enough)]
    rfl
  | succ _ ih =>
    by_cases member : dotDot ∈ inner
    · obtain ⟨before,rest,rfl,absent⟩ := eq_append_cons_of_mem member
      have plain : AllPlain before := fun n mem => ⟨all n (mem_append_left _ mem),
        fun same => noDot (mem_append_left _ (same ▸ mem)),fun same => absent (same ▸ mem)⟩
      have found : strstr (render (before ++ dotDot::rest ++ [last])) (lit "/../") = some (render before).length := by
        rw [append_assoc]
        exact @firstBetween dotDot free before (rest ++ [last]) (fun d mem => (plain d mem).1.2) absent (by simp)
      rw [takeOutParents,found]
      dsimp only
      obtain ⟨r,joined⟩ := @renderRest (rest ++ [last]) (by simp)
      have wording : render (before ++ dotDot::rest ++ [last]) = render before ++ (lit "/../" ++ r) := by
        have whole := joined (before ++ [dotDot])
        rw [renderLast] at whole
        simpa [dotDot,lit] using whole
      rcases eq_nil_or_concat' before with rfl | ⟨front,p,rfl⟩
      · have nothing : goBack lastByte (render ([] ++ dotDot::rest ++ [last])) (render []).length = none :=
          goBackStart quiet _
        have lost : resolve ([] ++ dotDot::rest) = none := by
          rfl
        rw [nothing,lost]
      · have name := plain p (by simp)
        have frontal : AllPlain front := fun n mem => plain n (mem_append_left _ mem)
        have next : (render (front ++ [p]) ++ (lit "/../" ++ r)).take ((render front).length+1) ++
            (render (front ++ [p]) ++ (lit "/../" ++ r)).drop ((render (front ++ [p])).length+4) =
              render (front ++ rest ++ [last]) := by
          rw [show 4 = (lit "/../").length from rfl,← length_append,renderLast,append_assoc front,joined front,
              append_assoc,append_assoc,
            take_length_add_append]
          simp
        rw [wording,goBackOver lastByte front name.1.2]
        dsimp only
        rw [next,ih ?_ ?_ ?_,resolvePair frontal name]
        · intro n mem
          rcases mem_append.mp mem with here | later
          · exact (frontal n here).1
          · exact all n (by simp [later])
        · intro mem
          rcases mem_append.mp mem with here | later
          · exact (frontal dot here).2.1 rfl
          · exact noDot (by simp [later])
        · simp only [length_append,length_cons] at enough ⊢
          omega
    · have plain : AllPlain inner := fun n mem =>
        ⟨all n mem,fun same => noDot (same ▸ mem),fun same => member (same ▸ mem)⟩
      have vacant : strstr (render (inner ++ [last])) (lit "/../") = none :=
        notBetween free (fun d mem => (all d mem).2) ending member
      have same : resolve inner = some inner := resolvePlain plain []
      rw [takeOutParents,vacant,same]

def lastStep (done : List Text) (last : Text) : Option (List Text) :=
  if last = [] then some done else resolveStep done last

theorem resolveRender {inner} (solid : Solid inner) (ending : '/' ∉ last) :
    resolve (names (render (inner ++ [last]))) = (resolve (names (render inner))).bind (lastStep · last) := by
  have both : Solid (inner ++ [last]) := by
    intro c member
    rcases mem_append.mp member with before | here
    · exact solid c before
    · rw [mem_singleton.mp here]
      exact ending
  rw [namesRender both,namesRender solid,filter_append]
  by_cases empty : last = []
  · have same : (fun done => lastStep done last) = some := by
      funext done
      rw [lastStep,if_pos empty]
    rw [same,filter_cons_of_neg (by simp [empty])]
    simp
  · have same : (fun done => lastStep done last) = fun done => resolveStep done last := by
      funext done
      rw [lastStep,if_neg empty]
    rw [same,filter_cons_of_pos (by simp [empty]),filter_nil,resolveLast]

theorem finishRender (quiet : lastByte ≠ '/') (done) (free : Solid done) (ending : '/' ∉ last) :
    ∃ ty, finish lastByte (render (done ++ [last])) = match lastStep done last with
      | none => .error USER_INPUT_PATH_ERR
      | some ns => checked (if last = dot ∧ done = [] then [] else pathText ns) ty := by
  have up : (lit "/..").isSuffixOf (render done ++ '/'::last) = true ↔ last = dotDot := by
    rw [isSuffixOf_iff_suffix]
    exact suffixLast (by decide : '/' ∉ dotDot) ending
  have here : (lit "/.").isSuffixOf (render done ++ '/'::last) = true ↔ last = dot := by
    rw [isSuffixOf_iff_suffix]
    exact suffixLast (by decide : '/' ∉ dot) ending
  rw [finish,renderLast]
  by_cases dots : last = dotDot
  · subst dots
    have long : (render done ++ '/'::dotDot).length-3 = (render done).length := by simp [dotDot]
    rw [if_pos (up.mpr rfl),long,lastStep,if_neg (by decide),resolveStep,if_neg (by decide),if_pos rfl]
    rcases eq_nil_or_concat' done with rfl | ⟨front,p,rfl⟩
    · have nothing : goBack lastByte (render [] ++ '/'::dotDot) (render []).length = none := goBackStart quiet _
      rw [nothing]
      exact ⟨.UNKNOWN_OBJ_T,rfl⟩
    rw [goBackOver lastByte front (free p (by simp)),if_neg (by simp),dropLast_concat]
    refine ⟨.COLL_OBJ_T,?_⟩
    cases front with
    | nil => rfl
    | cons d ds =>
      obtain ⟨k,long⟩ : ∃ k, (render (d::ds)).length = k+1 := ⟨_,by rw [renderCons]; rfl⟩
      have kept : (render (d::ds ++ [p]) ++ '/'::dotDot).take (k+1) = pathText (d::ds) := by
        rw [renderLast,← long,append_assoc,take_left]
        rfl
      rw [long]
      change checked ((render (d::ds ++ [p]) ++ '/'::dotDot).take (k+1)) .COLL_OBJ_T = _
      rw [kept]
      dsimp only
      rw [if_neg (by simp)]
  · rw [if_neg fun found => dots (up.mp found)]
    by_cases single : last = dot
    · subst single
      have kept : (render done ++ '/'::dot).take ((render done ++ '/'::dot).length-2) = render done := by
        rw [show (render done ++ '/'::dot).length-2 = (render done).length by simp [dot],take_left]
      rw [if_pos (here.mpr rfl),kept,lastStep,if_neg (by decide),resolveStep,if_pos rfl]
      refine ⟨.COLL_OBJ_T,?_⟩
      by_cases root : done = []
      · subst root
        rfl
      · have wording : pathText done = render done := if_neg (by simpa using root)
        dsimp only
        rw [if_neg fun both => root both.2,wording]
    · rw [if_neg fun found => single (here.mp found)]
      by_cases empty : last = []
      · subst empty
        by_cases root : done = []
        · subst root
          exact ⟨.UNKNOWN_OBJ_T,rfl⟩
        obtain ⟨d,ds,rfl⟩ := exists_cons_of_ne_nil root
        refine ⟨.COLL_OBJ_T,?_⟩
        have long : 1 < (render (d::ds) ++ ['/']).length := by
          simp only [renderCons,length_append,length_cons]
          omega
        rw [if_pos ⟨by simp,long⟩,dropLast_concat]
        rfl
      · have ends : ¬((render done ++ '/'::last).getLast? = some '/' ∧ 1 < (render done ++ '/'::last).length) := by
          intro both
          obtain ⟨c,_,rfl⟩ := exists_cons_of_ne_nil empty
          rw [getLast?_append_cons] at both
          exact ending (mem_of_getLast? both.1)
        have wording : pathText (done ++ [last]) = render done ++ '/'::last := by
          rw [← renderLast]
          exact if_neg (by simp)
        rw [if_neg ends,lastStep,if_neg empty,resolveStep,if_neg single,if_neg dots]
        dsimp only
        rw [if_neg fun both => single both.1,wording]
        exact ⟨.UNKNOWN_OBJ_T,rfl⟩

/- The text ends in a slash and a dot, and nothing is left of what comes before. -/
def RootDot (t : Text) : Prop := (lit "/.").isSuffixOf t = true ∧ resolve (names (t.take (t.length-2))) = some []

instance (t) : Decidable (RootDot t) := by unfold RootDot; infer_instance

theorem rootDotRender {inner} (ending : '/' ∉ last) :
    RootDot (render (inner ++ [last])) ↔ last = dot ∧ resolve (names (render inner)) = some [] := by
  rw [RootDot,isSuffixOf_iff_suffix,renderLast]
  have here : lit "/." <:+ render inner ++ '/'::last ↔ last = dot := suffixLast (by decide : '/' ∉ dot) ending
  rw [here]
  refine and_congr_right ?_
  rintro rfl
  rw [show (render inner ++ '/'::dot).length-2 = (render inner).length by simp [dot],take_left]

theorem rewriteAbsolute (quiet : lastByte ≠ '/') (t) :
    ∃ ty, rewrite lastByte ('/'::t) = match resolve (names ('/'::t)) with
      | none => .error USER_INPUT_PATH_ERR
      | some ns => checked (if RootDot ('/'::t) then [] else pathText ns) ty := by
  obtain ⟨inner,last,solid,ending,shape⟩ := renderSplit t
  rw [shape]
  have enough : ∀ cs, cs.length ≤ (render (cs ++ [last])).length := fun cs => by
    have long := lengthRender (cs ++ [last])
    simp only [length_append] at long
    omega
  have noSlashes : takeOut (lit "//") (render (inner ++ [last])).length (render (inner ++ [last])) =
      render (inner.filter (· ≠ []) ++ [last]) :=
      takeOutRender (by simp : '/' ∉ ([] : Text)) solid ending (enough inner)
  have solid' : Solid (inner.filter (· ≠ [])) := fun c mem => solid c (mem_of_mem_filter mem)
  have noDots :
    takeOut (lit "/./") (render (inner.filter (· ≠ []) ++ [last])).length (render (inner.filter (· ≠ []) ++ [last])) =
      render ((inner.filter (· ≠ [])).filter (· ≠ dot) ++ [last]) :=
      takeOutRender (by decide : '/' ∉ dot) solid' ending (enough _)
  have all : AllNames ((inner.filter (· ≠ [])).filter (· ≠ dot)) := by
    intro n mem
    have kept := mem_of_mem_filter mem
    exact ⟨by simpa using of_mem_filter kept,solid' n kept⟩
  have noParents := takeOutParentsRender quiet all (fun mem => by simpa using of_mem_filter mem) ending (enough _)
  rw [resolveDots] at noParents
  have runs : rewrite lastByte (render (inner ++ [last])) = match resolve (names (render inner)) with
      | none => .error USER_INPUT_PATH_ERR
      | some done => finish lastByte (render (done ++ [last])) := by
    rw [rewrite,noSlashes,noDots,noParents,namesRender solid]
    cases resolve (inner.filter (· ≠ [])) with
    | none => rfl
    | some done => rfl
  rw [runs,resolveRender solid ending]
  cases resolved : resolve (names (render inner)) with
  | none => exact ⟨.UNKNOWN_OBJ_T,rfl⟩
  | some done =>
    have plain := resolvedPlain (namesAll _) resolved
    obtain ⟨ty,ends⟩ := finishRender quiet done (fun c mem => (plain c mem).1.2) ending
    refine ⟨ty,ends.trans ?_⟩
    have same : RootDot (render (inner ++ [last])) ↔ last = dot ∧ done = [] := by
      rw [rootDotRender ending,resolved,some.injEq]
    rw [bind_some]
    cases lastStep done last with
    | none => rfl
    | some _ => simp [same]

structure CanonicalPath (t : Text) : Prop where
  canonical : Canonical t
  plain : ∀ n ∈ names t, n ≠ dot ∧ n ≠ dotDot
  fits : t.length < MAX_NAME_LEN

instance (t) : Decidable (CanonicalPath t) :=
  decidable_of_iff (Canonical t ∧ (∀ n ∈ names t, n ≠ dot ∧ n ≠ dotDot) ∧ t.length < MAX_NAME_LEN)
    ⟨fun ⟨canonical,plain,fits⟩ => ⟨canonical,plain,fits⟩,fun path => ⟨path.canonical,path.plain,path.fits⟩⟩

def verdict (t : Text) : Option (List Text) :=
  (resolve (names t)).filter (fun ns => decide ((pathText ns).length < MAX_PATH_ALLOWED-1))

theorem verdictSome {t ns} : verdict t = some ns ↔
    resolve (names t) = some ns ∧ (pathText ns).length < MAX_PATH_ALLOWED-1 := by
  rw [verdict,filter_eq_some_iff,decide_eq_true_eq]

theorem verdictNone {t} : verdict t = none ↔ Refusable t := by
  rw [verdict,Refusable]
  cases resolved : resolve (names t) with
  | none => simp
  | some _ => simp

theorem pathTextSlash (ns) : ∃ t, pathText ns = '/'::t := by
  cases ns with
  | nil => exact ⟨[],rfl⟩
  | cons n ns => exact ⟨n ++ render ns,renderCons n ns⟩

theorem expandedSlash {env} (home : Canonical env.rodsHome) (cwd : Canonical env.rodsCwd) (inPath) :
    ∃ t, expanded env inPath = '/'::t := by
  obtain ⟨h,homeText⟩ := pathTextSlash (names env.rodsHome)
  obtain ⟨c,cwdText⟩ := pathTextSlash (names env.rodsCwd)
  unfold expanded
  split
  · exact ⟨_,by rw [home,homeText,cons_append]⟩
  · exact ⟨_,rfl⟩
  · exact ⟨_,by rw [cwd,cwdText,cons_append]⟩

theorem checkedVerdict {t ns} (resolved : resolve (names t) = some ns) (ty) :
    checked (pathText ns) ty = match verdict t with
      | none => .error USER_PATH_EXCEEDS_MAX
      | some ns => .ok ⟨pathText ns,ty⟩ := by
  rw [checked]
  by_cases long : MAX_PATH_ALLOWED-1 ≤ (pathText ns).length
  · have refused := verdictNone.mpr (.inr ⟨ns,resolved,long⟩)
    rw [if_pos (by unfold MAX_PATH_ALLOWED at *; omega),refused]
  · have given := verdictSome.mpr ⟨resolved,Nat.lt_of_not_le long⟩
    rw [if_neg (by unfold MAX_PATH_ALLOWED at *; omega),given]

theorem rewriteVerdict (quiet : lastByte ≠ '/') {t} (slash : ∃ r, t = '/'::r) (fine : ¬RootDot t) :
    (∃ ns ty, verdict t = some ns ∧ rewrite lastByte t = .ok ⟨pathText ns,ty⟩) ∨
    ∃ code, verdict t = none ∧ rewrite lastByte t = .error code := by
  obtain ⟨r,rfl⟩ := slash
  obtain ⟨ty,runs⟩ := rewriteAbsolute quiet r
  rw [runs]
  cases resolved : resolve (names ('/'::r)) with
  | none => exact .inr ⟨USER_INPUT_PATH_ERR,verdictNone.mpr (.inl resolved),rfl⟩
  | some ns =>
    dsimp only
    rw [if_neg fine,checkedVerdict resolved]
    cases verdict ('/'::r) with
    | none => exact .inr ⟨USER_PATH_EXCEEDS_MAX,rfl,rfl⟩
    | some ns => exact .inl ⟨ns,ty,rfl,rfl⟩

theorem rewriteRootDot (quiet : lastByte ≠ '/') {t} (slash : ∃ r, t = '/'::r) (root : RootDot t) :
    ∃ ty, rewrite lastByte t = .ok ⟨[],ty⟩ := by
  obtain ⟨r,rfl⟩ := slash
  obtain ⟨ty,runs⟩ := rewriteAbsolute quiet r
  obtain ⟨inner,_,solid,ending,shape⟩ := renderSplit r
  rw [shape] at runs root ⊢
  obtain ⟨rfl,before⟩ := (rootDotRender ending).mp root
  have resolved : resolve (names (render (inner ++ [dot]))) = some [] := by
    rw [resolveRender solid ending,before]
    rfl
  rw [resolved] at runs
  dsimp only at runs
  rw [if_pos root] at runs
  exact ⟨ty,runs⟩

theorem resolvesOwn {t} (path : CanonicalPath t) {a} (same : resolve (names a) = resolve (names t)) : Resolves a t := by
  have plain : AllPlain (names t) := fun n member => ⟨namesAll t n member,path.plain n member⟩
  exact ⟨same.trans (resolvePlain plain []),path.canonical,path.plain⟩

theorem canonicalisesVerdict {a ns} {ty} (all : AllPlain ns)
    (short : (pathText ns).length < MAX_PATH_ALLOWED-1) :
    Canonicalises a (.ok ⟨pathText ns,ty⟩) ↔ verdict a = some ns := by
  obtain ⟨same,canonical⟩ := canonicalPathText fun n member => (all n member).1
  constructor
  · intro resolves
    exact verdictSome.mpr ⟨resolves.resolved.trans (congrArg some same),short⟩
  intro given
  refine ⟨(verdictSome.mp given).1.trans (congrArg some same.symm),canonical,?_⟩
  intro n member
  exact (all n (same ▸ member)).2

theorem resolveDot (ns) : resolve (ns ++ [dot]) = resolve ns := by
  rw [resolveLast]
  cases resolve ns with
  | none => rfl
  | some _ => rfl

theorem cwdForm {inPath} (env) (here : atCwd inPath = true) :
    resolve (names (absoluteForm env inPath)) = resolve (names env.rodsCwd) := by
  simp only [atCwd,Bool.or_eq_true,beq_iff_eq] at here
  rcases here with (rfl | rfl) | rfl
  · change resolve (names (env.rodsCwd ++ '/'::[])) = _
    rw [namesSlash]
    exact congrArg resolve (append_nil _)
  · change resolve (names (env.rodsCwd ++ '/'::dot)) = _
    rw [namesSlash]
    exact resolveDot _
  · change resolve (names (env.rodsCwd ++ '/'::lit "./")) = _
    rw [namesSlash]
    exact resolveDot _

theorem homeForm {inPath} (env) (here : atHome inPath = true) :
    resolve (names (absoluteForm env inPath)) = resolve (names env.rodsHome) := by
  simp only [atHome,Bool.or_eq_true,beq_iff_eq] at here
  rcases here with rfl | rfl
  · rfl
  change resolve (names (env.rodsHome ++ '/'::[])) = _
  rw [namesSlash]
  exact congrArg resolve (append_nil _)

theorem boundedSlash {env : RodsEnv} (home : CanonicalPath env.rodsHome) (cwd : CanonicalPath env.rodsCwd)
    (inPath : Text) :
    ∃ r, boundedCopy MAX_NAME_LEN (expanded env inPath) = '/'::r := by
  obtain ⟨t,shape⟩ := expandedSlash home.canonical cwd.canonical inPath
  exact ⟨t.take (MAX_NAME_LEN-2),by rw [shape]; rfl⟩

theorem canonicalisesExactly {lastByte : Char} (quiet : lastByte ≠ '/') {env : RodsEnv}
    (home : CanonicalPath env.rodsHome)
    (cwd : CanonicalPath env.rodsCwd) (inPath : Text) :
    Canonicalises (absoluteForm env inPath) (parseRodsPath lastByte inPath (some env)) ↔
      atCwd inPath = true ∨ atHome inPath = true ∨
      ¬RootDot (boundedCopy MAX_NAME_LEN (expanded env inPath)) ∧
        verdict (boundedCopy MAX_NAME_LEN (expanded env inPath)) = verdict (expanded env inPath) := by
  by_cases here : atCwd inPath = true
  · have runs : parseRodsPath lastByte inPath (some env) = .ok ⟨env.rodsCwd,.COLL_OBJ_T⟩ := by
      rw [parseRodsPath,if_pos here,boundedCopyFits cwd.fits]
    rw [runs]
    exact iff_of_true (resolvesOwn cwd (cwdForm env here)) (.inl here)
  by_cases away : atHome inPath = true
  · have runs : parseRodsPath lastByte inPath (some env) = .ok ⟨env.rodsHome,.COLL_OBJ_T⟩ := by
      rw [parseRodsPath,if_neg here,if_pos away,boundedCopyFits home.fits]
    rw [runs]
    exact iff_of_true (resolvesOwn home (homeForm env away)) (.inr (.inl away))
  have runs : parseRodsPath lastByte inPath (some env) =
    rewrite lastByte (boundedCopy MAX_NAME_LEN (expanded env inPath)) := by
    rw [parseRodsPath,if_neg here,if_neg away]
  have form : absoluteForm env inPath = expanded env inPath :=
    if_neg fun tilde => away (by rw [tilde]; rfl)
  rw [runs,form,or_iff_right here,or_iff_right away]
  have slash := boundedSlash home cwd inPath
  by_cases root : RootDot (boundedCopy MAX_NAME_LEN (expanded env inPath))
  · obtain ⟨ty,lost⟩ := rewriteRootDot quiet slash root
    rw [lost]
    refine iff_of_false ?_ fun both => both.1 root
    intro resolves
    obtain ⟨t,wording⟩ := pathTextSlash (names ([] : Text))
    exact absurd (resolves.canonical.trans wording) (by simp)
  · rw [and_iff_right root]
    rcases rewriteVerdict quiet slash root with ⟨_,_,given,result⟩ | ⟨_,refused,result⟩
    · obtain ⟨resolved,short⟩ := verdictSome.mp given
      rw [result,given,canonicalisesVerdict (resolvedPlain (namesAll _) resolved) short]
      exact eq_comm
    · rw [result,refused]
      exact verdictNone.symm.trans eq_comm

def homeEnv : RodsEnv := ⟨lit "/z/h",lit "/z/c"⟩

theorem siblingReached : absoluteForm homeEnv (lit "../d/./e/") = lit "/z/c/../d/./e/" ∧
    Canonicalises (absoluteForm homeEnv (lit "../d/./e/"))
      (parseRodsPath (Char.ofNat 0) (lit "../d/./e/") (some homeEnv)) := by
  have home : CanonicalPath homeEnv.rodsHome := by decide +kernel
  have cwd : CanonicalPath homeEnv.rodsCwd := by decide +kernel
  refine ⟨by decide,(@canonicalisesExactly (Char.ofNat 0) (by decide) homeEnv home cwd (lit "../d/./e/")).mpr ?_⟩
  exact .inr (.inr (by decide +kernel))

theorem rootDotEmpty : parseRodsPath (Char.ofNat 0) (lit "/.") (some homeEnv) = .ok ⟨[],.COLL_OBJ_T⟩ ∧
    ¬Canonicalises (absoluteForm homeEnv (lit "/.")) (parseRodsPath (Char.ofNat 0) (lit "/.") (some homeEnv)) := by
  have runs : parseRodsPath (Char.ofNat 0) (lit "/.") (some homeEnv) = .ok ⟨[],.COLL_OBJ_T⟩ := by decide +kernel
  refine ⟨runs,?_⟩
  intro resolves
  exact absurd resolves.canonical (by decide)

/-! parseRodsPathStr hands on what parseRodsPath says of a path that is short enough. -/
theorem parsedFits {lastByte : Char} (quiet : lastByte ≠ '/') {env : RodsEnv} (home : CanonicalPath env.rodsHome)
    (cwd : CanonicalPath env.rodsCwd) {inPath : Text} {parsed}
    (runs : parseRodsPath lastByte inPath (some env) = .ok parsed) : parsed.outPath.length < MAX_NAME_LEN := by
  unfold parseRodsPath at runs
  dsimp only at runs
  split at runs
  · cases runs
    exact (boundedCopyFits cwd.fits).symm ▸ cwd.fits
  split at runs
  · cases runs
    exact (boundedCopyFits home.fits).symm ▸ home.fits
  have slash := boundedSlash home cwd inPath
  by_cases root : RootDot (boundedCopy MAX_NAME_LEN (expanded env inPath))
  · obtain ⟨ty,lost⟩ := rewriteRootDot quiet slash root
    cases lost.symm.trans runs
    exact (by decide : 0 < MAX_NAME_LEN)
  · rcases rewriteVerdict quiet slash root with ⟨ns,ty,given,result⟩ | ⟨_,_,result⟩
    · cases result.symm.trans runs
      exact (verdictSome.mp given).2.trans (by decide)
    · cases result.symm.trans runs

theorem strParsed {lastByte : Char} (quiet : lastByte ≠ '/') {env : RodsEnv} (home : CanonicalPath env.rodsHome)
    (cwd : CanonicalPath env.rodsCwd) {inPath : Text} (short : inPath.length < MAX_NAME_LEN-1) :
    parseRodsPathStr lastByte (some inPath) (some env) = (parseRodsPath lastByte inPath (some env)).map
      (·.outPath) := by
  have taken : boundedCopy MAX_NAME_LEN inPath = inPath := boundedCopyFits (short.trans (by decide))
  unfold parseRodsPathStr
  dsimp only
  rw [if_neg (by omega),taken]
  cases runs : parseRodsPath lastByte inPath (some env) with
  | error => rfl
  | ok parsed => exact congrArg Except.ok (boundedCopyFits (parsedFits quiet home cwd runs))

def CanonicalisesStr (absolute : Text) : Except Int Text → Prop
  | .ok outPath => Resolves absolute outPath
  | .error _ => Refusable absolute

theorem strCanonicalises {lastByte : Char} (quiet : lastByte ≠ '/') {env : RodsEnv} (home : CanonicalPath env.rodsHome)
    (cwd : CanonicalPath env.rodsCwd) {inPath : Text} (short : inPath.length < MAX_NAME_LEN-1) :
    CanonicalisesStr (absoluteForm env inPath) (parseRodsPathStr lastByte (some inPath) (some env)) ↔
      Canonicalises (absoluteForm env inPath) (parseRodsPath lastByte inPath (some env)) := by
  rw [strParsed quiet home cwd short]
  cases parseRodsPath lastByte inPath (some env) with
  | error => exact Iff.rfl
  | ok => exact Iff.rfl

end Irods.RodsPath
