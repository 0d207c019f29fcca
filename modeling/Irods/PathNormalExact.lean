import Irods.PathNormal

/-! path::lexically_normal against the standard. The two runs take the same step
except at a dot-dot behind a name that is followed by its separator already, or
that stands alone; and a step they do not share is never made good. -/
namespace Irods.LogicalPath
open CText PathNames List Option Form

/- A dot-dot that should take a name and does not. -/
def Form.Misses (f : Form) (e : Text) : Prop :=
  e = dotDot ∧ ∃ a n, f.all = a ++ [n] ∧ n ≠ dotDot ∧ ¬(f.file = some n ∧ (f.root = true ∨ a ≠ []))

def Smooth (f : Form) : List Text → Prop
  | [] => True
  | e::es => ¬f.Misses e ∧ Smooth (f.standardStep e) es

theorem fileLast {f : Form} {n} (file : f.file = some n) : f.all = f.dirs ++ [n] := by simp [file]

theorem fileNone {f : Form} (file : f.file = none) : f.all = f.dirs := by simp [file]

attribute [simp] bare

theorem stepShared {f : Form} {e} (shared : ¬f.Misses e) : f.step e = f.standardStep e := by
  unfold step standardStep
  split
  · rfl
  split
  · rename_i up
    unfold dotDotStep
    cases file : f.file with
    | some n =>
      dsimp only
      by_cases two : n = dotDot
      · rw [if_pos two]
        rw [two] at file
        exact (cancelUp (fileLast file)).symm
      have taken : f.root = true ∨ f.dirs ≠ [] := by
        by_contra alone
        exact shared ⟨up,f.dirs,n,fileLast file,two,fun both => alone both.2⟩
      rw [if_neg two,if_pos taken]
      exact (cancelName (fileLast file) two).symm
    | none =>
      dsimp only
      rcases eq_nil_or_concat' f.all with empty | ⟨a,m,shape⟩
      · rw [cancelNothing empty]
        have dirs := (allEmpty empty).1
        cases root : f.root with
        | true =>
          have here : f = bare true := by
            obtain ⟨r,_,x⟩ := f
            cases root
            cases dirs
            cases file
            rfl
          rw [here]
          rfl
        | false =>
          rw [if_neg]
          · rfl
          · rintro rfl
            cases root
      · have deep : f ≠ bare true := by
          rintro rfl
          simp at shape
        rw [if_neg deep]
        by_cases two : m = dotDot
        · rw [two] at shape
          exact (cancelUp shape).symm
        refine absurd ⟨up,a,m,shape,two,?_⟩ shared
        rintro ⟨some,-⟩
        rw [file] at some
        cases some
  · rfl

theorem runShared {f} {es} (smooth : Smooth f es) : es.foldl step f = es.foldl standardStep f := by
  induction es generalizing f with
  | nil => rfl
  | cons e _ ih =>
    rw [foldl_cons,stepShared smooth.1]
    exact ih smooth.2

def HasPair (l : List Text) : Prop := ∃ a n b, l = a ++ n::dotDot::b ∧ n ≠ dotDot

theorem pairMore {l} (pair : HasPair l) (m) : HasPair (l ++ [m]) := by
  obtain ⟨a,n,b,rfl,other⟩ := pair
  exact ⟨a,n,b ++ [m],by simp,other⟩

theorem pairLess {l m} (pair : HasPair (l ++ [m])) (plain : m ≠ dotDot) : HasPair l := by
  obtain ⟨a,n,b,shape,other⟩ := pair
  rcases eq_nil_or_concat' b with rfl | ⟨b,x,rfl⟩
  · have parts : l ++ [m] = (a ++ [n]) ++ [dotDot] := by rw [shape]; simp
    have last := (append_inj' parts rfl).2
    exact absurd (cons.inj last).1 plain
  · have parts : l ++ [m] = (a ++ n::dotDot::b) ++ [x] := by rw [shape]; simp
    exact ⟨a,n,b,(append_inj' parts rfl).1,other⟩

theorem pairStep {f : Form} (pair : HasPair f.all) (e) : HasPair (f.step e).all := by
  unfold step
  split
  · rw [closeAll]
    exact pair
  split
  · unfold dotDotStep
    split
    · rename_i file
      split
      · exact pairMore pair _
      rename_i other
      split
      · rw [fileLast file] at pair
        simpa using pairLess pair other
      · exact pair
    · split
      · exact pair
      · exact pairMore pair _
  · exact pairMore pair _

theorem pairRun {f} (pair : HasPair f.all) (es : List Text) : HasPair (es.foldl step f).all := by
  induction es generalizing f with
  | nil => exact pair
  | cons e _ ih => exact ih (pairStep pair e)

structure Sorted (f : Form) : Prop where
  front : ∃ k rest, f.all = List.replicate k dotDot ++ rest ∧ dotDot ∉ rest
  root : f.root = true → dotDot ∉ f.all

section
variable {f} (sorted : Sorted f)
include sorted

theorem sortedNoPair : ¬HasPair f.all := by
  rintro ⟨a,n,b,shape,other⟩
  obtain ⟨k,_,parts,plain⟩ := sorted.front
  rw [parts] at shape
  rcases append_eq_append_iff.mp shape with ⟨c,rfl,tail⟩ | ⟨c,front,tail⟩
  · refine plain ?_
    rw [tail]
    simp
  cases c with
  | nil =>
    refine plain ?_
    rw [nil_append] at tail
    rw [← tail]
    simp
  | cons d c =>
    have same := (cons.inj tail).1.symm
    have member : n ∈ replicate k dotDot := by
      rw [front,same]
      simp
    exact other (eq_of_mem_replicate member)

theorem sortedPush {n} (other : n ≠ dotDot) : Sorted (f.push n) := by
  obtain ⟨k,rest,shape,plain⟩ := sorted.front
  refine ⟨⟨k,rest ++ [n],by rw [pushAll,shape,append_assoc],?_⟩,?_⟩
  · simp [plain,Ne.symm other]
  intro root
  rw [pushAll]
  simpa [Ne.symm other] using sorted.root root

theorem sortedCancel : Sorted f.cancelStep := by
  obtain ⟨k,rest,shape,plain⟩ := sorted.front
  rcases eq_nil_or_concat' f.all with empty | ⟨a,m,last⟩
  · rw [cancelNothing empty]
    split
    · exact ⟨⟨0,[],by rw [closeAll,empty]; rfl,by simp⟩,fun _ => by rw [closeAll,empty]; simp⟩
    · rename_i rootless
      exact ⟨⟨1,[],by rw [pushAll,empty]; rfl,by simp⟩,fun root => absurd root rootless⟩
  · rcases eq_nil_or_concat' rest with rfl | ⟨rest,x,rfl⟩
    · -- dot-dots only
      rw [append_nil] at shape
      have up : m = dotDot := eq_of_mem_replicate (by rw [← shape,last]; simp)
      rw [up] at last
      rw [cancelUp last]
      refine ⟨⟨k+1,[],by rw [pushAll,shape,replicate_succ',append_nil],by simp⟩,?_⟩
      intro root
      exact absurd (by rw [last]; simp) (sorted.root root)
    · have parts : a ++ [m] = (replicate k dotDot ++ rest) ++ [x] := by rw [← last,shape,append_assoc]
      obtain ⟨front,back⟩ := append_inj' parts rfl
      have other : m ≠ dotDot := by
        rw [(cons.inj back).1]
        rintro rfl
        exact plain (by simp)
      rw [cancelName last other]
      refine ⟨⟨k,rest,by simpa using front,fun mem => plain (mem_append_left _ mem)⟩,?_⟩
      intro root mem
      refine sorted.root root ?_
      rw [last]
      exact mem_append_left _ (by simpa using mem)

theorem sortedStep (e) : Sorted (f.standardStep e) := by
  unfold standardStep
  split
  · exact ⟨by rw [closeAll]; exact sorted.front,by rw [closeAll]; exact sorted.root⟩
  split
  · exact sortedCancel sorted
  · rename_i other
    exact sortedPush sorted other

theorem sortedRun (es : List Text) : Sorted (es.foldl standardStep f) := by
  induction es generalizing f with
  | nil => exact sorted
  | cons e _ ih => exact ih (sortedStep sorted e)

end

theorem sortedBare (root) : Sorted (bare root) := ⟨⟨0,[],rfl,by simp⟩,fun _ => by simp⟩

def lift (n : Text) : Int := if n = dotDot then -1 else 1
def height (l : List Text) : Int := (l.map lift).sum
def weight (e : Text) : Int := if e = [] ∨ e = dot then 0 else lift e

theorem heightMore (l n) : height (l ++ [n]) = height l+lift n := by simp [height]

theorem liftName {n} (other : n ≠ dotDot) : lift n = 1 := if_neg other

theorem liftUp : lift dotDot = -1 := if_pos rfl

theorem heightStandard {f : Form} (rootless : f.root = false) (e) :
    height (f.standardStep e).all = height f.all+weight e := by
  unfold standardStep weight
  split
  · rw [closeAll]
    omega
  split
  · rename_i up
    rw [up,liftUp]
    rcases eq_nil_or_concat' f.all with empty | ⟨a,m,shape⟩
    · rw [cancelNothing empty,rootless,if_neg (by simp),pushAll,heightMore,liftUp]
    by_cases two : m = dotDot
    · rw [two] at shape
      rw [cancelUp shape,pushAll,heightMore,liftUp]
    · have less : (⟨f.root,a,none⟩ : Form).all = a := fileNone rfl
      rw [cancelName shape two,less,shape,heightMore,liftName two]
      omega
  · rw [pushAll,heightMore]

theorem heightStep (f : Form) (e) : height f.all+weight e ≤ height (f.step e).all := by
  unfold step weight
  split
  · rw [closeAll]
    omega
  split
  · rename_i up
    rw [up,liftUp]
    unfold dotDotStep
    split
    · rename_i file
      split
      · exact Int.le_of_eq (by rw [pushAll,heightMore,liftUp])
      rename_i other
      split
      · have less : (⟨f.root,f.dirs,none⟩ : Form).all = f.dirs := fileNone rfl
        rw [less,fileLast file,heightMore,liftName other]
        omega
      · omega
    · split
      · omega
      · exact Int.le_of_eq (by rw [pushAll,heightMore,liftUp])
  · exact Int.le_of_eq (by rw [pushAll,heightMore])

theorem heightRuns {f g} (right : g.root = false) (higher : height g.all < height f.all) (es : List Text) :
    height (es.foldl standardStep g).all < height (es.foldl step f).all := by
  induction es generalizing f g with
  | nil => exact higher
  | cons e _ ih =>
    refine ih (by rw [standardStepRoot,right]) ?_
    have one := heightStandard right e
    have two := heightStep f e
    omega

theorem missedDiffers {f} (sorted : Sorted f) {e} (misses : f.Misses e) (es : List Text) :
    (es.foldl step (f.step e)).all ≠ (es.foldl standardStep (f.standardStep e)).all := by
  obtain ⟨rfl,a,n,shape,other,kept⟩ := misses
  have step : f.step dotDot = f.dotDotStep := by rw [step,if_neg (by decide),if_pos rfl]
  rw [step]
  cases file : f.file with
  | none =>
    -- the dot-dot is put behind the name
    have pushed : f.dotDotStep = f.push dotDot := by
      unfold dotDotStep
      rw [file]
      dsimp only
      rw [if_neg]
      rintro rfl
      simp at shape
    have pair : HasPair (f.push dotDot).all := ⟨a,n,[],by rw [pushAll,shape]; simp,other⟩
    rw [pushed]
    intro same
    exact sortedNoPair (sortedRun (sortedStep sorted dotDot) es) (same ▸ pairRun pair es)
  | some m =>
    have parts : f.dirs = a ∧ m = n := by
      rw [fileLast file] at shape
      obtain ⟨front,back⟩ := append_inj' shape rfl
      exact ⟨front,(cons.inj back).1⟩
    obtain ⟨front,rfl⟩ := parts
    have alone : ¬(f.root = true ∨ a ≠ []) := fun either => kept ⟨file,either⟩
    have rootless : f.root = false := by
      cases root : f.root with
      | false => rfl
      | true => exact absurd (.inl root) alone
    have nothing : f.dotDotStep = f := by
      unfold dotDotStep
      rw [file]
      dsimp only
      rw [if_neg other,front,if_neg alone]
    have higher : height (f.standardStep dotDot).all < height f.all := by
      rw [heightStandard rootless]
      have : weight dotDot = -1 := rfl
      omega
    rw [nothing]
    intro same
    have above := heightRuns (by rw [standardStepRoot,rootless]) higher es
    rw [same] at above
    omega

theorem smoothExactly {f} (sorted : Sorted f) (es) :
    (es.foldl step f).all = (es.foldl standardStep f).all ↔ Smooth f es := by
  constructor
  · intro same
    induction es generalizing f with
    | nil => trivial
    | cons e es ih =>
      by_cases misses : f.Misses e
      · exact absurd same (missedDiffers sorted misses es)
      refine ⟨misses,?_⟩
      rw [foldl_cons,stepShared misses] at same
      exact ih (sortedStep sorted e) same
  · intro smooth
    rw [runShared smooth]

def Adds (step : Form → Text → Form) : Prop := ∀ f e n, n ∈ (step f e).all → n ∈ f.all ∨ n = e ∧ n ≠ dot

theorem pushAdds {f : Form} {e n} (plain : e ≠ dot) (mem : n ∈ (f.push e).all) : n ∈ f.all ∨ n = e ∧ n ≠ dot := by
  rcases mem_append.mp mem with old | new
  · exact .inl old
  · rw [mem_singleton.mp new]
    exact .inr ⟨rfl,plain⟩

theorem stepAdds : Adds step := by
  intro f e n mem
  unfold step at mem
  split at mem
  · rw [closeAll] at mem
    exact .inl mem
  rename_i plain
  have solid : e ≠ dot := fun same => plain (.inr same)
  split at mem
  · rename_i up
    unfold dotDotStep at mem
    rw [← up] at mem
    split at mem
    · split at mem
      · exact pushAdds solid mem
      split at mem
      · rw [fileNone rfl] at mem
        exact .inl (mem_append_left _ mem)
      · exact .inl mem
    · split at mem
      · exact .inl mem
      · exact pushAdds solid mem
  · exact pushAdds solid mem

theorem standardAdds : Adds standardStep := by
  intro f e n mem
  unfold standardStep at mem
  split at mem
  · rw [closeAll] at mem
    exact .inl mem
  rename_i plain
  have solid : e ≠ dot := fun same => plain (.inr same)
  split at mem
  · rename_i up
    unfold cancelStep at mem
    rw [← up] at mem
    split at mem
    · split at mem
      · rw [fileNone rfl] at mem
        exact .inl (dropLast_subset _ mem)
      · exact pushAdds solid mem
    · split at mem
      · rw [closeAll] at mem
        exact .inl mem
      · exact pushAdds solid mem
  · exact pushAdds solid mem

theorem noDot {step} (adds : Adds step) {f} (absent : dot ∉ f.all) (es : List Text) :
    dot ∉ (es.foldl step f).all := by
  induction es generalizing f with
  | nil => exact absent
  | cons e _ ih =>
    refine ih ?_
    intro mem
    rcases adds f e dot mem with old | ⟨-,plain⟩
    · exact absent old
    · exact plain rfl

theorem namesText {f} (named : f.Named) : names f.text = if f = bare false then [dot] else f.all := by
  unfold Form.text
  split
  · rfl
  · rw [namesValue (settleNamed named),settleAll]

def PathMatches (t : Text) : Prop := Smooth (bare (isAbsolute t)) (names t ++ trailing t)

theorem textsEqual (t) : lexicallyNormal t = standardNormal t ↔ PathMatches t := by
  by_cases full : t = []
  · rw [full]
    exact iff_of_true rfl trivial
  have sorted := sortedBare (isAbsolute t)
  have named := (normalRun full).2
  have named' : (standardForm t).Named := standardRunNamed (elementsNamed t)
  rw [normalText full,standardText full]
  constructor
  · intro same
    refine (smoothExactly sorted _).mp ?_
    have both := congrArg names same
    rw [namesText named,namesText named'] at both
    have free : dot ∉ (normalForm t).all := noDot stepAdds (by simp) _
    have free' : dot ∉ (standardForm t).all := noDot standardAdds (by simp) _
    show (normalForm t).all = (standardForm t).all
    split at both <;> split at both
    · rename_i left right
      rw [left,right]
    · rw [← both] at free'
      contradiction
    · rw [both] at free
      contradiction
    · exact both
  · intro smooth
    have same : normalForm t = standardForm t := runShared smooth
    rw [same]

theorem smoothAppend (f a b) : Smooth f (a ++ b) ↔ Smooth f a ∧ Smooth (a.foldl standardStep f) b := by
  induction a generalizing f with
  | nil => exact (and_iff_right trivial).symm
  | cons e a ih => rw [cons_append,Smooth,Smooth,ih,and_assoc]; rfl

theorem smoothIff (f ns) : Smooth f ns ↔
    ∀ before after, ns = before ++ dotDot::after → ¬(before.foldl standardStep f).Misses dotDot := by
  constructor
  · rintro smooth before after rfl
    exact ((smoothAppend f before _).mp smooth).2.1
  intro each
  induction ns generalizing f with
  | nil => trivial
  | cons e ns ih =>
    refine ⟨?_,ih _ ?_⟩
    · rintro misses
      cases misses.1
      exact each [] ns rfl misses
    · rintro before after rfl
      exact each (e::before) after rfl

theorem fileAfter {root before a n} (full : ∀ m ∈ before, m ≠ [])
    (shape : (standardRun root before).all = a ++ [n]) (other : n ≠ dotDot) :
    (standardRun root before).file = some n ↔ before.getLast? = some n := by
  have plain : n ≠ dot := by
    rintro rfl
    exact noDot standardAdds (show dot ∉ (bare root).all by simp) before (shape ▸ by simp)
  rcases eq_nil_or_concat' before with rfl | ⟨front,e,rfl⟩
  · simp [standardRun] at shape
  have last : standardRun root (front ++ [e]) = (standardRun root front).standardStep e := by
    simp [standardRun]
  rw [last] at shape ⊢
  rw [getLast?_concat]
  have nonempty := full e (by simp)
  by_cases one : e = dot
  · rw [one,standardDot]
    exact iff_of_false (by simp [close]) (by simpa using Ne.symm plain)
  by_cases two : e = dotDot
  · rw [two,standardUp] at shape ⊢
    refine iff_of_false ?_ (by simpa using Ne.symm other)
    intro file
    rcases eq_nil_or_concat' (standardRun root front).all with empty | ⟨b,m,inner⟩
    · rw [cancelNothing empty] at file
      split at file
      · cases file
      · exact other (some.inj file).symm
    · by_cases up : m = dotDot
      · rw [up] at inner
        rw [cancelUp inner] at file
        exact other (some.inj file).symm
      · rw [cancelName inner up] at file
        cases file
  · rw [standardName _ nonempty one two]
    exact .rfl

/- Every dot-dot that is to take a name comes right behind it, and the name is not
all there is of a relative path. -/
def TakesNext (t : Text) : Prop := ∀ before after a n, names t = before ++ dotDot::after →
  (standardRun (isAbsolute t) before).all = a ++ [n] → n ≠ dotDot →
    before.getLast? = some n ∧ (isAbsolute t = true ∨ a ≠ [])

theorem matchesTakes (t) : PathMatches t ↔ TakesNext t := by
  have none : ∀ f, Smooth f (trailing t) := by
    intro f
    unfold trailing
    split
    · exact ⟨fun misses => absurd misses.1 (by decide),trivial⟩
    · trivial
  have full : ∀ n ∈ names t, n ≠ [] := fun n mem => (namesAll t n mem).1
  unfold PathMatches TakesNext
  rw [smoothAppend,and_iff_left (none _),smoothIff]
  refine forall_congr' fun before => forall_congr' fun after => ?_
  have root : (standardRun (isAbsolute t) before).root = isAbsolute t := runRoot _ _
  have same : ∀ {a n}, names t = before ++ dotDot::after → (standardRun (isAbsolute t) before).all = a ++ [n] →
    n ≠ dotDot →
      ((standardRun (isAbsolute t) before).file = some n ∧ ((standardRun (isAbsolute t) before).root = true ∨ a ≠ []) ↔
        before.getLast? = some n ∧ (isAbsolute t = true ∨ a ≠ [])) := by
    intro a n parts shape other
    have inside : ∀ m ∈ before, m ≠ [] := fun m mem => full m (by rw [parts]; exact mem_append_left _ mem)
    rw [fileAfter inside shape other,root]
  constructor
  · intro each a n parts shape other
    by_contra kept
    exact each parts ⟨rfl,a,n,shape,other,fun both => kept ((same parts shape other).mp both)⟩
  · rintro each parts ⟨-,a,n,shape,other,kept⟩
    exact kept ((same parts shape other).mpr (each a n parts shape other))

theorem stepName (f : Form) {n} (full : n ≠ []) (one : n ≠ dot) (two : n ≠ dotDot) : f.step n = f.push n := by
  rw [step,if_neg fun either => either.elim full one,if_neg two]

theorem stepUps (k) : (replicate k dotDot).foldl step (bare false) = (replicate k dotDot).foldl push (bare false) := by
  induction k with
  | zero => rfl
  | succ k ih =>
    rw [replicate_succ',foldl_append,foldl_append,ih]
    cases k with
    | zero => rfl
    | succ k =>
      rw [replicate_succ',pushesLast]
      rfl

theorem stepNames {ns : List Text} (plain : ∀ n ∈ ns, n ≠ [] ∧ n ≠ dot ∧ n ≠ dotDot) (f) :
    ns.foldl step f = ns.foldl push f := by
  induction ns generalizing f with
  | nil => rfl
  | cons n _ ih =>
    obtain ⟨full,one,two⟩ := plain n mem_cons_self
    rw [foldl_cons,stepName f full one two]
    exact ih (forall_mem_cons.mp plain).2 _

theorem stepSorted {f} (named : f.Named) (sorted : Sorted f) (free : dot ∉ f.all) :
    f.all.foldl step (bare f.root) = f.all.foldl push (bare f.root) := by
  obtain ⟨k,rest,shape,plain⟩ := sorted.front
  have solid : ∀ n ∈ rest, n ≠ [] ∧ n ≠ dot ∧ n ≠ dotDot := by
    intro n mem
    have inside : n ∈ f.all := by rw [shape]; exact mem_append_right _ mem
    refine ⟨(named n inside).1,?_,?_⟩
    · rintro rfl
      exact free inside
    · rintro rfl
      exact plain mem
  have front : (replicate k dotDot).foldl step (bare f.root) = (replicate k dotDot).foldl push (bare f.root) := by
    cases root : f.root with
    | false => exact stepUps k
    | true =>
      cases k with
      | zero => rfl
      | succ k => exact absurd (by rw [shape]; simp) (sorted.root root)
  rw [shape,foldl_append,foldl_append,front]
  exact stepNames solid _

theorem settleTwice (f : Form) : f.settle.settle = f.settle := by
  unfold settle
  split
  · simp
  · rfl

theorem settledForm {f} (named : f.Named) (sorted : Sorted f) (free : dot ∉ f.all) (full : f ≠ bare false) :
    normalForm f.settle.value = f.settle := by
  have named' := settleNamed named
  have nonempty : f.settle.value ≠ [] := by
    rw [ne_eq,valueEmpty named']
    show ¬f.settle = bare false
    rw [bareIff,settleRoot,settleAll,← bareIff]
    exact full
  have ends : f.settle.value.getLast? = some '/' ↔ f.settle.file = none :=
    ⟨fun last => (valueEnds named').mp (.inr last),fun file => ((valueEnds named').mpr file).resolve_left nonempty⟩
  have whole : f.settle.dirs ++ f.settle.file.toList = f.all := settleAll f
  unfold normalForm
  rw [absoluteValue named',namesValue named',settleRoot,settleAll,foldl_append,stepSorted named sorted free]
  have rebuilt : ∀ {ds d}, f.all = ds ++ [d] → f.all.foldl push (bare f.root) = ⟨f.root,ds,some d⟩ := by
    intro ds d shape
    rw [shape,pushesLast]
    simp
  have root := settleRoot f
  unfold trailing
  generalize f.settle = g at *
  obtain ⟨r,_,file⟩ := g
  cases file with
  | none =>
    rw [if_pos (ends.mpr rfl)]
    simp only [toList_none,append_nil] at whole root
    subst whole root
    show step _ [] = _
    rcases eq_nil_or_concat' f.all with empty | ⟨_,d,shape⟩
    · rw [empty]
      rfl
    · rw [rebuilt shape,step,shape]
      simp [close]
  | some d =>
    rw [if_neg fun last => by cases ends.mp last]
    subst root
    rw [rebuilt whole.symm]
    rfl

theorem settledText {f} (named : f.Named) (sorted : Sorted f) (free : dot ∉ f.all) :
    lexicallyNormal f.text = f.text := by
  by_cases full : f = bare false
  · rw [full]
    rfl
  have text : f.text = f.settle.value := if_neg full
  have form := settledForm named sorted free full
  have other : f.settle ≠ bare false := by
    rw [ne_eq,bareIff,settleRoot,settleAll,← bareIff]
    exact full
  have nonempty : f.settle.value ≠ [] := by
    rw [ne_eq,valueEmpty (settleNamed named)]
    exact other
  rw [text,normalText nonempty,form,Form.text,if_neg other,settleTwice]

theorem standardFixed (t) : lexicallyNormal (standardNormal t) = standardNormal t := by
  by_cases full : t = []
  · rw [full]
    rfl
  · rw [standardText full]
    exact settledText (standardRunNamed (elementsNamed t)) (sortedRun (sortedBare _) _)
      (noDot standardAdds (by simp) _)

theorem standardPlain {t} (absolute : isAbsolute t = true) :
    dot ∉ elements (standardNormal t) ∧ dotDot ∉ elements (standardNormal t) := by
  have full : t ≠ [] := by
    rintro rfl
    cases absolute
  have root : (standardForm t).root = true := by rw [standardFormRoot,absolute]
  have named : (standardForm t).Named := standardRunNamed (elementsNamed t)
  have other : standardForm t ≠ bare false := by
    intro same
    rw [same] at root
    cases root
  have text := (standardText full).trans (if_neg other)
  have free : dot ∉ (standardForm t).all := noDot standardAdds (by simp) _
  have plain := (sortedRun (sortedBare _) _).root root
  have outside : ∀ n, n ≠ ['/'] → n ≠ [] → n ∉ (standardForm t).all → n ∉ elements (standardNormal t) := by
    intro n slash nonempty absent mem
    rw [text,elementsValue (settleNamed named),settleRoot,settleAll,root] at mem
    simp only [if_true,mem_append,mem_singleton,slash,absent] at mem
    split at mem <;> simp [nonempty] at mem
  exact ⟨outside dot (by decide) (by decide) free,outside dotDot (by decide) (by decide) plain⟩

structure Normalises (t : Text) : Prop where
  standard : lexicallyNormal t = standardNormal t
  idempotent : lexicallyNormal (lexicallyNormal t) = lexicallyNormal t
  plain : isAbsolute t = true → dot ∉ elements (lexicallyNormal t) ∧ dotDot ∉ elements (lexicallyNormal t)

theorem normalisesExactly (t : Text) : Normalises t ↔ TakesNext t := by
  rw [← matchesTakes,← textsEqual]
  constructor
  · exact fun normalises => normalises.standard
  intro same
  refine ⟨same,?_,?_⟩
  · rw [same]
    exact standardFixed t
  · rw [same]
    exact standardPlain

theorem dotDotMissed : lexicallyNormal (lit "/a/b/../..") = lit "/a/.." ∧ standardNormal (lit "/a/b/../..") = lit "/" ∧
    lexicallyNormal (lit "/a/./..") = lit "/a/.." ∧ standardNormal (lit "/a/./..") = lit "/" ∧
    lexicallyNormal (lit "a/..") = lit "a" ∧ standardNormal (lit "a/..") = lit "." := by
  decide

end Irods.LogicalPath
