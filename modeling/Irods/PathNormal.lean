import Irods.PathForm

/-! The normal form of a path as [fs.path.generic] of C++17 gives it, and when
path::lexically_normal computes it. -/
namespace Irods.LogicalPath
open CText PathNames List Form

structure Segment where
  name : Text
  slash : Bool
  deriving DecidableEq, Repr

def Segment.text (s : Segment) : Text := s.name ++ rootText s.slash

-- Runs of separators count as one.
def segments (t : Text) : List Segment :=
  (names t).dropLast.map (⟨·,true⟩) ++ (names t).getLast?.toList.map (⟨·,decide (t.getLast? = some '/')⟩)

-- Each dot and its separator.
def removeDots (ss : List Segment) : List Segment := ss.filter fun s => s.name ≠ dot

/- From the left, each dot-dot takes the filename that is then in front of it. -/
def cancelSegment (ss : List Segment) (s : Segment) : List Segment :=
  if s.name = dotDot then
    match ss.getLast? with
    | some m => if m.slash = true ∧ m.name ≠ dotDot then ss.dropLast else ss ++ [s]
    | none => ss ++ [s]
  else ss ++ [s]

def cancelPairs (ss : List Segment) : List Segment := ss.foldl cancelSegment []

def removeDotDots (root : Bool) (ss : List Segment) : List Segment :=
  if root then ss.filter fun s => s.name ≠ dotDot else ss

def lastDotDot (ss : List Segment) : List Segment :=
  match ss.getLast? with
  | some s => if s.name = dotDot then ss.dropLast ++ [⟨dotDot,false⟩] else ss
  | none => ss

def standardSegments (t : Text) : List Segment :=
  lastDotDot (removeDotDots (isAbsolute t) (cancelPairs (removeDots (segments t))))

def standardNormal (t : Text) : Text :=
  if t = [] then []
  else
    let r := rootText (isAbsolute t) ++ (standardSegments t).flatMap Segment.text
    if r = [] then dot else r

def Form.cancelStep (f : Form) : Form :=
  match f.all.getLast? with
  | some n => if n ≠ dotDot then ⟨f.root,f.all.dropLast,none⟩ else f.push dotDot
  | none => if f.root then f.close else f.push dotDot

def Form.standardStep (f : Form) (e : Text) : Form :=
  if e = [] ∨ e = dot then f.close else if e = dotDot then f.cancelStep else f.push e

def standardRun (root : Bool) (es : List Text) : Form := es.foldl Form.standardStep (bare root)
def standardForm (t : Text) : Form := standardRun (isAbsolute t) (names t ++ trailing t)

theorem standardEmpty (f : Form) : f.standardStep [] = f.close := if_pos (.inl rfl)

theorem standardDot (f : Form) : f.standardStep dot = f.close := if_pos (.inr rfl)

theorem standardUp (f : Form) : f.standardStep dotDot = f.cancelStep := by
  rw [standardStep,if_neg (by decide),if_pos rfl]

theorem standardName (f : Form) {n} (full : n ≠ []) (one : n ≠ dot) (two : n ≠ dotDot) :
    f.standardStep n = f.push n := by
  rw [standardStep,if_neg fun either => either.elim full one,if_neg two]

variable {f : Form}

theorem cancelName {a m} (shape : f.all = a ++ [m]) (other : m ≠ dotDot) :
    f.cancelStep = ⟨f.root,a,none⟩ := by
  unfold cancelStep
  rw [shape]
  simp [other]

theorem cancelUp {a} (shape : f.all = a ++ [dotDot]) : f.cancelStep = f.push dotDot := by
  unfold cancelStep
  rw [shape]
  simp

theorem cancelNothing (empty : f.all = []) : f.cancelStep = if f.root then f.close else f.push dotDot := by
  unfold cancelStep
  rw [empty]
  rfl

theorem cancelRoot (f : Form) : f.cancelStep.root = f.root := by
  unfold cancelStep
  split <;> split <;> rfl

theorem standardStepRoot (f : Form) (e) : (f.standardStep e).root = f.root := by
  unfold standardStep
  split
  · rfl
  split
  · exact cancelRoot f
  · rfl

def Form.segments (f : Form) : List Segment := f.dirs.map (⟨·,true⟩) ++ f.file.toList.map (⟨·,false⟩)

attribute [simp] Form.segments

theorem segmentsPush (f : Form) (n) (slash : Bool) :
    (if slash then (f.push n).close.segments else (f.push n).segments) = f.all.map (⟨·,true⟩) ++ [⟨n,slash⟩] := by
  cases slash <;> simp [push,close]

theorem segmentsClose (f : Form) : f.close.segments = f.all.map (⟨·,true⟩) := by simp [close]

def keepSegment (ss : List Segment) (s : Segment) : List Segment := if s.name = dot then ss else cancelSegment ss s

theorem keepStep (rootless : f.root = false) {n : Text} (name : n ≠ []) (slash) :
    keepSegment f.close.segments ⟨n,slash⟩ =
      if slash then (f.standardStep n).close.segments else (f.standardStep n).segments := by
  unfold keepSegment
  rw [segmentsClose]
  by_cases one : n = dot
  · rw [one,standardDot]
    cases slash <;> simp [close]
  rw [if_neg one]
  unfold cancelSegment
  by_cases two : n = dotDot
  · rw [two,standardUp]
    rcases eq_nil_or_concat' f.all with empty | ⟨a,m,shape⟩
    · have pushed : f.cancelStep = f.push dotDot := by
        rw [cancelNothing empty,rootless]
        rfl
      rw [pushed,segmentsPush,empty]
      rfl
    · by_cases up : m = dotDot
      · rw [up] at shape
        rw [cancelUp shape,segmentsPush,shape]
        simp
      · rw [cancelName shape up,shape]
        cases slash <;> simp [up,close]
  · rw [if_neg two,standardName f name one two,segmentsPush]

theorem keepRun (rootless : f.root = false) {ns : List Text} (full : ∀ n ∈ ns, n ≠ []) :
    (ns.map (⟨·,true⟩)).foldl keepSegment f.close.segments = (ns.foldl standardStep f).close.segments := by
  induction ns generalizing f with
  | nil => rfl
  | cons n _ ih =>
    rw [map_cons,foldl_cons,keepStep rootless (full n mem_cons_self) true]
    exact ih (by rw [standardStepRoot,rootless]) (forall_mem_cons.mp full).2

theorem runRoot (f) (es : List Text) : (es.foldl standardStep f).root = f.root := by
  induction es generalizing f with
  | nil => rfl
  | cons e _ ih => rw [foldl_cons,ih,standardStepRoot]

theorem cancelledSegments (t) :
    cancelPairs (removeDots (segments t)) = (standardRun false (names t ++ trailing t)).segments := by
  have filtered : cancelPairs (removeDots (segments t)) = (segments t).foldl keepSegment [] := by
    rw [cancelPairs,removeDots,foldl_filter]
    congr 1
    funext ss s
    unfold keepSegment
    by_cases one : s.name = dot <;> simp
  have full : ∀ n ∈ names t, n ≠ [] := fun n mem => (namesAll t n mem).1
  rw [filtered,segments,standardRun]
  rcases eq_nil_or_concat' (names t) with empty | ⟨ns,n,shape⟩
  · rw [empty]
    unfold trailing
    split <;> rfl
  rw [shape] at full ⊢
  have front := keepRun (f := bare false) rfl (fun m mem => full m (mem_append_left _ mem) : ∀ m ∈ ns, m ≠ [])
  have start : (bare false).close.segments = [] := rfl
  rw [start] at front
  simp only [dropLast_concat,getLast?_concat,Option.toList_some,map_cons,foldl_append,
    front,foldl_cons]
  rw [keepStep (runRoot (bare false) ns) (full n (by simp))]
  unfold trailing
  by_cases last : t.getLast? = some '/'
  · simp [last,standardEmpty]
  · simp [last]

structure Rooted (f g : Form) : Prop where
  all : ∃ k, f.all = List.replicate k dotDot ++ g.all
  plain : dotDot ∉ g.all
  root : g.root = true
  rootless : f.root = false
  file : f.file = g.file ∨ f.file = some dotDot ∧ g.all = []

theorem rootedClose {g} (rooted : Rooted f g) : Rooted f.close g.close :=
  ⟨by rw [closeAll,closeAll]; exact rooted.all,by rw [closeAll]; exact rooted.plain,rooted.root,rooted.rootless,
    .inl rfl⟩

theorem allEmpty (empty : f.all = []) : f.dirs = [] ∧ f.file = none := by
  obtain ⟨dirs,file⟩ := append_eq_nil_iff.mp empty
  exact ⟨dirs,by simpa using file⟩

theorem rootedStep {g} (rooted : Rooted f g) {e} : Rooted (f.standardStep e) (g.standardStep e) := by
  obtain ⟨k,shape⟩ := rooted.all
  unfold standardStep
  split
  · exact rootedClose rooted
  split
  · rcases eq_nil_or_concat' g.all with empty | ⟨a,m,last⟩
    · -- only dot-dots: one more without a root, nothing with it
      have front : f.cancelStep = f.push dotDot := by
        rw [empty,append_nil] at shape
        cases k with
        | zero =>
          rw [cancelNothing shape,rooted.rootless]
          rfl
        | succ k =>
          rw [replicate_succ'] at shape
          exact cancelUp shape
      have same : g.cancelStep = g.close := by rw [cancelNothing empty,rooted.root]; rfl
      rw [front,same]
      refine ⟨⟨k+1,?_⟩,?_,rooted.root,rooted.rootless,.inr ⟨rfl,by rw [closeAll,empty]⟩⟩
      · rw [pushAll,closeAll,shape,empty,append_nil,append_nil,replicate_succ']
      · rw [closeAll]
        exact rooted.plain
    · have other : m ≠ dotDot := by
        rintro rfl
        exact rooted.plain (by rw [last]; simp)
      have left : f.all = (replicate k dotDot ++ a) ++ [m] := by rw [shape,last,append_assoc]
      rw [cancelName left other,cancelName last other]
      refine ⟨⟨k,by simp⟩,?_,rooted.root,rooted.rootless,.inl rfl⟩
      intro mem
      refine rooted.plain ?_
      rw [last]
      exact mem_append_left _ (by simpa using mem)
  · rename_i up
    refine ⟨⟨k,by rw [pushAll,pushAll,shape,append_assoc]⟩,?_,rooted.root,rooted.rootless,.inl rfl⟩
    intro mem
    rcases mem_append.mp mem with old | new
    · exact rooted.plain old
    · exact up (mem_singleton.mp new).symm

theorem rootedRun (es) : Rooted (standardRun false es) (standardRun true es) := by
  have run : ∀ (es : List Text) {f g : Form}, Rooted f g →
    Rooted (es.foldl standardStep f) (es.foldl standardStep g) := by
    intro es
    induction es with
    | nil => exact fun rooted => rooted
    | cons e es ih => exact fun rooted => ih (rootedStep rooted)
  exact run es ⟨⟨0,rfl⟩,by simp [bare],rfl,rfl,.inl rfl⟩

theorem rootedSegments {g} (rooted : Rooted f g) : f.segments.filter fun s => s.name ≠ dotDot = g.segments := by
  obtain ⟨k,shape⟩ := rooted.all
  have ups : (replicate k dotDot).filter fun n => n ≠ dotDot = [] := by
    rw [filter_eq_nil_iff]
    intro n mem
    simp [eq_of_mem_replicate mem]
  have namesOnly : ∀ (ns : List Text) slash, (ns.map fun n => (⟨n,slash⟩ : Segment)).filter fun s => s.name ≠ dotDot =
      (ns.filter fun n => n ≠ dotDot).map (⟨·,slash⟩) := by
    intro ns _
    rw [filter_map]
    rfl
  have plain : ∀ {ns : List Text}, (∀ n ∈ ns, n ∈ g.all) → ns.filter fun n => n ≠ dotDot = ns := by
    intro _ inside
    rw [filter_eq_self]
    intro n mem
    simp only [decide_eq_true_eq]
    rintro rfl
    exact rooted.plain (inside _ mem)
  unfold Form.segments
  rw [filter_append,namesOnly,namesOnly]
  rcases rooted.file with same | ⟨last,empty⟩
  · have dirs : f.dirs = replicate k dotDot ++ g.dirs := by
      have whole : f.dirs ++ f.file.toList = (replicate k dotDot ++ g.dirs) ++ f.file.toList := by
        have both : f.dirs ++ f.file.toList = replicate k dotDot ++ (g.dirs ++ g.file.toList) := shape
        rw [← same] at both
        rw [both,append_assoc]
      exact append_cancel_right whole
    rw [dirs,same,filter_append,ups,nil_append,plain fun n mem => mem_append_left _ mem,
      plain fun n mem => mem_append_right _ mem]
  · obtain ⟨none,nofile⟩ := allEmpty empty
    have dirs : f.dirs.filter fun n => n ≠ dotDot = [] := by
      rw [empty,append_nil] at shape
      rw [filter_eq_nil_iff]
      intro n mem
      have inside : n ∈ replicate k dotDot := by
        rw [← shape]
        exact mem_append_left _ mem
      simp [eq_of_mem_replicate inside]
    rw [dirs,none,nofile,last]
    simp

theorem standardRooted (t) :
    removeDotDots (isAbsolute t) (cancelPairs (removeDots (segments t))) = (standardForm t).segments := by
  rw [cancelledSegments,standardForm]
  cases isAbsolute t with
  | false => rfl
  | true => exact rootedSegments (rootedRun _)

theorem standardNamed (named : f.Named) {e} (name : e = [] ∨ IsName e) : (f.standardStep e).Named := by
  unfold standardStep
  split
  · exact closeNamed named
  rename_i other
  split
  · rcases eq_nil_or_concat' f.all with empty | ⟨a,m,shape⟩
    · rw [cancelNothing empty]
      split
      · exact closeNamed named
      · exact pushNamed named dotDotName
    · by_cases up : m = dotDot
      · rw [up] at shape
        rw [cancelUp shape]
        exact pushNamed named dotDotName
      rw [cancelName shape up]
      intro n mem
      refine named n ?_
      rw [shape]
      exact mem_append_left _ (by simpa using mem)
  · exact pushNamed named (name.resolve_left fun empty => other (.inl empty))

theorem standardRunNamed {root} {es} (all : ∀ e ∈ es, e = [] ∨ IsName e) : (standardRun root es).Named := by
  have run : ∀ {es : List Text}, (∀ e ∈ es, e = [] ∨ IsName e) → ∀ {f : Form}, f.Named →
    (es.foldl standardStep f).Named := by
    intro es
    induction es with
    | nil => exact fun _ _ named => named
    | cons e _ ih =>
      exact fun all f named => ih (forall_mem_cons.mp all).2 (standardNamed named (all e mem_cons_self))
  exact run all (bareNamed root)

theorem segmentsText (f : Form) : f.segments.flatMap Segment.text = dirText f.dirs ++ f.file.getD [] := by
  cases file : f.file with
  | none => simp [file,dirText,flatMap_map,Segment.text,rootText]
  | some n => simp [file,dirText,flatMap_map,Segment.text,rootText]

theorem settleSegments (f : Form) : lastDotDot f.segments = f.settle.segments := by
  unfold settle lastDotDot
  obtain ⟨_,dirs,file⟩ := f
  cases file with
  | some n =>
    by_cases up : n = dotDot <;> simp [up]
  | none =>
    rcases eq_nil_or_concat' dirs with rfl | ⟨_,d,rfl⟩
    · simp
    · by_cases up : d = dotDot <;> simp [up]

theorem settleAll (f : Form) : f.settle.all = f.all := by
  unfold settle
  split
  · rename_i both
    obtain ⟨_,shape⟩ := getLast?_eq_some_iff.mp both.2
    simp [both.1,shape]
  · rfl

theorem settleRoot (f : Form) : f.settle.root = f.root := by
  unfold settle
  split <;> rfl

theorem settleNamed (named : f.Named) : f.settle.Named := by
  unfold Form.Named
  rw [settleAll]
  exact named

theorem bareIff (f) : f = bare false ↔ f.root = false ∧ f.all = [] := by
  constructor
  · rintro rfl
    exact ⟨rfl,rfl⟩
  rintro ⟨root,empty⟩
  obtain ⟨dirs,file⟩ := allEmpty empty
  obtain ⟨r,_,x⟩ := f
  cases root
  cases dirs
  cases file
  rfl

theorem standardFormRoot (t) : (standardForm t).root = isAbsolute t := runRoot _ _

theorem standardText {t : Text} (full : t ≠ []) : standardNormal t = (standardForm t).text := by
  have named : (standardForm t).Named := standardRunNamed (elementsNamed t)
  have value : rootText (isAbsolute t) ++ (standardSegments t).flatMap Segment.text =
    (standardForm t).settle.value := by
    rw [standardSegments,standardRooted,settleSegments,segmentsText,← standardFormRoot,← settleRoot]
    rfl
  have empty : (standardForm t).settle.value = [] ↔ standardForm t = bare false := by
    rw [valueEmpty (settleNamed named)]
    show (standardForm t).settle = bare false ↔ _
    rw [bareIff,bareIff,settleRoot,settleAll]
  unfold standardNormal Form.text
  rw [if_neg full]
  rw [value]
  by_cases none : standardForm t = bare false
  · rw [if_pos (empty.mpr none),if_pos none]
  · rw [if_neg fun same => none (empty.mp same),if_neg none]

end Irods.LogicalPath
