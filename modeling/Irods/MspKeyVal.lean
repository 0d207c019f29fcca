import Irods.CText

/-! The key-value strings of microservices in msParam.cpp: pairs key=value joined by ++++, without escaping. -/
namespace Irods.MspKeyVal
open CText List

def MS_INP_SEP_STR : Text := lit "++++"
def MS_NULL_STR : Text := lit "null"

/- A string parameter is its inOutStruct. -/
def parseMspForStr : Option Text → Option Text
  | none => none
  | some t => if t = MS_NULL_STR then none else some t

def addKeyValToMspStr (keyStr valStr msKeyValStr : Option Text) : Option Text :=
  let key := (parseMspForStr keyStr).getD []
  let val := (parseMspForStr valStr).getD []
  if key = [] ∧ val = [] then msKeyValStr
  else
    let old := (parseMspForStr msKeyValStr).getD []
    some ((if old = [] then [] else old ++ MS_INP_SEP_STR) ++ (if key = [] then [] else key ++ ['=']) ++ val)

/- The text up to tmpEndPtr, and what is behind the separator. -/
def nextItem (cur : Text) : Text × Text :=
  match strstr cur MS_INP_SEP_STR with
  | some i => (cur.take i,cur.drop (i+MS_INP_SEP_STR.length))
  | none => (cur,[])

/- The text from curPtr up to endPtr, empty once curPtr has passed it. None is NO_MORE_RESULT. -/
def getNextKeyValFromMsKeyValStr (cur : Text) : Option ((Option Text × Text) × Text) :=
  let item := (nextItem cur).1
  if cur = [] ∨ item = MS_NULL_STR then none
  else match strstr item ['='] with
    | some j => some ((some (item.take j),if j+1 = item.length then [] else item.drop (j+1)),(nextItem cur).2)
    | none => some ((none,item),(nextItem cur).2)

inductive Yields : Text → List (Option Text × Text) → Prop where
  | done {cur} (last : getNextKeyValFromMsKeyValStr cur = none) : Yields cur []
  | next {cur pair rest pairs} (read : getNextKeyValFromMsKeyValStr cur = some (pair,rest))
      (behind : Yields rest pairs) :
    Yields cur (pair::pairs)

structure Valid (p : Text × Text) : Prop where
  named : p.1 ≠ []
  key : '=' ∉ p.1 ∧ '+' ∉ p.1
  value : ¬MS_INP_SEP_STR <:+: p.2
  null : p.1 ≠ MS_NULL_STR ∧ p.2 ≠ MS_NULL_STR

/- initParsedMsKeyValStr refuses NULL: nothing is read from a parameter that holds no string. -/
def built (pairs : List (Text × Text)) (start : Option Text) : Option Text :=
  pairs.foldl (fun s p => addKeyValToMspStr (some p.1) (some p.2) s) start

def item (p : Text × Text) : Text := p.1 ++ '='::p.2
def tail (pairs : List (Text × Text)) : Text := pairs.flatMap fun p => MS_INP_SEP_STR ++ item p

theorem itemOther (p s) {t} (plain : '=' ∉ t) : item p ++ s ≠ t := by
  rintro rfl
  simp [item] at plain

theorem parseOther {t} (other : t ≠ MS_NULL_STR) : parseMspForStr (some t) = some t := if_neg other

theorem addValid {p} (valid : Valid p) (s) : addKeyValToMspStr (some p.1) (some p.2) s =
    some ((if (parseMspForStr s).getD [] = [] then [] else (parseMspForStr s).getD [] ++ MS_INP_SEP_STR) ++
      item p) := by
  simp [addKeyValToMspStr,parseOther valid.null.1,parseOther valid.null.2,valid.named,item]

theorem builtOnto {pairs} (valid : ∀ p ∈ pairs, Valid p) (p t) :
    built pairs (some (item p ++ t)) = some (item p ++ t ++ tail pairs) := by
  induction pairs generalizing t with
  | nil => simp [built,tail]
  | cons q pairs ih =>
    have old := parseOther (itemOther p t (by decide))
    have first := addValid (valid q mem_cons_self) (some (item p ++ t))
    have last := ih (fun p mem => valid p (mem_cons_of_mem _ mem)) (t ++ MS_INP_SEP_STR ++ item q)
    rw [old,Option.getD_some,if_neg (itemOther p t not_mem_nil)] at first
    rw [built,foldl_cons,first]
    simpa [tail,built] using last

theorem builtText {p pairs start} (valid : ∀ q ∈ p::pairs, Valid q) (empty : start = none ∨ start = some []) :
    built (p::pairs) start = some (item p ++ tail pairs) := by
  have nothing : (parseMspForStr start).getD [] = [] := by rcases empty with rfl | rfl <;> rfl
  have first := addValid (valid p mem_cons_self) start
  rw [if_pos nothing,nil_append] at first
  rw [built,foldl_cons,first]
  simpa [built] using builtOnto (fun q mem => valid q (mem_cons_of_mem _ mem)) p []

theorem itemBehind {front} (free : '+' ∉ front) (t) :
    nextItem (front ++ t) = (front ++ (nextItem t).1,(nextItem t).2) := by
  have found := strstrBehind free t (lit "+++")
  unfold nextItem
  rw [show MS_INP_SEP_STR = '+'::lit "+++" from rfl,found]
  cases strstr t ('+'::lit "+++") with
  | none => rfl
  | some i => simp [Nat.add_comm i,take_append,drop_append,Nat.add_assoc,take_of_length_le]

theorem nextReads {k} (key : '=' ∉ k ∧ '+' ∉ k) (t) :
    getNextKeyValFromMsKeyValStr (k ++ '='::t) = some ((some k,(nextItem t).1),(nextItem t).2) := by
  have front : '+' ∉ k ++ ['='] := by simp [key.2]
  have cut := itemBehind front t
  have equal := strstrBehind key.1 ('='::(nextItem t).1) []
  have other := itemOther (k,(nextItem t).1) [] (show '=' ∉ MS_NULL_STR by decide)
  rw [append_assoc,append_assoc,singleton_append,singleton_append] at cut
  rw [item,append_nil] at other
  unfold getNextKeyValFromMsKeyValStr
  simp only [cut,equal]
  rw [if_neg (by simpa using other)]
  have here : strstr ('='::(nextItem t).1) ['='] = some 0 := rfl
  simp [here]

theorem itemWhole {v} (value : ¬MS_INP_SEP_STR <:+: v) : nextItem v = (v,[]) := by
  unfold nextItem
  have none := mt strstrSome.mp value
  simp only [Bool.not_eq_true,Option.isSome_eq_false_iff,Option.isNone_iff_eq_none] at none
  rw [none]

theorem itemCut {v} (value : ¬MS_INP_SEP_STR <:+: v) (quiet : v.getLast? ≠ some '+') (t) :
    nextItem (v ++ (MS_INP_SEP_STR ++ t)) = (v,t) := by
  have found : strstr (v ++ (MS_INP_SEP_STR ++ t)) MS_INP_SEP_STR = some v.length := by
    refine strstrFirst.mpr ⟨by simp,by simp,fun j before start => ?_⟩
    rw [drop_append_of_le_length (Nat.le_of_lt before)] at start
    rcases prefix_or_prefix_of_prefix start (prefix_append _ _) with whole | part
    · exact value (whole.isInfix.trans (drop_suffix j v).isInfix)
    · have plus : ∀ c ∈ MS_INP_SEP_STR, c = '+' := fun c mem => eq_of_mem_replicate (show c ∈ replicate 4 '+' from mem)
      have nonempty : v.drop j ≠ [] := by simpa using before
      have last : (v.drop j).getLast? = v.getLast? := by rw [getLast?_drop,if_neg (Nat.not_le.mpr before)]
      rw [← last,getLast?_eq_some_getLast nonempty] at quiet
      exact quiet (congrArg some (plus _ (part.subset (getLast_mem nonempty))))
  simp [nextItem,found]

theorem itemEnds {v t} (read : (nextItem (v ++ (MS_INP_SEP_STR ++ t))).1 = v) :
    (nextItem (v ++ (MS_INP_SEP_STR ++ t))).2 = t ∧ v.getLast? ≠ some '+' := by
  unfold nextItem at read ⊢
  split at read
  · rename_i i found
    have size := congrArg length read
    have four : MS_INP_SEP_STR.length = 4 := rfl
    simp only [length_take,length_append,four] at size
    obtain rfl : i = v.length := by omega
    refine ⟨by simp,fun last => ?_⟩
    obtain ⟨front,rfl⟩ := getLast?_eq_some_iff.mp last
    refine (strstrFirst.mp found).2.2 front.length (by simp) ?_
    simp [MS_INP_SEP_STR,lit]
  · exact absurd (congrArg length read) (by simp [MS_INP_SEP_STR,lit])

theorem yieldsExactly {p pairs} (valid : ∀ q ∈ p::pairs, Valid q) :
    Yields (item p ++ tail pairs) ((p::pairs).map fun p => (some p.1,p.2)) ↔
      ∀ q ∈ (p::pairs).dropLast, q.2.getLast? ≠ some '+' := by
  have head := valid p mem_cons_self
  induction pairs generalizing p with
  | nil =>
    have read := nextReads head.key p.2
    rw [itemWhole head.value] at read
    refine iff_of_true ?_ nofun
    rw [tail,flatMap_nil,append_nil]
    exact .next read (.done rfl)
  | cons q pairs ih =>
    have behind := ih (fun r mem => valid r (mem_cons_of_mem _ mem)) (valid q (by simp))
    have shape : item p ++ tail (q::pairs) = p.1 ++ '='::(p.2 ++ (MS_INP_SEP_STR ++ (item q ++ tail pairs))) := by
      simp [item,tail]
    have read := nextReads head.key (p.2 ++ (MS_INP_SEP_STR ++ (item q ++ tail pairs)))
    rw [shape,dropLast_cons_cons,forall_mem_cons]
    constructor
    · rintro (_ | ⟨here,later⟩)
      obtain ⟨same,rest⟩ := Prod.mk.inj (Option.some.inj (read.symm.trans here))
      obtain ⟨found,quiet⟩ := itemEnds (Prod.mk.inj same).2
      rw [← rest,found] at later
      exact ⟨quiet,behind.mp later⟩
    · rintro ⟨quiet,later⟩
      rw [itemCut head.value quiet] at read
      exact .next read (behind.mpr later)

theorem pairsReadExactly {pairs start} (valid : ∀ p ∈ pairs, Valid p) (empty : start = none ∨ start = some []) :
    Yields ((built pairs start).getD []) (pairs.map fun p => (some p.1,p.2)) ↔
      ∀ p ∈ pairs.dropLast, p.2.getLast? ≠ some '+' := by
  cases pairs with
  | nil =>
    have nothing : (built [] start).getD [] = [] := by rcases empty with rfl | rfl <;> rfl
    rw [nothing]
    exact iff_of_true (.done rfl) nofun
  | cons p pairs =>
    rw [builtText valid empty]
    exact yieldsExactly valid

theorem plusAtEndRead : Yields ((built [(lit "a",lit "b"),(lit "c",lit "d+")] none).getD [])
    [(some (lit "a"),lit "b"),(some (lit "c"),lit "d+")] := by
  refine (@pairsReadExactly [(lit "a",lit "b"),(lit "c",lit "d+")] none ?_ (.inl rfl)).mpr (by decide)
  rintro p (_ | ⟨_,_ | ⟨_,⟨⟩⟩⟩) <;> exact ⟨by decide,by decide,by decide,by decide⟩

theorem plusBeforeSeparator : Valid (lit "a",lit "x+") ∧ Valid (lit "b",lit "y") ∧
    Yields ((built [(lit "a",lit "x+"),(lit "b",lit "y")] none).getD []) [(some (lit "a"),lit "x"),
      (some (lit "+b"),lit "y")] :=
  ⟨⟨by decide,by decide,by decide,by decide⟩,⟨by decide,by decide,by decide,by decide⟩,
    .next rfl (.next rfl (.done rfl))⟩

end Irods.MspKeyVal
