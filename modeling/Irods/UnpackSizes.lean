import Irods.PackPointerArrays
import Irods.PackShape

/-! The sizes unpackPointerItem asks the allocator for. Counts are multiplied as ints. -/
namespace Irods.PackSizes
open CText PackStruct List Int Nat PackMessage

def SUB_STRUCT_ALLOC_SZ : Nat := 1024
def PTR_ARRAY_MALLOC_LEN : Nat := 10
def sizeofPointer : Nat := 8

def int32 (z : Int) : Int := z.bmod (2^32)

-- What a negative int is as a std::size_t.
def sizeT (z : Int) : Int := z % 2^64

-- A counted pointer field after its names were resolved.
structure Field where
  typeInx : PackType
  dimSize : List Nat
  hintDimSize : List Nat
  resolved : typeInx ≠ .PACK_DEPENDENT_TYPE ∧ typeInx ≠ .PACK_INT_DEPENDENT_TYPE
  ints : ∀ n ∈ dimSize ++ hintDimSize, n < 2^31

/-! The counts of a field are ints: digits in its name, an int read before it, or a constant. -/
theorem atoiSmall (a) : atoi a < 2^31 := by
  have range := bmod_lt (x := atoll a) (m := 2^32) (by decide)
  unfold atoi
  omega

theorem constantsSmall : ∀ e ∈ PackConstantTable, e.2 < 2^31 := by decide

theorem lookupSmall (name) : (PackConstantTable.lookup name).getD SYS_PACK_INSTRUCT_FORMAT_ERR < 2^31 := by
  cases found : PackConstantTable.lookup name with
  | none => decide
  | some v =>
    obtain ⟨_,_,same,-⟩ := lookup_eq_some_iff.mp found
    exact constantsSmall (name,v) (same ▸ mem_append_right _ mem_cons_self)

def IntsKept (c : Chain) : Prop := ∀ i ∈ c.prevs ++ c.outer, i.intValue < 2^31

theorem itemsKept {c} (kept : IntsKept c) {i} (mem : i ∈ c.items) : i.intValue < 2^31 := by
  unfold Chain.items at mem
  split at mem
  · cases mem
  · exact kept i mem

theorem nameSmall {c} (kept : IntsKept c) (name) : resolveIntInItem name c < 2^31 := by
  unfold resolveIntInItem
  split
  · exact atoiSmall name
  split
  · rename_i found
    exact itemsKept kept (mem_of_find?_eq_some found)
  · exact lookupSmall name

theorem dimSmall {c} (kept : IntsKept c) {n : Nat} {buffer} (resolved : resolveDim c buffer = .ok n) : n < 2^31 := by
  have bound := nameSmall kept buffer
  unfold resolveDim at resolved
  split at resolved
  · cases resolved
  · cases resolved
    omega

theorem dimsSmall {c} (kept : IntsKept c) {d d' openSymbol buffer name}
    (small : ∀ n ∈ d.dimSize ++ d.hintDimSize, n < 2^31) (read : dimLoop c d openSymbol buffer name = .ok d') :
    ∀ n ∈ d'.dimSize ++ d'.hintDimSize, n < 2^31 := by
  induction name generalizing d openSymbol buffer with
  | nil => cases read; exact small
  | cons _ _ ih =>
    unfold dimLoop at read
    split at read
    · split at read
      · cases read
      · exact ih small read
    split at read
    · split at read
      · cases read
      split at read
      · cases read
      rename_i resolved
      refine ih ?_ read
      simp only [mem_append,mem_singleton,or_imp,forall_and,forall_eq] at small ⊢
      exact ⟨⟨small.1,dimSmall kept resolved⟩,small.2⟩
    · split at read
      · split at read
        · cases read
        split at read
        · cases read
        rename_i resolved
        refine ih ?_ read
        simp only [mem_append,mem_singleton,or_imp,forall_and,forall_eq] at small ⊢
        exact ⟨small.1,small.2,dimSmall kept resolved⟩
      · exact ih small read

theorem resolvedSmall {item r c b d} (kept : IntsKept c)
    (resolved : resolvePackedItem item c b = .ok (r,d)) : ∀ n ∈ d.dimSize ++ d.hintDimSize, n < 2^31 := by
  obtain ⟨i,-,dims,-⟩ := resolvedFrom resolved
  exact dimsSmall kept (fun _ mem => absurd mem not_mem_nil) dims

def fieldOf {item r : PackItem} {c : Chain} {b : Bool} {d : Dims} (kept : IntsKept c)
    (resolved : resolvePackedItem item c b = .ok (r,d))
    (known : r.typeInx ≠ .PACK_DEPENDENT_TYPE ∧ r.typeInx ≠ .PACK_INT_DEPENDENT_TYPE) :
    Field := ⟨r.typeInx,d.dimSize,d.hintDimSize,known,resolvedSmall kept resolved⟩

theorem noneSmall : ([] : List Int).headD 0 < 2^31 := by decide

theorem xmlHeadSmall (name rest n) : (unpackXmlNumbers atoi name n rest).2.1.headD 0 < 2^31 := by
  cases n with
  | zero => exact noneSmall
  | succ n =>
    unfold unpackXmlNumbers
    split
    · exact noneSmall
    split
    · exact noneSmall
    · exact atoiSmall _

theorem natHeadSmall {rest rest' n stored} (read : unpackNatNumbers 4 n rest = some (stored,rest')) :
    stored.headD 0 < 2^31 := by
  cases n with
  | zero => cases read; exact noneSmall
  | succ n =>
    rw [unpackNatNumbers] at read
    split at read
    · cases read
    obtain ⟨_,-,same⟩ := Option.map_eq_some_iff.mp read
    cases same
    rw [headD_cons]
    generalize bigEndian (rest.take 4) = v
    have range := bmod_lt (x := v) (m := 256^4) (by decide)
    exact lt_of_lt_of_le range (by decide)

theorem readSmall {ctx name rest rest' n stored failed}
    (read : unpackNumbers ctx .PACK_INT_TYPE name n rest = .ok (rest',stored,failed)) :
    intStatus .PACK_INT_TYPE stored failed < 2^31 := by
  unfold unpackNumbers at read
  split at read
  · have ended := xmlNumbersEnd atoi name n rest
    have head := xmlHeadSmall name rest n
    have same : unpackXmlNumbers atoi name n rest = (rest',stored,failed) := Except.ok.inj read
    rw [same] at ended head
    rcases ended with ⟨e,rfl,_⟩ | ⟨rfl,-⟩
    · show max 0 e < 2^31
      omega
    · show max 0 (stored.headD 0) < 2^31
      dsimp only at head
      omega
  · split at read
    · cases read
    rename_i found
    cases read
    have head := natHeadSmall found
    show max 0 (stored.headD 0) < 2^31
    omega

/-! Where the reader can be: the items still to come, and those before and around them. -/
inductive Met (ctx : Context) : List PackItem → Chain → Prop
  | root {name packInstruct items} : ctx.matchPackInstruct name = some packInstruct →
      parsePackInstruct packInstruct = .ok items → Met ctx items ((⟨[],[]⟩ : Chain).inside (rootItem name))
  | next {item items c child cur v done cur'} : Met ctx (item::items) c →
      unpackItem ctx child c item cur = .ok (v,done,cur') → Met ctx items ((c.kept item).push done)
  | inner {item items c r d packInstruct below} : Met ctx (item::items) c → resolvePackedItem item c true = .ok (r,d) →
      ctx.matchPackInstruct r.name = some packInstruct → parsePackInstruct packInstruct = .ok below →
      Met ctx below ((c.kept item).inside r)

theorem resolvedUnset {item r c b d} (unset : item.intValue = 0)
    (resolved : resolvePackedItem item c b = .ok (r,d)) : r.intValue = 0 := by
  have dependent : ∀ {i : PackItem}, iparseDependent item c = .ok i → i.intValue = 0 := by
    intro i parsed
    unfold iparseDependent at parsed
    split at parsed
    · unfold resolveStrInItem at parsed
      split at parsed
      · cases parsed
      · cases parsed
        exact unset
    · unfold resolveIntDepItem at parsed
      dsimp only at parsed
      split at parsed
      · cases parsed
      split at parsed
      · cases parsed
      split at parsed
      · cases parsed
      rename_i items statements
      cases parsed
      cases items with
      | nil => rfl
      | cons first _ => exact (parsedFresh statements first mem_cons_self).1
    · cases parsed
      exact unset
  obtain ⟨i,parsed,-,name,rfl⟩ := resolvedFrom resolved
  have known := dependent parsed
  exact known

theorem numbersSmall {ctx r n cur v done cur'} (numeric : Numeric r.typeInx) (small : r.intValue < 2^31)
    (read : unpackInlineNumbers ctx r n cur = .ok (v,done,cur')) : done.intValue < 2^31 := by
  unfold unpackInlineNumbers at read
  split at read
  · cases read
    exact small
  split at read
  · cases read
  rename_i stored failed numbers
  cases read
  dsimp only
  split
  · exact small
  rename_i single
  rcases numeric with int | short | double
  · rw [int] at numbers ⊢
    exact readSmall numbers
  · rw [short]
    have range := bmod_lt (x := failed.getD (stored.headD 0)) (m := 2^16) (by decide)
    show max 0 ((failed.getD (stored.headD 0)).bmod (2^16)) < 2^31
    omega
  · exact absurd double single

theorem charKept {ctx r n cur v done cur'} (read : PackMessage.unpackChar ctx r n cur = .ok (v,done,cur')) :
    done = r := by
  unfold PackMessage.unpackChar at read
  split at read
  · cases read
    rfl
  split at read
  · cases read
  · cases read
    rfl

theorem stringsKept {ctx r d cur v done cur'} (read : unpackInlineStrings ctx r d cur = .ok (v,done,cur')) :
    done.intValue = r.intValue := by
  unfold unpackInlineStrings at read
  split at read
  · cases read
  split at read
  · cases read
  · cases read
    rfl

theorem inlineSmall {ctx child c r d cur v done cur'} (small : r.intValue < 2^31)
    (read : unpackNonpointerItem ctx child c r d cur = .ok (v,done,cur')) : done.intValue < 2^31 := by
  unfold unpackNonpointerItem at read
  split at read
  case h_1 | h_2 => exact charKept read ▸ small
  case h_3 | h_4 => exact stringsKept read ▸ small
  case h_5 int => exact numbersSmall (.inl int) small read
  case h_6 short => exact numbersSmall (.inr (.inl short)) small read
  case h_7 double => exact numbersSmall (.inr (.inr double)) small read
  case h_8 =>
    split at read
    · cases read
    · cases read
      exact small
  case h_9 | h_10 => cases read

theorem pointerSmall {ctx child c r d cur v done cur'} (small : r.intValue < 2^31)
    (read : PackMessage.unpackPointerItem ctx child c r d cur = .ok (v,done,cur')) : done.intValue < 2^31 := by
  unfold PackMessage.unpackPointerItem at read
  split at read
  · cases read
    exact small
  split at read
  · split at read
    · cases read
    · cases read
      exact small
  · split at read
    · cases read
    · cases read
      exact small

theorem doneSmall {ctx child c item cur v done cur'} (unset : item.intValue = 0)
    (read : unpackItem ctx child c item cur = .ok (v,done,cur')) : done.intValue < 2^31 := by
  unfold unpackItem at read
  split at read
  · cases read
  rename_i r d resolved
  have small : r.intValue < 2^31 := by
    rw [resolvedUnset unset resolved]
    decide
  split at read
  · exact inlineSmall small read
  · exact pointerSmall small read

theorem keptPart {c} (kept : IntsKept c) (item) : IntsKept (c.kept item) := by
  unfold Chain.kept
  split
  · exact fun _ mem => absurd mem not_mem_nil
  · exact kept

theorem metKept {ctx items c} (met : Met ctx items c) : IntsKept c ∧ ∀ i ∈ items, i.intValue = 0 := by
  induction met with
  | root _ parsed =>
    refine ⟨?_,fun i mem => (parsedFresh parsed i mem).1⟩
    intro i mem
    cases mem_singleton.mp mem
    exact (by decide : (0 : Int) < 2^31)
  | next _ read ih =>
    obtain ⟨kept,unset⟩ := ih
    refine ⟨?_,fun i mem => unset i (mem_cons_of_mem _ mem)⟩
    intro i mem
    rcases mem_cons.mp mem with rfl | before
    · exact doneSmall (unset _ mem_cons_self) read
    · exact keptPart kept _ i before
  | inner _ resolved _ parsed ih =>
    obtain ⟨kept,unset⟩ := ih
    refine ⟨?_,fun i mem => (parsedFresh parsed i mem).1⟩
    intro i mem
    rcases mem_cons.mp mem with rfl | around
    · rw [resolvedUnset (unset _ mem_cons_self) resolved]
      decide
    · exact keptPart kept _ i around

-- getNumElement and getNumHintElement.
def getNum (sizes : List Nat) : Int := sizes.foldl (fun (n : Int) (size : Nat) => int32 (n*size)) 1

def elementSz : PackType → Nat
  | .PACK_INT_TYPE => 4
  | .PACK_DOUBLE_TYPE => 8
  | .PACK_INT16_TYPE => 2
  | _ => 1

def isNumber : PackType → Bool
  | .PACK_INT_TYPE | .PACK_DOUBLE_TYPE | .PACK_INT16_TYPE => true
  | _ => false

def isString : PackType → Bool
  | .PACK_STR_TYPE | .PACK_PI_STR_TYPE => true
  | _ => false

-- Bytes for one element, strings apart, and for one entry of the array of pointers.
def unit (typeInx : PackType) : Nat := if typeInx = .PACK_STRUCT_TYPE then SUB_STRUCT_ALLOC_SZ else elementSz typeInx
def entry (typeInx : PackType) : Nat := if isNumber typeInx then elementSz typeInx else sizeofPointer

def allocLen (numPointer : Int) : Int :=
  if numPointer % PTR_ARRAY_MALLOC_LEN = 0 then numPointer
  else int32 (numPointer+PTR_ARRAY_MALLOC_LEN-numPointer % PTR_ARRAY_MALLOC_LEN)

-- getNumStrAndStrLen and getAllocLenForStr; strLen is that of the message from here.
def strAllocLen (hints : List Nat) (strLen : Nat) : Int :=
  match hints.getLast? with
  | none => int32 (strLen+1)
  | some maxStrLen =>
    let numStr := getNum hints / maxStrLen
    if numStr ≤ 1 then maxStrLen else int32 (numStr*maxStrLen)

structure Request where
  pointers : Option Int
  target : Int
  deriving DecidableEq, Repr

/- For each pointer of an array and for structs malloc is called with the int itself, else
addPointerToPackedOut, which leaves out what is not positive. -/
def target (f : Field) (strLen : Nat) : Int :=
  if isString f.typeInx then strAllocLen f.hintDimSize strLen
  else
    let len := int32 (getNum f.hintDimSize*unit f.typeInx)
    if f.dimSize ≠ [] ∨ f.typeInx = .PACK_STRUCT_TYPE then sizeT len else len

-- Nothing for a pointer taken for NULL.
def unpackPointerItem (f : Field) (strLen : Nat) : Option Request :=
  if getNum f.hintDimSize ≤ 0 ∨ (f.dimSize ≠ [] ∧ getNum f.dimSize ≤ 0) then none
  else some ⟨if f.dimSize = [] then none else some (int32 (allocLen (getNum f.dimSize)*entry f.typeInx)),
    target f strLen⟩

def rounded (n : Nat) : Nat := (n+9)/10*10

def wantedTarget (f : Field) (strLen : Nat) : Nat :=
  if isString f.typeInx then (if f.hintDimSize = [] then strLen+1 else f.hintDimSize.prod)
  else f.hintDimSize.prod*unit f.typeInx

def wantedPointers (f : Field) : Nat := rounded f.dimSize.prod*entry f.typeInx
def Nothing (f : Field) : Prop := f.hintDimSize.prod = 0 ∨ (f.dimSize ≠ [] ∧ f.dimSize.prod = 0)

def SizesRight (f : Field) (strLen : Nat) : Prop :=
  match unpackPointerItem f strLen with
  | none => Nothing f
  | some r => r.target = wantedTarget f strLen ∧
      r.pointers = if f.dimSize = [] then none else some (wantedPointers f : Int)

theorem int32Mul (a b) : int32 (int32 a*b) = int32 (a*b) := bmod_mul_bmod

theorem getNumProd (sizes) : getNum sizes = int32 sizes.prod := by
  have fold : ∀ (l : List Nat) n, l.foldl (fun n (size : Nat) => int32 (n*size)) (int32 n) = int32 (n*l.prod) := by
    intro l
    induction l with
    | nil => intro n; simp
    | cons a l ih =>
      intro n
      rw [foldl_cons,int32Mul,ih,prod_cons]
      push_cast
      rw [mul_assoc]
  have start := fold sizes 1
  rwa [one_mul] at start

theorem int32Def (z) : int32 z = (z+2147483648) % 4294967296-2147483648 := by
  unfold int32
  rw [bmod_def]
  split <;> omega

theorem int32Small {n : Nat} (bound : n < 2^31) : int32 n = n := by
  rw [int32Def]
  omega

theorem unitSome (typeInx) : unit typeInx = 1 ∨ unit typeInx = 2 ∨ unit typeInx = 4 ∨ unit typeInx = 8 ∨
    unit typeInx = 1024 := by
  cases typeInx <;> decide

theorem entrySome (typeInx) : entry typeInx = 2 ∨ entry typeInx = 4 ∨ entry typeInx = 8 := by cases typeInx <;> decide

theorem targetExactly {typeInx} {p : Nat} (positive : 0 < int32 p) (direct) [Decidable direct] :
    (if direct then sizeT (int32 (int32 p*unit typeInx)) else int32 (int32 p*unit typeInx)) = (p*unit typeInx : Nat) ↔
      p*unit typeInx < 2^31 := by
  rw [int32Def] at positive
  rw [int32Mul,int32Def]
  unfold sizeT
  rcases unitSome typeInx with size | size | size | size | size <;> rw [size] <;> split <;> push_cast <;> omega

theorem lastDivides {hints : List Nat} {last} (found : hints.getLast? = some last) : last ∣ hints.prod := by
  obtain ⟨front,rfl⟩ := List.getLast?_eq_some_iff.mp found
  rw [prod_append,prod_singleton]
  exact ⟨front.prod,mul_comm ..⟩

theorem strExactly {hints} (ints : ∀ n ∈ hints, n < 2^31) (positive : 0 < getNum hints) (strLen) :
    strAllocLen hints strLen = ((if hints = [] then strLen+1 else hints.prod : Nat) : Int) ↔
      (if hints = [] then strLen+1 else hints.prod) < 2^31 := by
  unfold strAllocLen
  cases found : hints.getLast? with
  | none =>
    have none := List.getLast?_eq_none_iff.mp found
    simp only [none]
    have range := int32Def (strLen+1)
    constructor
    · omega
    · intro bound
      exact int32Small bound
  | some last =>
    have there : hints ≠ [] := by rintro rfl; cases found
    have small := ints last (mem_of_getLast? found)
    obtain ⟨k,product⟩ := lastDivides found
    rw [if_neg there]
    dsimp only
    rw [getNumProd] at positive ⊢
    have some : hints.prod ≠ 0 := by
      intro none
      rw [none] at positive
      exact absurd positive (by decide)
    have lastSome : 0 < last := Nat.pos_of_ne_zero fun none => some (by rw [product,none,Nat.zero_mul])
    have nonzero : k ≠ 0 := fun none => some (by rw [product,none,Nat.mul_zero])
    constructor
    · intro same
      split at same
      · omega
      · have range := int32Def (int32 (hints.prod : Int)/last*last)
        omega
    · intro bound
      have strings : int32 (hints.prod : Int)/last = k := by
        rw [int32Small bound,product,← natCast_ediv,Nat.mul_div_cancel_left _ lastSome]
      rw [strings]
      split
      · have one : k = 1 := by omega
        rw [product,one,Nat.mul_one]
      · have back : (k : Int)*last = (hints.prod : Nat) := by rw [product,Nat.mul_comm,natCast_mul]
        rw [back,int32Small bound]

theorem roundedSpec (n) : ∃ k, rounded n = 10*k ∧ n ≤ rounded n ∧ rounded n < n+10 :=
  ⟨(n+9)/10,by unfold rounded; omega⟩

theorem pointersExactly {typeInx} {n : Nat} (positive : 0 < int32 n) :
    int32 (allocLen (int32 n)*entry typeInx) = (rounded n*entry typeInx : Nat) ↔ rounded n*entry typeInx < 2^31 := by
  obtain ⟨k,_,_,_⟩ := roundedSpec n
  have least : 2 ≤ entry typeInx := by rcases entrySome typeInx with size | size | _ <;> omega
  constructor
  · have bound := int32Def (allocLen (int32 n)*entry typeInx)
    omega
  intro bound
  have twice := mul_le_mul_left (rounded n) least
  have small : int32 n = n := int32Small (by omega)
  have length : allocLen (int32 n) = rounded n := by
    unfold allocLen PTR_ARRAY_MALLOC_LEN
    split
    · omega
    · rw [int32Def]
      omega
  rw [length,← natCast_mul,int32Small bound]

def Fits (f : Field) (strLen : Nat) : Prop := wantedTarget f strLen < 2^31 ∧ (f.dimSize ≠ [] → wantedPointers f < 2^31)

theorem unitPositive (typeInx) : 1 ≤ unit typeInx := by cases typeInx <;> decide

theorem notPositive {n : Nat} (none : int32 n ≤ 0) : n = 0 ∨ 2^31 ≤ n := by
  rw [int32Def] at none
  omega

theorem nullFits {f} {strLen} (null : getNum f.hintDimSize ≤ 0 ∨ (f.dimSize ≠ [] ∧ getNum f.dimSize ≤ 0))
    (fits : Fits f strLen) : Nothing f := by
  obtain ⟨target,pointers⟩ := fits
  rw [getNumProd,getNumProd] at null
  rcases null with hints | ⟨dims,count⟩
  · rcases notPositive hints with none | large
    · exact .inl none
    have some : f.hintDimSize ≠ [] := by
      intro none
      rw [none] at large
      exact absurd large (by decide)
    have least := mul_le_mul_left f.hintDimSize.prod (unitPositive f.typeInx)
    unfold wantedTarget at target
    split at target <;> omega
  · rcases notPositive count with none | _
    · exact .inr ⟨dims,none⟩
    obtain ⟨k,-,_,-⟩ := roundedSpec f.dimSize.prod
    have bound := pointers dims
    have least : 1 ≤ entry f.typeInx := by rcases entrySome f.typeInx with size | size | _ <;> omega
    have product := mul_le_mul_left (rounded f.dimSize.prod) least
    unfold wantedPointers at bound
    omega

theorem targetRight {f} (hinted : 0 < getNum f.hintDimSize) (strLen) :
    target f strLen = wantedTarget f strLen ↔ wantedTarget f strLen < 2^31 := by
  unfold target wantedTarget
  split
  · exact strExactly (fun n mem => f.ints n (mem_append_right _ mem)) hinted strLen
  · rw [getNumProd] at hinted ⊢
    exact targetExactly hinted _

theorem pointersRight {f} (pointed : f.dimSize ≠ [] → 0 < getNum f.dimSize) :
    ((if f.dimSize = [] then none else some (int32 (allocLen (getNum f.dimSize)*entry f.typeInx))) =
      if f.dimSize = [] then none else some (wantedPointers f : Int)) ↔ (f.dimSize ≠ [] → wantedPointers f < 2^31) := by
  by_cases single : f.dimSize = []
  · simp [single]
  have positive := pointed single
  rw [getNumProd] at positive ⊢
  rw [if_neg single,if_neg single,Option.some.injEq]
  exact (pointersExactly positive).trans ⟨fun bound _ => bound,fun bound => bound single⟩

theorem sizesRightExactly (f : Field) (strLen : Nat) : SizesRight f strLen ↔ Nothing f ∨ Fits f strLen := by
  unfold SizesRight unpackPointerItem
  by_cases null : getNum f.hintDimSize ≤ 0 ∨ (f.dimSize ≠ [] ∧ getNum f.dimSize ≤ 0)
  · rw [if_pos null]
    exact ⟨.inl,fun either => either.elim id (nullFits null)⟩
  rw [if_neg null]
  have hinted : 0 < getNum f.hintDimSize := by omega
  have pointed : f.dimSize ≠ [] → 0 < getNum f.dimSize := by
    intro dims
    by_contra none
    exact null (.inr ⟨dims,by omega⟩)
  have some : ¬ Nothing f := by
    rintro (none | ⟨dims,none⟩)
    · rw [getNumProd,none] at hinted
      exact absurd hinted (by decide)
    · have positive := pointed dims
      rw [getNumProd,none] at positive
      exact absurd positive (by decide)
  dsimp only
  rw [targetRight hinted strLen,pointersRight pointed]
  exact ⟨.inr,fun right => right.resolve_left some⟩

/-! What the reader stores behind a pointer has room in what is asked for, where the sizes fit. In XML
a base64 value and an escaped string may be written past their room. -/
def strlen (rest : Text) : Nat := (rest.takeWhile (· != nul)).length

-- Each string has a slot of the last dimension's size. Structs are not measured.
def Inside (f : Field) (room : Int) : Value → Prop
  | .ints stored => (stored.length*elementSz f.typeInx : Nat) ≤ room
  | .bytes stored => stored.length ≤ room
  | .strs stored => ∀ i s, stored[i]? = some s → (i*f.hintDimSize.getLast?.getD 0+s.length+1 : Nat) ≤ room
  | _ => True

theorem requestedTarget {f strLen} (fits : Fits f strLen) (something : ¬ Nothing f) :
    ∃ q, unpackPointerItem f strLen = some q ∧ q.target = wantedTarget f strLen := by
  have counted : ¬ (getNum f.hintDimSize ≤ 0 ∨ (f.dimSize ≠ [] ∧ getNum f.dimSize ≤ 0)) :=
    fun null => something (nullFits null fits)
  unfold unpackPointerItem
  rw [if_neg counted]
  exact ⟨_,rfl,(targetRight (by omega) strLen).mpr fits.1⟩

theorem numberTargetCount {ctx r d cur v cur'} (native : ctx.prot = .NATIVE_PROT)
    (read : unpackNumberTarget ctx r d cur = .ok (v,cur')) : ∃ stored, v = .ints stored ∧
    stored.length ≤ d.numHintElement := by
  unfold unpackNumberTarget at read
  split at read
  · split at read
    · cases read
    rename_i numbers
    cases read
    unfold unpackNumbers at numbers
    rw [native] at numbers
    dsimp only at numbers
    split at numbers
    · cases numbers
    rename_i found
    cases numbers
    exact ⟨_,rfl,(natNumbersCount found).le⟩
  · split at read
    · cases read
    split at read
    · cases read
    rename_i within
    dsimp only at read
    split at read
    · cases read
    · cases read
      exact ⟨_,rfl,not_lt.mp within⟩

theorem charTargetCount {ctx r d cur v cur'} (native : ctx.prot = .NATIVE_PROT)
    (read : unpackCharTarget ctx r d cur = .ok (v,cur')) :
    v = .unpacked ∨ ∃ stored, v = .bytes stored ∧ stored.length ≤ d.numHintElement := by
  unfold unpackCharTarget unpackCharToOutPtr at read
  rw [native] at read
  dsimp only at read
  split at read
  · cases read
    exact .inl rfl
  split at read
  · cases read
  rename_i chars
  split at chars
  · cases chars
  cases chars
  split at read
  · cases read
  · cases read
    exact .inr ⟨_,rfl,by rw [length_take]; omega⟩

theorem stringWithin {ctx inline maxStrLen name rest s rest'}
    (read : unpackString ctx inline maxStrLen name rest = .ok (s,rest')) : tooLong maxStrLen s = false := by
  unfold unpackString PackMessage.unpackXmlString PackMessage.unpackNatString at read
  split at read
  · split at read
    · cases read
    dsimp only at read
    split at read
    · cases read
    · cases read
      exact eq_false_of_ne_true ‹_›
  · split at read
    · cases read
    dsimp only at read
    split at read
    · cases read
    · cases read
      exact eq_false_of_ne_true ‹_›

theorem stringsWithin {ctx inline maxStrLen name n rest stored rest'}
    (read : unpackStrings ctx inline maxStrLen name n rest = .ok (stored,rest')) :
    stored.length = n ∧ ∀ s ∈ stored, tooLong maxStrLen s = false := by
  induction n generalizing rest stored with
  | zero => cases read; exact ⟨rfl,fun _ mem => absurd mem not_mem_nil⟩
  | succ n ih =>
    unfold unpackStrings at read
    split at read
    · cases read
    rename_i first
    split at read
    · cases read
    rename_i later
    cases read
    obtain ⟨count,short⟩ := ih later
    refine ⟨by rw [length_cons,count],?_⟩
    intro s mem
    rcases mem_cons.mp mem with rfl | behind
    · exact stringWithin first
    · exact short s behind

theorem wholeString {ctx inline name rest stored rest'} (native : ctx.prot = .NATIVE_PROT)
    (read : unpackStrings ctx inline none name 1 rest = .ok (stored,rest')) : stored = [rest.takeWhile (· != nul)] := by
  unfold unpackStrings unpackString PackMessage.unpackNatString at read
  rw [native] at read
  dsimp only at read
  split at read
  · cases read
  rename_i first
  split at first
  · cases first
  cases first
  cases read
  rfl

theorem stringTargetInside {ctx r d cur v cur'} (native : ctx.prot = .NATIVE_PROT)
    (read : unpackStringTarget ctx r d cur = .ok (v,cur')) : ∃ stored, v = .strs stored ∧
      ∀ i s, stored[i]? = some s → i*d.hintDimSize.getLast?.getD 0+s.length+1 ≤
        if d.hintDimSize = [] then strlen cur.rest+1 else d.hintDimSize.prod := by
  unfold unpackStringTarget at read
  split at read
  · cases read
  rename_i stored rest strings
  cases read
  refine ⟨stored,rfl,?_⟩
  intro i s found
  obtain ⟨count,short⟩ := stringsWithin strings
  have bound := (List.getElem?_eq_some_iff.mp found).1
  cases last : d.hintDimSize.getLast? with
  | none =>
    have none := getLast?_eq_none_iff.mp last
    simp only [hintShape,last] at strings
    rw [wholeString native strings] at found
    rw [if_pos none]
    cases i with
    | zero =>
      cases found
      rw [Nat.zero_mul,Nat.zero_add]
      rfl
    | succ => cases found
  | some maxStrLen =>
    have some : d.hintDimSize ≠ [] := by
      intro none
      rw [none] at last
      cases last
    have within := short s (mem_of_getElem? found)
    simp only [hintShape,last] at within count
    have slot : s.length < maxStrLen := by simpa [tooLong] using within
    rw [if_neg some]
    calc i*maxStrLen+s.length+1 ≤ i*maxStrLen+maxStrLen := by omega
      _ = (i+1)*maxStrLen := (Nat.succ_mul ..).symm
      _ ≤ d.hintDimSize.prod/maxStrLen*maxStrLen := Nat.mul_le_mul_right _ (by omega)
      _ ≤ d.hintDimSize.prod := Nat.div_mul_le_self ..

theorem wantedString {f} (string : isString f.typeInx = true) (strLen) :
    wantedTarget f strLen = if f.hintDimSize = [] then strLen+1 else f.hintDimSize.prod := if_pos string

theorem wantedOther {f} (other : isString f.typeInx = false) (strLen) :
    wantedTarget f strLen = f.hintDimSize.prod*unit f.typeInx := if_neg (by rw [other]; decide)

theorem targetInside {ctx child c item r d b cur v cur'} (native : ctx.prot = .NATIVE_PROT) (kept : IntsKept c)
    (resolved : resolvePackedItem item c b = .ok (r,d))
    (known : r.typeInx ≠ .PACK_DEPENDENT_TYPE ∧ r.typeInx ≠ .PACK_INT_DEPENDENT_TYPE)
    (read : unpackTarget ctx child (c.kept item) r d cur = .ok (v,cur')) :
    Inside (fieldOf kept resolved known) (wantedTarget (fieldOf kept resolved known) (strlen cur.rest)) v := by
  unfold unpackTarget at read
  split at read
  case h_1 kind | h_2 kind =>
    rcases charTargetCount native read with rfl | ⟨stored,rfl,count⟩
    · trivial
    · show (stored.length : Int) ≤ wantedTarget (fieldOf kept resolved known) _
      rw [wantedOther (show isString r.typeInx = false by rw [kind]; rfl)]
      show (stored.length : Int) ≤ (d.numHintElement*unit r.typeInx : Nat)
      rw [kind]
      exact Int.ofNat_le.mpr (count.trans (Nat.mul_one _).ge)
  case h_3 kind | h_4 kind =>
    obtain ⟨stored,rfl,slots⟩ := stringTargetInside native read
    intro i s found
    rw [wantedString (show isString r.typeInx = true by rw [kind]; rfl)]
    exact Int.ofNat_le.mpr (slots i s found)
  case h_5 kind | h_6 kind | h_7 kind =>
    obtain ⟨stored,rfl,count⟩ := numberTargetCount native read
    show (stored.length*elementSz r.typeInx : Nat) ≤ (wantedTarget (fieldOf kept resolved known) _ : Int)
    rw [wantedOther (show isString r.typeInx = false by rw [kind]; rfl)]
    show (stored.length*elementSz r.typeInx : Nat) ≤ ((d.numHintElement*unit r.typeInx : Nat) : Int)
    rw [kind]
    exact Int.ofNat_le.mpr (Nat.mul_le_mul_right _ count)
  case h_8 =>
    split at read
    · cases read
    · cases read
      trivial
  case h_9 | h_10 => cases read

theorem requestHolds {ctx child items c item r d cur v cur'} (native : ctx.prot = .NATIVE_PROT)
    (met : Met ctx (item::items) c) (resolved : resolvePackedItem item c true = .ok (r,d))
    (known : r.typeInx ≠ .PACK_DEPENDENT_TYPE ∧ r.typeInx ≠ .PACK_INT_DEPENDENT_TYPE)
    (fits : Fits (fieldOf (metKept met).1 resolved known) (strlen cur.rest))
    (there : unpackNullString ctx r d cur.rest = none)
    (read : unpackTarget ctx child (c.kept item) r d cur = .ok (v,cur')) :
    ∃ q, unpackPointerItem (fieldOf (metKept met).1 resolved known) (strlen cur.rest) = some q ∧
      Inside (fieldOf (metKept met).1 resolved known) q.target v := by
  have something : ¬ Nothing (fieldOf (metKept met).1 resolved known) := by
    intro nothing
    unfold unpackNullString at there
    rw [native] at there
    dsimp only at there
    split at there
    · cases there
    rw [if_pos (show d.numHintElement = 0 ∨ d.dimSize ≠ [] ∧ d.numElement = 0 from nothing)] at there
    cases there
  obtain ⟨q,asked,right⟩ := requestedTarget fits something
  refine ⟨q,asked,?_⟩
  rw [right]
  exact targetInside native (metKept met).1 resolved known read

def largeCount : Field := ⟨.PACK_INT_TYPE,[],[1073741825],by decide,by decide⟩
def squareCount : Field := ⟨.PACK_CHAR_TYPE,[],[65536,65536],by decide,by decide⟩

theorem largeCountTiny : unpackPointerItem largeCount 0 = some ⟨none,4⟩ ∧ wantedTarget largeCount 0 = 4294967300 ∧
    unpackPointerItem squareCount 0 = none ∧ wantedTarget squareCount 0 = 4294967296 ∧
    ¬ SizesRight largeCount 0 ∧ ¬ SizesRight squareCount 0 := by
  have large : unpackPointerItem largeCount 0 = some ⟨none,4⟩ := rfl
  have square : unpackPointerItem squareCount 0 = none := rfl
  refine ⟨large,rfl,square,rfl,?_,?_⟩
  · exact fun right => absurd right.1 (by decide)
  unfold SizesRight
  rw [square]
  exact fun nothing => absurd nothing (by unfold Nothing; decide)

end Irods.PackSizes
