import Irods.PackValue

/-! Arrays of pointers to numbers. The packer counts the numbers behind each pointer;
the unpacker asks for as many numbers as they have bytes. -/
namespace Irods.PackMessage
open CText StringOpr PackStruct List

def Numeric (typeInx : PackType) : Prop :=
  typeInx = .PACK_INT_TYPE ∨ typeInx = .PACK_INT16_TYPE ∨ typeInx = .PACK_DOUBLE_TYPE

theorem numberSizeSome (typeInx) : 2 ≤ numberSize typeInx := by cases typeInx <;> decide

theorem natNumbersCount {size n rest rest' stored}
    (read : unpackNatNumbers size n rest = some (stored,rest')) : stored.length = n := by
  induction n generalizing rest stored with
  | zero => cases read; rfl
  | succ n ih =>
    rw [unpackNatNumbers] at read
    split at read
    · cases read
    obtain ⟨_,later,same⟩ := Option.map_eq_some_iff.mp read
    cases same
    rw [length_cons,ih later]

theorem xmlNumbersEnd (number name n rest) :
    (∃ e, (unpackXmlNumbers number name n rest).2.2 = some e ∧ e < 0) ∨
      (unpackXmlNumbers number name n rest).2.2 = none ∧ (unpackXmlNumbers number name n rest).2.1.length = n := by
  induction n generalizing rest with
  | zero => exact .inr ⟨rfl,rfl⟩
  | succ n ih =>
    rw [unpackXmlNumbers]
    split
    · rename_i failed
      exact .inl ⟨_,rfl,valueError failed⟩
    split
    · exact .inl ⟨_,rfl,by decide⟩
    rcases ih _ with failed | ⟨whole,count⟩
    · exact .inl failed
    · exact .inr ⟨whole,by rw [length_cons,count]⟩

theorem numbersEnd {ctx} {typeInx} {name rest rest' n stored failed}
    (read : unpackNumbers ctx typeInx name n rest = .ok (rest',stored,failed)) :
    (∃ e, failed = some e ∧ e < 0) ∨ stored.length = n := by
  unfold unpackNumbers at read
  split at read
  · have whole := xmlNumbersEnd (xmlNumber typeInx) name n rest
    rw [Except.ok.inj read] at whole
    rcases whole with failed | ⟨-,count⟩
    · exact .inl failed
    · exact .inr count
  · split at read
    · cases read
    rename_i found
    cases read
    exact .inr (natNumbersCount found)

theorem numberTargetFails {ctx r d} (dims : d.dimSize ≠ []) (some : d.numHintElement ≠ 0)
    (cur) : ∃ fault, unpackNumberTarget ctx r d cur = .error fault := by
  unfold unpackNumberTarget
  rw [if_neg dims]
  split
  · exact ⟨_,rfl⟩
  rename_i _ _ read
  split
  · exact ⟨_,rfl⟩
  rcases numbersEnd read with ⟨e,rfl,negative⟩ | _
  · exact ⟨_,if_pos negative⟩
  · have wide := Nat.mul_le_mul_left d.numHintElement (numberSizeSome r.typeInx)
    omega

theorem pointerArrayFails {ctx child c r d} (numeric : Numeric r.typeInx)
    (dims : d.dimSize ≠ []) (pointers : d.numElement ≠ 0) (some : d.numHintElement ≠ 0) (cur) {ts done cur'} :
    unpackPointerItem ctx child c r d cur ≠ .ok (.array ts,done,cur') := by
  have target : ∀ cur, ∃ fault, unpackTarget ctx child c r d cur = .error fault := by
    intro cur
    have same : unpackTarget ctx child c r d cur = unpackNumberTarget ctx r d cur := by
      unfold unpackTarget
      rcases numeric with kind | kind | kind <;> rw [kind]
    rw [same]
    exact numberTargetFails dims some cur
  obtain ⟨n,count⟩ := Nat.exists_eq_succ_of_ne_zero pointers
  obtain ⟨fault,failed⟩ := target cur
  intro read
  unfold unpackPointerItem at read
  split at read
  · cases read
  rw [if_neg dims,count] at read
  simp only [unpackTargets,failed] at read
  cases read

structure NumberArrays (r : PackItem) (d : Dims) (rows : List (List Int)) : Prop where
  numeric : Numeric r.typeInx
  dims : d.dimSize ≠ []
  pointers : d.numElement ≠ 0
  counted : d.numHintElement ≠ 0
  count : rows.length = d.numElement
  each : ∀ zs ∈ rows, zs.length = d.numHintElement ∧ zs.all (inRange r.typeInx) = true

def InStep (ctx : Context) (pack : PackChild) (unpack : Child) (c : Chain) (r : PackItem) (d : Dims)
    (rows : List (List Int)) : Prop :=
  ∃ p, packPointerItem ctx pack c r d (.array (rows.map .ints)) 0 = .ok (p,r,⟨0,0⟩) ∧ ∀ rest, ∃ done visited,
    unpackPointerItem ctx unpack c r d ⟨p.text ++ rest,[]⟩ = .ok (.array (rows.map .ints),done,⟨rest,visited⟩)

theorem rowsPacked {ctx pack c r d} (numeric : Numeric r.typeInx)
    {rows : List (List Int)} (each : ∀ zs ∈ rows, zs.length = d.numHintElement ∧ zs.all (inRange r.typeInx) = true) :
    ∃ p, packTargets ctx pack c r d 0 (rows.map .ints) = .ok (p,0) := by
  induction rows with
  | nil => exact ⟨.nil,rfl⟩
  | cons zs rows ih =>
    obtain ⟨q,later⟩ := ih fun ys mem => each ys (mem_cons_of_mem _ mem)
    obtain ⟨count,range⟩ := each zs mem_cons_self
    have number : packNumberTarget ctx r d (.ints zs) = .ok (.of (packNumbers ctx r.typeInx r.name zs)) := by
      simp [packNumberTarget,count,range]
    have here : packTarget ctx pack c r d 0 (.ints zs) = .ok (.of (packNumbers ctx r.typeInx r.name zs),0) := by
      have same : packTarget ctx pack c r d 0 (.ints zs) = (packNumberTarget ctx r d (.ints zs)).map (·,0) := by
        unfold packTarget
        rcases numeric with kind | kind | kind <;> rw [kind]
      rw [same,number]
      rfl
    exact ⟨(Packed.of (packNumbers ctx r.typeInx r.name zs)).append q,by simp only [map_cons,packTargets,here,later]⟩

theorem numberArraysOutOfStep {ctx : Context} {r : PackItem} {d : Dims} {rows : List (List Int)}
    (arrays : NumberArrays r d rows)
    (pack : PackChild) (unpack : Child) (c : Chain) :
    (∃ p, packPointerItem ctx pack c r d (.array (rows.map .ints)) 0 = .ok (p,r,⟨0,0⟩)) ∧
    ¬ InStep ctx pack unpack c r d rows := by
  obtain ⟨numeric,dims,pointers,counted,count,each⟩ := arrays
  refine ⟨?_,?_⟩
  · obtain ⟨p,packed⟩ := @rowsPacked ctx pack c r d numeric rows each
    have fits : ¬ (d.dimSize = [] ∨ (rows.map Value.ints).length ≠ d.numElement) := by
      rw [length_map]
      rintro (none | other)
      · exact dims none
      · exact other count
    exact ⟨p.started,by simp only [packPointerItem,if_neg fits,packed]⟩
  · rintro ⟨p,-,back⟩
    obtain ⟨_,_,read⟩ := back []
    exact pointerArrayFails numeric dims pointers counted _ read

def arrayTable (prot : Prot) : Context :=
  ⟨prot,none,fun name => if name = lit "Rows_PI" then some (lit "int *x[2](1);") else none⟩

theorem twoRowsLost : ∃ p q,
    packStruct (arrayTable .NATIVE_PROT) 2 (lit "Rows_PI") [.array [.ints [7],.ints [8]]] = .ok p ∧
    unpackStruct (arrayTable .NATIVE_PROT) 2 (lit "Rows_PI") p.text = .error .wild ∧
    packStruct (arrayTable .XML_PROT) 2 (lit "Rows_PI") [.array [.ints [7],.ints [8]]] = .ok q ∧
    unpackStruct (arrayTable .XML_PROT) 2 (lit "Rows_PI") q.text = .error .wild :=
  ⟨⟨networkOrder 4 7 ++ networkOrder 4 8,[0]⟩,⟨lit "<Rows_PI>\n<x>7</x>\n<x>8</x>\n</Rows_PI>\n",[10]⟩,by rfl,by rfl,
    by rfl,by rfl⟩

def rowItem : PackItem := ⟨.PACK_INT_TYPE,lit "x",.A_POINTER,0,[]⟩

theorem rowsOutOfStep : ¬ InStep (arrayTable .XML_PROT) (packChildStruct (arrayTable .XML_PROT) 1)
    (unpackChildStruct (arrayTable .XML_PROT) 1) ⟨[],[]⟩ rowItem ⟨[2],[1]⟩ [[7],[8]] := by
  have arrays : NumberArrays rowItem ⟨[2],[1]⟩ [[7],[8]] := {
    numeric := .inl rfl
    dims := by decide
    pointers := by decide
    counted := by decide
    count := rfl
    each := by decide }
  exact (numberArraysOutOfStep arrays _ _ _).2

end Irods.PackMessage
