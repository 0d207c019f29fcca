import Irods.PackValue

/-! Values of the shape an instruction asks for. -/
namespace Irods.PackMessage
open CText StringOpr PackStruct List

def tableOf (prot : Prot) (table : List (Text × Text)) : Context := ⟨prot,none,fun name => table.lookup name⟩

abbrev ChildShape := PackItem → Chain → Nat → List (List Value) → Prop

def StringFits (maxStrLen : Option Nat) (s : Text) : Prop := nul ∉ s ∧ tooLong maxStrLen s = false

def NumbersFit (typeInx : PackType) (count : Nat) (zs : List Int) : Prop :=
  zs.length = count ∧ zs.all (inRange typeInx) = true

-- A type name is kept in a buffer of NAME_LEN characters, its NUL included.
def TypeNameFits (r : PackItem) (s : Text) : Prop := r.typeInx = .PACK_PI_STR_TYPE → s.length < NAME_LEN

def InlineShaped (child : ChildShape) (c : Chain) (r : PackItem) (d : Dims) (v : Value) : Prop :=
  match r.typeInx,v with
  | .PACK_CHAR_TYPE,.bytes bs | .PACK_BIN_TYPE,.bytes bs => bs.length = d.numElement
  | .PACK_STR_TYPE,.strs ss =>
    ∃ maxStrLen, strShape d.dimSize = some (maxStrLen,ss.length) ∧ ∀ s ∈ ss, StringFits maxStrLen s
  | .PACK_PI_STR_TYPE,.strs ss =>
    ∃ maxStrLen s, ss = [s] ∧ strShape d.dimSize = some (maxStrLen,1) ∧ StringFits maxStrLen s ∧ TypeNameFits r s
  | .PACK_INT_TYPE,.ints zs | .PACK_INT16_TYPE,.ints zs | .PACK_DOUBLE_TYPE,
      .ints zs => NumbersFit r.typeInx d.numElement zs
  | .PACK_STRUCT_TYPE,.structs es => child r c d.numElement es
  | _,_ => False

def TargetShaped (child : ChildShape) (c : Chain) (r : PackItem) (d : Dims) (t : Value) : Prop :=
  match r.typeInx,t with
  | .PACK_CHAR_TYPE,.bytes bs | .PACK_BIN_TYPE,.bytes bs => bs.length = d.numHintElement
  | .PACK_STR_TYPE,.strs ss | .PACK_PI_STR_TYPE,.strs ss =>
    ss.length = (hintShape d.hintDimSize).2 ∧ ∀ s ∈ ss, StringFits (hintShape d.hintDimSize).1 s
  | .PACK_INT_TYPE,.ints zs | .PACK_INT16_TYPE,.ints zs | .PACK_DOUBLE_TYPE,.ints zs =>
    d.dimSize = [] ∧ NumbersFit r.typeInx d.numHintElement zs
  | .PACK_STRUCT_TYPE,.structs es => child r c d.numHintElement es
  | _,_ => False

-- A pointer that is not NULL has a count that is not 0.
def PointerShaped (child : ChildShape) (c : Chain) (r : PackItem) (d : Dims) : Value → Prop
  | .null => True
  | .pointer t =>
    d.dimSize = [] ∧ d.numHintElement ≠ 0 ∧ TargetShaped child c r d t ∧ TypeNameFits r (firstString t)
  | .array ts =>
    d.dimSize ≠ [] ∧ d.numHintElement ≠ 0 ∧ d.numElement ≠ 0 ∧ ts.length = d.numElement ∧
    ∀ t ∈ ts, TargetShaped child c r d t
  | _ => False

def finished (r : PackItem) : Value → PackItem
  | .ints zs => {r with intValue := if r.typeInx = .PACK_DOUBLE_TYPE then r.intValue else max 0 (zs.headD 0)}
  | .strs ss => {r with strValue := if r.typeInx = .PACK_PI_STR_TYPE then ss.headD [] else r.strValue}
  | .pointer t => {r with strValue := if r.typeInx = .PACK_PI_STR_TYPE then firstString t else r.strValue}
  | _ => r

def ItemShaped (child : ChildShape) (c : Chain) (r : PackItem) (d : Dims) (v : Value) : Prop :=
  if r.pointerType = .NON_POINTER then InlineShaped child c r d v else PointerShaped child c r d v

def ItemsShaped (child : ChildShape) : List PackItem → Chain → List Value → Prop
  | [],_,[] => True
  | item::items,c,v::vs => ∃ r d, resolvePackedItem item c (isNull v) = .ok (r,d) ∧ ItemShaped child c r d v ∧
      ItemsShaped child items (c.push (finished r v)) vs
  | _,_,_ => False

-- Neither '%' nor '#' stands in the instruction.
def Plain (item : PackItem) : Prop := item.typeInx ≠ .PACK_INT_DEPENDENT_TYPE ∧ item.pointerType ≠ .NO_PACK_POINTER

instance : DecidablePred Plain := fun _ => inferInstanceAs (Decidable (_ ∧ _))

def StructShaped (ctx : Context) : Nat → ChildShape
  | 0,_,_,_,_ => False
  | fuel+1,myPackedItem,c,numElement,es => es.length = numElement ∧ (numElement ≠ 0 →
      ∃ packInstruct items, ctx.matchPackInstruct myPackedItem.name = some packInstruct ∧
        parsePackInstruct packInstruct = .ok items ∧ (∀ item ∈ items, Plain item) ∧
        ∀ vs ∈ es, ItemsShaped (StructShaped ctx fuel) items (c.inside myPackedItem) vs)

def Shaped (ctx : Context) (fuel : Nat) (packInstName : Text) (vs : List Value) : Prop :=
  StructShaped ctx fuel (rootItem packInstName) ⟨[],[]⟩ 1 [vs]

/-! Where a pointer begins that is not NULL, the message does not go on with the marker. -/
def marker : Text := NULL_PTR_PACK_STR ++ [nul]
def Clear (p : Packed) (rest : Text) : Prop := ∀ m ∈ p.starts, ¬ marker <+: (p.text ++ rest).drop m

theorem clearNil (rest) : Clear .nil rest := fun _ mem => nomatch mem

theorem clearOf (t rest) : Clear (.of t) rest := fun _ mem => nomatch mem

theorem clearAppend {a b rest} : Clear (a.append b) rest ↔ Clear a (b.text ++ rest) ∧ Clear b rest := by
  have behind : ∀ m, (a.text ++ (b.text ++ rest)).drop (m+a.text.length) = (b.text ++ rest).drop m := fun m => by
    rw [Nat.add_comm,← drop_drop,drop_left]
  simp only [Clear,Packed.append,mem_append,mem_map,append_assoc]
  constructor
  · intro clear
    refine ⟨fun m mem => clear m (.inl mem),fun m mem => ?_⟩
    rw [← behind m]
    exact clear _ (.inr ⟨m,mem,rfl⟩)
  · rintro ⟨front,back⟩ m (mem | ⟨k,mem,rfl⟩)
    · exact front m mem
    · rw [behind]
      exact back k mem

theorem clearStarted {p rest} : Clear p.started rest ↔ ¬ marker <+: p.text ++ rest ∧ Clear p rest := by
  simp [Clear,Packed.started]

def Fresh (item : PackItem) : Prop := item.intValue = 0 ∧ (item.typeInx ≠ .PACK_DEPENDENT_TYPE → item.strValue = [])

theorem zeroFresh : Fresh .zero := ⟨rfl,fun _ => rfl⟩

def ParserFresh (p : Parser) : Prop :=
  (∀ item ∈ p.queued, Fresh item) ∧ Fresh (p.myPackItem.getD .zero) ∧
    (p.gotTypeCast = false → (p.myPackItem.getD .zero).strValue = [])

theorem tokenFresh {p buf rest out} (fresh : ParserFresh p)
    (parsed : parseToken p buf rest = .ok out) : ParserFresh out.1 := by
  obtain ⟨queued,⟨noInt,noStr⟩,untyped⟩ := fresh
  have pointed : ∀ {k : PointerType} {q : Parser}, setPointer p (p.myPackItem.getD .zero) k = .ok q →
    ParserFresh q := by
    intro k q set
    unfold setPointer at set
    split at set
    · cases set
    · cases set
      exact ⟨queued,⟨noInt,noStr⟩,untyped⟩
  have mapped : ∀ {k : PointerType}, (setPointer p (p.myPackItem.getD .zero) k).map (·,rest) = .ok out →
    ParserFresh out.1 := by
    intro k set
    cases done : setPointer p (p.myPackItem.getD .zero) k with
    | error e => rw [done] at set; cases set
    | ok q => rw [done] at set; cases set; exact pointed done
  unfold parseToken at parsed
  split at parsed
  · split at parsed
    · cases parsed
      exact ⟨queued,⟨noInt,noStr⟩,untyped⟩
    split at parsed
    · cases parsed
    cases parsed
    refine ⟨?_,zeroFresh,fun _ => rfl⟩
    intro item mem
    rcases mem_append.mp mem with old | last
    · exact queued item old
    · cases mem_singleton.mp last
      exact ⟨noInt,noStr⟩
  split at parsed
  · split at parsed
    · cases parsed
    split at parsed
    · cases parsed
    rename_i free _
    cases parsed
    have none : p.gotTypeCast = false := by
      cases cast : p.gotTypeCast with
      | false => rfl
      | true => rw [cast] at free; contradiction
    exact ⟨queued,⟨noInt,fun _ => untyped none⟩,fun bad => nomatch bad⟩
  split at parsed
  · split at parsed
    · cases parsed
    split at parsed
    · cases parsed
    · cases parsed
      exact ⟨queued,⟨noInt,fun other => absurd rfl other⟩,fun bad => nomatch bad⟩
  split at parsed
  · exact mapped parsed
  split at parsed
  · exact mapped parsed
  split at parsed
  · exact mapped parsed
  split at parsed
  · rename_i uncast
    split at parsed
    · cases parsed
    · cases parsed
      exact ⟨queued,⟨noInt,fun _ => untyped (by simpa using uncast)⟩,fun bad => nomatch bad⟩
  split at parsed
  · cases parsed
    exact ⟨queued,⟨noInt,noStr⟩,untyped⟩
  · cases parsed

theorem tokensFresh {fuel p inptr items} (fresh : ParserFresh p)
    (parsed : parseTokens fuel p inptr = .ok items) : ∀ item ∈ items, Fresh item := by
  induction fuel generalizing p inptr with
  | zero => cases parsed
  | succ _ ih =>
    unfold parseTokens at parsed
    split at parsed
    · split at parsed
      · cases parsed
      · cases parsed
        exact fresh.1
    · split at parsed
      · cases parsed
      · rename_i token
        exact ih (tokenFresh fresh token) parsed

theorem parsedFresh {packInstruct items} (parsed : parsePackInstruct packInstruct = .ok items) :
    ∀ item ∈ items, Fresh item := by
  have start : ParserFresh ⟨[],some .zero,false,false⟩ := ⟨fun _ mem => absurd mem not_mem_nil,zeroFresh,fun _ => rfl⟩
  exact tokensFresh start parsed

theorem resolvedUnread {item c b x}
    (resolved : resolvePackedItem item c b = .ok x) : resolvePackedItem item c true = .ok x := by
  cases b with
  | true => exact resolved
  | false =>
    unfold resolvePackedItem at resolved ⊢
    split at resolved
    · cases resolved
    split at resolved
    · cases resolved
    split at resolved
    · rw [if_pos (.inr rfl)] at resolved
      cases resolved
    · rename_i named
      rw [if_neg named]
      exact resolved

-- The item, its dependence resolved, keeps all but its name.
theorem resolvedFrom {item r c b d} (resolved : resolvePackedItem item c b = .ok (r,d)) :
    ∃ i, iparseDependent item c = .ok i ∧ dimLoop c ⟨[],[]⟩ none [] i.name = .ok d ∧ ∃ name, r = {i with name} := by
  unfold resolvePackedItem at resolved
  split at resolved
  · cases resolved
  rename_i parsed
  split at resolved
  · cases resolved
  rename_i array
  unfold resolveDepInArray at array
  split at array
  · cases array
  rename_i dims
  cases array
  split at resolved
  · split at resolved
    · cases resolved
    · cases resolved
      exact ⟨_,parsed,dims,_,rfl⟩
  · cases resolved
    exact ⟨_,parsed,dims,_,rfl⟩

theorem resolvedKind {item r c b d} (plain : Plain item) (fresh : Fresh item)
    (resolved : resolvePackedItem item c b = .ok (r,d)) :
    r.pointerType = item.pointerType ∧ r.intValue = 0 ∧ (r.typeInx = .PACK_PI_STR_TYPE → r.strValue = []) := by
  have kind : ∀ {i : PackItem}, iparseDependent item c = .ok i →
      i.pointerType = item.pointerType ∧ i.intValue = 0 ∧ (i.typeInx = .PACK_PI_STR_TYPE → i.strValue = []) := by
    intro i parsed
    unfold iparseDependent at parsed
    split at parsed
    · unfold resolveStrInItem at parsed
      split at parsed
      · cases parsed
      · cases parsed
        exact ⟨rfl,fresh.1,fun bad => nomatch bad⟩
    · rename_i bad
      exact absurd bad plain.1
    · rename_i other _
      cases parsed
      exact ⟨rfl,fresh.1,fun _ => fresh.2 other⟩
  obtain ⟨i,parsed,-,name,rfl⟩ := resolvedFrom resolved
  have known := kind parsed
  exact known

end Irods.PackMessage
