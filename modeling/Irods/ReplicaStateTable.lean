import Irods.CText

/-! replica_state_table.cpp: the entries that hold the replicas of a data object before and after
the operation in progress, and the lookups and updates by replica number. -/
namespace Irods.ReplicaStateTable
open CText List

def decimalText (v : Int) : Text := if v < 0 then '-'::Nat.toDigits 10 v.natAbs else Nat.toDigits 10 v.natAbs
def isInt (v : Int) : Prop := -2147483648 ≤ v ∧ v ≤ 2147483647

instance (v) : Decidable (isInt v) := by unfold isInt; infer_instance

def signless : Text → Text
  | '-'::rest => rest
  | '+'::rest => rest
  | rest => rest

def stoi (a : Text) : Option Int :=
  if ((signless (a.dropWhile isSpace)).head?.map Char.isDigit).getD false ∧ isInt (leadingInteger a)
  then some (leadingInteger a) else none

def lexicalCastInt (a : Text) : Option Int :=
  if signless a ≠ [] ∧ (signless a).all Char.isDigit ∧ isInt (leadingInteger a) then some (leadingInteger a) else none

theorem digitsFold (l acc) (all : ∀ c ∈ l, c.isDigit = true) : digits acc l = Nat.ofDigitChars 10 l acc := by
  induction l generalizing acc with
  | nil => rfl
  | cons c l ih =>
    rw [digits,if_pos (all c mem_cons_self),ih _ (forall_mem_cons.mp all).2]
    rfl

theorem decimalDigits (n) : (∀ c ∈ Nat.toDigits 10 n, c.isDigit = true) ∧ digits 0 (Nat.toDigits 10 n) = n := by
  have all : ∀ c ∈ Nat.toDigits 10 n, c.isDigit = true :=
    fun c mem => Nat.isDigit_of_mem_toDigits (by decide) (by decide) mem
  exact ⟨all,by rw [digitsFold _ _ all,Nat.ofDigitChars_toDigits (by decide) (by decide)]⟩

theorem digitChars {c} (digit : c.isDigit = true) : isSpace c = false ∧ c ≠ '-' ∧ c ≠ '+' := by
  have low := (digitBounds digit).1
  refine ⟨?_,?_,?_⟩
  · have blank : c ≠ ' ' := by rintro rfl; exact absurd low (by decide)
    have high : decide (c.toNat ≤ 13) = false := decide_eq_false (by omega)
    simp [isSpace,blank,high]
  · rintro rfl
    exact absurd low (by decide)
  · rintro rfl
    exact absurd low (by decide)

theorem digitsHead (n) : ∃ c t, Nat.toDigits 10 n = c::t ∧ c.isDigit = true := by
  obtain ⟨c,t,same⟩ := exists_cons_of_ne_nil (Nat.toDigits_ne_nil)
  exact ⟨c,t,same,(decimalDigits n).1 c (same ▸ mem_cons_self)⟩

structure ReadsBack (a : Text) (v : Int) : Prop where
  solid : a.dropWhile isSpace = a
  rest : ∃ n, signless a = Nat.toDigits 10 n
  value : leadingInteger a = v

theorem readsBack (v) : ReadsBack (decimalText v) v := by
  obtain ⟨c,t,shape,digit⟩ := digitsHead v.natAbs
  obtain ⟨solid,minus,plus⟩ := digitChars digit
  have value := (decimalDigits v.natAbs).2
  unfold decimalText
  split
  · refine ⟨rfl,⟨v.natAbs,rfl⟩,?_⟩
    show -(digits 0 (Nat.toDigits 10 v.natAbs) : Int) = v
    omega
  have dropped : (Nat.toDigits 10 v.natAbs).dropWhile isSpace = Nat.toDigits 10 v.natAbs := by
    rw [shape,dropWhile_cons,solid]
    rfl
  refine ⟨dropped,⟨v.natAbs,?_⟩,?_⟩
  · rw [shape]
    unfold signless
    split
    · rename_i same; exact absurd (cons.inj same).1 minus
    · rename_i same; exact absurd (cons.inj same).1 plus
    · rfl
  · unfold leadingInteger
    rw [dropped]
    split
    · rename_i same; rw [shape] at same; exact absurd (cons.inj same).1 minus
    · rename_i same; rw [shape] at same; exact absurd (cons.inj same).1 plus
    · omega

theorem stoiDecimal {v} (fits : isInt v) : stoi (decimalText v) = some v := by
  obtain ⟨solid,⟨n,rest⟩,value⟩ := readsBack v
  obtain ⟨c,t,shape,digit⟩ := digitsHead n
  unfold stoi
  rw [solid,rest,value,shape]
  simp [digit,fits]

theorem castDecimal {v} (fits : isInt v) : lexicalCastInt (decimalText v) = some v := by
  obtain ⟨-,⟨n,rest⟩,value⟩ := readsBack v
  have all := all_eq_true.mpr (decimalDigits n).1
  unfold lexicalCastInt
  rw [rest,value,if_pos ⟨Nat.toDigits_ne_nil,all,fits⟩]

/-! The table. All properties of a replica are strings. -/
def KEY_NOT_FOUND : Int := -1800000
def SYS_LIBRARY_ERROR : Int := -167000
def DATA_REPL_NUM : Text := lit "data_repl_num"
abbrev Properties := Text → Option Text
def Properties.set (p : Properties) (name value : Text) : Properties := Function.update p name (some value)

structure JsonReplica where
  before : Properties
  after : Properties

structure Entry where
  logicalPath : Text
  replicas : List JsonReplica

abbrev Table := Int → Option Entry

inductive StateType where
  | before
  | after
  deriving DecidableEq, Repr

/- An exception: of this project with its code, or any other of std::exception. -/
inductive Thrown where
  | irods (code : Int)
  | standard
  deriving DecidableEq, Repr

/- What was changed before an exception stays changed. -/
def Action (α : Type) := Table → Except Thrown α × Table

def Action.bind {α β : Type} (x : Action α) (f : α → Action β) : Action β := fun t =>
  match x t with
  | (.ok a,t') => f a t'
  | (.error e,t') => (.error e,t')

instance : Monad Action where
  pure a := fun t => (.ok a,t)
  bind := Action.bind

def reading {α : Type} (f : Table → Except Thrown α) : Action α := fun t => (f t,t)

def forEach {α : Type} (f : α → Action Unit) : List α → Action Unit
  | [] => pure ()
  | a::rest => do
    f a
    forEach f rest

def JsonReplica.of (r : JsonReplica) : StateType → Properties
  | .before => r.before
  | .after => r.after

/- json::at and get<std::string>. -/
def property (p : Properties) (name : Text) : Except Thrown Text :=
  match p name with
  | some value => .ok value
  | none => .error .standard

def castNumber (r : JsonReplica) : Except Thrown Int := do
  let number ← property r.before DATA_REPL_NUM
  match lexicalCastInt number with
  | some v => .ok v
  | none => .error .standard

def search (number : Int) : Nat → List JsonReplica → Except Thrown (Option (Nat × JsonReplica))
  | _,[] => .ok none
  | i,r::rest => do
    let n ← castNumber r
    if number = n then .ok (some (i,r)) else search number (i+1) rest

def indexOf (key number : Int) (t : Table) : Except Thrown Nat :=
  match t key with
  | none => .error (.irods KEY_NOT_FOUND)
  | some entry => do
    match ← search number 0 entry.replicas with
    | some (i,_) => .ok i
    | none => .error (.irods KEY_NOT_FOUND)

def atKey (key : Int) (t : Table) : Except Thrown (List JsonReplica) :=
  match t key with
  | none => .error (.irods KEY_NOT_FOUND)
  | some entry => .ok entry.replicas

def atNumber (key number : Int) (t : Table) : Except Thrown JsonReplica :=
  match t key with
  | none => .error .standard
  | some entry => do
    match ← search number 0 entry.replicas with
    | some (_,r) => .ok r
    | none => .error (.irods KEY_NOT_FOUND)

def getProperty (key number : Int) (name : Text) (state : StateType) (t : Table) : Except Thrown Text := do
  let r ← atNumber key number t
  property (r.of state) name

def getLogicalPath (key : Int) (t : Table) : Except Thrown Text :=
  match t key with
  | none => .error .standard
  | some entry => .ok entry.logicalPath

def JsonReplica.updated (name value : Text) (r : JsonReplica) : JsonReplica :=
  { r with after := r.after.set name value }

def Table.withReplicas (t : Table) (key : Int) (entry : Entry) (rs : List JsonReplica) : Table :=
  Function.update t key (some { entry with replicas := rs })

def updateImpl (key : Int) (index : Nat) (name value : Text) : Action Unit := fun t =>
  match t key with
  | none => (.error .standard,t)
  | some entry => if index < entry.replicas.length then
      (.ok (),t.withReplicas key entry (entry.replicas.modify index (·.updated name value)))
    else (.error (.irods SYS_LIBRARY_ERROR),t)

def update (key number : Int) (name value : Text) : Action Unit := do
  let index ← reading (indexOf key number)
  updateImpl key index name value

structure Numbered (r : JsonReplica) (n : Int) : Prop where
  fits : isInt n
  written : r.before DATA_REPL_NUM = some (decimalText n)

theorem castNumbered {r n} (numbered : Numbered r n) : castNumber r = .ok n := by
  unfold castNumber property
  rw [numbered.written]
  show (match lexicalCastInt (decimalText n) with
    | some v => Except.ok v
    | none => .error Thrown.standard) = .ok n
  rw [castDecimal numbered.fits]

theorem searchFound {front back r n} (others : ∀ x ∈ front, ∃ m, Numbered x m ∧ n ≠ m)
    (here : Numbered r n) (i) : search n i (front ++ r::back) = .ok (some (i+front.length,r)) := by
  induction front generalizing i with
  | nil =>
    rw [nil_append,search,castNumbered here]
    exact if_pos rfl
  | cons x front ih =>
    obtain ⟨m,numbered,other⟩ := others x mem_cons_self
    have later := ih (forall_mem_cons.mp others).2 (i+1)
    have next : i+1+front.length = i+(x::front).length := by rw [length_cons]; omega
    rw [next] at later
    rw [cons_append,search,castNumbered numbered]
    exact (if_neg other).trans later

theorem modifyMiddle {α : Type} (front a back) (f : α → α) :
    (front ++ a::back).modify front.length f = front ++ f a::back := by
  induction front with
  | nil => rfl
  | cons x _ ih => rw [cons_append,length_cons,modify_succ_cons,ih]; rfl

section entry
variable {t : Table} {key : Int} {entry : Entry} {front back : List JsonReplica} {r : JsonReplica} {n : Int}
section
variable (there : t key = some entry) (parts : entry.replicas = front ++ r::back)
    (others : ∀ x ∈ front, ∃ m, Numbered x m ∧ n ≠ m) (here : Numbered r n)
include there parts others here

theorem atNumberFound : atNumber key n t = .ok r := by
  unfold atNumber
  rw [there]
  dsimp only
  rw [parts,searchFound others here]
  rfl

theorem updateFound (name value) :
    update key n name value t = (.ok (),t.withReplicas key entry (front ++ r.updated name value::back)) := by
  have index : indexOf key n t = .ok front.length := by
    unfold indexOf
    rw [there]
    dsimp only
    rw [parts,searchFound others here,Nat.zero_add]
    rfl
  have inside : front.length < entry.replicas.length := by rw [parts,length_append,length_cons]; omega
  have changed : entry.replicas.modify front.length (·.updated name value) = front ++ r.updated name value::back := by
    rw [parts]
    exact modifyMiddle front r back _
  show Action.bind (reading (indexOf key n)) _ t = _
  unfold Action.bind reading
  rw [index]
  dsimp only
  unfold updateImpl
  rw [there]
  dsimp only
  rw [if_pos inside,changed]

end

end entry

end Irods.ReplicaStateTable
