import Irods.CText

/-! index.cpp, parser.cpp and arithmetics.cpp of the rule language: the comparison of conditions by
which rules are put under one index, and execRule, which tries the rules and the indexes in the
list of a name one after the other. -/
namespace Irods.CondIndex
open CText

def NO_RULE_FOUND_ERR : Int := -1017000
def NO_MORE_RULES_ERR : Int := -1018000
def ACTION_ARG_COUNT_MISMATCH : Int := -1021000
def RETRY_WITHOUT_RECOVERY_ERR : Int := -1088000
def CUT_ACTION_PROCESSED_ERR : Int := -1089000
def RULE_FAILED_ERR : Int := -1101000
def RE_DYNAMIC_TYPE_ERROR : Int := -1232000

inductive NodeType where
  | text
  | string
  | var
  | tuple
  | application
  | other (n : Nat)
  deriving DecidableEq, Repr

inductive Node where
  | mk (type : NodeType) (text : Text) (subtrees : List Node)

def Node.type : Node → NodeType
  | .mk type _ _ => type

def Node.text : Node → Text
  | .mk _ text _ => text

/- createRuleNodeIndex puts only these into the lists. -/
inductive RuleType where
  | rel
  | func
  deriving DecidableEq, Repr

structure RuleDesc where
  ruleType : RuleType
  params : List Text
  cond : Node

def trueNode : Node := .mk (.other 5) (lit "true") []
def getRuleDesc (rules : List RuleDesc) (i : Nat) : RuleDesc := rules.getD i ⟨.rel,[],trueNode⟩

abbrev HashTable (α : Type) := List (Text × α)
def lookupFromHashTable {α : Type} (h : HashTable α) (key : Text) : Option α := h.lookup key

mutual
def eqExprNodeSyntactic : Node → Node → Bool
  | .mk typeA textA subtreesA,.mk typeB textB subtreesB =>
    if typeA = typeB ∧ textA = textB ∧ subtreesA.length = subtreesB.length then eqSubtrees subtreesA subtreesB else true

def eqSubtrees : List Node → List Node → Bool
  | a::restA,b::restB => if eqExprNodeSyntactic a b then eqSubtrees restA restB else false
  | _,_ => true
end

def eqExprNodeSyntacticVarMapping (a b : Node) (varMapping : HashTable Text) : Bool :=
  if a.type = .var ∧ b.type = .var ∧ lookupFromHashTable varMapping a.text = some b.text then true
  else
    match a,b with
    | .mk typeA textA subtreesA,.mk typeB textB subtreesB =>
      if typeA = typeB ∧ textA = textB ∧ subtreesA.length = subtreesB.length then
        eqSubtrees subtreesA subtreesB else true

mutual
theorem eqAlways (a b) : eqExprNodeSyntactic a b = true := by
  cases a with
  | mk _ _ subtreesA =>
    cases b with
    | mk _ _ subtreesB =>
      rw [eqExprNodeSyntactic]
      split
      · exact eqSubtreesAlways subtreesA subtreesB
      · rfl

theorem eqSubtreesAlways (as bs) : eqSubtrees as bs = true := by
  cases as with
  | nil => rw [eqSubtrees]; exact nofun
  | cons a as =>
    cases bs with
    | nil => rw [eqSubtrees]; exact nofun
    | cons b bs => rw [eqSubtrees,eqAlways a b,if_pos rfl,eqSubtreesAlways as bs]
end

theorem eqMappingAlways (a b mapping) : eqExprNodeSyntacticVarMapping a b mapping = true := by
  unfold eqExprNodeSyntacticVarMapping
  split
  · rfl
  cases a with
  | mk _ _ subtreesA =>
    cases b with
    | mk _ _ subtreesB =>
      dsimp only
      split
      · exact eqSubtreesAlways subtreesA subtreesB
      · rfl

theorem comparisonsBlind (a b mapping) : eqExprNodeSyntactic a b ∧ eqExprNodeSyntacticVarMapping a b mapping :=
  ⟨eqAlways a b,eqMappingAlways a b mapping⟩

structure CondIndexVal where
  condExp : Node
  params : List Text
  valIndex : HashTable Nat

structure RuleIndexListNode where
  ruleIndex : Nat
  condIndex : Option CondIndexVal
  next : Option Nat

structure RuleIndexList where
  nodes : Nat → RuleIndexListNode
  head : Option Nat
  fresh : Nat

inductive Res (V : Type) where
  | error (code : Int)
  | string (text : Text)
  | bool (b : Bool)
  | int (n : Int)
  | success
  | other (value : V)
  deriving DecidableEq, Repr

structure State (V ρ γ : Type) where
  args : List V
  rei : ρ
  env : γ
  deriving DecidableEq, Repr

structure Semantics (V ρ γ : Type) where
  evaluateExpression3 : Node → HashTable V → ρ → γ → Res V
  runBody : Nat → Nat → State V ρ γ → Res V × State V ρ γ

structure Mode where
  argc : Nat
  applyAll : Nat
  saveRei : Bool

def Mode.inner (mode : Mode) : Nat := if mode.applyAll > 1 then mode.applyAll else 0

structure Loop (V ρ γ : Type) where
  state : State V ρ γ
  saved : Option ρ
  retry : Bool
  status : Option (Res V)
  success : Bool
  ran : List (Nat × State V ρ γ)

structure Outcome (V ρ γ : Type) where
  ran : List (Nat × State V ρ γ)
  result : Res V
  deriving DecidableEq, Repr

section running
variable {V ρ γ : Type} (sem : Semantics V ρ γ) (rules : List RuleDesc) (mode : Mode)

def evaluate (e : Node) (params : List Text) (s : State V ρ γ) : Res V :=
  sem.evaluateExpression3 e (params.zip s.args) s.rei s.env

def execRuleNodeRes (i : Nat) (l : Loop V ρ γ) : Res V × Loop V ρ γ :=
  let rd := getRuleDesc rules i
  if rd.params.length ≠ mode.argc then (.error ACTION_ARG_COUNT_MISMATCH,l)
  else
    match evaluate sem rd.cond rd.params l.state with
    | .bool true =>
      let (res,state) := sem.runBody i mode.inner l.state
      (res,{ l with state, ran := l.ran ++ [(i,l.state)] })
    | _ => (.error RULE_FAILED_ERR,l)

def execRuleFromCondIndex (nodes : Nat → RuleIndexListNode) (civ : CondIndexVal) (l : Loop V ρ γ) :
    Res V × Loop V ρ γ :=
  if civ.params.length ≠ mode.argc then (.error ACTION_ARG_COUNT_MISMATCH,l)
  else
    match evaluate sem civ.condExp civ.params l.state with
    | .error code => (.error code,l)
    | .string text =>
      match lookupFromHashTable civ.valIndex text with
      | none => (.error NO_MORE_RULES_ERR,l)
      | some p => execRuleNodeRes sem rules mode (nodes p).ruleIndex l
    | _ => (.error RE_DYNAMIC_TYPE_ERROR,l)

def enterRound (l : Loop V ρ γ) : Loop V ρ γ :=
  if mode.saveRei then
    match l.saved with
    | none => { l with saved := some l.state.rei }
    | some rei => if l.retry then l else { l with state := { l.state with rei } }
  else l

def leaveRound (r : Res V × Loop V ρ γ) : Loop V ρ γ × Bool :=
  let l := { r.2 with status := some r.1 }
  match r.1 with
  | .error code =>
    if code = RETRY_WITHOUT_RECOVERY_ERR then ({ l with retry := true },false)
    else (l,code = CUT_ACTION_PROCESSED_ERR)
  | _ =>
    if mode.applyAll = 0 then ({ l with success := true },true)
    else ({ l with success := true, saved := if mode.saveRei then none else l.saved },false)

/- A rule with another number of parameters is passed over. -/
def roundOf (nodes : Nat → RuleIndexListNode) (n : RuleIndexListNode) (l : Loop V ρ γ) : Loop V ρ γ × Bool :=
  let l := enterRound mode l
  match n.condIndex with
  | some civ => leaveRound mode (execRuleFromCondIndex sem rules mode nodes civ l)
  | none =>
    if (getRuleDesc rules n.ruleIndex).params.length ≠ mode.argc then (l,false)
    else leaveRound mode (execRuleNodeRes sem rules mode n.ruleIndex l)

def rounds (nodes : Nat → RuleIndexListNode) : List RuleIndexListNode → Loop V ρ γ → Loop V ρ γ
  | [],l => if mode.applyAll = 0 then
      { l with status := some (l.status.getD (.error NO_RULE_FOUND_ERR)) } else { l with success := true }
  | n::rest,l =>
    match roundOf sem rules mode nodes n l with
    | (l',true) => l'
    | (l',false) => rounds nodes rest l'

def answer (l : Loop V ρ γ) : Res V :=
  let status := l.status.getD (.error NO_RULE_FOUND_ERR)
  if l.success then
    if mode.applyAll ≠ 0 then .int 0
    else
      match status with
      | .success => .int 0
      | r => r
  else status

def startOf (s : State V ρ γ) : Loop V ρ γ :=
  { state := s, saved := none, retry := false, status := none, success := false, ran := [] }

def execList (nodes : Nat → RuleIndexListNode) (entries : List RuleIndexListNode) (s : State V ρ γ) : Outcome V ρ γ :=
  let l := rounds sem rules mode nodes entries (startOf s)
  ⟨l.ran,answer mode l⟩

end running

def chain (nodes : Nat → RuleIndexListNode) : Nat → Option Nat → Option (List RuleIndexListNode)
  | _,none => some []
  | 0,some _ => none
  | fuel+1,some p => (chain nodes fuel (nodes p).next).map (nodes p::·)

def execRule {V ρ γ : Type} (sem : Semantics V ρ γ) (rules : List RuleDesc) (mode : Mode) (l : RuleIndexList)
    (s : State V ρ γ) :
    Option (Outcome V ρ γ) :=
  (chain l.nodes l.fresh l.head).map (fun entries => execList sem rules mode l.nodes entries s)

end Irods.CondIndex
