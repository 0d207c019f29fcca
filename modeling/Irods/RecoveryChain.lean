import Irods.CondIndex

/-! evaluateActions of the rule language: the actions of a rule one after the other, and its recovery actions once one
of them has failed. -/
namespace Irods.RecoveryChain
open CondIndex List

inductive Res (V : Type) where
  | error (code : Int)
  | breaking
  | success
  | value (v : V)
  deriving DecidableEq

inductive Action (A : Type) where
  | cut
  | node (a : A)

def Action.isCut {A : Type} : Action A → Bool
  | .cut => true
  | .node _ => false

section Actions
variable {A V σ : Type} (evaluate : A → Nat → Bool → σ → Res V × σ) (zero : V) (applyAll : Nat)

/- The recovery actions below an index, downwards. What they return is only logged. -/
def recover (reco : List A) : Nat → σ → σ
  | 0,s => s
  | i+1,s =>
    match reco[i]? with
    | none => s
    | some a => recover reco i (evaluate a 0 false s).2

/- The results of all actions but the last are discarded. -/
def actionsFrom (reco : List A) (i : Nat) (cutFlag : Bool) (res : V) : List (Action A) → σ → Res V × σ
  | [],s => (.value res,s)
  | .cut::rest,s => actionsFrom reco (i+1) true res rest s
  | .node a::rest,s =>
    match evaluate a applyAll (!rest.isEmpty) s with
    | (.error code,s) =>
      (.error (if cutFlag then CUT_ACTION_PROCESSED_ERR else code),
        if code = RETRY_WITHOUT_RECOVERY_ERR then s else recover evaluate reco (min reco.length (i+1)) s)
    | (.value v,s) => actionsFrom reco (i+1) cutFlag v rest s
    | ended => ended

def evaluateActions (actions : List (Action A)) (reco : List A) (s : σ) : Res V × σ :=
  actionsFrom evaluate applyAll reco 0 false zero actions s

/- Actions with more behind them that are evaluated and neither fail nor end the rule. -/
def passing : List (Action A) → σ → Option σ
  | [],s => some s
  | .cut::rest,s => passing rest s
  | .node a::rest,s =>
    match evaluate a applyAll true s with
    | (.value _,s) => passing rest s
    | _ => none

variable {evaluate applyAll}

theorem recoverAll {reco} {k} (inside : k ≤ reco.length) (s) :
    recover evaluate reco k s = (reco.take k).reverse.foldl (fun s a => (evaluate a 0 false s).2) s := by
  induction k generalizing s with
  | zero => rfl
  | succ k ih =>
    rw [recover,take_add_one,getElem?_eq_getElem inside,reverse_append]
    exact ih (Nat.le_of_succ_le inside) _

theorem actionsFail {reco} {a back code s' front} (i cutFlag res) {s before}
    (passed : passing evaluate applyAll front s = some before)
    (failed : evaluate a applyAll (!back.isEmpty) before = (.error code,s')) :
    actionsFrom evaluate applyAll reco i cutFlag res (front ++ .node a::back) s =
      (.error (if cutFlag || front.any Action.isCut then CUT_ACTION_PROCESSED_ERR else code),
        if code = RETRY_WITHOUT_RECOVERY_ERR then s' else recover evaluate reco
          (min reco.length (i+front.length+1)) s') := by
  induction front generalizing i cutFlag res s with
  | nil =>
    cases passed
    simp [actionsFrom,failed]
  | cons x front ih =>
    have size : i+(x::front).length = i+1+front.length := by rw [length_cons]; omega
    rw [size]
    cases x with
    | cut =>
      refine (ih (i+1) true res passed).trans ?_
      simp [Action.isCut]
    | node b =>
      unfold passing at passed
      split at passed
      · rename_i v t ran
        have more : (!(front ++ Action.node a::back).isEmpty) = true := by simp
        rw [cons_append,actionsFrom,more,ran]
        exact ih (i+1) cutFlag v passed
      · cases passed

end Actions

def logged (a : Int) (_ : Nat) (_ : Bool) (trace : List Int) : Res Unit × List Int :=
  (if a < 0 then .error a else .value (),trace ++ [a])

end Irods.RecoveryChain
