import Irods.CondIndex

/-! The alternatives one execRule call tries, by the rule execution information each of them starts from. -/
namespace Irods.RuleAlternatives
open CondIndex List

def saving (argc : Nat) : Mode := ⟨argc,0,true⟩

structure Attempt (V ρ : Type) where
  before : ρ
  result : Res V
  after : ρ

def retries {V : Type} : Res V → Bool
  | .error code => code == RETRY_WITHOUT_RECOVERY_ERR
  | _ => false

def goesOn {V : Type} : Res V → Bool
  | .error code => code != CUT_ACTION_PROCESSED_ERR
  | _ => false

section Alternatives
variable {V ρ γ : Type} (sem : Semantics V ρ γ) (rules : List RuleDesc) (argc : Nat) (nodes : Nat → RuleIndexListNode)

def alternative (n : RuleIndexListNode) : Option (Loop V ρ γ → Res V × Loop V ρ γ) :=
  match n.condIndex with
  | some civ => some (execRuleFromCondIndex sem rules (saving argc) nodes civ)
  | none =>
    if (getRuleDesc rules n.ruleIndex).params.length ≠ argc then
      none else some (execRuleNodeRes sem rules (saving argc) n.ruleIndex)

def attempts : List RuleIndexListNode → Loop V ρ γ → List (Attempt V ρ)
  | [],_ => []
  | n::rest,l =>
    let l := enterRound (saving argc) l
    match alternative sem rules argc nodes n with
    | none => attempts rest l
    | some run =>
      let next := leaveRound (saving argc) (run l)
      ⟨l.state.rei,(run l).1,(run l).2.state.rei⟩::if next.2 then [] else attempts rest next.1

def handed (e : ρ) (l : Loop V ρ γ) : Loop V ρ γ := { l with state := { l.state with rei := e } }
def due (start : ρ) (res : Res V) (after : ρ) : ρ := if retries res then after else start

def Restored (start : ρ) : ρ → List (Attempt V ρ) → Prop
  | _,[] => True
  | e,a::rest => a.before = e ∧ Restored start (due start a.result a.after) rest

/- Once a rule has asked for no recovery, a later failure leaves the information as at the start. -/
def Unspoiled (start : ρ) : List RuleIndexListNode → Loop V ρ γ → Prop
  | [],_ => True
  | n::rest,l =>
    match alternative sem rules argc nodes n with
    | none => Unspoiled start rest l
    | some run =>
      let next := (leaveRound (saving argc) (run l)).1
      let e := due start (run l).1 next.state.rei
      goesOn (run l).1 = true →
      (next.retry = true → rest.any (alternative sem rules argc nodes · |>.isSome) = true → next.state.rei = e) ∧
        Unspoiled start rest (handed e next)

variable {sem rules argc nodes}

-- Running a rule touches the state and the list of what ran.
def Ran (l l' : Loop V ρ γ) : Prop := ∃ state ran, l' = { l with state, ran }

theorem nodeFrame (i l) : Ran l (execRuleNodeRes sem rules (saving argc) i l).2 := by
  unfold execRuleNodeRes
  dsimp only
  split
  · exact ⟨_,_,rfl⟩
  · split
    · exact ⟨_,_,rfl⟩
    · exact ⟨_,_,rfl⟩

theorem alternativeFrame {n run} (found : alternative sem rules argc nodes n = some run) (l) : Ran l (run l).2 := by
  unfold alternative at found
  split at found
  · cases found
    unfold execRuleFromCondIndex
    split
    · exact ⟨_,_,rfl⟩
    split
    · exact ⟨_,_,rfl⟩
    · split
      · exact ⟨_,_,rfl⟩
      · exact nodeFrame ..
    · exact ⟨_,_,rfl⟩
  · split at found
    · cases found
    · cases found
      exact nodeFrame ..

theorem leaves (argc res) (l : Loop V ρ γ) : (leaveRound (saving argc) (res,l)).2 = !goesOn res ∧
    (goesOn res = true →
      (leaveRound (saving argc) (res,l)).1 = { l with status := some res, retry := l.retry || retries res }) := by
  unfold leaveRound
  cases res with
  | error code =>
    by_cases again : code = RETRY_WITHOUT_RECOVERY_ERR
    · simp [again,goesOn,retries,RETRY_WITHOUT_RECOVERY_ERR,CUT_ACTION_PROCESSED_ERR]
    · by_cases cut : code = CUT_ACTION_PROCESSED_ERR <;> simp_all [goesOn,retries]
  | _ => simp [saving,goesOn]

theorem restoredExactly (start) (entries) : ∀ e l, l.saved = some start → (l.retry = false → e = start) →
    (Restored start e (attempts sem rules argc nodes entries l) ↔
      (l.retry = true → entries.any (alternative sem rules argc nodes · |>.isSome) = true → l.state.rei = e) ∧
        Unspoiled sem rules argc nodes start entries (handed e l)) := by
  induction entries with
  | nil => simp [attempts,Restored,Unspoiled]
  | cons n _ ih =>
    intro e l saved unset
    have enters : enterRound (saving argc) l = if l.retry then l else handed start l := by
      unfold enterRound
      cases set : l.retry <;> simp [saving,saved,handed,set]
    simp only [attempts,Unspoiled,any_cons]
    cases found : alternative sem rules argc nodes n with
    | none =>
      rw [enters]
      cases set : l.retry with
      | true => simpa [set] using ih e l saved unset
      | false =>
        cases unset set
        simpa [handed] using ih start (handed start l) saved fun _ => rfl
    | some run =>
      have agree : (enterRound (saving argc) l).state.rei = e ↔ (l.retry = true → l.state.rei = e) := by
        rw [enters]
        cases set : l.retry with
        | true => simp
        | false => simp [handed,unset set]
      simp only [Restored,agree,Option.isSome_some,Bool.true_or,forall_const]
      refine and_congr_right fun held => ?_
      have same : enterRound (saving argc) l = handed e l := by
        rw [enters]
        cases set : l.retry with
        | true => simp [handed,← held set]
        | false => simp [unset set]
      rw [same]
      obtain ⟨stops,next⟩ := leaves argc (run (handed e l)).1 (run (handed e l)).2
      rw [stops]
      cases on : goesOn (run (handed e l)).1 with
      | false => simp [Restored]
      | true =>
        simp only [forall_const,next on]
        have kept : (run (handed e l)).2.saved = some start := by
          obtain ⟨_,_,same⟩ := alternativeFrame found (handed e l)
          rw [same]
          exact saved
        refine ih _ _ kept fun off => ?_
        simp [due,(Bool.or_eq_false_iff.1 off).2]

theorem alternativesRestoredExactly (entries) (s : State V ρ γ) :
    Restored s.rei s.rei (attempts sem rules argc nodes entries (startOf s)) ↔
    Unspoiled sem rules argc nodes s.rei entries (enterRound (saving argc) (startOf s)) := by
  have saved : attempts sem rules argc nodes entries (startOf s) =
    attempts sem rules argc nodes entries (enterRound (saving argc) (startOf s)) := by
    cases entries <;> rfl
  rw [saved,restoredExactly s.rei entries s.rei (enterRound (saving argc) (startOf s)) rfl fun _ => rfl]
  simp [startOf,enterRound,saving,handed]

/-! The alternatives are what the loop of execRule goes through: it answers with the result of the last one. -/
def settled : Option (Res V) → Res V
  | none => .error NO_RULE_FOUND_ERR
  | some .success => .int 0
  | some r => r

theorem roundOfAlternative (n l) :
    roundOf sem rules (saving argc) nodes n l = match alternative sem rules argc nodes n with
    | none => (enterRound (saving argc) l,false)
    | some run => leaveRound (saving argc) (run (enterRound (saving argc) l)) := by
  unfold roundOf alternative
  cases n.condIndex with
  | none =>
    by_cases other : (getRuleDesc rules n.ruleIndex).params.length ≠ argc
    · exact (if_pos other).trans (by simp [if_pos other])
    · exact (if_neg other).trans (by simp [if_neg other])
  | some _ => rfl

-- Before the loop has ended no rule succeeded.
def Open (l : Loop V ρ γ) : Prop := l.success = false ∧ ∀ r, l.status = some r → ∃ code, r = .error code

theorem enterKeeps (argc) (l : Loop V ρ γ) :
    (enterRound (saving argc) l).success = l.success ∧ (enterRound (saving argc) l).status = l.status := by
  unfold enterRound
  split
  · split
    · exact ⟨rfl,rfl⟩
    · split
      · exact ⟨rfl,rfl⟩
      · exact ⟨rfl,rfl⟩
  · exact ⟨rfl,rfl⟩

theorem leftAnswer {res} {l : Loop V ρ γ} (failed : l.success = false) (last : goesOn res = false) :
    answer (saving argc) (leaveRound (saving argc) (res,l)).1 = settled (some res) := by
  cases res with
  | error code =>
    have cut : code = CUT_ACTION_PROCESSED_ERR := by simpa [goesOn] using last
    simp [leaveRound,cut,answer,failed,settled,CUT_ACTION_PROCESSED_ERR,RETRY_WITHOUT_RECOVERY_ERR]
  | _ => simp [leaveRound,saving,answer,settled]

theorem goesOnError {res : Res V} (on : goesOn res = true) : ∃ code, res = .error code := by
  cases res with
  | error code => exact ⟨code,rfl⟩
  | _ => cases on

theorem leftOpen {res} {l : Loop V ρ γ} (failed : l.success = false) (on : goesOn res = true) :
    Open (leaveRound (saving argc) (res,l)).1 ∧ (leaveRound (saving argc) (res,l)).1.status = some res := by
  rw [(leaves argc res l).2 on]
  obtain ⟨code,rfl⟩ := goesOnError on
  exact ⟨⟨failed,fun r given => ⟨code,(Option.some.inj given).symm⟩⟩,rfl⟩

theorem roundsCons (n rest l) : rounds sem rules (saving argc) nodes (n::rest) l =
    bif (roundOf sem rules (saving argc) nodes n l).2 then (roundOf sem rules (saving argc) nodes n l).1
    else rounds sem rules (saving argc) nodes rest (roundOf sem rules (saving argc) nodes n l).1 := by
  rw [rounds]
  rcases roundOf sem rules (saving argc) nodes n l with ⟨l',_ | _⟩ <;> rfl

theorem roundsAnswer (entries) : ∀ l : Loop V ρ γ, Open l →
    answer (saving argc) (rounds sem rules (saving argc) nodes entries l) =
      settled (((attempts sem rules argc nodes entries l).getLast?.map (·.result)).or l.status) := by
  induction entries with
  | nil =>
    intro l ⟨failed,errors⟩
    cases given : l.status with
    | none => simp [rounds,attempts,answer,saving,settled,given,failed]
    | some r =>
      obtain ⟨code,rfl⟩ := errors r given
      simp [rounds,attempts,answer,saving,settled,given,failed]
  | cons n rest ih =>
    intro l ⟨failed,errors⟩
    obtain ⟨success,status⟩ := enterKeeps argc l
    rw [roundsCons,roundOfAlternative,attempts]
    cases found : alternative sem rules argc nodes n with
    | none =>
      have rest := ih (enterRound (saving argc) l) ⟨success.trans failed,fun r given => errors r (status ▸ given)⟩
      rw [status] at rest
      exact rest
    | some run =>
      have still : (run (enterRound (saving argc) l)).2.success = false := by
        obtain ⟨_,_,same⟩ := alternativeFrame found (enterRound (saving argc) l)
        rw [same]
        exact success.trans failed
      dsimp only
      generalize run (enterRound (saving argc) l) = tried at still ⊢
      obtain ⟨res,after⟩ := tried
      rw [(leaves argc res after).1]
      cases on : goesOn res with
      | false => exact leftAnswer still on
      | true =>
        obtain ⟨opened,last⟩ := @leftOpen V ρ γ argc res after still on
        refine (ih _ opened).trans (congrArg settled ?_)
        rw [last,if_neg (by decide),getLast?_cons]
        cases (attempts sem rules argc nodes rest (leaveRound (saving argc) (res,after)).1).getLast? <;> rfl

theorem execRuleAnswers {list : RuleIndexList} {s : State V ρ γ} {outcome}
    (runs : execRule sem rules (saving argc) list s = some outcome) :
    ∃ entries, chain list.nodes list.fresh list.head = some entries ∧
      outcome.result = settled ((attempts sem rules argc list.nodes entries (startOf s)).getLast?.map (·.result)) := by
  obtain ⟨entries,walked,rfl⟩ := Option.map_eq_some_iff.mp runs
  refine ⟨entries,walked,?_⟩
  have answers := @roundsAnswer V ρ γ sem rules argc list.nodes entries (startOf s) ⟨rfl,fun _ given => nomatch given⟩
  rwa [show (startOf s).status = none from rfl,Option.or_none] at answers

end Alternatives

def threeBodies : Semantics Unit Nat Unit where
  evaluateExpression3 _ _ _ _ := .bool true
  runBody i _ s :=
    (if i = 0 then .error RETRY_WITHOUT_RECOVERY_ERR else if i = 1 then .error (-1) else .success,
      { s with rei := s.rei + 1 })

def ruleAt (i : Nat) : RuleIndexListNode := ⟨i,none,none⟩

theorem secondReachesThird :
    ¬ Restored 0 0 (attempts threeBodies [] 0 ruleAt [ruleAt 0,ruleAt 1,ruleAt 2] (startOf ⟨[],0,()⟩)) :=
  fun restored => absurd restored.2.2.1 (by decide)

end Irods.RuleAlternatives
