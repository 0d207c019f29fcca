import Irods.GenQuery1Generate

/-! The operator of a condition: insertWhere copies it to a local array of 20 characters, up to the first
quote. The loop looks for the quote behind each copied character, so it does not see a quote in front. -/
namespace Irods.GenQuery1Operator
open CText StringOpr StaticMemory GenQuery1Setup GenQuery1Tables GenQuery1Conditions GenQuery1Generate List

-- The characters from the condition on, and how many of the array are free; none writes outside of it.
def copyOperator (m : Memory) (cpFirstQuote : Nat) : Nat → Nat → Text → Option Text
  | 0,_,_ => none
  | free+1,cp1,tmpStr =>
    if cp1+1 = cpFirstQuote then some (tmpStr ++ [m cp1]) else copyOperator m cpFirstQuote free (cp1+1)
      (tmpStr ++ [m cp1])

-- What a call does with the array, if it gets there.
def operatorCopy (m : Memory) (st : State) (condition : Text) : Option (Option Text) :=
  if leads (lit "in") (lit "IN") condition ∨ leads (lit "between") (lit "BETWEEN") condition ∨
      condition = lit "IS NULL" ∨ condition = lit "IS NOT NULL" then none
  else match firstToLast condition with
    | none => none
    | some (head,v) =>
      if v.length+1+(st.b.bindIx+1) > MAX_SQL_SIZE_GQ+90 ∨ st.b.cllBindVars.length+1 ≥ MAX_BIND_VARS ∨
      head.length > 10 then none
      else some (copyOperator m head.length 19 0 [' '])

def Standing (m : Memory) (cp1 : Nat) (t : Text) : Prop := (List.range' cp1 t.length).map m = t

theorem copyStops {m} {head} {free cp1 tmpStr} (standing : Standing m cp1 head) (nonempty : head ≠ [])
    (room : head.length ≤ free) : copyOperator m (cp1+head.length) free cp1 tmpStr = some (tmpStr ++ head) := by
  induction head generalizing free cp1 tmpStr with
  | nil => contradiction
  | cons c head ih =>
    obtain ⟨free,rfl⟩ : ∃ n, free = n+1 := ⟨free-1,by simp at room; omega⟩
    obtain ⟨first,rest⟩ : m cp1 = c ∧ Standing m (cp1+1) head := by
      simpa [Standing,range'_succ] using standing
    rw [copyOperator,first]
    cases head with
    | nil => simp
    | cons d head =>
      have onward := @ih free (cp1+1) (tmpStr ++ [c]) rest (by simp) (by simpa using room)
      have place : cp1+(c::d::head).length = cp1+1+(d::head).length := by simp; omega
      rw [place,onward]
      simp

theorem standingFront {m cp1} {a t : Text} (standing : Standing m cp1 t) (front : a <+: t) : Standing m cp1 a := by
  obtain ⟨b,rfl⟩ := front
  rw [Standing,length_append,← range'_append_1,map_append] at standing
  exact (append_inj standing (by simp)).1

theorem copyRunsOn (m free cp1 tmpStr) : copyOperator m 0 free cp1 tmpStr = none := by
  induction free generalizing cp1 tmpStr with
  | zero => rfl
  | succ _ ih => exact ih ..

theorem foundHead {condition head v} (found : firstToLast condition = some (head,v)) :
    head = condition.takeWhile (· != quote) ∧ condition ≠ [] := by
  unfold firstToLast at found
  dsimp only at found
  split at found
  · obtain ⟨rfl,_⟩ := Prod.mk.inj (Option.some.inj found)
    refine ⟨rfl,?_⟩
    rintro rfl
    contradiction
  · contradiction

theorem copyExactly {m condition head v} (standing : Standing m 0 condition)
    (found : firstToLast condition = some (head,v))
    (short : ¬head.length > 10) : copyOperator m head.length 19 0 [' '] = if head.isEmpty then
      none else some (' '::head) := by
  cases head with
  | nil => exact copyRunsOn ..
  | cons c head =>
    have front := (foundHead found).1 ▸ takeWhile_prefix _
    have copied := @copyStops m _ 19 0 [' '] (standingFront standing front) (cons_ne_nil c head) (by omega)
    rwa [Nat.zero_add] at copied

/- The model of insertWhere goes on with what the loop has copied. -/
def goOn (s : Setup) (v : Text) (st : State) : Option Text → Outcome State
  | none => .undefined
  | some tmpStr => do
    let st ← appendOperator s st tmpStr.tail v
    if checkCondition tmpStr = 0 then .done st else .failed (checkCondition tmpStr) st.b

theorem operatorUsed {s m st condition copied} (standing : Standing m 0 condition)
    (run : operatorCopy m st condition = some copied) :
    ∃ st' v, insertWhere s st condition = goOn s v st' copied := by
  unfold operatorCopy at run
  split at run
  · contradiction
  rename_i plain
  simp only [not_or] at plain
  split at run
  · contradiction
  rename_i head v found
  split at run
  · contradiction
  rename_i passed
  simp only [not_or] at passed
  rw [copyExactly standing found passed.2.2] at run
  cases run
  unfold insertWhere
  rw [if_neg plain.1,if_neg plain.2.1,if_neg (not_or.mpr plain.2.2)]
  obtain ⟨bound,pushed⟩ : ∃ bound, pushBind { st with b := { st.b with
      bindVars := store st.b.bindVars (st.b.bindIx+1) v
      bindIx := st.b.bindIx+1+v.length+1 } } (.bindVar (st.b.bindIx+1)) = .done bound := ⟨_,if_neg passed.2.1⟩
  simp only [found,pushed]
  rw [if_neg passed.1]
  refine ⟨bound,v,(if_neg passed.2.2).trans ?_⟩
  cases head <;> rfl

structure Handled (m : Memory) (st : State) (condition : Text) : Prop where
  inside : operatorCopy m st condition ≠ some none
  whole : ∀ {t}, operatorCopy m st condition = some (some t) → t = ' '::condition.takeWhile (· != quote) ∧ t.length ≤ 11

theorem quoteLeads {lower upper t : Text} (low : lower.isPrefixOf (quote::t) = false)
    (up : upper.isPrefixOf (quote::t) = false) :
    leads lower upper (quote::t) = false := by
  have start : ((quote::t).takeWhile (· == ' ')).length = 0 := rfl
  simp only [leads,strstr,low,up]
  cases strstr t lower <;> cases strstr t upper <;> rfl

theorem quoteInFront {condition v} (found : firstToLast condition = some ([],v)) : ∃ t, condition = quote::t := by
  obtain ⟨head,nonempty⟩ := foundHead found
  obtain ⟨c,t,rfl⟩ := exists_cons_of_ne_nil nonempty
  by_cases first : c = quote
  · exact ⟨t,by rw [first]⟩
  · simp [first] at head

theorem operatorHandledExactly {m condition} (standing : Standing m 0 condition) (st) :
    Handled m st condition ↔ ¬∃ v, firstToLast condition = some ([],v) ∧
      v.length+1+(st.b.bindIx+1) ≤ MAX_SQL_SIZE_GQ+90 ∧ st.b.cllBindVars.length+1 < MAX_BIND_VARS := by
  constructor
  · rintro handled ⟨v,found,_,_⟩
    obtain ⟨t,rfl⟩ := quoteInFront found
    apply handled.inside
    have isNull : quote::t ≠ lit "IS NULL" := nofun
    have isNotNull : quote::t ≠ lit "IS NOT NULL" := nofun
    have unlisted : leads (lit "in") (lit "IN") (quote::t) = false := quoteLeads rfl rfl
    have unbounded : leads (lit "between") (lit "BETWEEN") (quote::t) = false := quoteLeads rfl rfl
    simp only [operatorCopy,unlisted,unbounded,isNull,isNotNull,found,copyRunsOn,length_nil]
    rw [if_neg (by simp),if_neg (by omega)]
  · intro opened
    have reached : ∀ {copied}, operatorCopy m st condition = some copied →
        copied = some (' '::condition.takeWhile (· != quote)) ∧ (condition.takeWhile (· != quote)).length ≤ 10 := by
      intro copied run
      unfold operatorCopy at run
      split at run
      · contradiction
      split at run
      · contradiction
      rename_i head v found
      split at run
      · contradiction
      rename_i passed
      simp only [not_or] at passed
      rw [copyExactly standing found passed.2.2] at run
      have nonempty : head ≠ [] := by
        rintro rfl
        exact opened ⟨v,found,by omega,by omega⟩
      rw [← (foundHead found).1]
      cases run
      exact ⟨by simp [nonempty],by omega⟩
    refine ⟨fun overrun => ?_,fun copied => ?_⟩
    · exact absurd (reached overrun).1 (by simp)
    obtain ⟨same,short⟩ := reached copied
    cases same
    exact ⟨rfl,Nat.succ_le_succ short⟩

def freshState : State := ⟨startQuery 0,freshBinds⟩
def following (t : Text) : Memory := fun i => t.getD i NUL

theorem comparisonHandled : Handled (following (lit "= 'x'")) freshState (lit "= 'x'") := by
  have standing : Standing (following (lit "= 'x'")) 0 (lit "= 'x'") := rfl
  exact (operatorHandledExactly standing freshState).mpr fun ⟨_,found,_⟩ => absurd (foundHead found).1 (by decide)

theorem quotedOverruns : ¬Handled (following (lit "'x'")) freshState (lit "'x'") := fun handled => handled.inside rfl

end Irods.GenQuery1Operator
