import Irods.GenQuery1Assembly

/-! Two calls side by side. What a call answers depends on its texts, on how far it is in the
static arrays and on how many values are bound, never on what the arrays hold. -/
namespace Irods.GenQuery1Twins
open CText StringOpr StaticMemory GenQuery1Setup GenQuery1Tables GenQuery1Conditions GenQuery1Generate GenQuery1Forms
    List
  GenQuery1Tracks GenQuery1Client GenQuery1Assembly

inductive Agree {α β : Type} (R : α → β → Prop) : Outcome α → Outcome β → Prop where
  | done {a b} : R a b → Agree R (.done a) (.done b)
  | failed {code b c} : Agree R (.failed code b) (.failed code c)
  | undefined : Agree R .undefined .undefined

theorem agreeBind {α β γ δ} {R S x y}
    {f : α → Outcome γ} {g : β → Outcome δ} (first : Agree R x y)
    (rest : ∀ a b, x = .done a → y = .done b → R a b → Agree S (f a) (g b)) : Agree S (x >>= f) (y >>= g) := by
  cases first with
  | done related => exact rest _ _ rfl rfl related
  | failed => exact .failed
  | undefined => exact .undefined

theorem agreeDone {α β} {R S} {x : Outcome α} {y : Outcome β} (agree : Agree R x y)
    (more : ∀ a b, x = .done a → y = .done b → R a b → S a b) : Agree S x y := by
  cases agree with
  | done related => exact .done (more _ _ rfl rfl related)
  | failed => exact .failed
  | undefined => exact .undefined

structure Twin (st st' : State) : Prop where
  query : st.q = st'.q
  count : st.b.cllBindVars.length = st'.b.cllBindVars.length

theorem appendAgree {st st'} (twin : Twin st st') (ts) : Agree Twin (appendWhere st ts) (appendWhere st' ts) := by
  unfold appendWhere
  rw [← twin.query]
  split
  · exact .done ⟨rfl,twin.count⟩
  · exact .failed

theorem pushAgree {st st'} (twin : Twin st st') (p p') : Agree Twin (pushBind st p) (pushBind st' p') := by
  unfold pushBind
  rw [← twin.count]
  split
  · exact .failed
  · exact .done ⟨twin.query,by simp [twin.count]⟩

inductive StoreKind where
  | tooLong
  | outside
  | stored
  deriving DecidableEq

def storeKind (size ix : Nat) (v : Text) : StoreKind :=
  if !(rstrcpy (rstrncat [] v v.length MAX_SQL_SIZE_GQ).1 (size-ix)).2 then .tooLong
  else if ix+v.length ≥ size then .outside else .stored

theorem storeKindOf (size ix m v) :
    (∃ m', storeKind size ix v = .tooLong ∧ storeQuoted size ix m v = .tooLong m') ∨
    (storeKind size ix v = .outside ∧ storeQuoted size ix m v = .outside) ∨
    (∃ m', storeKind size ix v = .stored ∧ storeQuoted size ix m v = .stored m') := by
  unfold storeKind storeQuoted
  dsimp only
  split
  · exact .inl ⟨_,rfl,rfl⟩
  split
  · exact .inr (.inl ⟨rfl,rfl⟩)
  · exact .inr (.inr ⟨_,rfl,rfl⟩)

def SameStores (size : Nat) : Nat → List Text → Nat → List Text → Prop
  | _,[],_,[] => True
  | i,v::vs,j,w::ws => storeKind size i v = storeKind size j w ∧ SameStores size (i+v.length+1) vs (j+w.length+1) ws
  | _,_,_,_ => False

theorem sameStoresSelf (size i vs) : SameStores size i vs i vs := by
  induction vs generalizing i with
  | nil => trivial
  | cons v _ ih => exact ⟨rfl,ih _⟩

theorem addInStringsAgree {st st' first vs ws} (twin : Twin st st')
    (same : SameStores (MAX_SQL_SIZE_GQ*2) st.b.inStrIx vs st'.b.inStrIx ws) :
    Agree Twin (addInStrings st first vs) (addInStrings st' first ws) := by
  induction vs generalizing st st' first ws with
  | nil =>
    cases ws with
    | nil => exact .done twin
    | cons w ws => exact same.elim
  | cons v _ ih =>
    cases ws with
    | nil => exact same.elim
    | cons w _ =>
      refine agreeBind (appendAgree twin _) ?_
      intro one one' ran ran' twin
      have left := (appendDone ran).2
      have right := (appendDone ran').2
      obtain ⟨kind,rest⟩ := same
      rw [← left,← right] at kind
      rcases storeKindOf (MAX_SQL_SIZE_GQ*2) one.b.inStrIx one.b.inStrings v with ⟨m,k,run⟩ | ⟨k,run⟩ | ⟨m,k,run⟩ <;>
        rcases storeKindOf (MAX_SQL_SIZE_GQ*2) one'.b.inStrIx one'.b.inStrings w with ⟨m',k',run'⟩ | ⟨k',run'⟩ | ⟨_,k',
            run'⟩ <;>
        rw [k,k'] at kind <;> try contradiction
      · rw [run,run']
        exact .failed
      · rw [run,run']
        exact .undefined
      · rw [run,run']
        refine agreeBind (R := Twin) ?_ ?_
        · refine pushAgree ?_ _ _
          exact ⟨twin.query,twin.count⟩
        intro _ _ _ _ twin
        refine ih ⟨twin.query,twin.count⟩ ?_
        rw [left,right]
        exact rest

theorem addBetweenStringsAgree {st st' i j first vs ws} (twin : Twin st st')
    (same : SameStores MAX_SQL_SIZE_GQ i vs j ws) :
    Agree Twin (addBetweenStrings st i first vs) (addBetweenStrings st' j first ws) := by
  induction vs generalizing st st' i j first ws with
  | nil =>
    cases ws with
    | nil => exact .done twin
    | cons w ws => exact same.elim
  | cons v _ ih =>
    cases ws with
    | nil => exact same.elim
    | cons w _ =>
      refine agreeBind (appendAgree twin _) ?_
      intro one one' _ _ twin
      obtain ⟨kind,rest⟩ := same
      rcases storeKindOf MAX_SQL_SIZE_GQ i one.b.betweenStrings v with ⟨m,k,run⟩ | ⟨k,run⟩ | ⟨m,k,run⟩ <;>
        rcases storeKindOf MAX_SQL_SIZE_GQ j one'.b.betweenStrings w with ⟨m',k',run'⟩ | ⟨k',run'⟩ | ⟨_,k',run'⟩ <;>
        rw [k,k'] at kind <;> try contradiction
      · rw [run,run']
        exact .failed
      · rw [run,run']
        exact .undefined
      · rw [run,run']
        refine agreeBind (R := Twin) ?_ ?_
        · refine pushAgree ?_ _ _
          exact ⟨twin.query,twin.count⟩
        · intro _ _ _ _ twin
          exact ih ⟨twin.query,twin.count⟩ rest

structure Alike (s : Setup) (p p' : Text) : Prop where
  isIn : leads (lit "in") (lit "IN") p = leads (lit "in") (lit "IN") p'
  isBetween : leads (lit "between") (lit "BETWEEN") p = leads (lit "between") (lit "BETWEEN") p'
  isNull : p = lit "IS NULL" ↔ p' = lit "IS NULL"
  isNotNull : p = lit "IS NOT NULL" ↔ p' = lit "IS NOT NULL"
  strings : (quoted p).length = (quoted p').length
  head : (firstToLast p).map Prod.fst = (firstToLast p').map Prod.fst
  paths : ∀ head v v', firstToLast p = some (head,v) → firstToLast p' = some (head,v') →
    (strstr (' '::head) (lit "parent_of")).isSome = true →
    (parentPaths (s.split v)).length = (parentPaths (s.split v')).length

theorem alikeSelf (s p) : Alike s p p where
  isIn := rfl
  isBetween := rfl
  isNull := .rfl
  isNotNull := .rfl
  strings := rfl
  head := rfl
  paths := by
    intro _ v _ one two _
    rw [one] at two
    cases two
    rfl

structure Sizes where
  bindIx : Nat
  inStrIx : Nat
  condIx : Nat

def sizesOf (b : Binds) : Sizes := ⟨b.bindIx,b.inStrIx,b.conditionsForBindIx⟩

def PlainTooLong (bindIx : Nat) (p : Text) : Prop :=
  ∃ r, firstToLast p = some r ∧ r.2.length+1+(bindIx+1) > MAX_SQL_SIZE_GQ+90

structure Checks (s : Setup) (x y : Sizes) (p p' : Text) : Prop where
  alike : Alike s p p'
  listed : leads (lit "in") (lit "IN") p = true →
    SameStores (MAX_SQL_SIZE_GQ*2) x.inStrIx (quoted p) y.inStrIx (quoted p')
  bounded : leads (lit "between") (lit "BETWEEN") p = true → SameStores MAX_SQL_SIZE_GQ 0 (quoted p) 0 (quoted p')
  plain : PlainTooLong x.bindIx p ↔ PlainTooLong y.bindIx p'

section
variable {st st'} (twin : Twin st st')
include twin

theorem inListAgree {p p'} (strings : (quoted p).length = (quoted p').length)
    (same : SameStores (MAX_SQL_SIZE_GQ*2) st.b.inStrIx (quoted p) st'.b.inStrIx (quoted p')) :
    Agree Twin (addInClauseToWhereForIn st p) (addInClauseToWhereForIn st' p') := by
  refine agreeBind (appendAgree twin _) ?_
  intro _ _ ran ran' twin
  rw [← (appendDone ran).2,← (appendDone ran').2] at same
  refine agreeBind (addInStringsAgree twin same) ?_
  intro _ _ _ _ twin
  refine agreeBind (appendAgree twin _) ?_
  intro _ _ _ _ twin
  have empty : (quoted p).isEmpty = (quoted p').isEmpty := by
    rw [Bool.eq_iff_iff,isEmpty_iff_length_eq_zero,isEmpty_iff_length_eq_zero,strings]
  rw [empty]
  split
  · exact .failed
  · exact .done twin

theorem betweenAgree {p p'} (strings : (quoted p).length = (quoted p').length)
    (same : SameStores MAX_SQL_SIZE_GQ 0 (quoted p) 0 (quoted p')) :
    Agree Twin (addBetweenClauseToWhere st p) (addBetweenClauseToWhere st' p') := by
  refine agreeBind (appendAgree twin _) ?_
  intro _ _ _ _ twin
  refine agreeBind (addBetweenStringsAgree twin same) ?_
  intro _ _ _ _ twin
  rw [strings]
  split
  · exact .done twin
  · exact .failed

theorem parentOfAgree {s v v'} (paths : (parentPaths (s.split v)).length = (parentPaths (s.split v')).length) :
    Agree Twin (addInClauseToWhereForParentOf s st v) (addInClauseToWhereForParentOf s st' v') := by
  have empty : ∀ b : Binds, (if b.resetVector then [] else b.inStringVec) = [] := by
    intro b
    split
    · rfl
    · rename_i never
      exact b.unused (by simpa using never)
  have kept : ∀ b : Binds, (if b.resetVector then b.cllBindVars.map BindPtr.cleared else b.cllBindVars).length =
      b.cllBindVars.length := by
    intro b
    split
    · exact length_map _
    · rfl
  unfold addInClauseToWhereForParentOf
  simp only [empty,nil_append,paths]
  refine agreeBind (R := Twin) ?_ ?_
  · refine appendAgree ?_ _
    exact ⟨twin.query,by simp only [kept,twin.count]⟩
  intro _ _ _ _ after
  rw [kept,kept,twin.count]
  split
  · exact .failed
  · refine .done ⟨after.query,?_⟩
    simp [kept,twin.count]

theorem operatorAgree {s head v v'} (paths : (strstr (' '::head) (lit "parent_of")).isSome = true →
      (parentPaths (s.split v)).length = (parentPaths (s.split v')).length) :
    Agree Twin (appendOperator s st head v) (appendOperator s st' head v') := by
  unfold appendOperator
  split
  · unfold appendBeginOf
    rw [← twin.query]
    exact appendAgree twin _
  split
  · rename_i parents
    refine parentOfAgree ?_ (paths parents)
    exact ⟨twin.query,by simp only [length_dropLast,twin.count]⟩
  · exact appendAgree twin _

theorem insertWhereAgree {s p p'} (checks : Checks s (sizesOf st.b) (sizesOf st'.b) p p') :
    Agree Twin (insertWhere s st p) (insertWhere s st' p') := by
  have alike := checks.alike
  have null := or_congr alike.isNull alike.isNotNull
  unfold insertWhere
  rw [← alike.isIn,← alike.isBetween]
  split
  · rename_i isIn
    exact inListAgree twin alike.strings (checks.listed isIn)
  split
  · rename_i isBetween
    exact betweenAgree twin alike.strings (checks.bounded isBetween)
  by_cases isNull : p = lit "IS NULL" ∨ p = lit "IS NOT NULL"
  · rw [if_pos isNull,if_pos (null.mp isNull)]
    have same : p = p' := by
      rcases isNull with rfl | rfl
      · exact (alike.isNull.mp rfl).symm
      · exact (alike.isNotNull.mp rfl).symm
    rw [same]
    exact appendAgree twin _
  rw [if_neg isNull,if_neg fun yes => isNull (null.mpr yes)]
  have heads := alike.head
  have plain := checks.plain
  have paths := alike.paths
  unfold PlainTooLong at plain
  cases one : firstToLast p with
  | none =>
    cases two : firstToLast p' with
    | none => exact .failed
    | some pair => rw [one,two] at heads; cases heads
  | some pair =>
    cases two : firstToLast p' with
    | none => rw [one,two] at heads; cases heads
    | some pair' =>
      obtain ⟨head,v⟩ := pair
      obtain ⟨head',v'⟩ := pair'
      rw [one,two] at heads plain
      cases (Option.some.inj heads : head = head')
      have paths := paths head v v' one two
      simp only [Option.some.injEq,exists_eq_left',sizesOf] at plain
      dsimp only
      by_cases long : v.length+1+(st.b.bindIx+1) > MAX_SQL_SIZE_GQ+90
      · rw [if_pos long,if_pos (plain.mp long)]
        exact .failed
      rw [if_neg long,if_neg fun yes => long (plain.mpr yes)]
      refine agreeBind (R := Twin) ?_ ?_
      · refine pushAgree ?_ _ _
        exact ⟨twin.query,twin.count⟩
      intro st st' _ _ twin
      split
      · exact .failed
      split
      · exact .undefined
      refine agreeBind (operatorAgree twin paths) ?_
      intro _ _ _ _ twin
      split
      · exact .done twin
      · exact .failed

end

/- The places after a part. Only the parts of a compound condition before its last are copied to
conditionsForBind. -/
def Sizes.after (x : Sizes) (f : Form) : Sizes := ⟨x.bindIx+bindExtent f,x.inStrIx+inExtent f,x.condIx⟩
def Sizes.copied (x : Sizes) (part : Text) : Sizes := ⟨x.bindIx,x.inStrIx,x.condIx+part.length+1⟩

theorem sizesAfter {s st st' f} (step : PartStep s st st' f) :
    sizesOf st'.b = (sizesOf st.b).after f := by
  rw [sizesOf,step.bindIx,step.inStrIx,step.conditionsForBindIx]
  rfl

def CopyTooLong (x : Sizes) (part : Text) : Prop := x.condIx+part.length+1 > MAX_NAME_LEN*2

def ChecksParts (s : Setup) : Sizes → Sizes → List (Text × Connective) → List (Text × Connective) → Prop
  | _,_,[],[] => True
  | x,y,p::ps,q::qs => p.2 = q.2 ∧ (CopyTooLong x p.1 ↔ CopyTooLong y q.1) ∧ Checks s x y p.1 q.1 ∧
    ChecksParts s ((x.after (formOf p.1)).copied p.1) ((y.after (formOf q.1)).copied q.1) ps qs
  | _,_,_,_ => False

def partsAfter (x : Sizes) (ps : List (Text × Connective)) : Sizes :=
  ps.foldl (fun x p => (x.after (formOf p.1)).copied p.1) x

theorem insertPartsAgree {s tabAndColumn st st' ps qs} (twin : Twin st st')
    (checks : ChecksParts s (sizesOf st.b) (sizesOf st'.b) ps qs) :
    Agree (fun a b => Twin a b ∧ sizesOf a.b = partsAfter (sizesOf st.b) ps ∧
      sizesOf b.b = partsAfter (sizesOf st'.b) qs)
      (insertParts s tabAndColumn st ps) (insertParts s tabAndColumn st' qs) := by
  induction ps generalizing st st' qs with
  | nil =>
    cases qs with
    | nil => exact .done ⟨twin,rfl,rfl⟩
    | cons q qs => exact checks.elim
  | cons p _ ih =>
    cases qs with
    | nil => exact checks.elim
    | cons q _ =>
      obtain ⟨part,_⟩ := p
      obtain ⟨part',_⟩ := q
      obtain ⟨rfl,copies,check,rest⟩ := checks
      refine agreeBind (appendAgree twin _) ?_
      intro one one' ran ran' twin
      have left := (appendDone ran).2
      have right := (appendDone ran').2
      rw [← left,← right] at copies check rest ⊢
      have both : one.b.conditionsForBindIx+part.length+1 > MAX_NAME_LEN*2 ↔
          one'.b.conditionsForBindIx+part'.length+1 > MAX_NAME_LEN*2 := copies
      by_cases long : one.b.conditionsForBindIx+part.length+1 > MAX_NAME_LEN*2
      · rw [if_pos long,if_pos (both.mp long)]
        exact .undefined
      rw [if_neg long,if_neg fun yes => long (both.mpr yes)]
      refine agreeBind (insertWhereAgree twin check) ?_
      intro _ _ inserted inserted' twin
      have after := sizesAfter (insertWhereDone inserted)
      have after' := sizesAfter (insertWhereDone inserted')
      refine agreeBind (R := Twin) ?_ ?_
      · refine appendAgree ?_ _
        exact ⟨twin.query,twin.count⟩
      intro three three' appended appended' twin
      have copied : sizesOf three.b = ((sizesOf one.b).after (formOf part)).copied part := by
        rw [(appendDone appended).2,← after]
        rfl
      have copied' : sizesOf three'.b = ((sizesOf one'.b).after (formOf part')).copied part' := by
        rw [(appendDone appended').2,← after']
        rfl
      have tail := ih twin (by rw [copied,copied']; exact rest)
      rwa [copied,copied'] at tail

structure ChecksCondition (s : Setup) (x y : Sizes) (c c' : Text) : Prop where
  compound : compoundConditionSpecified c = compoundConditionSpecified c'
  copied : compoundConditionSpecified c = true → (c.length < MAX_NAME_LEN*2 ↔ c'.length < MAX_NAME_LEN*2)
  parts : compoundConditionSpecified c = true →
    ChecksParts s x y (compoundParts c.length c).1 (compoundParts c'.length c').1
  last : compoundConditionSpecified c = true →
    Checks s (partsAfter x (compoundParts c.length c).1) (partsAfter y (compoundParts c'.length c').1)
      (compoundParts c.length c).2 (compoundParts c'.length c').2
  single : compoundConditionSpecified c = false → Checks s x y c c'

def conditionAfter (x : Sizes) (c : Text) : Sizes :=
  if compoundConditionSpecified c then
    (partsAfter x (compoundParts c.length c).1).after (formOf (compoundParts c.length c).2)
  else x.after (formOf c)

def TwinAt (x y : Sizes) (st st' : State) : Prop := Twin st st' ∧ sizesOf st.b = x ∧ sizesOf st'.b = y

section
variable {st st' : State} {s} {c c' : Text} (twin : Twin st st')
    (checks : ChecksCondition s (sizesOf st.b) (sizesOf st'.b) c c')
include twin checks

theorem compoundAgree {prevWhereLen} (yes : compoundConditionSpecified c = true) :
    Agree (TwinAt (conditionAfter (sizesOf st.b) c) (conditionAfter (sizesOf st'.b) c'))
      (handleCompoundCondition s st c prevWhereLen) (handleCompoundCondition s st' c' prevWhereLen) := by
  have yes' := checks.compound ▸ yes
  have copied := checks.copied yes
  unfold handleCompoundCondition conditionAfter
  rw [if_pos yes,if_pos yes',← twin.query]
  refine agreeBind (R := Twin) ?_ ?_
  · refine appendAgree ?_ _
    exact ⟨rfl,twin.count⟩
  intro _ _ ran ran' twin
  have left := (appendDone ran).2
  have right := (appendDone ran').2
  have parts := checks.parts yes
  have last := checks.last yes
  rw [← left,← right] at parts last ⊢
  simp only [rstrcpy,Bool.not_eq_true',decide_eq_false_iff_not]
  by_cases fits : c.length < MAX_NAME_LEN*2
  · rw [if_neg fun no => no fits,if_neg fun no => no (copied.mp fits)]
    refine agreeBind (insertPartsAgree twin parts) ?_
    rintro _ _ - - ⟨twin,position,at'⟩
    refine agreeBind (appendAgree twin _) ?_
    intro _ _ column column' twin
    rw [← position,← at',← (appendDone column).2,← (appendDone column').2] at last ⊢
    refine agreeBind (insertWhereAgree twin last) ?_
    intro _ _ inserted inserted' twin
    have after := sizesAfter (insertWhereDone inserted)
    have after' := sizesAfter (insertWhereDone inserted')
    refine agreeDone (appendAgree twin _) ?_
    intro _ _ closed closed' twin
    exact ⟨twin,by rw [(appendDone closed).2,after],by rw [(appendDone closed').2,after']⟩
  · rw [if_pos fits,if_pos fun yes => fits (copied.mpr yes)]
    exact .failed

theorem insertConditionAgree {prevWhereLen} :
    Agree (TwinAt (conditionAfter (sizesOf st.b) c) (conditionAfter (sizesOf st'.b) c'))
      (insertCondition s st c prevWhereLen) (insertCondition s st' c' prevWhereLen) := by
  unfold insertCondition
  rw [← checks.compound]
  split
  · rename_i yes
    exact compoundAgree twin checks yes
  rename_i no
  have single : compoundConditionSpecified c = false := by simpa using no
  unfold conditionAfter
  rw [← checks.compound,if_neg no,if_neg no]
  refine agreeDone (insertWhereAgree twin (checks.single single)) ?_
  intro _ _ inserted inserted' twin
  exact ⟨twin,sizesAfter (insertWhereDone inserted),sizesAfter (insertWhereDone inserted')⟩

end

def ChecksConditions (s : Setup) : Sizes → Sizes → List (Nat × Text) → List (Nat × Text) → Prop
  | _,_,[],[] => True
  | x,y,c::cs,d::ds => c.1 = d.1 ∧ castSpecified c.2 = castSpecified d.2 ∧
    ChecksCondition s x y (effectiveCondition c.2) (effectiveCondition d.2) ∧
    ChecksConditions s (conditionAfter x (effectiveCondition c.2)) (conditionAfter y (effectiveCondition d.2)) cs ds
  | _,_,_,_ => False

structure TwinStarted (r r' : Started) : Prop where
  twin : Twin r.st r'.st
  start : r.startingTable = r'.startingTable

theorem addConditionsAgree {s r r' cs ds} (twin : TwinStarted r r')
    (checks : ChecksConditions s (sizesOf r.st.b) (sizesOf r'.st.b) cs ds) :
    Agree TwinStarted (addConditions s r cs) (addConditions s r' ds) := by
  induction cs generalizing r r' ds with
  | nil =>
    cases ds with
    | nil => exact .done twin
    | cons d ds => exact checks.elim
  | cons c _ ih =>
    cases ds with
    | nil => exact checks.elim
    | cons d _ =>
      obtain ⟨_,value⟩ := c
      obtain ⟨_,value'⟩ := d
      obtain ⟨number,cast,condition,rest⟩ := checks
      cases number
      have cast : castSpecified value = castSpecified value' := cast
      refine agreeBind (R :=
          fun a b => TwinStarted a b ∧ sizesOf a.st.b = conditionAfter (sizesOf r.st.b) (effectiveCondition value) ∧
        sizesOf b.st.b = conditionAfter (sizesOf r'.st.b) (effectiveCondition value')) ?_ ?_
      · unfold addCondition
        rw [← twin.twin.query,← cast]
        split
        · exact .failed
        rename_i q _
        have same : Twin ⟨q,r.st.b⟩ ⟨q,r'.st.b⟩ := ⟨rfl,twin.twin.count⟩
        refine agreeBind (insertConditionAgree same condition) ?_
        rintro one one' - - ⟨twinOne,position,at'⟩
        exact .done ⟨⟨twinOne,by rw [twin.start]⟩,position,at'⟩
      · rintro _ _ - - ⟨twin,position,at'⟩
        refine ih twin ?_
        rw [position,at']
        exact rest

theorem selectColumnsAgree {s r r' selects} (twin : TwinStarted r r') :
    Agree (fun a b => TwinStarted a b ∧ a.st.b = r.st.b ∧ b.st.b = r'.st.b) (selectColumns s r selects)
      (selectColumns s r' selects) := by
  induction selects generalizing r r' with
  | nil => exact .done ⟨twin,rfl,rfl⟩
  | cons x _ ih =>
    unfold selectColumns
    rw [← twin.twin.query,← twin.start]
    split
    · exact .failed
    · rename_i q _
      exact @ih ⟨⟨q,r.st.b⟩,_⟩ ⟨⟨q,r'.st.b⟩,_⟩ ⟨⟨rfl,twin.twin.count⟩,rfl⟩

theorem linkTablesAgree {s r r'} (twin : TwinStarted r r') : Agree Twin (linkTables s r) (linkTables s r') := by
  unfold linkTables
  rw [← twin.twin.query,← twin.start]
  split
  · exact .undefined
  split
  · exact .failed
  · exact .done ⟨rfl,twin.twin.count⟩

structure SameShape (inp inp' : GenQueryInp) : Prop where
  selects : inp.selects = inp'.selects
  options : inp.options = inp'.options
  rowOffset : inp.rowOffset = inp'.rowOffset
  numbers : inp.conditions.map Prod.fst = inp'.conditions.map Prod.fst

theorem sameShapeSelf (inp) : SameShape inp inp := ⟨rfl,rfl,rfl,rfl⟩

theorem conditionsOnSame {inp inp'} (shape : SameShape inp inp') (column) :
    conditionsOn inp column = conditionsOn inp' column := by
  have counted : ∀ i, conditionsOn i column = ((i.conditions.map Prod.fst).filter fun n => n == column).length := by
    intro i
    rw [filter_map,length_map]
    rfl
  rw [counted,counted,shape.numbers]

theorem multiConditionsAgree {inp inp' st st'} (shape : SameShape inp inp') (twin : Twin st st') :
    Agree Twin (multiConditions inp st) (multiConditions inp' st') := by
  unfold multiConditions
  simp only [conditionsOnSame shape,← twin.query]
  split
  · exact .failed
  · exact .done ⟨rfl,twin.count⟩

theorem restrictAgree {st st'} (twin : Twin st st') (r) :
    (restrict r st).1 = (restrict r st').1 ∧ Twin (restrict r st).2 (restrict r st').2 := by
  unfold restrict
  rw [← twin.query]
  dsimp only
  split
  · exact ⟨rfl,rfl,by simp only [length_append,twin.count]⟩
  · exact ⟨rfl,twin⟩

theorem restrictIfAgree {x y} (same : x.1 = y.1) (twin : Twin x.2 y.2) (needed r) :
    (restrictIf needed r x).1 = (restrictIf needed r y).1 ∧
    Twin (restrictIf needed r x).2 (restrictIf needed r y).2 := by
  unfold restrictIf
  rw [same,twin.query]
  split
  · exact restrictAgree twin r
  · exact ⟨same,twin⟩

theorem accessCheckAgree {st st'} (sess) (twin : Twin st st') :
    Twin (genqAppendAccessCheck sess st).2 (genqAppendAccessCheck sess st').2 := by
  have owner := restrictIfAgree (x := (true,st)) (y := (true,st')) rfl twin selectsTicket ticketOwner
  have data := restrictIfAgree owner.1 owner.2 (mentions R_DATA_MAIN) readableData
  have coll := restrictIfAgree data.1 data.2 (mentions R_COLL_MAIN) readableColl
  have dataTicket := restrictIfAgree owner.1 owner.2 (mentions R_DATA_MAIN) ticketData
  have collTicket := restrictIfAgree owner.1 owner.2 (mentions R_COLL_MAIN) ticketColl
  unfold genqAppendAccessCheck
  rw [← twin.count]
  split
  · exact twin
  split
  · exact twin
  dsimp only
  split
  · exact owner.2
  split
  · exact coll.2
  rw [owner.2.query]
  split
  · exact dataTicket.2
  · exact collTicket.2

structure TwinSql (r r' : Text × State) : Prop where
  sql : r.1 = r'.1
  twin : Twin r.2 r'.2

theorem bindOffsetAgree {inp inp' st st'} (twin : Twin st st') :
    Twin (bindOffset inp st) (bindOffset inp' st') :=
  ⟨twin.query,by simp only [bindOffset,length_append,twin.count,length_singleton]⟩

theorem assembleAgree {s sess inp inp' st st'} (shape : SameShape inp inp')
    (twin : Twin st st') : Agree TwinSql (assemble s sess inp st) (assemble s sess inp' st') := by
  have access := accessCheckAgree sess twin
  have tails : tailTexts s inp (genqAppendAccessCheck sess st).2.q =
    tailTexts s inp' (genqAppendAccessCheck sess st').2.q := by
    rw [access.query,tailTexts,tailTexts,shape.selects]
  unfold assemble
  dsimp only
  rw [← twin.query,← tails,← shape.rowOffset]
  split
  · exact .failed
  split
  · exact .failed
  split
  · split
    · exact .done ⟨rfl,bindOffsetAgree access⟩
    · exact .failed
  · exact .done ⟨rfl,access⟩

section
variable {inp inp' : GenQueryInp} {b b' : Binds} {s} (shape : SameShape inp inp')
    (count : b.cllBindVars.length = b'.cllBindVars.length)
    (checks : ChecksConditions s ⟨0,0,0⟩ ⟨0,0,0⟩ inp.conditions inp'.conditions)
include shape count checks

theorem clientQueryAgree :
    Agree Twin (clientQuery s b inp) (clientQuery s b' inp') := by
  unfold clientQuery
  rw [← shape.options,← shape.selects]
  refine agreeBind (selectColumnsAgree ⟨⟨rfl,count⟩,rfl⟩) ?_
  rintro _ _ - - ⟨twin,left,right⟩
  refine agreeBind (R := TwinStarted) ?_ ?_
  · refine addConditionsAgree ⟨⟨twin.twin.query,twin.twin.count⟩,twin.start⟩ ?_
    rw [left,right]
    exact checks
  intro _ _ _ _ twin
  refine agreeBind (linkTablesAgree twin) ?_
  intro _ _ _ _ twin
  exact multiConditionsAgree shape twin

theorem generateSQLAgree {sess} :
    Agree TwinSql (generateSQL s sess b inp) (generateSQL s sess b' inp') := by
  refine agreeBind (clientQueryAgree shape count checks) ?_
  intro _ _ _ _ twin
  exact assembleAgree shape twin

end

theorem checksSelf (s x p) : Checks s x x p p :=
  ⟨alikeSelf s p,fun _ => sameStoresSelf _ _ _,fun _ => sameStoresSelf _ _ _,.rfl⟩

theorem checksPartsSelf (s x ps) : ChecksParts s x x ps ps := by
  induction ps generalizing x with
  | nil => trivial
  | cons p _ ih => exact ⟨rfl,.rfl,checksSelf s x p.1,ih _⟩

theorem checksConditionsSelf (s x cs) : ChecksConditions s x x cs cs := by
  induction cs generalizing x with
  | nil => trivial
  | cons c _ ih =>
    refine ⟨rfl,rfl,?_,ih _⟩
    exact ⟨rfl,fun _ => .rfl,fun _ => checksPartsSelf s x _,fun _ => checksSelf s _ _,fun _ => checksSelf s x _⟩

end Irods.GenQuery1Twins
