import Irods.GenQuery1Twins

/-! A call within the size limits returns: nothing is written outside of an array and every loop
meets its end, unless a part starts with its quote. -/
namespace Irods.GenQuery1Limits
open CText StringOpr StaticMemory GenQuery1Setup GenQuery1Tables GenQuery1Conditions GenQuery1Generate GenQuery1Forms
    List Function
  GenQuery1Tracks GenQuery1Links GenQuery1Twins

def AllStored (size : Nat) : Nat → List Text → Prop
  | _,[] => True
  | i,v::vs => storeKind size i v = .stored ∧ AllStored size (i+v.length+1) vs

structure FitsPart (x : Sizes) (p : Text) : Prop where
  listed : leads (lit "in") (lit "IN") p = true → AllStored (MAX_SQL_SIZE_GQ*2) x.inStrIx (quoted p)
  bounded : leads (lit "between") (lit "BETWEEN") p = true → AllStored MAX_SQL_SIZE_GQ 0 (quoted p)
  plain : ¬PlainTooLong x.bindIx p

def FitsParts : Sizes → List (Text × Connective) → Prop
  | _,[] => True
  | x,p::ps => ¬CopyTooLong x p.1 ∧ FitsPart x p.1 ∧ FitsParts ((x.after (formOf p.1)).copied p.1) ps

def CopyFits (condition : Text) : Prop := mentionsOperator condition = true → condition.length < MAX_NAME_LEN*2

structure FitsCondition (x : Sizes) (c : Text) : Prop where
  copy : CopyFits c
  parts : compoundConditionSpecified c = true → FitsParts x (compoundParts c.length c).1
  last : compoundConditionSpecified c = true →
    FitsPart (partsAfter x (compoundParts c.length c).1) (compoundParts c.length c).2
  single : compoundConditionSpecified c = false → FitsPart x c

def FitsConditions : Sizes → List (Nat × Text) → Prop
  | _,[] => True
  | x,c::cs => FitsCondition x (effectiveCondition c.2) ∧ FitsConditions (conditionAfter x (effectiveCondition c.2)) cs

def Opened (p : Text) : Prop := ∀ r, firstToLast p = some r → r.1 ≠ []

def partsOfAll (conditions : List (Nat × Text)) : List Text :=
  conditions.flatMap (fun c => partsOf (effectiveCondition c.2))

instance decidableFound {α : Type} {P : α → Prop} [DecidablePred P] : (o : Option α) → Decidable (∀ a, o = some a → P a)
  | none => .isTrue nofun
  | some a => decidable_of_iff (P a) ⟨fun held _ same => Option.some.inj same ▸ held,fun all => all a rfl⟩

instance {bindIx : Nat} {p : Text} : Decidable (PlainTooLong bindIx p) :=
  decidable_of_iff (¬∀ r, firstToLast p = some r → ¬r.2.length+1+(bindIx+1) > MAX_SQL_SIZE_GQ+90) (by
    unfold PlainTooLong
    simp only [not_forall,not_not,exists_prop])

instance decidableStored {size : Nat} : (i : Nat) → (vs : List Text) → Decidable (AllStored size i vs)
  | _,[] => .isTrue trivial
  | i,v::vs => @instDecidableAnd _ _ _ (decidableStored (i+v.length+1) vs)

instance {x : Sizes} {p : Text} : Decidable (FitsPart x p) :=
  decidable_of_iff ((leads (lit "in") (lit "IN") p = true → AllStored (MAX_SQL_SIZE_GQ*2) x.inStrIx (quoted p)) ∧
    (leads (lit "between") (lit "BETWEEN") p = true → AllStored MAX_SQL_SIZE_GQ 0 (quoted p)) ∧
    ¬PlainTooLong x.bindIx p)
    ⟨fun all => ⟨all.1,all.2.1,all.2.2⟩,fun fits => ⟨fits.listed,fits.bounded,fits.plain⟩⟩

instance {x : Sizes} {p : Text} : Decidable (CopyTooLong x p) := inferInstanceAs (Decidable (_ > _))

instance decidableParts : (x : Sizes) → (ps : List (Text × Connective)) → Decidable (FitsParts x ps)
  | _,[] => .isTrue trivial
  | x,p::ps => @instDecidableAnd _ _ _ (@instDecidableAnd _ _ _ (decidableParts ((x.after (formOf p.1)).copied p.1) ps))

instance {c : Text} : Decidable (CopyFits c) := inferInstanceAs (Decidable (_ → _))

instance {x : Sizes} {c : Text} : Decidable (FitsCondition x c) :=
  decidable_of_iff (CopyFits c ∧ (compoundConditionSpecified c = true → FitsParts x (compoundParts c.length c).1) ∧
    (compoundConditionSpecified c = true →
      FitsPart (partsAfter x (compoundParts c.length c).1) (compoundParts c.length c).2) ∧
    (compoundConditionSpecified c = false → FitsPart x c))
    ⟨fun all => ⟨all.1,all.2.1,all.2.2.1,all.2.2.2⟩,fun fits => ⟨fits.copy,fits.parts,fits.last,fits.single⟩⟩

instance decidableConditions : (x : Sizes) → (cs : List (Nat × Text)) → Decidable (FitsConditions x cs)
  | _,[] => .isTrue trivial
  | x,c::cs => @instDecidableAnd _ _ _ (decidableConditions (conditionAfter x (effectiveCondition c.2)) cs)

instance {p : Text} : Decidable (Opened p) := decidableFound (firstToLast p)

inductive Returns {α : Type} (P : α → Prop) : Outcome α → Prop where
  | done {a} : P a → Returns P (.done a)
  | failed {code b} : Returns P (.failed code b)

theorem returnsBind {α β} {P} {Q : β → Prop} {x : Outcome α} {f} (first : Returns P x)
    (rest : ∀ a, x = .done a → P a → Returns Q (f a)) : Returns Q (x >>= f) := by
  cases first with
  | done held => exact rest _ rfl held
  | failed => exact .failed

theorem returnsDone {α} {P Q} {x : Outcome α} (first : Returns P x) (more : ∀ a, x = .done a → P a → Q a) :
    Returns Q x := by
  cases first with
  | done held => exact .done (more _ rfl held)
  | failed => exact .failed

theorem returnsIf {α} {P} {c} [Decidable c] {x y : Outcome α} (left : Returns P x) (right : Returns P y) :
    Returns P (if c then x else y) := by
  split
  · exact left
  · exact right

theorem appendReturns (st ts) : Returns (fun a => a.b = st.b) (appendWhere st ts) := by
  unfold appendWhere
  split
  · exact .done rfl
  · exact .failed

theorem pushReturns (st p) : Returns (fun _ => True) (pushBind st p) := by
  unfold pushBind
  split
  · exact .failed
  · exact .done trivial

theorem storedQuoted {size ix v} (m) (kind : storeKind size ix v = .stored) :
    ∃ m', storeQuoted size ix m v = .stored m' := by
  rcases storeKindOf size ix m v with ⟨m',k,run⟩ | ⟨k,run⟩ | ⟨m',k,run⟩
  · rw [k] at kind
    cases kind
  · rw [k] at kind
    cases kind
  · exact ⟨m',run⟩

theorem addInStringsReturns {st first vs} (fits : AllStored (MAX_SQL_SIZE_GQ*2) st.b.inStrIx vs) :
    Returns (fun _ => True) (addInStrings st first vs) := by
  induction vs generalizing st first with
  | nil => exact .done trivial
  | cons v _ ih =>
    refine returnsBind (appendReturns st _) ?_
    intro one _ same
    obtain ⟨kind,rest⟩ := fits
    rw [← same] at kind rest
    obtain ⟨m,run⟩ := storedQuoted one.b.inStrings kind
    rw [run]
    refine returnsBind (pushReturns _ _) ?_
    intro _ _ _
    exact ih rest

theorem addBetweenStringsReturns {st i first vs} (fits : AllStored MAX_SQL_SIZE_GQ i vs) :
    Returns (fun _ => True) (addBetweenStrings st i first vs) := by
  induction vs generalizing st i first with
  | nil => exact .done trivial
  | cons v _ ih =>
    refine returnsBind (appendReturns st _) ?_
    intro one _ _
    obtain ⟨m,run⟩ := storedQuoted one.b.betweenStrings fits.1
    rw [run]
    refine returnsBind (pushReturns _ _) ?_
    intro _ _ _
    exact ih fits.2

theorem appendOperatorReturns (s st head v) : Returns (fun _ => True) (appendOperator s st head v) := by
  unfold appendOperator
  split
  · exact returnsDone (appendReturns _ _) fun _ _ _ => trivial
  split
  · exact returnsBind (appendReturns _ _) fun _ _ _ => returnsIf .failed (.done trivial)
  · exact returnsDone (appendReturns _ _) fun _ _ _ => trivial

theorem insertWhereReturns {s} {st} {p} (fits : FitsPart (sizesOf st.b) p) (opened : Opened p) :
    Returns (fun a => sizesOf a.b = (sizesOf st.b).after (formOf p)) (insertWhere s st p) := by
  have returned : Returns (fun _ => True) (insertWhere s st p) := by
    unfold insertWhere
    split
    · rename_i isIn
      refine returnsBind (appendReturns st _) ?_
      intro one _ same
      refine returnsBind (addInStringsReturns ?_) ?_
      · rw [same]
        exact fits.listed isIn
      intro two _ _
      refine returnsBind (appendReturns two _) ?_
      exact fun _ _ _ => returnsIf .failed (.done trivial)
    split
    · rename_i isBetween
      refine returnsBind (appendReturns st _) ?_
      intro one _ _
      refine returnsBind (addBetweenStringsReturns (fits.bounded isBetween)) ?_
      exact fun _ _ _ => returnsIf (.done trivial) .failed
    split
    · exact returnsDone (appendReturns st _) fun _ _ _ => trivial
    dsimp only
    split
    · exact .failed
    rename_i head v found
    split
    · exact .failed
    refine returnsBind (pushReturns _ _) ?_
    intro one _ _
    split
    · exact .failed
    split
    · rename_i empty
      exact absurd (isEmpty_iff.mp empty) (opened _ found)
    refine returnsBind (appendOperatorReturns s one head v) ?_
    exact fun _ _ _ => returnsIf (.done trivial) .failed
  exact returnsDone returned fun a run _ => sizesAfter (insertWhereDone run)

theorem insertPartsReturns {s tabAndColumn st ps}
    (fits : FitsParts (sizesOf st.b) ps) (opened : ∀ p ∈ ps.map Prod.fst, Opened p) :
    Returns (fun a => sizesOf a.b = partsAfter (sizesOf st.b) ps) (insertParts s tabAndColumn st ps) := by
  induction ps generalizing st with
  | nil => exact .done rfl
  | cons p _ ih =>
    obtain ⟨part,_⟩ := p
    obtain ⟨copied,here,later⟩ := fits
    refine returnsBind (appendReturns st _) ?_
    intro one _ same
    have sizes := congrArg sizesOf same
    rw [← sizes] at copied here later ⊢
    split
    · rename_i long
      contradiction
    refine returnsBind (insertWhereReturns here (opened part mem_cons_self)) ?_
    intro _ _ after
    refine returnsBind (appendReturns _ _) ?_
    intro three _ kept
    have position : sizesOf three.b = ((sizesOf one.b).after (formOf part)).copied part := by
      rw [kept,← after]
      rfl
    rw [← position] at later
    have rest := ih later (forall_mem_cons.mp opened).2
    rwa [position] at rest

theorem insertConditionReturns {s} {st} {c} {prevWhereLen} (fits : FitsCondition (sizesOf st.b) c)
    (opened : ∀ p ∈ partsOf c, Opened p) :
    Returns (fun a => sizesOf a.b = conditionAfter (sizesOf st.b) c) (insertCondition s st c prevWhereLen) := by
  unfold insertCondition conditionAfter
  unfold partsOf at opened
  split
  · rename_i compound
    rw [if_pos compound] at opened
    refine returnsBind (appendReturns _ _) ?_
    intro _ _ same
    have sizes := congrArg sizesOf same
    refine returnsIf .failed ?_
    have parts := fits.parts compound
    have last := fits.last compound
    rw [← sizes] at parts last ⊢
    refine returnsBind (insertPartsReturns parts fun p mem => opened p (mem_append_left _ mem)) ?_
    intro _ _ early
    refine returnsBind (appendReturns _ _) ?_
    intro _ _ kept
    have position := (congrArg sizesOf kept).trans early
    rw [← position] at last ⊢
    refine returnsBind (insertWhereReturns last (opened _ (mem_append_right _ (mem_singleton_self _)))) ?_
    intro _ _ late
    exact returnsDone (appendReturns _ _) fun a _ closed => (congrArg sizesOf closed).trans late
  · rename_i single
    rw [if_neg single] at opened
    exact insertWhereReturns (fits.single (by simpa using single)) (opened c (mem_singleton_self _))

theorem addConditionsReturns {s r cs} (fits : FitsConditions (sizesOf r.st.b) cs)
    (opened : ∀ p ∈ partsOfAll cs, Opened p) : Returns (fun _ => True) (addConditions s r cs) := by
  induction cs generalizing r with
  | nil => exact .done trivial
  | cons c _ ih =>
    obtain ⟨_,value⟩ := c
    obtain ⟨here,later⟩ := fits
    refine returnsBind (P := fun a => sizesOf a.st.b = conditionAfter (sizesOf r.st.b) (effectiveCondition value)) ?_ ?_
    · unfold addCondition
      split
      · exact .failed
      rename_i q _
      have inserted := @insertConditionReturns s ⟨q,r.st.b⟩ _ r.st.q.whereSQL.length here
        fun p mem => opened p (mem_append_left _ mem)
      exact returnsBind inserted fun a _ after => .done after
    · intro _ _ after
      rw [← after] at later
      exact ih later fun p mem => opened p (mem_append_right _ mem)

theorem selectColumnsReturns {s r selects} :
    Returns (fun a => a.st.b = r.st.b) (selectColumns s r selects) := by
  induction selects generalizing r with
  | nil => exact .done rfl
  | cons x _ ih =>
    unfold selectColumns
    split
    · exact .failed
    · rename_i q _
      exact @ih ⟨⟨q,r.st.b⟩,_⟩

def openTables (s : Setup) (q : Query) : Nat := ((Finset.range s.tables.length).filter (fun i => q.flag i ≤ 1)).card

theorem addFromFlag (q tableAlias) : (addFrom q tableAlias).2.flag = q.flag := by
  unfold addFrom
  split <;> rfl

theorem useLinkFlag (s l q) : (useLink s l q).2.flag = q.flag := by
  unfold useLink
  dsimp only
  split
  · split
    · rw [addFromFlag,addFromFlag]
    · rw [addFromFlag]
  · rfl

theorem openSame {s q q'} (same : q'.flag = q.flag) : openTables s q' = openTables s q := by
  unfold openTables
  rw [same]

theorem followLinksEnds {s n visit}
    (visits : ∀ there i q, openTables s q ≤ n → ∃ k q', visit there i q = some (k,q') ∧ openTables s q' ≤ n)
    {table link forward ls thisKeep q} (few : openTables s q ≤ n) :
    ∃ r, followLinks s visit table link forward ls thisKeep q = some r ∧ openTables s (Scan.query r) ≤ n := by
  induction ls generalizing thisKeep q with
  | nil => exact ⟨_,rfl,few⟩
  | cons x _ ih =>
    obtain ⟨l,i⟩ := x
    unfold followLinks
    split
    · obtain ⟨k,q',visited,fewer⟩ := visits (thereOf forward l) i q few
      have used := (openSame (useLinkFlag s l q')).trans_le fewer
      rw [visited]
      dsimp only
      split
      · exact ih fewer
      split
      · exact ⟨_,rfl,used⟩
      split
      · exact ⟨_,rfl,used⟩
      · exact ih used
    · exact ih few

theorem followLinksOutside {s visit table}
    (outside : s.tables.length ≤ table) {link forward ls}
    (inside : ∀ x ∈ ls, x.1 ∈ s.links) (thisKeep q) :
    followLinks s visit table link forward ls thisKeep q = some (.running thisKeep q) := by
  induction ls with
  | nil => rfl
  | cons x _ ih =>
    obtain ⟨l,i⟩ := x
    have bounds := s.linked l (inside (l,i) mem_cons_self)
    unfold followLinks
    rw [if_neg,ih (forall_mem_cons.mp inside).2]
    rintro ⟨here,_⟩
    unfold hereOf at here
    split at here <;> omega

theorem closedSubset (s : Setup) {q q' : Query} {table mark} (high : 1 < mark)
    (flag : q'.flag = update q.flag table mark) :
    (Finset.range s.tables.length).filter fun i => q'.flag i ≤ 1 ⊆ (Finset.range s.tables.length).filter fun i =>
      q.flag i ≤ 1 := by
  intro i mem
  rw [Finset.mem_filter,flag] at mem
  refine Finset.mem_filter.mpr ⟨mem.1,?_⟩
  by_cases same : i = table
  · rw [same,update_self] at mem
    omega
  · rw [update_of_ne same] at mem
    exact mem.2

theorem arriveOpen (s q table) : openTables s (arrive q table) ≤ openTables s q := by
  unfold arrive
  split
  · exact Finset.card_le_card (closedSubset s (by decide) rfl)
  · exact Nat.le_refl _

theorem leaveFlag (q table) : (leave (arrive q table) table).flag = update q.flag table 3 := by
  unfold leave arrive
  split
  · exact update_idem _ _ _
  · rfl

theorem leaveOpen {s} {q table} (known : table < s.tables.length) (seeking : q.flag table ≤ 1) :
    openTables s (leave (arrive q table) table) < openTables s q := by
  refine Finset.card_lt_card ⟨closedSubset s (by decide) (leaveFlag q table),?_⟩
  intro all
  have back := all (Finset.mem_filter.mpr ⟨Finset.mem_range.mpr known,seeking⟩)
  rw [Finset.mem_filter,leaveFlag,update_self] at back
  omega

theorem tScanEnds {s} {n table link q} (few : openTables s q < n) :
    ∃ k q', tScan s n table link q = some (k,q') ∧ openTables s q' ≤ openTables s q := by
  induction n generalizing table link q with
  | zero => exact absurd few (Nat.not_lt_zero _)
  | succ n ih =>
    have all : ∀ x ∈ s.links.zipIdx, x.1 ∈ s.links := by
      intro x mem
      exact (mem_zipIdx' mem).2 ▸ getElem_mem _
    unfold tScan
    dsimp only
    split
    · exact ⟨_,_,rfl,arriveOpen s q table⟩
    split
    · exact ⟨_,_,rfl,Nat.le_refl _⟩
    split
    · exact ⟨_,_,rfl,arriveOpen s q table⟩
    by_cases known : table < s.tables.length
    · have fewer := leaveOpen known (q := q) (by omega)
      have visits : ∀ there i p, openTables s p ≤ openTables s (leave (arrive q table) table) →
          ∃ k p', tScan s n there (some i) p = some (k,p') ∧
          openTables s p' ≤ openTables s (leave (arrive q table) table) := by
        intro there i p low
        obtain ⟨k,p',run,kept⟩ := @ih there (some i) p (by omega)
        exact ⟨k,p',run,kept.trans low⟩
      obtain ⟨r,forward,low⟩ := followLinksEnds visits (Nat.le_refl _)
      rw [forward]
      cases r with
      | returned value p => exact ⟨_,_,rfl,low.trans (Nat.le_of_lt fewer)⟩
      | running keep p =>
        have low : openTables s p ≤ _ := low
        obtain ⟨r,backward,low⟩ := followLinksEnds visits low
        dsimp only
        rw [backward]
        cases r with
        | returned _ p => exact ⟨_,_,rfl,low.trans (Nat.le_of_lt fewer)⟩
        | running _ p => exact ⟨_,_,rfl,low.trans (Nat.le_of_lt fewer)⟩
    · have outside := Nat.le_of_not_lt known
      rw [followLinksOutside outside all]
      dsimp only
      rw [followLinksOutside outside all]
      exact ⟨_,_,rfl,Finset.card_le_card (closedSubset s (by decide) (leaveFlag q table))⟩

theorem generateSQLReturns {s sess} {b} {inp} (fits : FitsConditions ⟨0,0,0⟩ inp.conditions)
    (opened : ∀ p ∈ partsOfAll inp.conditions, Opened p) : Returns (fun _ => True) (generateSQL s sess b inp) := by
  refine returnsBind (P := fun _ => True) ?_ ?_
  · refine returnsBind selectColumnsReturns ?_
    intro _ _ same
    refine returnsBind (addConditionsReturns ?_ opened) ?_
    · rw [same]
      exact fits
    intro two _ _
    refine returnsBind (P := fun _ => True) ?_ ?_
    · have few : openTables s two.st.q < s.tables.length+1 := by
        have := Finset.card_filter_le (Finset.range s.tables.length) fun i => two.st.q.flag i ≤ 1
        rw [Finset.card_range] at this
        exact Nat.lt_succ_of_le this
      obtain ⟨k,q,run,_⟩ := @tScanEnds s _ two.startingTable none _ few
      unfold linkTables
      rw [run]
      exact returnsIf .failed (.done trivial)
    · exact fun _ _ _ => returnsIf .failed (.done trivial)
  · intro _ _ _
    refine returnsIf .failed (returnsIf .failed (returnsIf (returnsIf (.done trivial) .failed) (.done trivial)))

end Irods.GenQuery1Limits
