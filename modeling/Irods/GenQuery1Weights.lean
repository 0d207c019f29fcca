import Irods.GenQuery1Links

/-! Placeholders, quotes and parentheses of the WHERE text, counted by weights of characters:
what the fragments add up to over all conditions, links and renamings. -/
namespace Irods.GenQuery1Weights
open CText StringOpr GenQuery1Setup GenQuery1Tables GenQuery1Conditions GenQuery1Generate GenQuery1Forms GenQuery1Links
    List Int Form

def quietChar (c : Char) : Bool := setupChar c || c == ',' || c == '<' || c == '>' || c == '!'

/- A weight sees none of the characters of names and operators, and a pair of parentheses has
weight zero. -/
structure Weight where
  of : Char → Int
  quiet : ∀ c, quietChar c = true → of c = 0
  paired : of '(' + of ')' = 0

def Weight.total (μ : Weight) (t : Text) : Int := (t.map μ.of).sum

def ofChar (c : Char) (loud : quietChar c = false) (left : c ≠ '(') (right : c ≠ ')') : Weight where
  of := fun d => if d = c then 1 else 0
  quiet := by
    intro d quiet
    rw [if_neg]
    rintro rfl
    rw [loud] at quiet
    contradiction
  paired := by rw [if_neg left.symm,if_neg right.symm]; rfl

def marks : Weight := ofChar '?' (by decide) (by decide) (by decide)

variable (μ : Weight)

@[simp] theorem totalNil : μ.total [] = 0 := rfl

@[simp] theorem totalAppend (a b) : μ.total (a ++ b) = μ.total a + μ.total b := by
  simp [Weight.total]

@[simp] theorem totalCons (c t) : μ.total (c::t) = μ.of c + μ.total t := rfl

variable {μ}

theorem totalQuiet {t} (quiet : ∀ c ∈ t, quietChar c = true) : μ.total t = 0 := by
  induction t with
  | nil => rfl
  | cons c t ih =>
    rw [totalCons,ih (forall_mem_cons.mp quiet).2,μ.quiet c (quiet c mem_cons_self)]
    rfl

theorem totalSetup {t} (plain : setupText t = true) : μ.total t = 0 := by
  refine totalQuiet fun c mem => ?_
  have named := all_eq_true.mp plain c mem
  simp [quietChar,named]

def knownChar (c : Char) : Bool := quietChar c || c == '?' || c == '(' || c == ')'

theorem totalKnown {t} (known : t.all knownChar = true) :
    μ.total t = t.count '?'*μ.of '?' + ((t.count '(' : Int)-t.count ')')*μ.of '(' := by
  induction t with
  | nil => simp
  | cons c t ih =>
    rw [all_cons,Bool.and_eq_true] at known
    have closing : μ.of ')' = -μ.of '(' := by have := μ.paired; omega
    have one : μ.of c = (if c = '?' then 1 else 0)*μ.of '?' +
      ((if c = '(' then 1 else 0)-(if c = ')' then 1 else 0))*μ.of '(' := by
      by_cases mark : c = '?'
      · subst mark; simp
      by_cases left : c = '('
      · subst left; simp
      by_cases right : c = ')'
      · subst right; simp [closing]
      · have quiet : quietChar c = true := by simpa [knownChar,mark,left,right] using known.1
        simp [mark,left,right,μ.quiet c quiet]
    rw [totalCons,ih known.2,one]
    simp only [count_cons,beq_iff_eq]
    push_cast
    ring

theorem totalLit {t} (n l r : Nat)
    (counts : t.all knownChar = true ∧ t.count '?' = n ∧ t.count '(' = l ∧ t.count ')' = r) :
    μ.total t = n*μ.of '?' + (l-r)*μ.of '(' := by
  obtain ⟨known,rfl,rfl,rfl⟩ := counts
  exact totalKnown known

theorem marksCount (t) : marks.total t = t.count '?' := by
  induction t with
  | nil => rfl
  | cons c t ih =>
    rw [totalCons,ih,count_cons]
    simp only [marks,ofChar,beq_iff_eq]
    split <;> push_cast <;> ring

variable {s : Setup} {column i : Nat} {c : Column}

theorem tableKnown (position : tableOf s column = some (i,c)) :
    c ∈ s.columns ∧ i < s.tables.length := by
  obtain ⟨d,found,rest⟩ := Option.bind_eq_some_iff.mp position
  obtain ⟨j,there,same⟩ := Option.map_eq_some_iff.mp rest
  cases same
  refine ⟨mem_reverse.mp (mem_of_find?_eq_some found),?_⟩
  exact (findIdx?_eq_some_iff_findIdx_eq.mp there).1

theorem columnShape (position : tableOf s column = some (i,c)) (upper cast) :
    ∃ name, setupText name = true ∧ columnText s upper cast column =
      if cast then lit "cast (" ++ name ++ lit " as decimal)" else if upper then
        lit "upper (" ++ name ++ lit " )" else name := by
  obtain ⟨inColumns,inTables⟩ := tableKnown position
  have table : s.tables.getD i ⟨[],[],0⟩ ∈ s.tables := by
    rw [getD_eq_getElem _ _ inTables]
    exact getElem_mem _
  refine ⟨(s.tables.getD i ⟨[],[],0⟩).tableName ++ lit "." ++ c.columnName,?_,?_⟩
  · unfold setupText
    rw [all_append,all_append]
    exact Bool.and_eq_true_iff.mpr ⟨Bool.and_eq_true_iff.mpr ⟨nameSetup (s.tableTexts _ table).1,rfl⟩,
        paddedSetup (s.columnTexts c inColumns).2⟩
  · rw [columnText,position]
    cases cast <;> cases upper <;> simp [conditionColumn,separated]

def wrapped (upper cast : Bool) : Bool := upper || cast

def ColumnEnd (wrap : Bool) (y : Text) : Prop :=
  if wrap then ∃ p, y = p ++ lit " )" ∨ y = p ++ lit " decimal)" else setupText y = true

theorem lastWordOf {x y} (solid : ' ' ∉ y) : lastWord (x ++ ' '::y) = y := by
  have cut : (x ++ ' '::y).reverse = y.reverse ++ ' '::x.reverse := by simp
  have all : ∀ c ∈ y.reverse, (c != ' ') = true := by
    intro c mem
    have other : c ≠ ' ' := by rintro rfl; exact solid (mem_reverse.mp mem)
    simpa using other
  rw [lastWord,cut,takeWhile_append_of_pos all,takeWhile_cons_of_neg (by simp),append_nil,reverse_reverse]

theorem lastWordTotal {wrap x y} (column : ColumnEnd wrap y) :
    μ.total (lastWord (x ++ ' '::y)) = if wrap then μ.of ')' else 0 := by
  cases wrap with
  | true =>
    obtain ⟨p,rfl | rfl⟩ := column
    · have cut : x ++ ' '::(p ++ lit " )") = (x ++ ' '::p) ++ ' '::[')'] := by simp [lit]
      rw [cut,lastWordOf (by decide)]
      simp
    have cut : x ++ ' '::(p ++ lit " decimal)") = (x ++ ' '::p) ++ ' '::lit "decimal)" := by simp [lit]
    rw [cut,lastWordOf (by decide)]
    have closing : μ.of ')' = -μ.of '(' := by have := μ.paired; omega
    rw [totalLit 0 0 1 (by decide),closing]
    simp
  | false =>
    refine totalQuiet fun c mem => ?_
    have named := all_eq_true.mp column c (lastWordBehind mem)
    simp [quietChar,named]

theorem placeholdersTotal (n) : μ.total (placeholders n) = n*μ.of '?' := by
  have comma : ∀ n, μ.total (replicate n (lit ", ?")).flatten = n*μ.of '?' := by
    intro n
    induction n with
    | zero => simp
    | succ n ih =>
      rw [replicate_succ,flatten_cons,totalAppend,ih,totalLit 1 0 0 (by decide)]
      push_cast
      ring
  cases n with
  | zero => simp [placeholders]
  | succ n =>
    rw [placeholders,totalAppend,comma,totalLit 1 0 0 (by decide)]
    push_cast
    ring

def isBeginOf : Form → Bool
  | .beginOf _ => true
  | _ => false

/- One mark for each operand; begin_of repeats the last word of its column twice. -/
def formTotal (μ : Weight) (s : Setup) (wrap : Bool) (f : Form) : Int :=
  (f.operands s).length*μ.of '?' + if isBeginOf f && wrap then 2*μ.of ')' else 0

theorem inClauseTotal (n) : μ.total (lit " IN (" ++ placeholders n ++ lit ")") = n*μ.of '?' := by
  rw [totalAppend,totalAppend,placeholdersTotal,totalLit 0 1 0 (by decide),totalLit 0 0 1 (by decide)]
  ring

attribute [simp] operands

theorem fragmentTotal {wrap x y f} (accepted : f.Accepted) (column : ColumnEnd wrap y) :
    μ.total (f.fragment s (x ++ ' '::y)) = formTotal μ s wrap f := by
  unfold formTotal
  cases f with
  | inList vs =>
    rw [fragment,inClauseTotal]
    simp [isBeginOf]
  | between _ =>
    rw [fragment,totalLit 2 0 0 (by decide),operands,accepted]
    simp [isBeginOf]
  | nullTest negated =>
    cases negated <;> rw [fragment,totalLit 0 0 0 (by decide)] <;> simp [isBeginOf]
  | beginOf v =>
    simp only [fragment,totalAppend]
    rw [lastWordTotal column,totalLit 1 2 0 (by decide),totalLit 0 0 2 (by decide),totalLit 0 1 0 (by decide),
      totalLit 0 0 1 (by decide)]
    cases wrap with
    | false => simp
    | true =>
      simp only [operands,isBeginOf,length_singleton,Bool.and_self,if_true]
      ring
  | parentOf v =>
    rw [fragment,inClauseTotal]
    simp [isBeginOf]
  | comparison head v =>
    have operator : μ.total (' '::head) = 0 := by
      refine totalQuiet fun c mem => ?_
      have inWords := checkedChars accepted mem
      exact all_eq_true.mp
        (by decide : (lit "<>=! begin_ofparent_ofnotNOTbetweenBETWEENlikeLIKEinIN").all quietChar = true) c inWords
    rw [fragment,totalAppend,operator,totalLit 1 0 0 (by decide)]
    simp [isBeginOf]
  | malformed => exact accepted.elim

def skip (d : Text) : Nat :=
  let blanks := (d.takeWhile (fun c => c == ' ')).length
  if (lit "AND").isPrefixOf (d.drop blanks) then blanks+3 else 0

theorem columnStartSkip (w d) : columnStart (w ++ d) w.length = w.length+skip d := by
  have behind : ∀ k, (w ++ d).drop (w.length+k) = d.drop k := fun k => by rw [← drop_drop,drop_left]
  unfold columnStart skip
  rw [drop_left]
  dsimp only
  rw [behind]
  split <;> omega

theorem skippedPlain (d : Text) : setupText (d.take (skip d)) = true := by
  unfold skip
  dsimp only
  split
  · rename_i starts
    obtain ⟨_,same⟩ := isPrefixOf_iff_prefix.mp starts
    have blanks : d.take (d.takeWhile fun c => c == ' ').length = d.takeWhile fun c => c == ' ' :=
      (prefix_iff_eq_take.mp ( takeWhile_prefix _)).symm
    have and : (d.drop (d.takeWhile fun c => c == ' ').length).take 3 = lit "AND" := by
      rw [← same]
      rfl
    rw [take_add,blanks,and]
    refine all_eq_true.mpr fun c mem => ?_
    rcases mem_append.mp mem with blank | inAnd
    · have same : c = ' ' := by simpa using mem_takeWhile_imp blank
      rw [same]
      rfl
    · exact all_eq_true.mp (by decide : (lit "AND").all setupChar = true) c inAnd
  · rfl

theorem wrapEnds (position : tableOf s column = some (i,c)) (upper cast front) (plain : setupText front = true) :
    ColumnEnd (wrapped upper cast) (front ++ columnText s upper cast column) := by
  obtain ⟨name,named,same⟩ := columnShape position upper cast
  rw [same]
  cases cast with
  | true =>
    cases upper <;> exact ⟨front ++ lit "cast (" ++ name ++ lit " as",.inr (by simp [lit])⟩
  | false =>
    cases upper with
    | true => exact ⟨front ++ lit "upper (" ++ name,.inl (by simp)⟩
    | false =>
      simp only [wrapped,ColumnEnd,setupText] at plain named ⊢
      simp [plain,named]

theorem separatorPlain (w) : setupText (separator w) = true := by
  unfold separator
  split
  · rfl
  · rfl

theorem tabAndColumn (position : tableOf s column = some (i,c)) (upper cast w) :
    ColumnEnd (wrapped upper cast)
      ((separator w ++ columnText s upper cast column).drop
        (skip (separator w ++ columnText s upper cast column))) := by
  obtain ⟨_,_,same⟩ := columnShape position upper cast
  by_cases wrap : wrapped upper cast = true
  · by_cases long : 6 < w.length
    · have front : separator w ++ columnText s upper cast column = lit " AND" ++
        (lit " " ++ columnText s upper cast column) := by
        simp [separator,long,lit]
      have four : skip (lit " AND" ++ (lit " " ++ columnText s upper cast column)) = 4 := rfl
      rw [front]
      exact wrapEnds position upper cast (lit " ") rfl
    · have front : separator w = [] := by simp [separator,long]
      have none : skip (columnText s upper cast column) = 0 := by
        rw [same]
        revert wrap
        cases cast <;> cases upper <;> intro wrap
        · cases wrap
        all_goals rfl
      rw [front,nil_append,none]
      exact wrapEnds position upper cast [] rfl
  · have plain := wrapEnds position upper cast _ (separatorPlain w)
    rw [Bool.not_eq_true] at wrap
    rw [wrap] at plain ⊢
    refine all_eq_true.mpr fun c mem => ?_
    exact all_eq_true.mp plain c (mem_of_mem_drop mem)

theorem columnTotal (position : tableOf s column = some (i,c)) (upper cast) :
    μ.total (columnText s upper cast column) = 0 := by
  obtain ⟨_,named,same⟩ := columnShape position upper cast
  rw [same]
  cases cast <;> cases upper <;> simp only [Bool.false_eq_true,if_true,if_false,totalAppend,totalSetup named]
  all_goals
    rw [totalLit 0 1 0 (by decide),totalLit 0 0 1 (by decide)]
    simp

def partTotals (μ : Weight) (s : Setup) (wrap : Bool) (fs : List Form) : Int := (fs.map (formTotal μ s wrap)).sum

theorem addPartTotal {wrap x y part} (accepted : (formOf part).Accepted) (column : ColumnEnd wrap y) :
    μ.total (addPart s (x ++ ' '::y) part) = μ.total (x ++ ' '::y) + formTotal μ s wrap (formOf part) := by
  rw [addPart,totalAppend,fragmentTotal accepted column]

theorem addPartsTotal {wrap tab w} (ps)
    (accepted : ∀ f ∈ ps.map fun p => formOf p.1, f.Accepted) (column : ColumnEnd wrap tab) (zero : μ.total tab = 0) :
    ∃ x, addParts s tab (w ++ [' ']) ps = x ++ [' '] ∧
      μ.total x = μ.total w + partTotals μ s wrap (ps.map fun p => formOf p.1) := by
  have blank := μ.quiet ' ' rfl
  induction ps generalizing w with
  | nil => exact ⟨w,rfl,by simp [partTotals]⟩
  | cons p _ ih =>
    obtain ⟨part,connective⟩ := p
    have first : (formOf part).Accepted := accepted _ (by simp)
    have whole : w ++ [' '] ++ tab = w ++ ' '::tab := by simp
    obtain ⟨k,ends,light⟩ : ∃ k, connective.text = k ++ [' '] ∧ μ.total k = 0 := by
      cases connective
      · exact ⟨lit " OR",rfl,by rw [totalLit 0 0 0 (by decide)]; simp⟩
      · exact ⟨lit " AND",rfl,by rw [totalLit 0 0 0 (by decide)]; simp⟩
    obtain ⟨x,text,total⟩ := ih fun f mem => accepted f (by simp at mem ⊢; exact .inr mem)
    refine ⟨x,?_,?_⟩
    · rw [addParts,whole,ends,← append_assoc]
      exact text
    · rw [total,totalAppend,light,addPartTotal first column,totalAppend,totalCons,zero,blank]
      simp only [partTotals,map_cons,sum_cons]
      ring

def Rooted (w : Text) : Prop := lit "where " <+: w

theorem rootedStart {w} (rooted : Rooted w) (d) : ∃ x, w ++ separator w ++ d = x ++ ' '::d := by
  unfold separator
  split
  · exact ⟨w ++ lit " AND",by simp [lit]⟩
  have whole := rooted.eq_of_length (by
    have := rooted.length_le
    simp only [lit,length_cons] at this ⊢
    omega)
  exact ⟨lit "where",by rw [← whole]; rfl⟩

theorem conditionTextTotal (position : tableOf s column = some (i,c)) (upper cast)
    {w condition} (rooted : Rooted w) (accepted : ∀ f ∈ (partsOf condition).map formOf, f.Accepted) :
    μ.total (addConditionText s (w ++ separator w ++ columnText s upper cast column) condition w.length) =
      μ.total w + partTotals μ s (wrapped upper cast) ((partsOf condition).map formOf) := by
  have blank := μ.quiet ' ' rfl
  have zero : μ.total (separator w ++ columnText s upper cast column) = 0 := by
    rw [totalAppend,totalSetup (separatorPlain w),columnTotal position]
    rfl
  unfold addConditionText
  unfold partsOf at accepted ⊢
  split
  · rename_i compound
    rw [if_pos compound] at accepted
    set d := separator w ++ columnText s upper cast column with same
    have ends := tabAndColumn position upper cast w
    have skipped : μ.total (d.take (skip d)) = 0 := totalSetup (skippedPlain d)
    have tab : μ.total (d.drop (skip d)) = 0 := by
      have both : μ.total (d.take (skip d)) + μ.total (d.drop (skip d)) = 0 := by
        rw [← totalAppend,take_append_drop,zero]
      omega
    have opened : (w ++ d).take (w.length+skip d) ++ lit " ( " = (w ++ d.take (skip d) ++ lit " (") ++ [' '] := by
      rw [take_append]
      simp [lit]
    have dropped : (w ++ d).drop (w.length+skip d) = d.drop (skip d) := by rw [← drop_drop,drop_left]
    rw [map_append,map_map] at accepted
    obtain ⟨x,text,total⟩ := addPartsTotal (w := w ++ d.take (skip d) ++ lit " (")
      (compoundParts condition.length condition).1 (fun f mem => accepted f (mem_append_left _ mem)) ends tab
    have last : (formOf (compoundParts condition.length condition).2).Accepted := accepted _ (by simp)
    rw [addCompound,append_assoc,columnStartSkip]
    have left : μ.total (lit " (") = μ.of '(' := by rw [totalLit 0 1 0 (by decide)]; simp
    have right : μ.total (lit " ) ") = -μ.of '(' := by rw [totalLit 0 0 1 (by decide)]; simp
    rw [opened,dropped,text,append_assoc,singleton_append,totalAppend,addPartTotal last ends,totalAppend,totalCons,
      total,tab,blank,totalAppend,totalAppend,skipped,left,right]
    simp only [partTotals,map_append,map_map,sum_append,Function.comp_def,map_cons,map_nil,
      sum_cons,sum_nil]
    ring
  · rename_i single
    rw [if_neg single] at accepted
    have only : (formOf condition).Accepted := accepted _ (by simp)
    obtain ⟨x,text⟩ := rootedStart rooted (columnText s upper cast column)
    have ends : ColumnEnd (wrapped upper cast) (columnText s upper cast column) := wrapEnds position upper cast [] rfl
    have total : μ.total (x ++ ' '::columnText s upper cast column) = μ.total w := by
      rw [← text,append_assoc,totalAppend,zero,add_zero]
    rw [text,addPartTotal only ends,total]
    simp [partTotals]

structure Weighs (μ : Weight) (q : Query) (k : Int) : Prop where
  rooted : Rooted q.whereSQL
  total : μ.total q.whereSQL = k

variable {q : Query} {k : Int}

theorem weighsAppend (weighs : Weighs μ q k) {w t} (grown : w = q.whereSQL ++ t)
    (light : μ.total t = 0) : Weighs μ { q with whereSQL := w } k := by
  subst grown
  exact ⟨weighs.rooted.trans (prefix_append _ _),by rw [totalAppend,weighs.total,light,add_zero]⟩

theorem selectKeepsWhere (s q x) :
    (intendedSelect s q x).whereSQL = q.whereSQL ∧ (intendedSelect s q x).doUpperCase = q.doUpperCase := by
  unfold intendedSelect setTable
  split
  · exact ⟨rfl,rfl⟩
  split <;> exact ⟨rfl,rfl⟩

theorem selectsKeepWhere (s q) (xs : List (Nat × Nat)) :
    (xs.foldl (intendedSelect s) q).whereSQL = q.whereSQL ∧
    (xs.foldl (intendedSelect s) q).doUpperCase = q.doUpperCase := by
  induction xs generalizing q with
  | nil => exact ⟨rfl,rfl⟩
  | cons x _ ih =>
    rw [foldl_cons,(ih _).1,(ih _).2]
    exact selectKeepsWhere s q x

theorem columnKeepsUpper (s q column cast) :
    (intendedColumn s q column cast).doUpperCase = q.doUpperCase := by
  unfold intendedColumn
  split <;> rfl

def conditionTotal (μ : Weight) (s : Setup) (upper : Bool) (c : Nat × Text) : Int :=
  partTotals μ s (wrapped upper (castSpecified c.2)) ((partsOf (effectiveCondition c.2)).map formOf)

def conditionTotals (μ : Weight) (s : Setup) (upper : Bool) (conditions : List (Nat × Text)) : Int :=
  (conditions.map (conditionTotal μ s upper)).sum

theorem conditionRooted {w condition col} (rooted : Rooted w) :
    Rooted (addConditionText s (w ++ separator w ++ col) condition w.length) := by
  have grows : ∀ tab ps t, t <+: addParts s tab t ps := by
    intro _ ps
    induction ps with
    | nil => exact fun t => prefix_rfl
    | cons p _ ih =>
      intro t
      refine List.IsPrefix.trans ?_ (ih _)
      rw [addPart,append_assoc,append_assoc]
      exact prefix_append _ _
  refine List.IsPrefix.trans rooted ?_
  unfold addConditionText
  split
  · rw [addCompound,append_assoc,columnStartSkip]
    have front : w <+: (w ++ (separator w ++ col)).take (w.length+skip (separator w ++ col)) := by
      rw [take_append,take_of_length_le (by omega)]
      exact prefix_append _ _
    rw [addPart,append_assoc,append_assoc]
    exact front.trans ((prefix_append _ _).trans ((grows _ _ _).trans (prefix_append _ _)))
  · rw [addPart,append_assoc,append_assoc]
    exact prefix_append _ _

theorem conditionWeighs {c} (weighs : Weighs μ q k)
    (known : ∃ i d, tableOf s c.1 = some (i,d))
    (accepted : ∀ f ∈ (partsOf (effectiveCondition c.2)).map formOf, f.Accepted) :
    Weighs μ (intendedCondition s q c) (k + conditionTotal μ s q.doUpperCase c) := by
  obtain ⟨i,d,position⟩ := known
  refine ⟨conditionRooted weighs.rooted,?_⟩
  have total := conditionTextTotal (μ := μ) position q.doUpperCase (castSpecified c.2) weighs.rooted accepted
  rwa [weighs.total] at total

theorem conditionsWeigh {cs} (weighs : Weighs μ q k)
    (known : ∀ c ∈ cs, ∃ i d, tableOf s c.1 = some (i,d)) (accepted : ∀ f ∈ conditionForms cs, f.Accepted) :
    Weighs μ (cs.foldl (intendedCondition s) q) (k + conditionTotals μ s q.doUpperCase cs) := by
  induction cs generalizing q k with
  | nil => simpa [conditionTotals] using weighs
  | cons c _ ih =>
    have first := conditionWeighs weighs (known c mem_cons_self) fun f mem => accepted f (mem_append_left _ mem)
    have rest := ih first (forall_mem_cons.mp known).2 fun f mem => accepted f (mem_append_right _ mem)
    have upper : (intendedCondition s q c).doUpperCase = q.doUpperCase := columnKeepsUpper s q c.1 (castSpecified c.2)
    rw [upper] at rest
    rw [conditionTotals,map_cons,sum_cons,← add_assoc]
    exact rest

theorem addFromWhere (q tableAlias) : (addFrom q tableAlias).2.whereSQL = q.whereSQL := by
  unfold addFrom
  split <;> rfl

theorem useLinkWhere (s l q) :
    ∃ k, (useLink s l q).2.whereSQL = q.whereSQL ++
      ((separated (decide (6 < q.whereSQL.length)) (lit " AND ") ++ [l.connectingSQL,lit " "]).take k).flatten := by
  obtain ⟨k,same⟩ := rstrcatsPart q.whereSQL MAX_SQL_SIZE_GQ
    (separated (decide (6 < q.whereSQL.length)) (lit " AND ") ++ [l.connectingSQL,lit " "])
  refine ⟨k,?_⟩
  unfold useLink
  dsimp only
  split
  · split
    · rw [addFromWhere,addFromWhere]
      exact same
    · rw [addFromWhere]
      exact same
  · exact same

theorem totalFlatten {ts : List Text} (light : ∀ t ∈ ts, μ.total t = 0) : μ.total ts.flatten = 0 := by
  induction ts with
  | nil => rfl
  | cons t _ ih =>
    rw [flatten_cons,totalAppend,light t mem_cons_self,ih (forall_mem_cons.mp light).2]
    rfl

theorem useLinkWeighs {l} (mem : l ∈ s.links) (weighs : Weighs μ q k) :
    Weighs μ (useLink s l q).2 k := by
  obtain ⟨n,same⟩ := useLinkWhere s l q
  refine weighsAppend (q := { (useLink s l q).2 with whereSQL := q.whereSQL }) ⟨weighs.rooted,weighs.total⟩ same ?_
  refine totalFlatten fun t inside => ?_
  rcases mem_append.mp (mem_of_mem_take inside) with sep | later
  · unfold separated at sep
    split at sep
    · rw [mem_singleton.mp sep]
      exact totalSetup rfl
    · cases sep
  · simp only [mem_cons,not_mem_nil,or_false] at later
    rcases later with rfl | rfl
    · exact totalSetup (s.linkTexts l mem).1
    · exact totalSetup rfl

theorem foundBehind {w pattern} (rooted : Rooted w) (low : lowered pattern) (found : strstr w pattern = some i) :
    6 ≤ i := by
  by_contra before
  obtain ⟨_,same⟩ := rooted
  have blank : (w.drop i)[5-i]? = some ' ' := by
    rw [getElem?_drop,← same,show i+(5-i) = 5 by omega]
    rfl
  obtain ⟨_,whole⟩ := strstrFound found
  have inside : 5-i < pattern.length := by have := low.2; omega
  rw [← whole,getElem?_append_left inside] at blank
  have shaped := loweredChars low ' ' (mem_of_getElem? blank)
  exact absurd shaped (by decide)

theorem replaceRooted {w new} (rooted : Rooted w) (behind : 6 ≤ i) : Rooted (replaceAt w i new) := by
  obtain ⟨_,same⟩ := rooted
  rw [replaceAt]
  have keyword : (lit "where ").take i = lit "where " := take_of_length_le behind
  rw [← same,take_append,keyword]
  exact prefix_append _ _

theorem renameRooted {pattern w} (low : lowered pattern) (n) (rooted : Rooted w) :
    Rooted (renameOccurrences pattern n w) := by
  unfold renameOccurrences
  split
  · exact rooted
  rename_i found
  have behind := foundBehind rooted low found
  refine replaceRooted ?_ behind
  have others : ∀ (is : List Nat) t, Rooted t → Rooted (is.foldl (renameNext pattern) t) := by
    intro is
    induction is with
    | nil => exact fun _ held => held
    | cons i _ ih =>
      intro t held
      refine ih _ ?_
      unfold renameNext
      split
      · exact held
      · rename_i there
        exact replaceRooted held (Nat.le_add_right_of_le (foundBehind held low there))
  exact others _ _ (replaceRooted rooted behind)

theorem totalShape (t) : μ.total (shapeOf t) = μ.total t := by
  have each : ∀ c, μ.of (shape c) = μ.of c := by
    intro c
    unfold shape
    split
    · rename_i low
      have quiet : quietChar c = true := by
        simp only [Bool.or_eq_true,beq_iff_eq] at low
        simp only [quietChar,setupChar,nameChar,Char.isAlphanum,Char.isAlpha,Bool.or_eq_true,beq_iff_eq]
        tauto
      rw [μ.quiet c quiet,μ.quiet 'x' rfl]
    · rfl
  induction t with
  | nil => rfl
  | cons c t ih =>
    rw [totalCons,← ih,← each c]
    rfl

theorem loweredPatterns : lowered multiData.attrName ∧ lowered multiData.attrValue ∧ lowered multiColl.attrName ∧
    lowered multiColl.attrValue := by
  unfold lowered
  decide

theorem digitsPlain (i) : setupText (Nat.toDigits 10 i) = true ∧ setupText (twoDigits i) = true := by
  have plain : setupText (Nat.toDigits 10 i) = true := by
    refine all_eq_true.mpr fun c mem => ?_
    have digit := Nat.isDigit_of_mem_toDigits (by decide) (by decide) mem
    simp [setupChar,nameChar,Char.isAlphanum,digit]
  refine ⟨plain,?_⟩
  unfold twoDigits
  split <;> exact plain

def plainMulti (m : MultiAVU) : Prop :=
  setupText m.metamap = true ∧ setupText m.metaMain = true ∧ setupText m.object = true

theorem avuWherePlain {m} (plain : plainMulti m) (i) : ∀ t ∈ avuWhere m i, setupText t = true := by
  obtain ⟨metamap,metaMain,object⟩ := plain
  obtain ⟨one,two⟩ := digitsPlain i
  unfold setupText at *
  intro t mem
  simp only [avuWhere,mem_cons,not_mem_nil,or_false] at mem
  rcases mem with rfl | rfl <;> simp only [all_append,metamap,metaMain,object,one,two] <;> decide

theorem multiWeighs {m} (names : lowered m.attrName ∧ lowered m.attrValue) (plain : plainMulti m)
    (weighs : Weighs μ q k) (n) : Weighs μ (handleMultiAVUConditions m n q) k := by
  have renamed :
    Weighs μ { q with whereSQL := renameOccurrences m.attrValue n (renameOccurrences m.attrName n q.whereSQL) } k := by
    refine ⟨renameRooted names.2 n (renameRooted names.1 n weighs.rooted),?_⟩
    rw [← totalShape,renameShape names.2,renameShape names.1,totalShape,weighs.total]
  unfold handleMultiAVUConditions
  dsimp only
  split
  · obtain ⟨j,same⟩ :=
      rstrcatsPart (renameOccurrences m.attrValue n (renameOccurrences m.attrName n q.whereSQL)) MAX_SQL_SIZE_GQ
      ((range' 2 (n-1)).flatMap (avuWhere m))
    have grown := weighsAppend renamed same (totalFlatten fun t inside => by
      obtain ⟨i,_,here⟩ := mem_flatMap.mp (mem_of_mem_take inside)
      exact totalSetup (avuWherePlain plain i t here))
    exact ⟨grown.rooted,grown.total⟩
  · exact ⟨renamed.rooted,renamed.total⟩

theorem multipliedWeighs {inp} (weighs : Weighs μ q k) : Weighs μ (multiplied inp q) k := by
  obtain ⟨dataName,dataValue,collName,collValue⟩ := loweredPatterns
  have data : ∀ n, Weighs μ (handleMultiDataAVUConditions n q) k :=
    fun n => multiWeighs ⟨dataName,dataValue⟩ (by unfold plainMulti; decide) weighs n
  have coll : ∀ q n, Weighs μ q k → Weighs μ (handleMultiCollAVUConditions n q) k :=
    fun q n held => multiWeighs ⟨collName,collValue⟩ (by unfold plainMulti; decide) held n
  unfold multiplied
  dsimp only
  split <;> split
  · exact coll _ _ (data _)
  · exact coll _ _ weighs
  · exact data _
  · exact weighs

def upperCase (inp : GenQueryInp) : Bool := inp.options &&& UPPER_CASE_WHERE != 0

theorem intendedWeighs {inp} (known : ∀ c ∈ inp.conditions, ∃ i d, tableOf s c.1 = some (i,d))
    (accepted : ∀ f ∈ conditionForms inp.conditions, f.Accepted) :
    Weighs μ (intendedQuery s inp) (conditionTotals μ s (upperCase inp) inp.conditions) := by
  obtain ⟨sameWhere,sameUpper⟩ := selectsKeepWhere s (startQuery inp.options) inp.selects
  have start : Weighs μ (inp.selects.foldl (intendedSelect s) (startQuery inp.options)) 0 := by
    refine ⟨?_,?_⟩
    · rw [sameWhere]
      exact prefix_rfl
    · have keyword : setupText (lit "where ") = true := rfl
      rw [sameWhere]
      exact totalSetup keyword
  have conditioned := conditionsWeigh start known accepted
  rw [sameUpper,zero_add] at conditioned
  unfold intendedQuery
  split
  · exact conditioned
  rename_i q scanned
  refine multipliedWeighs ?_
  exact tScanKeeps (P := fun q => Weighs μ q _) (fun l mem q held => useLinkWeighs mem held)
    (fun q flag n held => ⟨held.rooted,held.total⟩) scanned conditioned

theorem marksTotal (s upper conditions) :
    conditionTotals marks s upper conditions = ((conditionForms conditions).flatMap (operands s)).length := by
  have one : ∀ wrap f, formTotal marks s wrap f = (f.operands s).length := by
    have mark : marks.of '?' = 1 := rfl
    have closing : marks.of ')' = 0 := rfl
    simp [formTotal,mark,closing]
  have parts : ∀ wrap fs, partTotals marks s wrap fs = (fs.flatMap (operands s)).length := by
    intro _ fs
    induction fs with
    | nil => rfl
    | cons f _ ih =>
      unfold partTotals at *
      rw [map_cons,sum_cons,ih,one,flatMap_cons,length_append]
      rfl
  induction conditions with
  | nil => rfl
  | cons c _ ih =>
    unfold conditionTotals at *
    rw [map_cons,sum_cons,ih,conditionTotal,parts,conditionFormsCons,flatMap_append,length_append]
    rfl

end Irods.GenQuery1Weights
