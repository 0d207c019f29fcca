import Irods.GenQuery2Sql

/-! The string literal state of the GenQuery2 scanner (lexer.l). A doubled quote and a
\x escape are turned into the byte they stand for before the tree is built, so every
text can be the value of a literal. -/
namespace Irods.GenQuery2Scan
open CText

def hexValue (c : Char) : Option Nat :=
  if '0' ≤ c ∧ c ≤ '9' then some (c.toNat-48)
  else if 'A' ≤ c ∧ c ≤ 'F' then some (c.toNat-55)
  else if 'a' ≤ c ∧ c ≤ 'f' then some (c.toNat-87)
  else none

def hexByte (a b : Char) : Option Char := do
  let hi ← hexValue a
  let lo ← hexValue b
  some (Char.ofNat (16*hi+lo))

/- The text after the opening quote: the literal and what follows its closing quote. The longest
pattern wins, so a doubled quote never closes. -/
def scanLiteral : Text → Option (Text × Text)
  | [] => none
  | '\'' :: '\''::rest => (scanLiteral rest).map (fun r => ('\''::r.1,r.2))
  | '\''::rest => some ([],rest)
  | '\\' :: 'x'::a::b::rest =>
    match hexByte a b with
    | some c => (scanLiteral rest).map (fun r => (c::r.1,r.2))
    | none => (scanLiteral ('x'::a::b::rest)).map (fun r => ('\\'::r.1,r.2))
  | c::rest => (scanLiteral rest).map (fun r => (c::r.1,r.2))

def writeChar (c : Char) : Text := if c = '\'' then text "''" else if c = '\\' then text "\\x5c" else [c]
def writeLiteral (v : Text) : Text := v.flatMap writeChar ++ ['\'']

theorem scanOther {c rest} (q : c ≠ '\'') (b : c ≠ '\\') :
    scanLiteral (c::rest) = (scanLiteral rest).map fun r => (c::r.1,r.2) := by
  rw [scanLiteral.eq_def]
  split <;> simp_all

theorem scanWritten (v rest) (ends : ∀ c, rest.head? = some c → c ≠ '\'') :
    scanLiteral (writeLiteral v ++ rest) = some (v,rest) := by
  induction v with
  | nil =>
    cases rest with
    | nil => rfl
    | cons c _ =>
      simp only [writeLiteral]
      rw [scanLiteral.eq_def]
      split <;> simp_all
      rename_i opens _ same
      exact opens same.1.symm
  | cons c v ih =>
    have cut : writeLiteral (c::v) ++ rest = writeChar c ++ (writeLiteral v ++ rest) := by
      simp [writeLiteral]
    rw [cut]
    by_cases q : c = '\''
    · subst q
      simp [writeChar,text,scanLiteral,ih]
    by_cases b : c = '\\'
    · subst b
      simp [writeChar,text,scanLiteral,ih,hexByte,hexValue]
    · rw [writeChar,if_neg q,if_neg b,List.singleton_append,scanOther q b,ih]
      rfl

theorem quoteScanned :
    scanLiteral (writeLiteral (text "o'k\\") ++ text " and b = 'c'") = some (text "o'k\\",text " and b = 'c'") :=
  scanWritten _ _ (by
    intro c first
    cases first
    decide)

end Irods.GenQuery2Scan

/-! What the pieces of a GenQuery2 statement are: which literals stand quoted in it, which
are bound, and that no piece can open a literal of its own. -/
namespace Irods.GenQuery2Literals
open CText SqlText GenQuery2Ast GenQuery2Columns GenQuery2Sql List Bool Projection

def bareChar (c : Char) : Bool := plainChar c && c != '?'
def bare (t : Text) : Bool := t.all bareChar

theorem barePlain {t} (ok : bare t = true) : plain t = true := by
  unfold bare at ok
  unfold plain
  rw [all_eq_true] at ok ⊢
  intro c mem
  have h := ok c mem
  simp only [bareChar,and_eq_true] at h
  exact h.1

theorem bareMarks {t} (ok : bare t = true) : t.count '?' = 0 := by
  rw [count_eq_zero]
  intro mem
  exact absurd (all_eq_true.mp ok _ mem) (by decide)

theorem bareOf {l} (ok : l.all bareChar = true) : bare (text (String.ofList l)) = true := by
  rw [text,String.toList_ofList]; exact ok

theorem bareAppend {a b} : bare (a ++ b) = (bare a && bare b) := all_append

theorem wordBare {c} (ok : isWordChar c = true) : bareChar c = true := by
  have not : ∀ d, isWordChar d = false → c ≠ d := by
    rintro d no rfl
    rw [ok] at no
    cases no
  simp [bareChar,plainChar,not quote rfl,not '"' rfl,not '-' rfl,not '/' rfl,not '?' rfl]

theorem wordsBare {t} (ok : t.all isWordChar = true) : bare t = true := by
  rw [all_eq_true] at ok
  exact all_eq_true.mpr fun c mem => wordBare (ok c mem)

theorem digitWord {c} (ok : c.isDigit = true) : isWordChar c = true := by
  simp [isWordChar,Char.isAlphanum,ok]

theorem identifierBare {t} (ok : isIdentifier t = true) : bare t = true := by
  cases t with
  | nil => rfl
  | cons c cs =>
    obtain ⟨head,tail⟩ : c.isAlpha = true ∧ cs.all isWordChar = true := by simpa [isIdentifier] using ok
    apply wordsBare
    have first : isWordChar c = true := by simp [isWordChar,Char.isAlphanum,head]
    simp [first,tail]

theorem digitsBare {t} (ok : isDigits t = true) : bare t = true := by
  obtain ⟨_,all⟩ : t.isEmpty = false ∧ t.all Char.isDigit = true := by simpa [isDigits] using ok
  apply wordsBare
  rw [all_eq_true] at all ⊢
  exact fun c mem => digitWord (all c mem)

theorem decimalBare (n) : bare (decimal n) = true :=
  wordsBare (all_eq_true.mpr (fun _ mem => digitWord (Nat.isDigit_of_mem_toDigits (by decide) (by decide) mem)))

theorem typeNameBare {t} (ok : isTypeName t = true) : bare t = true := by
  rcases or_eq_true_iff.mp ok with name | sized
  · exact identifierBare name
  obtain ⟨name,rest⟩ := and_eq_true_iff.mp sized
  rw [← takeWhile_append_dropWhile (l := t),bareAppend,identifierBare name]
  split at rest <;> try contradiction
  rename_i tail same
  obtain ⟨last,size⟩ : tail.getLast? = some ')' ∧ isDigits tail.dropLast = true := by simpa using rest
  obtain ⟨front,rfl⟩ : ∃ front, tail = front ++ [')'] := List.getLast?_eq_some_iff.mp last
  rw [dropLast_concat] at size
  have cut : List.dropWhile isWordChar t = ['('] ++ front ++ [')'] := same
  rw [cut,bareAppend,bareAppend,digitsBare size]
  rfl

theorem columnBare {c : Column} (ok : c.parsed = true) : bare c.typeName = true := by
  obtain ⟨_,kind⟩ := and_eq_true_iff.mp ok
  rcases or_eq_true_iff.mp kind with none | named
  · rw [isEmpty_iff.mp none]; rfl
  · exact typeNameBare named

theorem mappingBare : ∀ e ∈ columnNameMappings, bare e.2.table = true ∧ bare e.2.name = true := by decide +kernel

theorem edgesBare : ∀ e ∈ tableEdges, bare e.firstColumn = true ∧ bare e.secondColumn = true := by decide +kernel

theorem lookupMem {α β} [BEq α] [LawfulBEq α] {k} {v} {l : List (α × β)} (found : l.lookup k = some v) :
    (k,v) ∈ l := by
  obtain ⟨_,_,rfl,_⟩ := lookup_eq_some_iff.mp found
  exact mem_append_right _ mem_cons_self

structure Clean (st : State) : Prop where
  aliases : ∀ e ∈ st.tableAliases, bare e.2 = true
  tables : ∀ t ∈ st.sqlTables, bare t = true

theorem aliasClean {st table a} (clean : Clean st) (found : aliasAt st table = .ok a) : bare a = true := by
  unfold aliasAt at found
  split at found <;> try contradiction
  rename_i same
  cases found
  exact clean.aliases _ (lookupMem same)

def Closed (p : List Piece) : Prop := ∀ rest, spaced false (p ++ rest) = spaced false rest

def Inner (p : List Piece) : Prop :=
  ∀ c t rest, plain (c::t) = true → spaced false (p ++ .raw (c::t)::rest) = spaced false rest

theorem closedNil : Closed [] := fun _ => rfl

theorem closedRaw {t} (ok : plain t = true) : Closed [.raw t] := by
  intro _
  simp [spaced,ok]

theorem closedAppend {p q} (left : Closed p) (right : Closed q) : Closed (p ++ q) := by
  intro _
  rw [append_assoc,left,right]

theorem closedCons {t p} (ok : plain t = true) (tail : Closed p) : Closed (.raw t::p) :=
  closedAppend (closedRaw ok) tail

theorem innerQuoted (v) : Inner [.quoted v] := by
  intro c t _ ok
  simp [spaced,ok]

theorem innerClosed {p} (closed : Closed p) : Inner p := by
  intro c t _ ok
  rw [closed]
  simp [spaced,ok]

theorem innerThen {p c t} (inner : Inner p) (ok : plain (c::t) = true) : Closed (p ++ [.raw (c::t)]) := by
  intro rest
  rw [append_assoc]
  exact inner c t rest ok

theorem joinInner {ps} (all : ∀ p ∈ ps, Inner p) : Inner (joinPieces (text ", ") ps) := by
  induction ps with
  | nil => exact innerClosed closedNil
  | cons p ps ih =>
    cases ps with
    | nil => exact all p mem_cons_self
    | cons q qs =>
      intro c t rest ok
      have tail := ih (forall_mem_cons.mp all).2 c t rest ok
      have head := all p mem_cons_self ',' [' '] (joinPieces (text ", ") (q::qs) ++ .raw (c::t)::rest) rfl
      rw [joinPieces,append_assoc]
      · exact head.trans tail
      · simp

theorem joinClosed {ps} (all : ∀ p ∈ ps, Closed p) : Closed (joinPieces (text ", ") ps) := by
  induction ps with
  | nil => exact closedNil
  | cons p ps ih =>
    cases ps with
    | nil => exact all p mem_cons_self
    | cons q _ =>
      have tail := ih (forall_mem_cons.mp all).2
      rw [joinPieces]
      · exact closedAppend (all p mem_cons_self) (closedCons rfl tail)
      · simp

theorem joinValues (sep ps) : values (joinPieces sep ps) = ps.flatMap values := by
  induction ps with
  | nil => rfl
  | cons p ps ih =>
    cases ps with
    | nil => simp [joinPieces]
    | cons q _ =>
      rw [joinPieces]
      · rw [valuesAppend,values,ih]
        rfl
      · simp

theorem joinMarks {ps} (none : ∀ p ∈ ps, marks p = 0) : marks (joinPieces (text ", ") ps) = 0 := by
  induction ps with
  | nil => rfl
  | cons p ps ih =>
    cases ps with
    | nil => exact none p mem_cons_self
    | cons q _ =>
      rw [joinPieces]
      · rw [marksAppend,marks,ih (forall_mem_cons.mp none).2,none p mem_cons_self]
        rfl
      · simp

structure Rendered (form : List Piece → Prop) (p : List Piece) (literals : List Text) (n : Nat) : Prop where
  form : form p
  values : SqlText.values p = literals
  marks : SqlText.marks p = n

structure AllRendered (form : List Piece → Prop) (ps : List (List Piece)) (literals : List Text) : Prop where
  form : ∀ p ∈ ps, form p
  values : ps.flatMap SqlText.values = literals
  marks : ∀ p ∈ ps, SqlText.marks p = 0

theorem renderedRaw {t} (ok : bare t = true) : Rendered Closed [.raw t] [] 0 :=
  ⟨closedRaw (barePlain ok),rfl,by simp [marks,bareMarks ok]⟩

theorem literalRendered (v) : Rendered Inner [.quoted v] [v] 0 := ⟨innerQuoted v,rfl,rfl⟩

theorem renderedInner {p ls n} (r : Rendered Closed p ls n) : Rendered Inner p ls n :=
  ⟨innerClosed r.form,r.values,r.marks⟩

theorem renderedAppend {p q ls ms n k} (left : Rendered Closed p ls n) (right : Rendered Closed q ms k) :
    Rendered Closed (p ++ q) (ls ++ ms) (n+k) :=
  ⟨closedAppend left.form right.form,by rw [valuesAppend,left.values,right.values],
    by rw [marksAppend,left.marks,right.marks]⟩

theorem allNil {form} : AllRendered form [] [] := ⟨by simp,rfl,by simp⟩

theorem allCons {form p ps ls ms} (head : Rendered form p ls 0) (tail : AllRendered form ps ms) :
    AllRendered form (p::ps) (ls ++ ms) := by
  refine ⟨?_,?_,?_⟩
  · intro q mem
    rcases mem_cons.mp mem with rfl | old
    · exact head.form
    · exact tail.form q old
  · rw [flatMap_cons,head.values,tail.values]
  · intro q mem
    rcases mem_cons.mp mem with rfl | old
    · exact head.marks
    · exact tail.marks q old

theorem allJoin {ps ls} (all : AllRendered Closed ps ls) : Rendered Closed (joinPieces (text ", ") ps) ls 0 :=
  ⟨joinClosed all.form,by rw [joinValues,all.values],joinMarks all.marks⟩

theorem allCall {name distinct ps ls} (named : bare name = true) (all : AllRendered Inner ps ls) :
    Rendered Closed (functionCall name distinct ps) ls 0 := by
  have opened : bare (name ++ text (if distinct then "(distinct " else "(")) = true := by
    rw [bareAppend,named]
    cases distinct <;> rfl
  refine ⟨?_,?_,?_⟩
  · exact closedCons (barePlain opened) (innerThen (joinInner all.form) (rfl : plain [')'] = true))
  · simp [functionCall,values,valuesAppend,joinValues,all.values]
  · simp only [functionCall,marks,marksAppend,bareMarks opened,joinMarks all.marks]
    rfl

theorem columnTextBare {a name kind} (one : bare a = true) (two : bare name = true) (three : bare kind = true) :
    bare (columnText a name kind) = true := by
  unfold columnText
  split
  · simp only [bareAppend,one,two]; rfl
  · simp only [bareAppend,one,two,three]; rfl

theorem iteBoth {α} {P : α → Prop} {c} [Decidable c] {x y} (yes : ∀ s, x = some s → P s)
    (no : ∀ s, y = some s → P s) : ∀ s, (if c then x else y) = some s → P s := by
  split
  · exact yes
  · exact no

theorem someHere {α} {P : α → Prop} {a} (here : P a) : ∀ s, some a = some s → P s :=
  fun _ same => Option.some.inj same ▸ here

theorem noneHere {α} {P : α → Prop} : ∀ s, (none : Option α) = some s → P s := fun _ no => by cases no

structure SpecialOk (s : Special) : Prop where
  tableAlias : bare s.tableAlias = true
  base : bare s.base = true
  aliases : ∀ st, (s.mark st).tableAliases = st.tableAliases
  tables : ∀ st, (s.mark st).sqlTables = st.sqlTables
  values : ∀ st, (s.mark st).values = st.values
  frame : ∀ st vs, s.mark { st with values := vs } = { s.mark st with values := vs }

theorem specialBare (name) : ∀ s, special name = some s → SpecialOk s := by
  repeat' apply iteBoth
  all_goals first
    | exact noneHere
    | exact someHere ⟨rfl,rfl,fun _ => rfl,fun _ => rfl,fun _ => rfl,fun _ _ => rfl⟩

theorem getSpecialBare (name) : ∀ a, getSpecialTableAliasForColumn name = some a → bare a = true := by
  repeat' apply iteBoth
  all_goals first
    | exact noneHere
    | exact someHere rfl

theorem addTableClean {st table} (clean : Clean st) (ok : bare table = true) :
    Clean (addTable st table) ∧ (addTable st table).values = st.values := by
  unfold addTable
  split
  · exact ⟨clean,rfl⟩
  refine ⟨⟨?_,?_⟩,rfl⟩
  · intro e mem
    rcases mem_cons.mp mem with rfl | old
    · simp only [bareAppend,decimalBare]; rfl
    · exact clean.aliases e old
  · intro t mem
    rcases mem_append.mp mem with old | new
    · exact clean.tables t old
    · rw [mem_singleton.mp new]; exact ok

theorem setupClean {st name info} (clean : Clean st) (ok : bare info.table = true) :
    Clean (setupColumnForPostProcessing st name info).2 ∧
    (setupColumnForPostProcessing st name info).2.values = st.values ∧
    ∀ a, (setupColumnForPostProcessing st name info).1 = some a → bare a = true := by
  unfold setupColumnForPostProcessing
  split
  · rename_i s found
    have good := specialBare _ s found
    have kept := good.values st
    have marked : Clean (s.mark st) :=
      ⟨by rw [good.aliases]; exact clean.aliases,by rw [good.tables]; exact clean.tables⟩
    obtain ⟨added,same⟩ := addTableClean marked good.base
    refine ⟨?_,?_,fun a same => by cases same; exact good.tableAlias⟩
    · split <;> assumption
    split
    · exact kept
    · rw [same,kept]
  · obtain ⟨added,same⟩ := addTableClean clean ok
    exact ⟨added,same,fun a none => by cases none⟩

theorem aliasOfBare {st fixed table a} (clean : Clean st) (named : ∀ b, fixed = some b → bare b = true)
    (found : aliasOf st fixed table = .ok a) : bare a = true := by
  unfold aliasOf at found
  split at found
  · cases found; exact named _ rfl
  · exact aliasClean clean found

def Steps (st st' : State) (vs : List Text) : Prop := Clean st' ∧ st'.values = st.values ++ vs

theorem columnRendered {st c p st'} (clean : Clean st) (ok : c.parsed = true) (run : toSqlColumn st c = .ok (p,st')) :
    Rendered Closed p [] 0 ∧ Steps st st' [] := by
  unfold toSqlColumn at run
  split at run <;> try contradiction
  rename_i found
  obtain ⟨table,name⟩ := mappingBare _ (lookupMem found)
  have seen : Clean { st with astColumns := st.astColumns ++ [c] } := ⟨clean.aliases,clean.tables⟩
  obtain ⟨next,kept,named⟩ := setupClean seen table
  dsimp only at run
  split at run <;> try contradiction
  rename_i chosen
  cases run
  exact ⟨renderedRaw (columnTextBare (aliasOfBare next named chosen) name (columnBare ok)),next,by simpa using kept⟩

theorem clauseColumnRendered {st c p} (clean : Clean st) (ok : c.parsed = true) (run : clauseColumn st c = .ok p) :
    Rendered Closed p [] 0 := by
  unfold clauseColumn at run
  split at run <;> try contradiction
  rename_i found
  split at run <;> try contradiction
  rename_i chosen
  cases run
  have given := aliasOfBare clean (getSpecialBare c.name) chosen
  exact renderedRaw (columnTextBare given (mappingBare _ (lookupMem found)).2 (columnBare ok))

theorem stepsTrans {a b c vs ws} (one : Steps a b vs) (two : Steps b c ws) : Steps a c (vs ++ ws) :=
  ⟨two.1,by rw [two.2,one.2,append_assoc]⟩

theorem callStep {st name args distinct p st'} (run : toSqlArgument st (.function name args distinct) = .ok (p,st')) :
    ∃ ps, toSqlArguments st args = .ok (ps,st') ∧ p = functionCall name distinct ps := by
  rw [toSqlArgument] at run
  split at run <;> try contradiction
  rename_i ps _ ran
  split at run <;> try contradiction
  cases run
  exact ⟨ps,ran,rfl⟩

theorem argumentsStep {st a as ps st'} (run : toSqlArguments st (a::as) = .ok (ps,st')) :
    ∃ p qs mid, toSqlArgument st a = .ok (p,mid) ∧ toSqlArguments mid as = .ok (qs,st') ∧ ps = p::qs := by
  rw [toSqlArguments] at run
  split at run <;> try contradiction
  rename_i p mid one
  split at run <;> try contradiction
  rename_i qs _ two
  cases run
  exact ⟨p,qs,mid,one,two,rfl⟩

mutual
theorem argumentRendered {st a p st'} (clean : Clean st) (ok : a.parsed = true)
    (run : toSqlArgument st a = .ok (p,st')) : Rendered Inner p a.literals 0 ∧ Steps st st' [] := by
  match a with
  | .literal v =>
    rw [toSqlArgument] at run
    cases run
    exact ⟨literalRendered v,clean,by simp⟩
  | .column c =>
    rw [toSqlArgument] at run
    obtain ⟨r,steps⟩ := columnRendered clean ok run
    exact ⟨renderedInner r,steps⟩
  | .function _ _ _ =>
    obtain ⟨_,ran,rfl⟩ := callStep run
    rw [Argument.parsed,and_eq_true] at ok
    obtain ⟨all,steps⟩ := argumentsRendered clean ok.2 ran
    exact ⟨renderedInner (allCall (identifierBare ok.1) all),steps⟩

theorem argumentsRendered {st as ps st'} (clean : Clean st) (ok : argumentsParsed as = true)
    (run : toSqlArguments st as = .ok (ps,st')) : AllRendered Inner ps (argumentLiterals as) ∧ Steps st st' [] := by
  match as with
  | [] =>
    rw [toSqlArguments] at run
    cases run
    exact ⟨allNil,clean,by simp⟩
  | a::as =>
    obtain ⟨p,_,_,one,two,rfl⟩ := argumentsStep run
    rw [argumentsParsed,and_eq_true] at ok
    obtain ⟨head,first⟩ := argumentRendered clean ok.1 one
    obtain ⟨tail,rest⟩ := argumentsRendered first.1 ok.2 two
    exact ⟨allCons head tail,stepsTrans first rest⟩
end

theorem projectionRendered {st q p st'} (clean : Clean st) (ok : q.parsed = true)
    (run : toSqlProjection st q = .ok (p,st')) : Rendered Closed p q.literals 0 ∧ Steps st st' [] := by
  cases q with
  | column c => exact columnRendered clean ok run
  | function f =>
    obtain ⟨_,ran,rfl⟩ := callStep run
    obtain ⟨named,args⟩ := and_eq_true_iff.mp ok
    obtain ⟨all,steps⟩ := argumentsRendered clean args ran
    exact ⟨allCall (identifierBare named) all,steps⟩

theorem eachRendered {st qs ps st'} (clean : Clean st) (ok : qs.all parsed = true)
    (run : toSqlEach st qs = .ok (ps,st')) : AllRendered Closed ps (qs.flatMap literals) ∧ Steps st st' [] := by
  induction qs generalizing st ps with
  | nil =>
    cases run
    exact ⟨allNil,clean,by simp⟩
  | cons q _ ih =>
    rw [all_cons,and_eq_true] at ok
    rw [toSqlEach] at run
    split at run <;> try contradiction
    rename_i _ one
    split at run <;> try contradiction
    rename_i _ two
    cases run
    obtain ⟨head,first⟩ := projectionRendered clean ok.1 one
    obtain ⟨tail,steps⟩ := ih first.1 ok.2 two
    exact ⟨allCons head tail,stepsTrans first steps⟩

theorem projectionsRendered {st qs p st'} (clean : Clean st) (ok : qs.all parsed = true)
    (run : toSqlProjections st qs = .ok (p,st')) : Rendered Closed p (qs.flatMap literals) 0 ∧ Steps st st' [] := by
  unfold toSqlProjections at run
  split at run <;> try contradiction
  split at run <;> try contradiction
  rename_i _ ran
  cases run
  have start : Clean { st with inSelectClause := true, sqlTables := [] } := ⟨clean.aliases,by simp⟩
  obtain ⟨all,steps⟩ := eachRendered start ok ran
  exact ⟨allJoin all,⟨steps.1.aliases,steps.1.tables⟩,steps.2⟩

theorem plainAppend {a b} : plain (a ++ b) = (plain a && plain b) := all_append

theorem placeholdersMarks (n) : plain (placeholders n) = true ∧ (placeholders n).count '?' = n := by
  induction n with
  | zero => exact ⟨rfl,rfl⟩
  | succ n ih =>
    cases n with
    | zero => exact ⟨rfl,rfl⟩
    | succ n =>
      rw [placeholders,plainAppend,ih.1,count_append]
      exact ⟨rfl,by rw [show (text "?, ").count '?' = 1 from rfl]; omega⟩

theorem renderedMarks {t n} (ok : plain t = true) (count : t.count '?' = n) :
    Rendered Closed [.raw t] [] n := ⟨closedRaw ok,rfl,by simp [marks,count]⟩

theorem bindSteps {st vs} (clean : Clean st) : Steps st (bindValues st vs) vs := ⟨⟨clean.aliases,clean.tables⟩,rfl⟩

theorem stay {st} (clean : Clean st) : Steps st st [] := ⟨clean,by simp⟩

theorem expressionRendered {st} (e) (clean : Clean st) :
    Rendered Closed (toSqlExpression st e).1 [] e.operands.length ∧ Steps st (toSqlExpression st e).2 e.operands := by
  induction e with
  | inList vs =>
    obtain ⟨ok,count⟩ := placeholdersMarks vs.length
    refine ⟨renderedMarks ?_ ?_,bindSteps clean⟩
    · rw [plainAppend,plainAppend,ok]; rfl
    · rw [count_append,count_append,count]
      exact Nat.zero_add _
  | isNull => exact ⟨renderedMarks rfl rfl,stay clean⟩
  | isNotNull => exact ⟨renderedMarks rfl rfl,stay clean⟩
  | operatorNot e ih =>
    obtain ⟨r,steps⟩ := ih
    have both := renderedAppend (renderedMarks (t := text " not") (n := 0) rfl rfl) r
    rw [Nat.zero_add] at both
    exact ⟨both,steps⟩
  | _ => exact ⟨renderedMarks rfl rfl,bindSteps clean⟩

theorem conditionRendered {st c p st'} (clean : Clean st) (ok : c.lhs.parsed = true)
    (run : toSqlCondition st c = .ok (p,st')) :
    Rendered Closed p c.lhs.literals c.expression.operands.length ∧ Steps st st' c.expression.operands := by
  unfold toSqlCondition at run
  split at run <;> try contradiction
  rename_i _ one
  cases run
  obtain ⟨head,first⟩ := projectionRendered clean ok one
  obtain ⟨tail,rest⟩ := expressionRendered c.expression first.1
  have both := renderedAppend head tail
  rw [append_nil,Nat.zero_add] at both
  exact ⟨both,stepsTrans first rest⟩

theorem wrappedRendered {before after r st p st' ls vs} (ok : bare (text before) = true)
    (close : bare (text after) = true) (run : wrapped before after r = .ok (p,st'))
    (inner : ∀ q, r = .ok (q,st') → Rendered Closed q ls vs.length ∧ Steps st st' vs) :
    Rendered Closed p ls vs.length ∧ Steps st st' vs := by
  unfold wrapped at run
  split at run <;> try contradiction
  rename_i q _
  cases run
  obtain ⟨body,steps⟩ := inner q rfl
  have all := renderedAppend (renderedAppend (renderedRaw ok) body) (renderedRaw close)
  rw [append_nil,Nat.zero_add] at all
  exact ⟨all,steps⟩

mutual
theorem wrapperRendered {st c p st'} (clean : Clean st) (ok : c.parsed = true) (run : toSqlWrapper st c = .ok (p,st')) :
    Rendered Closed p c.literals c.operands.length ∧ Steps st st' c.operands := by
  match c with
  | .condition c => rw [toSqlWrapper] at run; exact conditionRendered clean ok run
  | .logicalAnd cs =>
    rw [toSqlWrapper] at run
    exact wrappedRendered rfl rfl run (fun q ran => conditionsRendered clean ok ran)
  | .logicalOr cs =>
    rw [toSqlWrapper] at run
    exact wrappedRendered rfl rfl run (fun q ran => conditionsRendered clean ok ran)
  | .logicalNot cs =>
    rw [toSqlWrapper] at run
    exact wrappedRendered rfl rfl run (fun q ran => conditionsRendered clean ok ran)
  | .logicalGrouping _ =>
    rw [toSqlWrapper] at run
    exact wrappedRendered rfl rfl run (fun q ran => conditionsRendered clean ok ran)

theorem conditionsRendered {st cs p st'} (clean : Clean st) (ok : conditionsParsed cs = true)
    (run : toSqlConditions st cs = .ok (p,st')) :
    Rendered Closed p (conditionLiterals cs) (conditionOperands cs).length ∧ Steps st st' (conditionOperands cs) := by
  match cs with
  | [] =>
    rw [toSqlConditions] at run
    cases run
    exact ⟨⟨closedNil,rfl,rfl⟩,stay clean⟩
  | c::cs =>
    rw [toSqlConditions] at run
    split at run <;> try contradiction
    rename_i q _ one
    split at run <;> try contradiction
    rename_i _ _ two
    cases run
    rw [conditionsParsed,and_eq_true] at ok
    obtain ⟨head,first⟩ := wrapperRendered clean ok.1 one
    obtain ⟨tail,steps⟩ := conditionsRendered first.1 ok.2 two
    have both := renderedAppend head tail
    rw [← length_append] at both
    exact ⟨both,stepsTrans first steps⟩
end

theorem getTableJoinBare {st a b j} (clean : Clean st) (table : bare b = true)
    (run : getTableJoin st a b = .ok (some j)) : bare j = true := by
  unfold getTableJoin at run
  simp only [Bind.bind,Except.bind] at run
  split at run <;> try contradiction
  split at run <;> try contradiction
  split at run
  · cases run
  rename_i e found
  obtain ⟨one,two⟩ := edgesBare e (mem_of_find?_eq_some found)
  split at run <;> try contradiction
  rename_i hj
  split at run <;> try contradiction
  rename_i hf
  split at run <;> try contradiction
  rename_i hs
  cases run
  simp only [bareAppend,table,aliasClean clean hj,aliasClean clean hf,aliasClean clean hs,one,two]
  rfl

theorem joinPassBare {st last joins processed ts r} (clean : Clean st) (bareJoins : ∀ j ∈ joins, bare j = true)
    (tables : ∀ t ∈ ts, bare t = true) (run : joinPass st last joins processed ts = .ok r) :
    (∀ j ∈ r.joins, bare j = true) ∧ ∀ t ∈ r.remaining, bare t = true := by
  induction ts generalizing joins processed r with
  | nil =>
    cases run
    exact ⟨bareJoins,by simp⟩
  | cons t ts ih =>
    have head := tables t mem_cons_self
    have tail : ∀ u ∈ ts, bare u = true := (forall_mem_cons.mp tables).2
    rw [joinPass] at run
    split at run <;> try contradiction
    · rename_i found
      have new := getTableJoinBare clean head found
      refine ih ?_ tail run
      intro i mem
      rcases mem_append.mp mem with old | one
      · exact bareJoins i old
      · rw [mem_singleton.mp one]; exact new
    · split at run <;> try contradiction
      rename_i ran
      cases run
      obtain ⟨js,ts⟩ := ih bareJoins tail ran
      refine ⟨js,?_⟩
      intro u mem
      rcases mem_cons.mp mem with rfl | old
      · exact head
      · exact ts u old

theorem joinPassesBare {st n r r'} (clean : Clean st) (joins : ∀ j ∈ r.joins, bare j = true)
    (tables : ∀ t ∈ r.remaining, bare t = true) (run : joinPasses st n r = .ok r') : ∀ j ∈ r'.joins, bare j = true := by
  induction n generalizing r with
  | zero => cases run; exact joins
  | succ n ih =>
    rw [joinPasses] at run
    split at run <;> try contradiction
    rename_i one
    obtain ⟨js,ts⟩ := joinPassBare clean joins tables one
    exact ih js ts run

theorem innerJoinsBare {st joins} (clean : Clean st) (run : generateInnerJoins st = .ok joins) :
    ∀ j ∈ joins, bare j = true := by
  unfold generateInnerJoins at run
  split at run
  · cases run; simp
  rename_i _ tables
  split at run <;> try contradiction
  rename_i ran
  cases run
  exact joinPassesBare clean (by simp) (fun u mem => clean.tables u (by rw [tables]; exact mem_cons_of_mem _ mem)) ran

structure AccessOk (a : Access) : Prop where
  idColumn : bare a.idColumn = true
  objt : bare a.objt = true
  tokn : bare a.tokn = true
  group : bare a.group = true
  user : bare a.user = true

section
variable {st} (clean : Clean st)
include clean

theorem accessJoinsBare {keyword a} (word : bare keyword = true) (ok : AccessOk a) :
    bare (accessJoins st keyword a) = true := by
  unfold accessJoins
  split
  · rfl
  rename_i lookup
  have found' := clean.aliases _ (lookupMem lookup)
  have none : bare [] = true := rfl
  have choose : ∀ (c : Bool) t, bare t = true → bare (if c then t else []) = true := by
    intro c t ok
    cases c
    · exact none
    · exact ok
  rw [bareAppend,bareAppend,choose,choose,choose]
  · rfl
  · simp only [bareAppend,word,ok.group,ok.objt,ok.user]; rfl
  · simp only [bareAppend,word,ok.objt,ok.tokn]; rfl
  · simp only [bareAppend,word,ok.objt,found',ok.idColumn]; rfl

theorem permissionJoinsBare {opts} : bare (generateJoinsForPermissions st opts) = true := by
  have word : bare (text (if opts.adminMode then "left" else "inner")) = true := by
    cases opts.adminMode <;> rfl
  unfold generateJoinsForPermissions
  rw [bareAppend,accessJoinsBare clean word ⟨rfl,rfl,rfl,rfl,rfl⟩,accessJoinsBare clean word ⟨rfl,rfl,rfl,rfl,rfl⟩]
  rfl

theorem metadataJoinBare {add table idColumn map main t}
    (named : bare (text idColumn) = true ∧ bare (text map) = true ∧ bare (text main) = true)
    (run : metadataJoin st add table idColumn map main = .ok t) : bare t = true := by
  unfold metadataJoin at run
  split at run
  · split at run <;> try contradiction
    rename_i found
    cases run
    simp only [bareAppend,named.1,named.2.1,named.2.2,aliasClean clean found]; rfl
  · cases run; rfl

theorem metadataBare {t} (run : generateJoinsForMetadataColumns st = .ok t) : bare t = true := by
  unfold generateJoinsForMetadataColumns at run
  simp only [Bind.bind,Except.bind] at run
  split at run <;> try contradiction
  rename_i hd
  split at run <;> try contradiction
  rename_i hc
  split at run <;> try contradiction
  rename_i hr
  split at run <;> try contradiction
  rename_i hu
  cases run
  simp [bareAppend,metadataJoinBare clean ⟨rfl,rfl,rfl⟩ hd,metadataJoinBare clean ⟨rfl,rfl,rfl⟩ hc,
      metadataJoinBare clean ⟨rfl,rfl,rfl⟩ hr,metadataJoinBare clean ⟨rfl,rfl,rfl⟩ hu]

theorem hierJoinBare {t} (run : hierJoin st = .ok t) : bare t = true := by
  unfold hierJoin at run
  split at run
  · split at run <;> try contradiction
    rename_i found
    cases run
    simp only [bareAppend,aliasClean clean found]; rfl
  · cases run; rfl

end

end Irods.GenQuery2Literals
