import Irods.GenQuery2Masks

/-! Literals of a GenQuery2 statement against the SQL it is turned into. An operand is bound; a
string argument of a function is written between single quotes without escaping. -/
namespace Irods.GenQuery2Injection
open CText SqlText GenQuery2Ast GenQuery2Columns GenQuery2Sql GenQuery2Literals GenQuery2Statement GenQuery2Masks

def tablesOf (s : Select) : State := match gather s with
  | .ok g => g.state
  | .error _ => emptyState

structure Faithful (s : Select) (opts : Options) : Prop where
  inlined : strings (lex (toSql s opts).1) =
    withStrings (tablesOf s) ++ s.inlinedBefore ++ permissionStrings (tablesOf s) opts ++ s.inlinedAfter
  bound : (toSql s opts).2 = conditionOperands s.conditions ++ List.replicate (checks (tablesOf s) opts) opts.userName
  marks : ((lex (toSql s opts).1).filter isMark).length = (toSql s opts).2.length

structure LiteralsAreData (s t : Select) (opts : Options) : Prop where
  shape : shape (lex (toSql s opts).1) = shape (lex (toSql t opts).1)
  left : Faithful s opts
  right : Faithful t opts

def quoteFree (s : Select) : Prop := ∀ v ∈ s.inlinedBefore ++ s.inlinedAfter, quote ∉ v

structure Emitted (s : Select) (opts : Options) (ps : List Piece) : Prop where
  sql : (toSql s opts).1 = render ps
  bound : (toSql s opts).2 = conditionOperands s.conditions ++ List.replicate (checks (tablesOf s) opts) opts.userName
  rendered : Rendered Closed ps
    (withStrings (tablesOf s) ++ s.inlinedBefore ++ permissionStrings (tablesOf s) opts ++ s.inlinedAfter)
    ((conditionOperands s.conditions).length+checks (tablesOf s) opts)

theorem generateEmitted {s opts ps vs} (ok : s.parsed = true) (run : generate s opts = .ok (ps,vs)) :
    Emitted s opts ps := by
  have sql : toSql s opts = (render ps,vs) := by rw [toSql,run]
  unfold generate at run
  split at run <;> try contradiction
  rename_i g gathered
  split at run <;> try contradiction
  rename_i clauses
  cases run
  have parsed := parsedParts ok
  have first := gatherOk parsed gathered
  have second := clausesOk parsed first.clean clauses
  have state : tablesOf s = g.state := by rw [tablesOf,gathered]
  refine ⟨by rw [sql],?_,?_⟩
  · rw [sql,state,← first.bound]
    exact (conditionClauseRendered opts first.clean first.conds).2
  · rw [state]
    exact statementRendered parsed first second

theorem emittedPieces {s opts} (ok : s.parsed = true) (emitted : (toSql s opts).1 ≠ []) :
    ∃ ps vs, generate s opts = .ok (ps,vs) ∧ Emitted s opts ps := by
  cases run : generate s opts with
  | error e => exact absurd (by rw [toSql,run]) emitted
  | ok r => exact ⟨r.1,r.2,rfl,generateEmitted ok run⟩

theorem emittedSpaced {s opts ps} (e : Emitted s opts ps) : spaced false ps = true := by
  have all := e.rendered.form []
  rwa [List.append_nil] at all

theorem zoneFree (opts : Options) : quote ∉ opts.userZone := by
  intro mem
  have valid := opts.zoneValid
  exact absurd (List.all_eq_true.mp (Bool.and_eq_true_iff.mp valid).2 _ mem) (by decide)

theorem withFree {st v} (mem : v ∈ withStrings st) : quote ∉ v := by
  unfold withStrings at mem
  split at mem
  · have all : ∀ v ∈ [[],text ";",[]], quote ∉ v := by decide
    exact all v mem
  · contradiction

theorem permissionFree {st opts v} (mem : v ∈ permissionStrings st opts) : quote ∉ v := by
  obtain ⟨l,listed,mem⟩ := List.mem_flatten.mp mem
  rw [List.eq_of_mem_replicate listed] at mem
  rcases List.mem_cons.mp mem with rfl | other
  · exact zoneFree opts
  · rw [List.mem_singleton.mp other]
    decide

theorem valuesFree {s opts ps} (e : Emitted s opts ps) : (∀ v ∈ values ps, quote ∉ v) ↔ quoteFree s := by
  rw [e.rendered.values]
  constructor
  · intro free v mem
    refine free v ?_
    simp only [List.mem_append] at mem ⊢
    tauto
  · intro free v mem
    simp only [List.mem_append] at mem
    rcases mem with ((own | mem) | own) | mem
    · exact withFree own
    · exact free v (List.mem_append_left _ mem)
    · exact permissionFree own
    · exact free v (List.mem_append_right _ mem)

theorem faithfulExactly {s opts ps} (e : Emitted s opts ps) : Faithful s opts ↔ quoteFree s := by
  have exactly := piecesFaithful (emittedSpaced e)
  rw [valuesFree e,e.rendered.values] at exactly
  constructor
  · intro f
    exact exactly.mp (e.sql ▸ f.inlined)
  intro free
  obtain ⟨_,count⟩ := lexPieces (emittedSpaced e) ((valuesFree e).mpr free)
  refine ⟨by rw [e.sql]; exact exactly.mpr free,e.bound,?_⟩
  rw [e.sql,count,e.rendered.marks,e.bound,List.length_append,List.length_replicate]

theorem sameMask {s t opts ps vs} (same : s.mask = t.mask) (run : generate s opts = .ok (ps,vs)) :
    ∃ qs ws, generate t opts = .ok (qs,ws) ∧ ps.map Piece.blank = qs.map Piece.blank := by
  have left := generateMask s opts
  have right := generateMask t opts
  rw [← same,left,run] at right
  cases other : generate t opts with
  | error e => rw [other] at right; contradiction
  | ok r =>
    rw [other] at right
    exact ⟨r.1,r.2,rfl,Except.ok.inj right⟩

theorem literalsAreDataExactly {s t : Select} {opts : Options} (ok : s.parsed = true) (ok' : t.parsed = true)
    (same : s.mask = t.mask) (emitted : (toSql s opts).1 ≠ []) :
    LiteralsAreData s t opts ↔ quoteFree s ∧ quoteFree t := by
  obtain ⟨_,_,run,left⟩ := emittedPieces ok emitted
  obtain ⟨_,_,run',blank⟩ := sameMask same run
  have right := generateEmitted ok' run'
  constructor
  · intro data
    exact ⟨(faithfulExactly left).mp data.left,(faithfulExactly right).mp data.right⟩
  intro free
  refine ⟨?_,(faithfulExactly left).mpr free.1,(faithfulExactly right).mpr free.2⟩
  rw [left.sql,right.sql]
  exact lexShape blank (emittedSpaced left) ((valuesFree left).mpr free.1) ((valuesFree right).mpr free.2)

def alice : Options := ⟨text "alice",text "tempZone",text "postgres",256,false,rfl⟩

def concatenation (v : Text) : Select :=
  ⟨[.function ⟨text "concat",[.column ⟨text "DATA_NAME",[]⟩,.literal v],false⟩],[],[],[],⟨[],[]⟩,false⟩

theorem literalsAreDataHere : LiteralsAreData (concatenation (text ".txt")) (concatenation (text ", 1) --")) alice := by
  have masked : (concatenation (text ".txt")).mask = (concatenation (text ", 1) --")).mask := rfl
  refine (literalsAreDataExactly ?_ ?_ masked ?_).mpr ⟨?_,?_⟩
  · rfl
  · rfl
  · decide +kernel
  · unfold quoteFree; decide
  · unfold quoteFree; decide

theorem literalBreaksOut :
    (concatenation (text ".txt")).parsed = true ∧ (concatenation (text "', '")).parsed = true ∧
    (concatenation (text ".txt")).mask = (concatenation (text "', '")).mask ∧
    GenQuery2Scan.scanLiteral (text "'', '''") = some (text "', '",[]) ∧
    shape (lex (toSql (concatenation (text ".txt")) alice).1) ≠ shape
      (lex (toSql (concatenation (text "', '")) alice).1) :=
  ⟨rfl,rfl,rfl,rfl,by decide +kernel⟩

end Irods.GenQuery2Injection
