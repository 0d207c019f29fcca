import Irods.CText

/-! irods_hierarchy_parser.cpp: the resources of a hierarchy as a list, read from a text by
string_tokenize and printed again. Only the names of inserted resources are checked, and only against
the delimiter itself. -/
namespace Irods.HierarchyParser
open CText List

def SYS_INVALID_INPUT_PARAM : Int := -130000
def SYS_NOT_ALLOWED : Int := -169000
def CHILD_NOT_FOUND : Int := -1804000
def NO_NEXT_RESC_FOUND : Int := -1805000
def DELIM : Text := [';']

def withoutBlank (tt : Text) : Text := if tt.head? = some ' ' then tt.tail else tt

/- Every token has a character, so the length of the text bounds their number. -/
def tokensFrom (delim : Text) : Nat → Text → List Text
  | 0,_ => []
  | n+1,str =>
    let rest := str.dropWhile (delim.contains ·)
    if rest.isEmpty then []
    else withoutBlank (rest.takeWhile (!delim.contains ·))::tokensFrom delim n (rest.dropWhile (!delim.contains ·))

def stringTokenize (str delim : Text) : List Text := tokensFrom delim str.length str

abbrev Parser := List Text

def setString (rescHier : Text) : Int × Parser :=
  (if (stringTokenize rescHier DELIM).isEmpty then SYS_INVALID_INPUT_PARAM else 0,stringTokenize rescHier DELIM)

def strFrom (termResc : Text) : Bool → Parser → Text
  | _,[] => []
  | first,resc::rest =>
    (if first then [] else DELIM) ++ resc ++ (if resc = termResc then [] else strFrom termResc false rest)

/- The terminating resource is empty by default. -/
def str (p : Parser) : Text := strFrom [] true p

def addChild (resc : Text) (p : Parser) : Except Int Parser :=
  if resc = DELIM then .error SYS_INVALID_INPUT_PARAM else .ok (p ++ [resc])

def removeResource (name : Text) (p : Parser) : Except Int Parser :=
  if name = [] ∨ name = DELIM then .error SYS_INVALID_INPUT_PARAM
  else if p.length < 2 then .error SYS_NOT_ALLOWED
  else if name ∈ p then .ok (p.erase name) else .error CHILD_NOT_FOUND

def addParent (parent child : Text) (p : Parser) : Except Int Parser :=
  if parent = DELIM then .error SYS_INVALID_INPUT_PARAM
  else if child = [] then .ok (parent::p)
  else if child ∈ p then .ok (p.insertIdx (p.idxOf child) parent) else .error CHILD_NOT_FOUND

def firstResc (p : Parser) : Text := p.head?.getD []
def lastResc (p : Parser) : Text := p.getLast?.getD []

def next (current : Text) : Parser → Except Int Text
  | [] => .error CHILD_NOT_FOUND
  | [resc] => .error (if resc = current then NO_NEXT_RESC_FOUND else CHILD_NOT_FOUND)
  | resc::following::rest => if resc = current then .ok following else next current (following::rest)

inductive Call where
  | addChild (resc : Text)
  | addParent (parent child : Text)
  | removeResource (name : Text)

def Call.run : Call → Parser → Except Int Parser
  | .addChild resc => HierarchyParser.addChild resc
  | .addParent parent child => HierarchyParser.addParent parent child
  | .removeResource name => HierarchyParser.removeResource name

def Call.inserts : Call → List Text
  | .addChild resc => [resc]
  | .addParent parent _ => [parent]
  | .removeResource _ => []

/- The parsers successful calls lead to, with the names that may be inserted. -/
inductive Reached (names : Text → Prop) (hier : Text) : Parser → Prop where
  | start : (setString hier).1 = 0 → Reached names hier (setString hier).2
  | call {p c q} : Reached names hier p → (∀ n ∈ c.inserts, names n) → Call.run c p = .ok q → Reached names hier q

structure Agree (p q : Parser) : Prop where
  list : q = p
  first : firstResc q = firstResc p
  last : lastResc q = lastResc p
  next : ∀ current, next current q = next current p
  levels : q.length = p.length
  contains : ∀ name, q.contains name = p.contains name

structure Survives (p : Parser) : Prop where
  succeeds : (setString (str p)).1 = 0
  agree : Agree p (setString (str p)).2

def Plain (n : Text) : Prop := n ≠ [] ∧ ';' ∉ n ∧ n.head? ≠ some ' '

instance (n) : Decidable (Plain n) := by unfold Plain; infer_instance

def pieces (t : Text) : List Text := t.splitOnP (· == ';')

/- No piece is a blank alone or begins with two. -/
def Clean (hier : Text) : Prop := ∀ t ∈ pieces hier, t ≠ [' '] ∧ ¬[' ',' '] <+: t

instance (hier) : Decidable (Clean hier) := by unfold Clean; infer_instance

theorem delimiter (c) : c ∈ DELIM ↔ c = ';' := by simp [DELIM]

theorem piecesFirst {t : Text} (plain : ';' ∉ t) (u : Text) : pieces (t ++ ';'::u) = t::pieces u :=
  splitOnP_append_cons_of_forall_mem (fun _ mem => beq_false_of_ne (ne_of_mem_of_not_mem mem plain)) _ rfl u

theorem piecesLast {t : Text} (plain : ';' ∉ t) : pieces t = [t] :=
  splitOnP_eq_singleton fun _ mem => beq_false_of_ne (ne_of_mem_of_not_mem mem plain)

/- A text is its first piece, and ends there or goes on behind a delimiter. -/
theorem firstPiece (t : Text) : ';' ∉ t.takeWhile (!DELIM.contains ·) ∧
    (t.dropWhile (!DELIM.contains ·) = [] ∨ ∃ v, t.dropWhile (!DELIM.contains ·) = ';'::v) := by
  constructor
  · intro mem
    have kept := mem_takeWhile_imp mem
    simp [delimiter] at kept
  · have stops := head?_dropWhile_not (!DELIM.contains ·) t
    cases left : t.dropWhile (!DELIM.contains ·) with
    | nil => exact .inl rfl
    | cons c v =>
      rw [left] at stops
      exact .inr ⟨v,by simpa [delimiter] using stops⟩

theorem skipDelimiters (t : Text) :
    (pieces (t.dropWhile (DELIM.contains ·))).filter (!·.isEmpty) = (pieces t).filter (!·.isEmpty) := by
  induction t with
  | nil => rfl
  | cons c t skip =>
    by_cases delim : c = ';'
    · have front : pieces (';'::t) = []::pieces t := piecesFirst (t := []) (by simp) t
      simpa [delim,delimiter,front,dropWhile] using skip
    · simp [delim,delimiter,dropWhile]

theorem tokensPieces {n} {t : Text} (enough : t.length ≤ n) :
    tokensFrom DELIM n t = ((pieces t).filter (!·.isEmpty)).map withoutBlank := by
  induction n generalizing t with
  | zero =>
    rw [length_eq_zero_iff.mp (Nat.le_zero.mp enough)]
    rfl
  | succ n ih =>
    have short := (dropWhile_sublist (DELIM.contains ·) (l := t)).length_le
    have starts := head?_dropWhile_not (DELIM.contains ·) t
    rw [← skipDelimiters,tokensFrom]
    generalize t.dropWhile (DELIM.contains ·) = rest at short starts ⊢
    cases rest with
    | nil => rfl
    | cons c rest =>
      have named : c ≠ ';' := by simpa [delimiter] using starts
      obtain ⟨plain,ends⟩ := firstPiece (c::rest)
      have whole := takeWhile_append_dropWhile (p := (!DELIM.contains ·)) (l := c::rest)
      have nonempty : (c::rest).takeWhile (!DELIM.contains ·) ≠ [] := by simp [takeWhile,delimiter,named]
      generalize (c::rest).takeWhile (!DELIM.contains ·) = w at plain whole nonempty ⊢
      generalize (c::rest).dropWhile (!DELIM.contains ·) = u at ends whole ⊢
      have fewer : u.length ≤ n := by
        have count := congrArg length whole
        have filled := length_pos_iff.mpr nonempty
        simp only [length_append,length_cons] at count short
        omega
      rw [ih fewer,← whole]
      obtain rfl | ⟨v,rfl⟩ := ends
      · simp [piecesLast plain,piecesLast,nonempty]
      · have front : pieces (';'::v) = []::pieces v := piecesFirst (t := []) (by simp) v
        simp [piecesFirst plain,front,nonempty]

theorem tokenized (t) : stringTokenize t DELIM = ((pieces t).filter (!·.isEmpty)).map withoutBlank :=
  tokensPieces (le_refl _)

theorem piecePlain {t piece : Text} (mem : piece ∈ pieces t) : ';' ∉ piece := by
  induction t generalizing piece with
  | nil => simp_all [pieces]
  | cons c t ih =>
    rw [pieces,splitOnP_cons_eq_if_modifyHead] at mem
    split at mem
    · obtain rfl | later := mem_cons.mp mem
      · exact not_mem_nil
      · exact ih later
    · rename_i other
      change piece ∈ (pieces t).modifyHead _ at mem
      cases cut : pieces t with
      | nil => simp [cut] at mem
      | cons first rest =>
        simp only [cut,modifyHead_cons,mem_cons] at mem ih
        obtain rfl | later := mem
        · have free := ih (.inl rfl)
          exact not_mem_cons_of_ne_of_not_mem (fun same => other (by simp [← same])) free
        · exact ih (.inr later)

theorem printedRest (termResc p) :
    strFrom termResc false p = if p = [] then [] else DELIM ++ strFrom termResc true p := by
  cases p <;> simp [strFrom]

theorem printedPieces {p : Parser} (plain : ∀ n ∈ p, ';' ∉ n) :
    (pieces (str p)).filter (!·.isEmpty) = p.takeWhile (!·.isEmpty) := by
  unfold str
  induction p with
  | nil => rfl
  | cons resc rest ih =>
    obtain ⟨free,others⟩ := forall_mem_cons.mp plain
    by_cases empty : resc = []
    · subst empty
      rfl
    by_cases last : rest = []
    · simp [strFrom,empty,last,piecesLast free]
    simp [strFrom,empty,last,printedRest,DELIM,piecesFirst free,ih others]

theorem tokenFree {t token : Text} (mem : token ∈ stringTokenize t DELIM) : ';' ∉ token := by
  rw [tokenized] at mem
  obtain ⟨piece,kept,rfl⟩ := mem_map.mp mem
  have free := piecePlain (mem_filter.mp kept).1
  unfold withoutBlank
  split
  · exact fun inside => free (mem_of_mem_tail inside)
  · exact free

theorem unblanked (n : Text) : withoutBlank n = n ↔ n.head? ≠ some ' ' := by
  unfold withoutBlank
  cases n <;> simp

theorem plainToken {t : Text} (free : ';' ∉ withoutBlank t) (nonempty : t ≠ []) :
    Plain (withoutBlank t) ↔ t ≠ [' '] ∧ ¬[' ',' '] <+: t := by
  obtain ⟨c,rest,rfl⟩ := exists_cons_of_ne_nil nonempty
  by_cases blank : c = ' '
  · subst blank
    cases rest with
    | nil => simp [Plain,withoutBlank]
    | cons d rest => simp_all [Plain,withoutBlank,eq_comm]
  · simp_all [Plain,withoutBlank,eq_comm]

theorem startPlain (hier) : (∀ n ∈ (setString hier).2, Plain n) ↔ Clean hier := by
  have tokens : (setString hier).2 = _ := tokenized hier
  constructor
  · intro plain t mem
    by_cases empty : t = []
    · simp [empty]
    have token : withoutBlank t ∈ (setString hier).2 := by
      rw [tokens]
      exact mem_map_of_mem (mem_filter.mpr ⟨mem,by simpa using empty⟩)
    exact (plainToken (tokenFree token) empty).mp (plain _ token)
  · intro clean n token
    have named := token
    rw [tokens] at named
    obtain ⟨t,kept,rfl⟩ := mem_map.mp named
    obtain ⟨mem,nonempty⟩ := mem_filter.mp kept
    exact (plainToken (tokenFree token) (by simpa using nonempty)).mpr (clean t mem)

theorem printedAgain {p : Parser} (free : ∀ n ∈ p, ';' ∉ n) :
    stringTokenize (str p) DELIM = p ↔ ∀ n ∈ p, n ≠ [] ∧ n.head? ≠ some ' ' := by
  rw [tokenized,printedPieces free]
  constructor
  · intro list
    have long := congrArg length list
    rw [length_map] at long
    have named := ( takeWhile_prefix _).eq_of_length long
    rw [named] at list
    intro n mem
    have filled := takeWhile_eq_self_iff.mp named n mem
    have stays := map_inj_left.mp (list.trans (map_id p).symm) n mem
    exact ⟨by simpa using filled,(unblanked n).mp stays⟩
  · intro plain
    rw [takeWhile_eq_self_iff.mpr fun n mem => by simp [(plain n mem).1]]
    exact (map_congr_left fun n mem => (unblanked n).mpr (plain n mem).2).trans (map_id p)

theorem survivesPlain (p) : Survives p ↔ p ≠ [] ∧ ∀ n ∈ p, Plain n := by
  constructor
  · rintro ⟨succeeds,agree⟩
    have list : stringTokenize (str p) DELIM = p := agree.list
    have free : ∀ n ∈ p, ';' ∉ n := by
      intro n mem
      rw [← list] at mem
      exact tokenFree mem
    refine ⟨?_,fun n mem => ?_⟩
    · rintro rfl
      revert succeeds
      decide
    · have named := (printedAgain free).mp list n mem
      exact ⟨named.1,free n mem,named.2⟩
  · rintro ⟨nonempty,plain⟩
    have list := (printedAgain fun n mem => (plain n mem).2.1).mpr fun n mem => ⟨(plain n mem).1,(plain n mem).2.2⟩
    have set : setString (str p) = (0,p) := by simp [setString,list,nonempty]
    constructor <;> rw [set]
    exact ⟨rfl,rfl,rfl,fun _ => rfl,rfl,fun _ => rfl⟩

/- What one successful call does to the list. -/
theorem callEffect {c : Call} {p q} (run : c.run p = .ok q) :
    (∃ resc place, c.inserts = [resc] ∧ resc ≠ DELIM ∧ place ≤ p.length ∧ q = p.insertIdx place resc) ∨
    (∃ name, 2 ≤ p.length ∧ q = p.erase name) := by
  cases c with
  | addChild resc =>
    simp only [Call.run,addChild] at run
    split at run <;> cases run
    rename_i named
    exact .inl ⟨resc,p.length,rfl,named,le_refl _,by simp⟩
  | addParent parent child =>
    simp only [Call.run,addParent] at run
    split at run
    · cases run
    rename_i named
    split at run
    · cases run
      exact .inl ⟨parent,0,rfl,named,Nat.zero_le _,by simp⟩
    split at run <;> cases run
    exact .inl ⟨parent,p.idxOf child,rfl,named,idxOf_le_length,rfl⟩
  | removeResource name =>
    simp only [Call.run,removeResource] at run
    split at run
    · cases run
    split at run
    · cases run
    split at run <;> cases run
    exact .inr ⟨name,by omega,rfl⟩

theorem callNonempty {c : Call} {p q} (run : c.run p = .ok q) : q ≠ [] := by
  rw [← length_pos_iff]
  obtain ⟨resc,place,_,_,inside,rfl⟩ | ⟨name,two,rfl⟩ := callEffect run
  · simp [length_insertIdx_of_le_length inside]
  · have fewer := length_erase (a := name) (l := p)
    split at fewer <;> omega

theorem callKeeps {c : Call} {p q} (run : c.run p = .ok q) (inserts : ∀ n ∈ c.inserts, n ≠ DELIM → Plain n)
    (plain : ∀ n ∈ p, Plain n) : ∀ n ∈ q, Plain n := by
  intro n mem
  obtain ⟨resc,place,inserted,named,inside,rfl⟩ | ⟨name,two,rfl⟩ := callEffect run
  · obtain rfl | old := (mem_insertIdx inside).mp mem
    · exact inserts n (by simp [inserted]) named
    · exact plain n old
  · exact plain n (mem_of_mem_erase mem)

theorem reachedNonempty {names hier p} (reached : Reached names hier p) : p ≠ [] := by
  cases reached with
  | start ok =>
    intro empty
    revert ok
    simp_all [setString,SYS_INVALID_INPUT_PARAM]
  | call _ _ run => exact callNonempty run

/- A parser reads its own print back exactly if its names are plain. All that are reached do, exactly
if the pieces of the hierarchy are clean and every name that may be inserted is plain. -/
theorem hierarchiesSurvive {hier} (ok : (setString hier).1 = 0) (names) :
    (∀ p, Reached names hier p → (Survives p ↔ ∀ n ∈ p, Plain n)) ∧
    ((∀ p, Reached names hier p → Survives p) ↔ Clean hier ∧ ∀ n, names n → n ≠ DELIM → Plain n) := by
  have exactly : ∀ p, Reached names hier p → (Survives p ↔ ∀ n ∈ p, Plain n) := fun p reached =>
    (survivesPlain p).trans (and_iff_right (reachedNonempty reached))
  have start : Reached names hier _ := .start ok
  refine ⟨exactly,?_,?_⟩
  · intro survive
    refine ⟨(startPlain hier).mp ((exactly _ start).mp (survive _ start)),fun n named other => ?_⟩
    have added := Reached.call (c := .addChild n) start (by simpa [Call.inserts] using named) (if_neg other)
    exact (exactly _ added).mp (survive _ added) n (by simp)
  · rintro ⟨clean,plain⟩ p reached
    rw [exactly p reached]
    induction reached with
    | start ok => exact (startPlain hier).mpr clean
    | call _ inserts run keeps => exact callKeeps run (fun n mem => plain n (inserts n mem)) keeps

theorem plainHierarchySurvives :
    (setString (lit "a;b")).1 = 0 ∧ ∀ p, Reached (· = lit "d") (lit "a;b") p → Survives p :=
  ⟨by decide,(hierarchiesSurvive (by decide) _).2.mpr ⟨by decide,fun _ same _ => same ▸ by decide⟩⟩

/- add_child takes a name with the delimiter, which is read back as two resources. -/
theorem delimiterSplits : ∃ p, Reached (· = lit "a;b") (lit "x") p ∧ ¬Survives p :=
  ⟨[lit "x",lit "a;b"],.call (c := .addChild (lit "a;b")) (.start (by decide)) (by decide) (by decide),
    fun survives => absurd survives.agree.levels (by decide)⟩

end Irods.HierarchyParser
