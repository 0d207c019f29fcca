import Irods.CText

/-! Lexing of SQL text, and texts assembled from plain text and quoted values.
The lexer is an automaton over characters: words, string literals with '' for a
quote, delimited identifiers, both comment forms, single symbols. -/
namespace Irods.SqlText
open CText List

inductive Token where
  | word (t : Text)
  | symbol (c : Char)
  | string (v : Text)
  | delimited (t : Text)
  | unterminated (v : Text)
  deriving DecidableEq, Repr

inductive Mode where
  | between
  | word (acc : Text)
  | string (acc : Text)
  | closing (acc : Text)
  | delimited (acc : Text)
  | delimitedClosing (acc : Text)
  | dash
  | line
  | slash
  | block
  | blockStar
  deriving DecidableEq, Repr

def quote : Char := '\''
def isBlank (c : Char) : Bool := c == ' ' || c == '\t' || c == '\n' || c == '\r'
def isWord (c : Char) : Bool := c.isAlphanum || c == '_'

def start (c : Char) : List Token × Mode :=
  if c = quote then ([],.string [])
  else if isBlank c then ([],.between)
  else if isWord c then ([],.word [c])
  else if c = '"' then ([],.delimited [])
  else if c = '-' then ([],.dash)
  else if c = '/' then ([],.slash)
  else ([.symbol c],.between)

def after (t : Token) (c : Char) : List Token × Mode := (t::(start c).1,(start c).2)

def step : Mode → Char → List Token × Mode
  | .between,c => start c
  | .word acc,c => if isWord c then ([],.word (acc ++ [c])) else after (.word acc) c
  | .string acc,c => if c = quote then ([],.closing acc) else ([],.string (acc ++ [c]))
  | .closing acc,c => if c = quote then ([],.string (acc ++ [quote])) else after (.string acc) c
  | .delimited acc,c => if c = '"' then ([],.delimitedClosing acc) else ([],.delimited (acc ++ [c]))
  | .delimitedClosing acc,c => if c = '"' then ([],.delimited (acc ++ ['"'])) else after (.delimited acc) c
  | .dash,c => if c = '-' then ([],.line) else after (.symbol '-') c
  | .line,c => if c = '\n' then ([],.between) else ([],.line)
  | .slash,c => if c = '*' then ([],.block) else after (.symbol '/') c
  | .block,c => if c = '*' then ([],.blockStar) else ([],.block)
  | .blockStar,c => if c = '/' then ([],.between) else if c = '*' then ([],.blockStar) else ([],.block)

def run : Mode → Text → List Token × Mode
  | m,[] => ([],m)
  | m,c::cs => ((step m c).1 ++ (run (step m c).2 cs).1,(run (step m c).2 cs).2)

def finish : Mode → List Token
  | .word acc => [.word acc]
  | .string acc => [.unterminated acc]
  | .closing acc => [.string acc]
  | .delimited acc => [.unterminated acc]
  | .delimitedClosing acc => [.delimited acc]
  | .dash => [.symbol '-']
  | .slash => [.symbol '/']
  | _ => []

def lex (t : Text) : List Token := (run .between t).1 ++ finish (run .between t).2

theorem runAppend (m a b) :
    run m (a ++ b) = ((run m a).1 ++ (run (run m a).2 b).1,(run (run m a).2 b).2) := by
  induction a generalizing m with
  | nil => rfl
  | cons c _ ih => simp [run,ih]

def strings : List Token → List Text
  | [] => []
  | .string v::ts => v::strings ts
  | _::ts => strings ts

def isMark : Token → Bool
  | .symbol c => c == '?'
  | _ => false

def blank : Token → Token
  | .string _ => .string []
  | .unterminated _ => .unterminated []
  | t => t

def shape (ts : List Token) : List Token := ts.map blank

attribute [simp] strings

theorem stringsAppend (a b) : strings (a ++ b) = strings a ++ strings b := by
  induction a with
  | nil => rfl
  | cons t _ ih => cases t <;> simp [ih]

/- A string literal costs its two delimiters and two quotes for each quote in its value. -/
def weight (ts : List Token) : Nat := ((strings ts).map (fun v => 2+2*v.count quote)).sum

def pending : Mode → Nat
  | .string acc => 1+2*acc.count quote
  | .closing acc => 2+2*acc.count quote
  | _ => 0

theorem weightAppend (a b) : weight (a ++ b) = weight a+weight b := by
  simp [weight,stringsAppend]

theorem startWeight (c) : weight (start c).1+pending (start c).2 ≤ [c].count quote := by
  by_cases q : c = quote
  · subst q; decide
  unfold start
  rw [if_neg q]
  repeat' split
  all_goals simp [weight,pending]

theorem afterWeight (t c) :
    weight (after t c).1+pending (after t c).2 ≤ weight [t]+[c].count quote := by
  have h := startWeight c
  have split : weight (t::(start c).1) = weight [t]+weight (start c).1 := weightAppend [t] _
  simp only [after]
  omega

theorem iteWeight {p} [Decidable p] {x y : List Token × Mode} {bound}
    (yes : p → weight x.1+pending x.2 ≤ bound) (no : ¬p → weight y.1+pending y.2 ≤ bound) :
    weight (if p then x else y).1+pending (if p then x else y).2 ≤ bound := by
  split
  · exact yes ‹_›
  · exact no ‹_›

theorem silentWeight {m} {bound} (none : pending m ≤ bound) : weight []+pending m ≤ bound := by
  simpa [weight] using none

theorem stepWeight (m c) :
    weight (step m c).1+pending (step m c).2 ≤ pending m+[c].count quote := by
  have zero : ∀ {bound}, 0 ≤ bound := Nat.zero_le _
  have next : ∀ t, weight [t] = 0 → weight (after t c).1+pending (after t c).2 ≤ 0+[c].count quote := by
    intro t light
    simpa [light] using afterWeight t c
  cases m with
  | between => exact (Nat.zero_add ([c].count quote)).symm ▸ startWeight c
  | word acc => exact iteWeight (fun _ => silentWeight zero) fun _ => next _ rfl
  | string acc =>
    refine iteWeight (fun q => silentWeight ?_) fun q => silentWeight ?_
    · subst q; simp [pending]; omega
    · have absent : [c].count quote = 0 := by simp [q]
      simp [pending,absent]
  | closing acc =>
    refine iteWeight (fun q => silentWeight ?_) fun _ => ?_
    · subst q; simp [pending]; omega
    · exact afterWeight (.string acc) c
  | delimited acc => exact iteWeight (fun _ => silentWeight zero) fun _ => silentWeight zero
  | delimitedClosing _ => exact iteWeight (fun _ => silentWeight zero) fun _ => next _ rfl
  | dash => exact iteWeight (fun _ => silentWeight zero) fun _ => next _ rfl
  | line => exact iteWeight (fun _ => silentWeight zero) fun _ => silentWeight zero
  | slash => exact iteWeight (fun _ => silentWeight zero) fun _ => next _ rfl
  | block => exact iteWeight (fun _ => silentWeight zero) fun _ => silentWeight zero
  | blockStar =>
    exact iteWeight (fun _ => silentWeight zero)
      fun _ => iteWeight (fun _ => silentWeight zero) fun _ => silentWeight zero

theorem runWeight (m t) : weight (run m t).1+pending (run m t).2 ≤ pending m+t.count quote := by
  induction t generalizing m with
  | nil => simp [run,weight]
  | cons c cs ih =>
    have one := stepWeight m c
    have rest := ih (step m c).2
    have all : ([c] ++ cs).count quote = [c].count quote+cs.count quote := count_append
    rw [singleton_append] at all
    simp only [run,weightAppend]
    omega

theorem finishWeight (m) : weight (finish m) ≤ pending m := by
  cases m <;> simp [finish,weight,pending]

theorem lexWeight (t) : weight (lex t) ≤ t.count quote := by
  have h := runWeight .between t
  have f := finishWeight (run .between t).2
  have zero : pending .between = 0 := rfl
  simp only [lex,weightAppend]
  omega

inductive Piece where
  | raw (t : Text)
  | quoted (v : Text)
  deriving DecidableEq, Repr

def Piece.render : Piece → Text
  | .raw t => t
  | .quoted v => quote::v ++ [quote]

def render (ps : List Piece) : Text := ps.flatMap Piece.render

def values : List Piece → List Text
  | [] => []
  | .raw _::ps => values ps
  | .quoted v::ps => v::values ps

def marks : List Piece → Nat
  | [] => 0
  | .raw t::ps => t.count '?'+marks ps
  | .quoted _::ps => marks ps

def Piece.blank : Piece → Piece
  | .raw t => .raw t
  | .quoted _ => .quoted []

theorem valuesAppend (a b) : values (a ++ b) = values a ++ values b := by
  induction a with
  | nil => rfl
  | cons p _ ih => cases p <;> simp [values,ih]

theorem marksAppend (a b) : marks (a ++ b) = marks a+marks b := by
  induction a with
  | nil => simp [marks]
  | cons p _ ih => cases p <;> simp [marks,ih,Nat.add_assoc]

def plainChar (c : Char) : Bool := c != quote && c != '"' && c != '-' && c != '/'
def plain (t : Text) : Bool := t.all plainChar

/- No two literals touch: the flag says that the piece before was a literal. -/
def spaced : Bool → List Piece → Bool
  | _,[] => true
  | b,.raw t::ps => plain t && spaced (b && t.isEmpty) ps
  | b,.quoted _::ps => !b && spaced true ps

def Outside : Mode → Prop
  | .between => True
  | .word _ => True
  | _ => False

def held : Mode → List Text
  | .closing v => [v]
  | _ => []

def At : Bool → Mode → Prop
  | false,m => Outside m
  | true,m => ∃ v, m = .closing v

theorem startOutside {c} (ok : plainChar c = true) :
    Outside (start c).2 ∧ strings (start c).1 = [] ∧ ((start c).1.filter isMark).length = [c].count '?' := by
  obtain ⟨⟨⟨q,d⟩,m⟩,s⟩ : ((c ≠ quote ∧ c ≠ '"') ∧ c ≠ '-') ∧ c ≠ '/' := by simpa [plainChar] using ok
  by_cases mark : c = '?'
  · subst mark; exact ⟨trivial,rfl,rfl⟩
  have none : [c].count '?' = 0 := by simp [mark]
  unfold start
  rw [if_neg q]
  repeat' split
  all_goals simp [Outside,isMark,mark]

theorem stepPlain {b m c} (position : At b m) (ok : plainChar c = true) :
    Outside (step m c).2 ∧ strings (step m c).1 = held m ∧ ((step m c).1.filter isMark).length = [c].count '?' := by
  obtain ⟨out,none,mark⟩ := startOutside ok
  have q : c ≠ quote := by intro same; subst same; exact absurd ok (by decide)
  cases b with
  | true =>
    obtain ⟨v,rfl⟩ := position
    simp only [step,if_neg q,after]
    exact ⟨out,by simp [none,held],by exact mark⟩
  | false =>
    cases m with
    | between => exact ⟨out,none,mark⟩
    | word _ =>
      by_cases w : isWord c = true
      · have other : c ≠ '?' := by intro same; subst same; exact absurd w (by decide)
        simp only [step,if_pos w]
        exact ⟨trivial,rfl,by simp [other]⟩
      · simp only [step,if_neg w,after]
        exact ⟨out,by simp [none,held],by exact mark⟩
    | _ => exact position.elim

theorem heldOutside {m} (out : Outside m) : held m = [] := by cases m <;> first | rfl | exact out.elim

theorem finishHeld {b m} (position : At b m) : strings (finish m) = held m ∧ (finish m).filter isMark = [] := by
  cases b with
  | true => obtain ⟨v,rfl⟩ := position; exact ⟨rfl,rfl⟩
  | false => cases m <;> exact ⟨rfl,rfl⟩

theorem runPlain {b m t} (position : At b m) (ok : plain t = true) :
    At (b && t.isEmpty) (run m t).2 ∧ strings (run m t).1 ++ held (run m t).2 = held m ∧
    ((run m t).1.filter isMark).length = t.count '?' := by
  induction t generalizing b m with
  | nil => simpa [run] using position
  | cons c cs ih =>
    obtain ⟨head,tail⟩ : plainChar c = true ∧ plain cs = true := by simpa [plain] using ok
    obtain ⟨out,holding,_⟩ := stepPlain position head
    obtain ⟨there,kept,_⟩ := ih (b := false) out tail
    have count : ([c] ++ cs).count '?' = [c].count '?'+cs.count '?' := count_append
    rw [singleton_append] at count
    simp only [run,stringsAppend,filter_append,length_append,isEmpty_cons,Bool.and_false]
    refine ⟨there,?_,by omega⟩
    rw [append_assoc,kept,heldOutside out,append_nil,holding]

theorem runContent {acc v} (free : quote ∉ v) : run (.string acc) v = ([],.string (acc ++ v)) := by
  induction v generalizing acc with
  | nil => simp [run]
  | cons c cs ih =>
    have head : c ≠ quote := fun same => free (same ▸ mem_cons_self)
    have tail : quote ∉ cs := fun mem => free (mem_cons_of_mem _ mem)
    simp [run,step,if_neg head,ih tail]

theorem stepQuote {m} (out : Outside m) : step m quote = (finish m,.string []) := by
  cases m with
  | between => rfl
  | word _ => rfl
  | _ => exact out.elim

theorem runQuoted {m v} (out : Outside m) (free : quote ∉ v) :
    run m (Piece.quoted v).render = (finish m,.closing v) := by
  simp only [Piece.render,run,stepQuote out,runAppend,runContent free]
  simp [step]

theorem runPieces {b m ps} (position : At b m) (ok : spaced b ps = true) (free : ∀ v ∈ values ps, quote ∉ v) :
    (∃ e, At e (run m (render ps)).2) ∧
    strings (run m (render ps)).1 ++ held (run m (render ps)).2 = held m ++ values ps ∧
    ((run m (render ps)).1.filter isMark).length = marks ps := by
  induction ps generalizing b m with
  | nil => exact ⟨⟨b,position⟩,by simp [render,run,values],rfl⟩
  | cons p ps ih =>
    have cut : render (p::ps) = p.render ++ render ps := rfl
    cases p with
    | raw t =>
      obtain ⟨head,tail⟩ : plain t = true ∧ spaced (b && t.isEmpty) ps = true := by simpa [spaced] using ok
      obtain ⟨there,kept,_⟩ := runPlain position head
      obtain ⟨ending,strs,count⟩ := ih there tail free
      simp only [cut,Piece.render,runAppend,stringsAppend,filter_append,length_append,values,marks]
      refine ⟨ending,?_,by omega⟩
      rw [append_assoc,strs,← append_assoc,kept]
    | quoted v =>
      obtain ⟨fresh,tail⟩ : b = false ∧ spaced true ps = true := by simpa [spaced] using ok
      subst fresh
      have mine := free v mem_cons_self
      obtain ⟨ending,strs,count⟩ := ih (b := true) ⟨v,rfl⟩ tail (forall_mem_cons.mp free).2
      obtain ⟨none,mark⟩ := finishHeld position
      simp only [cut,runAppend,runQuoted position mine,stringsAppend,filter_append,mark,marks]
      refine ⟨ending,?_,by exact count⟩
      rw [append_assoc,strs,none]
      rfl

theorem lexPieces {ps} (ok : spaced false ps = true) (free : ∀ v ∈ values ps, quote ∉ v) :
    strings (lex (render ps)) = values ps ∧ ((lex (render ps)).filter isMark).length = marks ps := by
  obtain ⟨⟨e,ending⟩,strs,count⟩ := runPieces (b := false) (m := .between) trivial ok free
  obtain ⟨last,mark⟩ := finishHeld ending
  simp only [lex,stringsAppend,filter_append,length_append,last,mark]
  exact ⟨strs,count⟩

theorem plainQuotes {t} (ok : plain t = true) : t.count quote = 0 := by
  rw [count_eq_zero]
  intro mem
  exact absurd (all_eq_true.mp ok _ mem) (by decide)

theorem renderQuotes {b ps} (ok : spaced b ps = true) :
    (render ps).count quote = ((values ps).map fun v => 2+v.count quote).sum := by
  induction ps generalizing b with
  | nil => rfl
  | cons p ps ih =>
    have cut : render (p::ps) = p.render ++ render ps := rfl
    cases p with
    | raw t =>
      obtain ⟨head,tail⟩ : plain t = true ∧ spaced (b && t.isEmpty) ps = true := by simpa [spaced] using ok
      simp [cut,Piece.render,plainQuotes head,ih tail,values]
    | quoted v =>
      obtain ⟨_,tail⟩ : b = false ∧ spaced true ps = true := by simpa [spaced] using ok
      simp only [cut,Piece.render,count_cons_self,count_append,ih tail,values]
      simp
      omega

theorem sumGap (vs : List Text) : (vs.map fun v => 2+2*v.count quote).sum =
    (vs.map fun v => 2+v.count quote).sum+(vs.map fun v => v.count quote).sum := by
  induction vs with
  | nil => rfl
  | cons v _ _ => simp only [map_cons,sum_cons]; omega

/- The quotes of the text are those of the pieces, and the lexer needs two for every quote of a value. -/
theorem stringsFree {ps} (ok : spaced false ps = true) (same : strings (lex (render ps)) = values ps) :
    ∀ v ∈ values ps, quote ∉ v := by
  have bound := lexWeight (render ps)
  rw [renderQuotes ok,weight,same,sumGap] at bound
  have none : ((values ps).map fun v => v.count quote).sum = 0 := by omega
  intro v mem
  have zero := List.sum_eq_zero_iff_forall_eq_nat.mp none _ (List.mem_map_of_mem mem)
  exact count_eq_zero.mp zero

theorem piecesFaithful {ps} (ok : spaced false ps = true) :
    strings (lex (render ps)) = values ps ↔ ∀ v ∈ values ps, quote ∉ v :=
  ⟨stringsFree ok,fun free => (lexPieces ok free).1⟩

def Mode.blank : Mode → Mode
  | .string _ => .string []
  | .closing _ => .closing []
  | m => m

theorem shapeAppend (a b) : shape (a ++ b) = shape a ++ shape b := map_append

section
variable {m n : Mode} (same : m.blank = n.blank)
include same

theorem stepShape (c) :
    shape (step m c).1 = shape (step n c).1 ∧ (step m c).2.blank = (step n c).2.blank := by
  cases m <;> cases n <;> simp only [Mode.blank,reduceCtorEq,Mode.word.injEq,Mode.delimited.injEq,
    Mode.delimitedClosing.injEq] at same
  all_goals try subst same
  all_goals try exact ⟨rfl,rfl⟩
  all_goals
    simp only [step]
    split <;> exact ⟨rfl,rfl⟩

theorem runShape (t) :
    shape (run m t).1 = shape (run n t).1 ∧ (run m t).2.blank = (run n t).2.blank := by
  induction t generalizing m n with
  | nil => exact ⟨rfl,same⟩
  | cons c _ ih =>
    obtain ⟨one,next⟩ := stepShape same c
    obtain ⟨rest,last⟩ := ih next
    simp only [run,shapeAppend,one,rest]
    exact ⟨trivial,last⟩

theorem finishShape : shape (finish m) = shape (finish n) := by
  cases m <;> cases n <;> simp only [Mode.blank,reduceCtorEq,Mode.word.injEq,
    Mode.delimitedClosing.injEq] at same
  all_goals try subst same
  all_goals rfl

theorem outsideSame (out : Outside m) : m = n := by
  cases m with
  | between => cases n <;> first | rfl | cases same
  | word _ => cases n <;> first | exact same | cases same
  | _ => exact out.elim

end

theorem piecesShape {b m n ps qs} (same : ps.map Piece.blank = qs.map Piece.blank)
    (atM : At b m) (atN : At b n) (modes : m.blank = n.blank) (ok : spaced b ps = true)
    (freeP : ∀ v ∈ values ps, quote ∉ v) (freeQ : ∀ v ∈ values qs, quote ∉ v) :
    shape (run m (render ps)).1 = shape (run n (render qs)).1 ∧
    (run m (render ps)).2.blank = (run n (render qs)).2.blank := by
  induction ps generalizing b m n qs with
  | nil =>
    cases qs with
    | nil => exact ⟨rfl,modes⟩
    | cons q qs => simp at same
  | cons p ps ih =>
    cases qs with
    | nil => simp at same
    | cons q qs =>
      obtain ⟨head,rest⟩ : p.blank = q.blank ∧ ps.map Piece.blank = qs.map Piece.blank := by simpa using same
      have cutP : render (p::ps) = p.render ++ render ps := rfl
      have cutQ : render (q::qs) = q.render ++ render qs := rfl
      cases p with
      | raw t =>
        cases q with
        | quoted v => simp [Piece.blank] at head
        | raw u =>
          obtain rfl : t = u := by simpa [Piece.blank] using head
          obtain ⟨plainT,tail⟩ : plain t = true ∧ spaced (b && t.isEmpty) ps = true := by simpa [spaced] using ok
          obtain ⟨one,next⟩ := runShape modes t
          obtain ⟨two,last⟩ := ih rest (runPlain atM plainT).1 (runPlain atN plainT).1 next tail freeP freeQ
          simp only [cutP,cutQ,Piece.render,runAppend,shapeAppend,one,two]
          exact ⟨trivial,last⟩
      | quoted v =>
        cases q with
        | raw u => simp [Piece.blank] at head
        | quoted u =>
          obtain ⟨fresh,tail⟩ : b = false ∧ spaced true ps = true := by simpa [spaced] using ok
          subst fresh
          have equal := outsideSame modes atM
          subst equal
          obtain ⟨two,last⟩ := ih (b := true) rest ⟨v,rfl⟩ ⟨u,rfl⟩ rfl tail
            (forall_mem_cons.mp freeP).2 (forall_mem_cons.mp freeQ).2
          simp only [cutP,cutQ,runAppend,runQuoted atM (freeP v mem_cons_self),
            runQuoted atN (freeQ u mem_cons_self),shapeAppend,two]
          exact ⟨trivial,last⟩

theorem lexShape {ps qs} (same : ps.map Piece.blank = qs.map Piece.blank) (ok : spaced false ps = true)
    (freeP : ∀ v ∈ values ps, quote ∉ v) (freeQ : ∀ v ∈ values qs, quote ∉ v) :
    shape (lex (render ps)) = shape (lex (render qs)) := by
  obtain ⟨one,last⟩ := piecesShape (b := false) (m := .between) (n := .between) same trivial trivial rfl ok freeP freeQ
  simp [lex,shapeAppend,one,finishShape last]

end Irods.SqlText
