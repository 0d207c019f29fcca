import Irods.CText

/-! The iterator of irods::query over the pages of a server, irods_query.hpp. A row is
whatever the server holds; the strings passed to the constructor outlive the query. -/
namespace Irods.QueryIterator
open CText List Option Nat

def CAT_NO_ROWS_FOUND : Int := -808000
def MAX_SQL_ROWS : Int := 256

inductive QueryType where
  | general
  | specific
  deriving DecidableEq, Repr

section Model
variable {α : Type}

/- genQueryOut_t: the rows of one page, counted by an int, and the index to go on with. -/
structure Page (α : Type) where
  rows : List α
  continueInx : Int
  counted : rows.length < 2^31

inductive Reply (α : Type) where
  | page (p : Page α)
  | status (code : Int)

/- query_impl_base. The answers still to come belong to the server. -/
structure Impl (α : Type) where
  queryString : Text
  queryLimit : Nat
  genOutput : Option (Page α)
  replies : List (Reply α)

def fetchPage (impl : Impl α) : Int × Impl α :=
  match impl.replies with
  | [] => (CAT_NO_ROWS_FOUND,impl)
  | .page p::rest => (0,{impl with genOutput := some p, replies := rest})
  | .status code::rest => (code,{impl with replies := rest})

-- uint32_t and the conversion of one to int.
def wrapped (n : Nat) : Nat := n % 2^32
def asInt (n : Nat) : Int := if n < 2^31 then n else n-2^32

def queryLimitExceeded (impl : Impl α) (count : Nat) : Bool := impl.queryLimit ≠ 0 && decide (impl.queryLimit ≤ count)
def pageInFlight (page : Page α) (rowIdx : Nat) : Bool := decide (asInt rowIdx < page.rows.length)
def queryComplete (page : Page α) : Bool := decide (page.continueInx ≤ 0)

/- The iterator. Its pointer to a query input is null unless it was made from one. -/
structure Iterator where
  queryString : Text
  rowIdx : Nat
  totalRowsProcessed : Nat
  genInput : Option Int
  endIterationState : Bool
  deriving DecidableEq, Repr

def endIterator : Iterator := ⟨[],0,0,none,true⟩
def beginIterator : Iterator := ⟨[],0,0,none,false⟩

inductive Advanced (α : Type) where
  | moved (it : Iterator) (impl : Impl α)
  | threw (code : Int)
  | crashed

-- The message of the exception reads the continuation index through the pointer.
def fetchFailed (it : Iterator) (code : Int) : Advanced α :=
  match it.genInput with
  | none => .crashed
  | some _ => .threw code

def advanceQuery (it : Iterator) (impl : Impl α) : Advanced α :=
  let it := {it with totalRowsProcessed := wrapped (it.totalRowsProcessed+1)}
  if queryLimitExceeded impl it.totalRowsProcessed then .moved {it with endIterationState := true} impl
  else
    let it := {it with rowIdx := wrapped (it.rowIdx+1)}
    match impl.genOutput with
    | none => .crashed
    | some page =>
      if pageInFlight page it.rowIdx then .moved it impl
      else if queryComplete page then .moved {it with endIterationState := true} impl
      else
        let it := {it with rowIdx := 0}
        match fetchPage {impl with genOutput := none} with
        | (status,impl) =>
          if 0 ≤ status then .moved it impl
          else if status ≠ CAT_NO_ROWS_FOUND then fetchFailed it status
          else .moved {it with endIterationState := true} impl

-- operator== against end(), whose query string is empty.
def atEnd (it : Iterator) (impl : Impl α) : Bool :=
  (it.endIterationState && endIterator.endIterationState) || impl.queryString == endIterator.queryString

inductive Ending where
  | stopped
  | threw (code : Int)
  | crashed
  | running
  deriving DecidableEq, Repr

/- for (; it != end(); ++it) visit(*it), with a bound on the turns. -/
def visit : Nat → Iterator → Impl α → List α × Ending
  | 0,_,_ => ([],.running)
  | fuel+1,it,impl =>
    if atEnd it impl then ([],.stopped)
    else match impl.genOutput.bind (·.rows[it.rowIdx]?) with
      | none => ([],.crashed)
      | some row => match advanceQuery it impl with
        | .crashed => ([row],.crashed)
        | .threw code => ([row],.threw code)
        | .moved it impl => (row::(visit fuel it impl).1,(visit fuel it impl).2)

/- What the constructors fill of genQueryInp_t and of specificQueryInp_t. -/
structure QueryInp where
  maxRows : Int
  rowOffset : Int
  sql : Text
  args : List Text
  zone : Text
  options : Int
  deriving DecidableEq, Repr

inductive Built where
  | input (inp : QueryInp)
  | threw (code : Int)
  | crashed

def genQueryImpl (parse : Text → Int) (rowOffset : Int) (queryString zoneHint : Text) (options : Int) : Built :=
  if parse queryString < 0 then .threw (parse queryString)
  else .input ⟨MAX_SQL_ROWS,rowOffset,queryString,[],zoneHint,options⟩

-- The structure was cleared; its array has room for ten arguments.
def specQueryImpl (_rowOffset : Int) (queryString zoneHint : Text) (args : List Text) : Built :=
  if args.length ≤ 10 then .input ⟨MAX_SQL_ROWS,0,queryString,args,zoneHint,0⟩ else .crashed

def queryImpl (kind : QueryType) (parse : Text → Int) (rowOffset : Nat) (queryString zoneHint : Text)
    (args : List Text) (options : Int) : Built :=
  match kind with
  | .general => genQueryImpl parse (asInt (wrapped rowOffset)) queryString zoneHint options
  | .specific => specQueryImpl (asInt (wrapped rowOffset)) queryString zoneHint args

def beginOf (impl : Impl α) : Iterator :=
  match impl.genOutput with
  | none => endIterator
  | some page => if page.rows.length > 0 then beginIterator else endIterator

def openAndVisit (fuel limit : Nat) (queryString : Text) (replies : List (Reply α)) : List α × Ending :=
  match fetchPage ⟨queryString,wrapped limit,none,replies⟩ with
  | (status,impl) =>
    if status < 0 ∧ status ≠ CAT_NO_ROWS_FOUND then ([],.threw status)
    else visit fuel (beginOf impl) impl

def enumerate (fuel : Nat) (kind : QueryType) (parse : Text → Int) (reply : QueryInp → List (Reply α))
    (limit offset : Nat) (queryString zoneHint : Text) (args : List Text) (options : Int) : List α × Ending :=
  match queryImpl kind parse offset queryString zoneHint args options with
  | .crashed => ([],.crashed)
  | .threw code => ([],.threw code)
  | .input inp => openAndVisit fuel limit queryString (reply inp)

end Model

section Pages
variable {α : Type}

/- A fetch may also fail, after which nothing is said about the rest. -/
inductive Paged : List α → List (Reply α) → Prop where
  | noRows : Paged [] [.status CAT_NO_ROWS_FOUND]
  | last {p : Page α} (filled : p.rows ≠ []) (ends : p.continueInx ≤ 0) : Paged p.rows [.page p]
  | more {p : Page α} {rest : List α} {replies : List (Reply α)} (filled : p.rows ≠ []) (goes : 0 < p.continueInx)
      (later : Paged rest replies) : Paged (p.rows ++ rest) (.page p::replies)
  | fails {rest : List α} {code : Int} (negative : code < 0) (other : code ≠ CAT_NO_ROWS_FOUND) :
      Paged rest [.status code]

def delivered : List (Reply α) → List α
  | .page p::rest => p.rows ++ if p.continueInx ≤ 0 then [] else delivered rest
  | _ => []

def failure : List (Reply α) → Option Int
  | .page p::rest => if p.continueInx ≤ 0 then none else failure rest
  | .status code::_ => if code = CAT_NO_ROWS_FOUND then none else some code
  | [] => none

def after (p : Page α) (rest : List (Reply α)) : List (Reply α) := if p.continueInx ≤ 0 then [] else rest

attribute [simp] delivered

theorem deliveredPage {p : Page α} {rest} : delivered (.page p::rest) = p.rows ++ delivered (after p rest) := by
  by_cases ends : p.continueInx ≤ 0 <;> simp [after,ends]

theorem failurePage {p : Page α} {rest} : failure (.page p::rest) = failure (after p rest) := by
  by_cases ends : p.continueInx ≤ 0 <;> simp [failure,after,ends]

theorem pagedDelivers {rows : List α} {replies} (paged : Paged rows replies) :
    delivered replies <+: rows ∧ (failure replies = none → delivered replies = rows) := by
  induction paged with
  | noRows => simp
  | last filled _ => simp
  | @more p _ replies _ _ _ ih =>
    have going : ¬p.continueInx ≤ 0 := by omega
    refine ⟨?_,fun fine => ?_⟩
    · simpa [going] using ih.1
    · have fine' : failure replies = none := by simpa [failure,going] using fine
      simp [going,ih.2 fine']
  | fails _ other => simp [failure,other]

def Sound (replies : List (Reply α)) : Prop := ∀ r ∈ replies, match r with
  | .page p => p.rows ≠ []
  | .status code => code < 0

theorem pagedSound {rows : List α} {replies} (paged : Paged rows replies) : Sound replies := by
  induction paged with
  | noRows => simp [Sound,CAT_NO_ROWS_FOUND]
  | last filled _ => simpa [Sound] using filled
  | more filled _ _ ih =>
    intro r mem
    rcases mem_cons.mp mem with same | mem
    · subst same
      exact filled
    · exact ih r mem
  | fails negative _ => simpa [Sound] using negative

def limited (left : Option Nat) (rows : List α) (ending : Ending) : List α × Ending :=
  match left with
  | none => (rows,ending)
  | some n => if n ≤ rows.length then (rows.take n,.stopped) else (rows,ending)

def left (limit total : Nat) : Option Nat := if limit = 0 then none else some (limit-total)

attribute [simp] limited

theorem limitedCons {n} {row : α} {rows ending} : limited (some (n+1)) (row::rows) ending =
    (row::(limited (some n) rows ending).1,(limited (some n) rows ending).2) := by
  by_cases short : n ≤ rows.length <;> simp [short]

def endingOf : Option Int → Ending
  | none => .stopped
  | some _ => .crashed

end Pages

section Loop
variable {α : Type}

structure Standing (it : Iterator) (impl : Impl α) (p : Page α) : Prop where
  output : impl.genOutput = some p
  going : it.endIterationState = false
  noInput : it.genInput = none
  inPage : it.rowIdx < p.rows.length
  named : impl.queryString ≠ []
  within : impl.queryLimit ≠ 0 → it.totalRowsProcessed < impl.queryLimit
  bounded : impl.queryLimit < 2^32
  sound : Sound impl.replies

def ahead (it : Iterator) (impl : Impl α) (p : Page α) : List α :=
  p.rows.drop it.rowIdx ++ delivered (after p impl.replies)

def toCome (impl : Impl α) (p : Page α) : Option Int := failure (after p impl.replies)

theorem visitEnded {fuel it} {impl : Impl α} (finished : it.endIterationState = true) (turn : 0 < fuel) :
    visit fuel it impl = ([],.stopped) := by
  cases fuel with
  | zero => omega
  | succ _ => simp [visit,atEnd,finished,endIterator]

theorem limitedNext {n m} {row : α} {rows ending} (advances : n = m.map (·+1)) :
    limited n (row::rows) ending = (row::(limited m rows ending).1,(limited m rows ending).2) := by
  subst advances
  cases m with
  | none => rfl
  | some m => exact limitedCons

section
variable {it : Iterator} {impl : Impl α} {p : Page α} (standing : Standing it impl p)
include standing

theorem countKept (limits : impl.queryLimit ≠ 0) : it.totalRowsProcessed < impl.queryLimit ∧
    wrapped (it.totalRowsProcessed+1) = it.totalRowsProcessed+1 := by
  have within := standing.within limits
  have bounded := standing.bounded
  exact ⟨within,mod_eq_of_lt (by omega)⟩

theorem limitMet :
    queryLimitExceeded impl (wrapped (it.totalRowsProcessed+1)) = true ↔
      left impl.queryLimit it.totalRowsProcessed = some 1 := by
  by_cases unlimited : impl.queryLimit = 0
  · simp [queryLimitExceeded,left,unlimited]
  obtain ⟨_,_⟩ := countKept standing unlimited
  simp only [queryLimitExceeded,left,unlimited,ne_eq,not_false_eq_true,decide_true,Bool.true_and,decide_eq_true_eq,
    if_false,some.injEq]
  omega

theorem leftAdvances (unmet : queryLimitExceeded impl (wrapped (it.totalRowsProcessed+1)) ≠ true) :
    left impl.queryLimit it.totalRowsProcessed =
        (left impl.queryLimit (wrapped (it.totalRowsProcessed+1))).map (·+1) ∧
      (impl.queryLimit ≠ 0 → wrapped (it.totalRowsProcessed+1) < impl.queryLimit) := by
  by_cases unlimited : impl.queryLimit = 0
  · simp [left,unlimited]
  obtain ⟨_,kept⟩ := countKept standing unlimited
  have more : ¬impl.queryLimit ≤ it.totalRowsProcessed+1 := by simpa [queryLimitExceeded,unlimited,kept] using unmet
  simp only [left,unlimited,if_false,map_some,some.injEq]
  omega

theorem rowIndexKept :
    wrapped (it.rowIdx+1) = it.rowIdx+1 ∧
      (asInt (it.rowIdx+1) < p.rows.length ↔ it.rowIdx+1 < p.rows.length) := by
  have inPage := standing.inPage
  have counted := p.counted
  refine ⟨mod_eq_of_lt (by omega),?_⟩
  unfold asInt
  split <;> omega

theorem rowThere :
    ∃ row, p.rows[it.rowIdx]? = some row ∧
      ahead it impl p = row::(p.rows.drop (it.rowIdx+1) ++ delivered (after p impl.replies)) := by
  refine ⟨p.rows.get ⟨it.rowIdx,standing.inPage⟩,getElem?_eq_getElem standing.inPage,?_⟩
  rw [ahead,drop_eq_getElem_cons standing.inPage]
  rfl

def Stepped (it : Iterator) (impl : Impl α) (p : Page α) (row : α) : Advanced α → Prop
  | .moved next impl' =>
    (next.endIterationState = true ∧
      (left impl.queryLimit it.totalRowsProcessed = some 1 ∨ ahead it impl p = [row] ∧ toCome impl p = none)) ∨
    ∃ p', Standing next impl' p' ∧ ahead it impl p = row::ahead next impl' p' ∧ toCome impl p = toCome impl' p' ∧
      left impl.queryLimit it.totalRowsProcessed = (left impl'.queryLimit next.totalRowsProcessed).map (·+1)
  | .threw _ => False
  | .crashed =>
    left impl.queryLimit it.totalRowsProcessed ≠ some 1 ∧ ahead it impl p = [row] ∧ ∃ code, toCome impl p = some code

theorem fetchSteps {next} {row}
    (goes : ¬p.continueInx ≤ 0) (whole : ahead it impl p = row::delivered impl.replies)
    (counted : next.totalRowsProcessed = wrapped (it.totalRowsProcessed+1))
    (first : next.rowIdx = 0) (still : next.endIterationState = false) (noInput : next.genInput = none)
    (unmet : queryLimitExceeded impl (wrapped (it.totalRowsProcessed+1)) ≠ true) :
    Stepped it impl p row (match fetchPage {impl with genOutput := none} with
        | (status,impl) =>
          if 0 ≤ status then .moved next impl
          else if status ≠ CAT_NO_ROWS_FOUND then fetchFailed next status
          else .moved {next with endIterationState := true} impl) := by
  have open' : after p impl.replies = impl.replies := by simp [after,goes]
  obtain ⟨advances,within⟩ := leftAdvances standing unmet
  have notOne : left impl.queryLimit it.totalRowsProcessed ≠ some 1 := fun met => unmet ((limitMet standing).mpr met)
  cases answers : impl.replies with
  | nil =>
    rw [answers] at whole open'
    have finished :
      Stepped it impl p row (.moved {next with endIterationState := true} {impl with genOutput := none}) :=
      .inl ⟨rfl,.inr ⟨whole,by simp [toCome,answers,after,failure]⟩⟩
    simpa [fetchPage,answers,CAT_NO_ROWS_FOUND] using finished
  | cons answer rest => cases answer with
    | page q =>
      have filled := standing.sound (.page q) (by simp [answers])
      have step : Stepped it impl p row (.moved next {impl with genOutput := some q, replies := rest}) := by
        refine .inr ⟨q,⟨rfl,still,noInput,?_,standing.named,?_,standing.bounded,?_⟩,?_,?_,?_⟩
        · rw [first]
          exact length_pos_iff.mpr filled
        · simpa [counted] using within
        · intro r mem
          exact standing.sound r (by simp [answers,mem])
        · rw [whole,answers,deliveredPage,ahead,first]
          rfl
        · simp only [toCome,open']
          rw [answers,failurePage]
        · simpa [counted] using advances
      exact step
    | status code =>
      have negative := standing.sound (.status code) (by simp [answers])
      have below : ¬0 ≤ code := by omega
      have brought : ahead it impl p = [row] := by rw [whole,answers]; rfl
      have failing : toCome impl p = if code = CAT_NO_ROWS_FOUND then none else some code := by
        rw [toCome,open',answers]; rfl
      by_cases done : code = CAT_NO_ROWS_FOUND
      · have finished : Stepped it impl p row
            (.moved {next with endIterationState := true} {impl with genOutput := none, replies := rest}) :=
          .inl ⟨rfl,.inr ⟨brought,by rw [failing,if_pos done]⟩⟩
        rw [done] at below
        simpa [fetchPage,below,done] using finished
      · have crash : Stepped it impl p row (.crashed : Advanced α) := ⟨notOne,brought,code,by rw [failing,if_neg done]⟩
        simpa [fetchPage,below,done,fetchFailed,noInput] using crash

theorem advanceSteps {row}
    (head : ahead it impl p = row::(p.rows.drop (it.rowIdx+1) ++ delivered (after p impl.replies))) :
    Stepped it impl p row (advanceQuery it impl) := by
  obtain ⟨kept,inPage⟩ := rowIndexKept standing
  unfold advanceQuery
  by_cases met : queryLimitExceeded impl (wrapped (it.totalRowsProcessed+1)) = true
  · simp only [met]
    exact .inl ⟨rfl,.inl ((limitMet standing).mp met)⟩
  obtain ⟨advances,within⟩ := leftAdvances standing met
  simp only [met,standing.output,kept,pageInFlight,inPage]
  by_cases here : it.rowIdx+1 < p.rows.length
  · simp only [here]
    exact .inr ⟨p,
        ⟨standing.output,standing.going,standing.noInput,here,standing.named,within,standing.bounded,standing.sound⟩,
      head,rfl,advances⟩
  have alone : p.rows.drop (it.rowIdx+1) = [] := drop_eq_nil_iff.mpr (by omega)
  rw [alone] at head
  by_cases ends : p.continueInx ≤ 0
  · simp only [here,queryComplete,ends]
    have closed : after p impl.replies = [] := by simp [after,ends]
    exact .inl ⟨rfl,.inr ⟨by rw [head,closed]; rfl,by rw [toCome,closed]; rfl⟩⟩
  · simp only [here,queryComplete,ends]
    have open' : after p impl.replies = impl.replies := by simp [after,ends]
    rw [open'] at head
    exact fetchSteps standing ends head rfl rfl standing.going standing.noInput met

theorem limitedLast {row : α} {ending}
    (unmet : left impl.queryLimit it.totalRowsProcessed ≠ some 1 ∨ ending = .stopped) :
    limited (left impl.queryLimit it.totalRowsProcessed) [row] ending = ([row],ending) := by
  by_cases unlimited : impl.queryLimit = 0
  · simp [left,unlimited]
  have within := standing.within unlimited
  simp only [left,unlimited,if_false,limited,length_singleton] at unmet ⊢
  split
  · have one : impl.queryLimit-it.totalRowsProcessed = 1 := by omega
    have stopped := unmet.resolve_left fun differs => differs (by rw [one])
    simp [one,stopped]
  · rfl

theorem visitAhead (fuel)
    (enough : (ahead it impl p).length < fuel) :
    visit fuel it impl =
      limited (left impl.queryLimit it.totalRowsProcessed) (ahead it impl p) (endingOf (toCome impl p)) := by
  induction fuel generalizing it impl p with
  | zero => omega
  | succ fuel ih =>
    obtain ⟨_,there,head⟩ := rowThere standing
    have turn : 0 < fuel := by
      rw [head,length_cons] at enough
      omega
    have going : atEnd it impl = false := by simp [atEnd,standing.going,endIterator,standing.named]
    have step := advanceSteps standing head
    simp only [visit,going,Bool.false_eq_true,if_false,standing.output,bind_some,there]
    cases moved : advanceQuery it impl with
    | threw code =>
      rw [moved] at step
      exact step.elim
    | crashed =>
      rw [moved] at step
      obtain ⟨unmet,brought,_,fails⟩ := step
      rw [brought,fails]
      exact (limitedLast standing (.inl unmet)).symm
    | moved _ _ =>
      dsimp only
      rw [moved] at step
      rcases step with ⟨finished,met | ⟨brought,fine⟩⟩ | ⟨_,standing',rest,same,advances⟩
      · rw [visitEnded finished turn,met,head]
        simp
      · rw [visitEnded finished turn,brought,fine]
        exact (limitedLast standing (.inr rfl)).symm
      · rw [rest,length_cons] at enough
        rw [ih standing' (by omega),rest,same,limitedNext advances]

end

end Loop

variable {limit offset : Nat} {queryString zoneHint : Text} {options : Int}
section Results
variable {α : Type}

/- Every answer pages the rows of its query from the offset on; only a later fetch may fail. -/
structure Server (α : Type) where
  rows : QueryType → Text → List Text → List α
  reply : QueryType → QueryInp → List (Reply (α × Nat))
  paged : ∀ kind inp, Paged ((rows kind inp.sql inp.args).zipIdx.drop inp.rowOffset.toNat) (reply kind inp)
  begins : ∀ kind inp code rest, reply kind inp = .status code::rest → code = CAT_NO_ROWS_FOUND

def window (limit : Nat) (rows : List α) : List α := if limit = 0 then rows else rows.take limit

def fetchedFailure (limit : Nat) (replies : List (Reply α)) : Option Int :=
  if limit ≠ 0 ∧ limit ≤ (delivered replies).length then none else failure replies

attribute [simp] fetchedFailure

theorem limitedFetched {rows : List α} {replies} (paged : Paged rows replies) :
    limited (left limit 0) (delivered replies) (endingOf (failure replies)) =
      match fetchedFailure limit replies with
      | none => (window limit rows,.stopped)
      | some _ => (delivered replies,.crashed) := by
  obtain ⟨front,whole⟩ := pagedDelivers paged
  by_cases unlimited : limit = 0
  · cases fails : failure replies with
    | none => simp [left,window,unlimited,fails,whole fails,endingOf]
    | some code => simp [left,unlimited,fails,endingOf]
  by_cases met : limit ≤ (delivered replies).length
  · obtain ⟨_,rfl⟩ := front
    simp [left,window,unlimited,met,take_append_of_le_length met]
  cases fails : failure replies with
  | none =>
    rw [whole fails] at met
    have all : rows.take limit = rows := take_of_length_le (by omega)
    simp [left,window,unlimited,fails,whole fails,endingOf,all]
  | some _ => simp [left,unlimited,met,fails,endingOf]

theorem openAndVisitRuns {fuel} {rows : List α} {replies} (paged : Paged rows replies)
    (begins : ∀ code rest, replies = .status code::rest → code = CAT_NO_ROWS_FOUND) (small : limit < 2^31)
    (enough : (delivered replies).length < fuel) :
    openAndVisit fuel limit queryString replies =
      if queryString = [] then ([],.stopped)
      else limited (left limit 0) (delivered replies) (endingOf (failure replies)) := by
  have turn : 0 < fuel := by omega
  have kept : wrapped limit = limit := Nat.mod_eq_of_lt (by omega)
  have sound := pagedSound paged
  cases replies with
  | nil => cases paged
  | cons answer rest => cases answer with
    | status code =>
      have done := begins code rest rfl
      have nothing : openAndVisit fuel limit queryString (.status code::rest) = ([],.stopped) := by
        simp only [done]
        exact visitEnded rfl turn
      have empty : limited (left limit 0) (delivered (Reply.status code::rest))
          (endingOf (failure (Reply.status code::rest))) = ([],.stopped) := by
        by_cases unlimited : limit = 0 <;> simp [failure,done,left,unlimited,endingOf]
      rw [nothing,empty,ite_self]
    | page p =>
      have filled := length_pos_iff.mpr (sound (.page p) (by simp))
      have started : openAndVisit fuel limit queryString (.page p::rest) =
          visit fuel beginIterator ⟨queryString,limit,some p,rest⟩ := by
        simp [openAndVisit,fetchPage,beginOf,filled,kept]
      rw [started]
      by_cases unnamed : queryString = []
      · obtain ⟨turns,rfl⟩ : ∃ turns, fuel = turns+1 := ⟨fuel-1,by omega⟩
        simp [visit,atEnd,unnamed,endIterator]
      have standing : Standing beginIterator ⟨queryString,limit,some p,rest⟩ p :=
        ⟨rfl,rfl,rfl,filled,unnamed,Nat.pos_of_ne_zero,by show limit < 2^32; omega,
          (forall_mem_cons.mp sound).2⟩
      have all : ahead beginIterator ⟨queryString,limit,some p,rest⟩ p = delivered (.page p::rest) := by
        rw [deliveredPage]
        rfl
      rw [if_neg unnamed,visitAhead standing fuel (by rw [all]; exact enough),all,failurePage]
      rfl

theorem windowEmpty {rows : List α} : window limit rows = [] ↔ rows = [] := by
  by_cases unlimited : limit = 0 <;> simp [window,unlimited]

theorem windowHead {rows : List α} : (window limit rows).head? = rows.head? := by
  by_cases unlimited : limit = 0
  · simp [window,unlimited]
  · cases rows <;> simp [window,unlimited,head?_take]

theorem windowsAgree (limit offset) {rows : List α} :
    window limit rows.zipIdx = window limit (rows.zipIdx.drop offset) ↔ offset = 0 ∨ rows = [] := by
  constructor
  · intro agree
    cases rows with
    | nil => exact .inr rfl
    | cons row rest =>
      have heads : (row::rest).zipIdx.head? = ((row::rest).zipIdx.drop offset).head? := by
        have same := congrArg head? agree
        rwa [windowHead,windowHead] at same
      have numbers : some (row,0) = (row::rest)[offset]?.map fun found => (found,offset) := by
        rw [head?_drop,getElem?_zipIdx] at heads
        simpa using heads
      cases there : (row::rest)[offset]? with
      | none => simp [there] at numbers
      | some _ =>
        simp only [there,map_some,some.injEq,Prod.mk.injEq] at numbers
        exact .inl numbers.2.symm
  · rintro (rfl | rfl)
    · rw [drop_zero]
    · simp

def sentInput (kind : QueryType) (offset : Nat) (queryString zoneHint : Text) (args : List Text) (options : Int) :
    QueryInp :=
  match kind with
  | .general => ⟨MAX_SQL_ROWS,asInt (wrapped offset),queryString,[],zoneHint,options⟩
  | .specific => ⟨MAX_SQL_ROWS,0,queryString,args,zoneHint,0⟩

def resultOf (server : Server α) (kind : QueryType) (queryString : Text) (args : List Text) : List α :=
  server.rows kind queryString (match kind with
    | .general => []
    | .specific => args)

section
variable {kind : QueryType} {parse : Text → Int} {queryString : Text} {args : List Text}
    (parses : kind = .general → 0 ≤ parse queryString) (few : args.length ≤ 10)
include parses few

theorem inputSent :
    queryImpl kind parse offset queryString zoneHint args options =
      .input (sentInput kind offset queryString zoneHint args options) := by
  cases kind with
  | general =>
    have fine : ¬parse queryString < 0 := by
      have := parses rfl
      omega
    simp [queryImpl,genQueryImpl,fine,sentInput]
  | specific => simp [queryImpl,specQueryImpl,few,sentInput]

def Asked (failed : Option Int) (limit : Nat) (wanted : List α) (run : List α × Ending) : Prop :=
  match failed with
  | none => run = (window limit wanted,.stopped)
  | some code => run.1 <+: wanted ∧ run.2 = .threw code

def Enumerates (server : Server α) (kind : QueryType) (parse : Text → Int) (limit offset : Nat)
    (queryString zoneHint : Text) (args : List Text) (options : Int) : Prop :=
  ∃ enough, ∀ fuel, enough ≤ fuel →
    Asked (fetchedFailure limit (server.reply kind (sentInput kind offset queryString zoneHint args options))) limit
      ((resultOf server kind queryString args).zipIdx.drop offset)
      (enumerate fuel kind parse (server.reply kind) limit offset queryString zoneHint args options)

def startedFrom (kind : QueryType) (offset : Nat) : Nat :=
  match kind with
  | .general => offset
  | .specific => 0

def brought (queryString : Text) (failed : Option Int) (limit : Nat) (rows : List α) (before : List α) :
    List α × Ending :=
  if queryString = [] then ([],.stopped)
  else match failed with
    | none => (window limit rows,.stopped)
    | some _ => (before,.crashed)

theorem enumerateRuns {server : Server α} {fuel} (smallLimit : limit < 2^31)
    (smallOffset : offset < 2^31) {replies}
    (sent : server.reply kind (sentInput kind offset queryString zoneHint args options) = replies)
    (enough : (delivered replies).length < fuel) :
    enumerate fuel kind parse (server.reply kind) limit offset queryString zoneHint args options =
      brought queryString (fetchedFailure limit replies) limit
        ((resultOf server kind queryString args).zipIdx.drop (startedFrom kind offset)) (delivered replies) := by
  obtain ⟨input,is⟩ : ∃ input, sentInput kind offset queryString zoneHint args options = input := ⟨_,rfl⟩
  rw [is] at sent
  have paged := server.paged kind input
  have begins := server.begins kind input
  have asked : (server.rows kind input.sql input.args).zipIdx.drop input.rowOffset.toNat =
      (resultOf server kind queryString args).zipIdx.drop (startedFrom kind offset) := by
    have whole : wrapped offset = offset := mod_eq_of_lt (by omega)
    have same : asInt offset = offset := if_pos smallOffset
    cases kind with
    | general => simp [← is,sentInput,resultOf,startedFrom,whole,same]
    | specific => rw [← is]; rfl
  rw [asked] at paged
  rw [sent] at paged begins
  simp only [enumerate,inputSent parses few,is,sent]
  rw [openAndVisitRuns paged begins smallLimit enough,limitedFetched paged]
  rfl

end

theorem settles {β : Type} {f : Nat → β} {P : β → Prop} {n} {value} (constant : ∀ fuel, n < fuel → f fuel = value) :
    (∃ enough, ∀ fuel, enough ≤ fuel → P (f fuel)) ↔ P value := by
  constructor
  · rintro ⟨enough,holds⟩
    have here := holds (max enough (n+1)) (le_max_left _ _)
    rwa [constant _ (by omega)] at here
  · intro _
    refine ⟨n+1,fun fuel turns => ?_⟩
    rwa [constant fuel (by omega)]

theorem broughtAsAsked {kind} {failed} {rows : List α} {before} :
    Asked failed limit (rows.zipIdx.drop offset)
        (brought queryString failed limit (rows.zipIdx.drop (startedFrom kind offset)) before) ↔
      failed = none ∧ if queryString = [] then rows.length ≤ offset else kind = .general ∨ offset = 0 ∨ rows = [] := by
  cases failed with
  | some _ => by_cases unnamed : queryString = [] <;> simp [Asked,brought,unnamed]
  | none =>
    by_cases unnamed : queryString = []
    · have nothing : [] = window limit (rows.zipIdx.drop offset) ↔ rows.length ≤ offset := by
        rw [eq_comm,windowEmpty,drop_eq_nil_iff,length_zipIdx]
      simpa [Asked,brought,unnamed] using nothing
    cases kind with
    | general => simp [Asked,brought,unnamed,startedFrom]
    | specific => simpa [Asked,brought,unnamed,startedFrom] using windowsAgree limit offset

theorem queryEnumeratesExactly {server : Server α} {kind : QueryType} {parse : Text → Int} {limit offset : Nat}
    {queryString zoneHint : Text} {args : List Text} {options : Int} (parses : kind = .general → 0 ≤ parse queryString)
    (few : args.length ≤ 10) (smallLimit : limit < 2^31) (smallOffset : offset < 2^31) :
    Enumerates server kind parse limit offset queryString zoneHint args options ↔
      fetchedFailure limit (server.reply kind (sentInput kind offset queryString zoneHint args options)) = none ∧
      if queryString = [] then (resultOf server kind queryString args).length ≤ offset
      else kind = .general ∨ offset = 0 ∨ resultOf server kind queryString args = [] := by
  have runs : ∀ fuel,
      (delivered (server.reply kind (sentInput kind offset queryString zoneHint args options))).length < fuel → _ :=
    fun fuel turns => enumerateRuns parses few smallLimit smallOffset rfl turns
  exact (settles runs).trans broughtAsAsked

def onePage (rows : List α) : List (Reply α) :=
  if fits : rows ≠ [] ∧ rows.length < 2^31 then [.page ⟨rows,0,fits.2⟩] else [.status CAT_NO_ROWS_FOUND]

theorem onePagePaged {rows : List α} (short : rows.length < 2^31) : Paged rows (onePage rows) := by
  unfold onePage
  split
  · next fits => exact Paged.last (p := ⟨rows,0,fits.2⟩) fits.1 (Int.le_refl 0)
  next empty =>
  have nothing : rows = [] := by
    by_contra filled
    exact empty ⟨filled,short⟩
  rw [nothing]
  exact .noRows

def onePageServer (rows : List α) (short : rows.length < 2^31) : Server α where
  rows _ _ _ := rows
  reply _ inp := onePage (rows.zipIdx.drop inp.rowOffset.toNat)
  paged _ inp := onePagePaged (by simp only [length_drop,length_zipIdx]; omega)
  begins _ inp code rest begins := by
    unfold onePage at begins
    split at begins
    · simp at begins
    · simp only [List.cons.injEq,Reply.status.injEq] at begins
      exact begins.1.symm

def threeRows : Server Char := onePageServer ['a','b','c'] (by decide)

theorem secondOfThree : Enumerates threeRows .general (fun _ => 0) 1 1 (lit "select COLL_NAME") [] [] 0 :=
  (queryEnumeratesExactly (fun _ => Int.le_refl 0) (by decide) (by decide) (by decide)).mpr ⟨rfl,by decide⟩

def cutOff : List α → List (Reply α)
  | [] => [.status CAT_NO_ROWS_FOUND]
  | row::_ => [.page ⟨[row],1,by simp⟩,.status (-1)]

theorem cutOffPaged (rows : List α) : Paged rows (cutOff rows) := by
  cases rows with
  | nil => exact .noRows
  | cons row _ =>
    exact Paged.more (p := ⟨[row],1,by simp⟩) (cons_ne_nil row []) Int.zero_lt_one (.fails (by decide) (by decide))

def cutServer (rows : List α) : Server α where
  rows _ _ _ := rows
  reply _ inp := cutOff (rows.zipIdx.drop inp.rowOffset.toNat)
  paged _ inp := cutOffPaged _
  begins _ inp code rest begins := by
    cases left : rows.zipIdx.drop inp.rowOffset.toNat with
    | nil =>
      rw [left] at begins
      simp only [cutOff,List.cons.injEq,Reply.status.injEq] at begins
      exact begins.1.symm
    | cons row rest' =>
      rw [left] at begins
      simp [cutOff] at begins

theorem offsetIgnoredAndThrowLost :
    ¬Enumerates threeRows .specific (fun _ => 0) 1 1 (lit "listColls") [] [] 0 ∧
    ¬Enumerates (cutServer ['a','b']) .general (fun _ => 0) 0 0 (lit "select COLL_NAME") [] [] 0 := by
  refine ⟨?_,?_⟩
  · rintro ⟨enough,asked⟩
    have run := asked (enough+2) (le_add_right _ _)
    have first : enumerate (enough+2) .specific (fun _ => 0) (threeRows.reply .specific) 1 1 (lit "listColls") [] [] 0 =
        ([('a',0)],.stopped) := rfl
    have second : window 1 ((resultOf threeRows .specific (lit "listColls") []).zipIdx.drop 1) = [('b',1)] := rfl
    have both := first.symm.trans (run.trans (by rw [second]))
    exact absurd both (by decide)
  · rintro ⟨enough,asked⟩
    have run := asked (enough+2) (le_add_right _ _)
    have crash : (enumerate (enough+2) .general (fun _ => 0) ((cutServer ['a','b']).reply .general) 0 0
        (lit "select COLL_NAME") [] [] 0).2 = .crashed := rfl
    have both := crash.symm.trans run.2
    exact absurd both (by decide)

end Results

end Irods.QueryIterator
