import Irods.GenQuery1Tables

/-! A static character array of C and the strings in it. The array starts as zeros; a string is
stored with its NUL at an offset and read back from an offset up to the next NUL. -/
namespace Irods.StaticMemory
open CText List

abbrev Memory := Nat → Char
def NUL : Char := '\x00'
def zeros : Memory := fun _ => NUL

def write (m : Memory) (offset : Nat) (t : Text) : Memory :=
  fun i => if offset ≤ i then t.getD (i-offset) (m i) else m i

def store (m : Memory) (offset : Nat) (t : Text) : Memory := write m offset (t ++ [NUL])

/- At most size characters are looked at, which is the size of the array. -/
def fetch (m : Memory) : Nat → Nat → Text
  | 0,_ => []
  | size+1,offset => if m offset = NUL then [] else m offset::fetch m size (offset+1)

def Holds (m : Memory) (offset : Nat) (t : Text) : Prop := ∀ i, i ≤ t.length → m (offset+i) = (t ++ [NUL]).getD i NUL

theorem writeOutside {m offset i t} (out : i < offset ∨ offset+t.length ≤ i) :
    write m offset t i = m i := by
  unfold write
  split
  · rw [getD_eq_default]
    omega
  · rfl

theorem writeInside {m} (offset) {i t} (inside : i < t.length) :
    write m offset t (offset+i) = t.getD i NUL := by
  rw [write,if_pos (Nat.le_add_right _ _),Nat.add_sub_cancel_left,getD_eq_getElem _ _ inside,getD_eq_getElem _ _ inside]

theorem storeHolds (m offset t) : Holds (store m offset t) offset t := by
  intro i inside
  exact writeInside _ (by simpa using Nat.lt_succ_of_le inside)

theorem holdsKept {m n offset t} (held : Holds m offset t)
    (same : ∀ i, offset ≤ i → i ≤ offset+t.length → n i = m i) : Holds n offset t := by
  intro i inside
  rw [same (offset+i) (by omega) (by omega)]
  exact held i inside

theorem fetchHolds {m size offset t} (held : Holds m offset t) (free : NUL ∉ t)
    (room : t.length < size) : fetch m size offset = t := by
  induction t generalizing offset size with
  | nil =>
    cases size with
    | zero => rfl
    | succ size =>
      have ended := held 0 (Nat.le_refl 0)
      simp [fetch,show m offset = NUL by exact ended]
  | cons c t ih =>
    cases size with
    | zero => simp at room
    | succ _ =>
      have first : m offset = c := held 0 (Nat.zero_le _)
      have other : c ≠ NUL := fun same => free (same ▸ mem_cons_self)
      have rest : Holds m (offset+1) t := by
        intro i inside
        have := held (i+1) (by simpa using inside)
        rw [Nat.add_assoc,Nat.add_comm 1 i]
        simpa using this
      rw [fetch,first,if_neg other,ih rest (fun mem => free (mem_cons_of_mem _ mem)) (by simpa using room)]

end Irods.StaticMemory

/-! The conditions of a general query: the keywords and quoted values of a condition text, the
static arrays the values are copied to, and the bind list of pointers into those arrays. -/
namespace Irods.GenQuery1Conditions
open CText StringOpr StaticMemory GenQuery1Setup GenQuery1Tables

def MAX_BIND_VARS : Nat := 32000
def quote : Char := '\''

inductive BindPtr where
  | bindVar (offset : Nat)
  | inString (offset : Nat)
  | betweenString (offset : Nat)
  | parent (i : Nat)
  | dangling
  | userName
  | zone
  | ticket
  | offsetStr
  | quotaUser
  | quotaZone
  | quotaResc
  deriving DecidableEq, Repr

/- Clearing the vector of parent paths destroys the strings it held. -/
def BindPtr.cleared : BindPtr → BindPtr
  | .parent _ => .dangling
  | p => p

/- What one call leaves to the next: cllBindVars up to its count, and the static variables. The
vector of parent paths is empty until it is first used. -/
structure Binds where
  cllBindVars : List BindPtr
  bindVars : Memory
  bindIx : Nat
  inStrings : Memory
  inStrIx : Nat
  betweenStrings : Memory
  inStringVec : List Text
  resetVector : Bool
  conditionsForBindIx : Nat
  offsetStr : Text
  quotaUser : Text
  quotaZone : Text
  quotaResc : Text
  unused : resetVector = false → inStringVec = []

def freshBinds : Binds := ⟨[],zeros,0,zeros,0,zeros,[],false,0,[],[],[],[],fun _ => rfl⟩

structure State where
  q : Query
  b : Binds

/- An error is returned with the statics as they are then; a write outside of its array, or a
loop that never meets its end, is undefined. -/
inductive Outcome (α : Type) where
  | done (a : α)
  | failed (code : Int) (b : Binds)
  | undefined

def Outcome.bind {α β} : Outcome α → (α → Outcome β) → Outcome β
  | .done a,f => f a
  | .failed code b,_ => .failed code b
  | .undefined,_ => .undefined

instance : Monad Outcome where
  pure := .done
  bind := Outcome.bind

def appendWhere (st : State) (ts : List Text) : Outcome State :=
  if (rstrcats st.q.whereSQL MAX_SQL_SIZE_GQ ts).2 then
    .done { st with q := { st.q with whereSQL := (rstrcats st.q.whereSQL MAX_SQL_SIZE_GQ ts).1 } }
  else .failed USER_STRLEN_TOOLONG st.b

def pushBind (st : State) (p : BindPtr) : Outcome State :=
  if st.b.cllBindVars.length+1 ≥ MAX_BIND_VARS then .failed CAT_BIND_VARIABLE_LIMIT_EXCEEDED st.b
  else .done { st with b := { st.b with cllBindVars := st.b.cllBindVars ++ [p] } }

mutual
/- The characters between a quote and the next one are replaced by blanks. -/
def maskQueryArguments : Text → Text
  | [] => []
  | c::t => if c = quote ∧ quote ∈ t then c::maskQuoted t else if c = quote then c::t else c::maskQueryArguments t

def maskQuoted : Text → Text
  | [] => []
  | c::t => if c = quote then c::maskQueryArguments t else ' '::maskQuoted t
end

/- Everything quoted and the quotes themselves, also what follows a quote that is never closed. -/
def eraseQuoted : Bool → Text → Text
  | _,[] => []
  | inside,c::t =>
    if c = quote then ' '::eraseQuoted (!inside) t
    else (if inside then ' ' else c)::eraseQuoted inside t

def mentionsOperator (t : Text) : Bool := (strstr t (lit "||")).isSome || (strstr t (lit "&&")).isSome

def compoundConditionSpecified (condition : Text) : Bool :=
  mentionsOperator condition && mentionsOperator (eraseQuoted false (boundedCopy (MAX_NAME_LEN*2) condition))

inductive Connective where
  | or
  | and
  deriving DecidableEq, Repr

def Connective.text : Connective → Text
  | .or => lit " OR "
  | .and => lit " AND "

def nextOperator (t : Text) : Option (Nat × Connective) :=
  match strstr (maskQueryArguments t) (lit "||"),strstr (maskQueryArguments t) (lit "&&") with
  | some i,none => some (i,.or)
  | some i,some j => if i < j then some (i,.or) else some (j,.and)
  | none,some j => some (j,.and)
  | none,none => none

/- The parts of a compound condition with what joins each to the next, and the last part. An
operator takes two characters, so the length is enough fuel. -/
def compoundParts : Nat → Text → List (Text × Connective) × Text
  | 0,t => ([],t)
  | n+1,t =>
    match nextOperator t with
    | none => ([],t)
    | some (i,k) => ((t.take i,k)::(compoundParts n (t.drop (i+2))).1,(compoundParts n (t.drop (i+2))).2)

def blankWord (t word : Text) : Text :=
  match strstr t word with
  | none => t
  | some i => replaceAt t i (List.replicate word.length ' ')

def checkCondition (condition : Text) : Int :=
  if !(rstrcpy condition 20).2 then USER_STRLEN_TOOLONG
  else
    let blanked := condition.map (fun c => if c = '<' ∨ c = '>' ∨ c = '=' ∨ c = '!' then ' ' else c)
    let words := [lit "begin_of",lit "parent_of",lit "not",lit "NOT",lit "between",lit "BETWEEN",lit "like",lit "LIKE",
      lit "in",lit "IN"]
    if (words.foldl blankWord blanked).all (fun c => c == ' ') then 0 else CAT_INVALID_ARGUMENT

/- The contents of the quoted strings: a quote opens one, the next quote closes it. -/
def quotedFrom : Option Text → Text → List Text
  | _,[] => []
  | none,c::t => if c = quote then quotedFrom (some []) t else quotedFrom none t
  | some v,c::t => if c = quote then v::quotedFrom none t else quotedFrom (some (v ++ [c])) t

def quoted (t : Text) : List Text := quotedFrom none t

/- The text before the first quote, and what stands between the first and the last. -/
def firstToLast (t : Text) : Option (Text × Text) :=
  let inner := (t.dropWhile (fun c => c != quote)).tail
  if quote ∈ inner then
    some (t.takeWhile (fun c => c != quote),((inner.reverse.dropWhile (fun c => c != quote)).tail).reverse)
  else none

/- A keyword counts when its first occurrence, lower case before upper, starts the condition. -/
def leads (lower upper condition : Text) : Bool :=
  let start := (condition.takeWhile (fun c => c == ' ')).length
  match strstr condition lower with
  | some i => i == start
  | none =>
    match strstr condition upper with
    | some i => i == start
    | none => false

inductive Stored where
  | tooLong (m : Memory)
  | outside
  | stored (m : Memory)

/- A value that does not fit the temporary text leaves it empty, which is not noticed. -/
def storeQuoted (size ix : Nat) (m : Memory) (v : Text) : Stored :=
  let tmpStr := (rstrncat [] v v.length MAX_SQL_SIZE_GQ).1
  if !(rstrcpy tmpStr (size-ix)).2 then .tooLong (if ix < size then store m ix (rstrcpy tmpStr (size-ix)).1 else m)
  else if ix+v.length ≥ size then .outside
  else .stored (write (store m ix tmpStr) (ix+v.length) [NUL])

def addInStrings (st : State) : Bool → List Text → Outcome State
  | _,[] => .done st
  | first,v::vs => do
    let st ← appendWhere st [if first then lit "?" else lit ", ?"]
    match storeQuoted (MAX_SQL_SIZE_GQ*2) st.b.inStrIx st.b.inStrings v with
    | .tooLong m => .failed USER_STRLEN_TOOLONG { st.b with inStrings := m }
    | .outside => .undefined
    | .stored m =>
      let ix := st.b.inStrIx
      let st ← pushBind { st with b := { st.b with inStrings := m } } (.inString ix)
      addInStrings { st with b := { st.b with inStrIx := ix+v.length+1 } } false vs

def addInClauseToWhereForIn (st : State) (inArg : Text) : Outcome State := do
  let st ← appendWhere st [lit " IN ("]
  let st ← addInStrings st true (quoted inArg)
  let st ← appendWhere st [lit ")"]
  if (quoted inArg).isEmpty then .failed CAT_INVALID_ARGUMENT st.b else .done st

/- The index into the static array starts at 0 on every call. -/
def addBetweenStrings (st : State) : Nat → Bool → List Text → Outcome State
  | _,_,[] => .done st
  | ix,first,v::vs => do
    let st ← appendWhere st [if first then lit "?" else lit " AND ? "]
    match storeQuoted MAX_SQL_SIZE_GQ ix st.b.betweenStrings v with
    | .tooLong m => .failed USER_STRLEN_TOOLONG { st.b with betweenStrings := m }
    | .outside => .undefined
    | .stored m =>
      let st ← pushBind { st with b := { st.b with betweenStrings := m } } (.betweenString ix)
      addBetweenStrings st (ix+v.length+1) false vs

def addBetweenClauseToWhere (st : State) (inArg : Text) : Outcome State := do
  let st ← appendWhere st [lit " BETWEEN "]
  let st ← addBetweenStrings st 0 true (quoted inArg)
  if (quoted inArg).length = 2 then .done st else .failed CAT_INVALID_ARGUMENT st.b

/- The path of the first components; an empty component stands for a separator. -/
def joinPath (components : List Text) : Text :=
  (components.foldl (fun r p => if p.isEmpty then (r.1 ++ lit "/",false)
    else ((if r.2 then r.1 ++ lit "/" else r.1) ++ p,true)) ([],false)).1

def parentPaths (components : List Text) : List Text :=
  (List.range components.length).map (fun i => joinPath (components.take (i+1)))

def placeholders : Nat → Text
  | 0 => []
  | n+1 => lit "?" ++ (List.replicate n (lit ", ?")).flatten

def addInClauseToWhereForParentOf (s : Setup) (st : State) (inArg : Text) : Outcome State := do
  let kept := if st.b.resetVector then [] else st.b.inStringVec
  let bound := if st.b.resetVector then st.b.cllBindVars.map BindPtr.cleared else st.b.cllBindVars
  let paths := kept ++ parentPaths (s.split inArg)
  let b := { st.b with inStringVec := paths, resetVector := true, cllBindVars := bound, unused := nofun }
  let st := { st with b }
  let st ← appendWhere st [lit " IN (" ++ placeholders paths.length ++ lit ")"]
  if bound.length+paths.length ≥ MAX_BIND_VARS then .failed CAT_BIND_VARIABLE_LIMIT_EXCEEDED st.b
  else .done { st with b := { st.b with cllBindVars := bound ++ (List.range paths.length).map BindPtr.parent } }

/- The last blank-free stretch of the WHERE text, taken for the column just added. -/
def lastWord (w : Text) : Text := (w.reverse.takeWhile (fun c => c != ' ')).reverse

def appendBeginOf (st : State) : Outcome State :=
  appendWhere st [lit "=substr(?,1,char_length(",lastWord st.q.whereSQL,lit "))",lit " AND char_length(",
    lastWord st.q.whereSQL,lit ")>0"]

def appendOperator (s : Setup) (st : State) (head v : Text) : Outcome State :=
  if (strstr (' '::head) (lit "begin_of")).isSome then appendBeginOf st
  else if (strstr (' '::head) (lit "parent_of")).isSome then
    addInClauseToWhereForParentOf s { st with b := { st.b with cllBindVars := st.b.cllBindVars.dropLast } } v
  else appendWhere st [' '::head ++ lit "? "]

def insertWhere (s : Setup) (st : State) (condition : Text) : Outcome State :=
  if leads (lit "in") (lit "IN") condition then addInClauseToWhereForIn st condition
  else if leads (lit "between") (lit "BETWEEN") condition then addBetweenClauseToWhere st condition
  else if condition = lit "IS NULL" ∨ condition = lit "IS NOT NULL" then appendWhere st [lit " ",condition,lit " "]
  else
    let bindIx := st.b.bindIx+1
    match firstToLast condition with
    | none => .failed CAT_INVALID_ARGUMENT { st.b with bindIx := bindIx }
    | some (head,v) =>
      if v.length+1+bindIx > MAX_SQL_SIZE_GQ+90 then .failed CAT_INVALID_ARGUMENT { st.b with bindIx := bindIx }
      else do
        let st ← pushBind { st with b := { st.b with
          bindVars := store st.b.bindVars bindIx v
          bindIx := bindIx+v.length+1 } } (.bindVar bindIx)
        if head.length > 10 then .failed CAT_INVALID_ARGUMENT st.b
        -- The copy up to the first quote is a do-while loop: it runs past a quote in front.
        else if head.isEmpty then .undefined
        else do
          let st ← appendOperator s st head v
          if checkCondition (' '::head) = 0 then .done st else .failed (checkCondition (' '::head)) st.b

/- The parts before the last are copied into conditionsForBind, which has MAX_NAME_LEN*2
characters while the copy is bounded by MAX_SQL_SIZE_GQ*2. -/
def insertParts (s : Setup) (tabAndColumn : Text) (st : State) : List (Text × Connective) → Outcome State
  | [] => .done st
  | (part,connective)::rest => do
    let st ← appendWhere st [tabAndColumn]
    if st.b.conditionsForBindIx+part.length+1 > MAX_NAME_LEN*2 then .undefined
    else do
      let st ← insertWhere s st part
      let st ← appendWhere { st with b := { st.b with
        conditionsForBindIx := st.b.conditionsForBindIx+part.length+1 } } [connective.text]
      insertParts s tabAndColumn st rest

/- A separating AND stays in front of the opening parenthesis. -/
def columnStart (w : Text) (prevWhereLen : Nat) : Nat :=
  let i := prevWhereLen+((w.drop prevWhereLen).takeWhile (fun c => c == ' ')).length
  if (lit "AND").isPrefixOf (w.drop i) then i+3 else prevWhereLen

def handleCompoundCondition (s : Setup) (st : State) (condition : Text) (prevWhereLen : Nat) : Outcome State := do
  let start := columnStart st.q.whereSQL prevWhereLen
  let tabAndColumn := st.q.whereSQL.drop start
  let st ← appendWhere { st with q := { st.q with whereSQL := st.q.whereSQL.take start } } [lit " ( "]
  if !(rstrcpy condition (MAX_NAME_LEN*2)).2 then .failed USER_STRLEN_TOOLONG st.b
  else do
    let parts := compoundParts condition.length condition
    let st ← insertParts s tabAndColumn st parts.1
    let st ← appendWhere st [tabAndColumn]
    let st ← insertWhere s st parts.2
    appendWhere st [lit " ) "]

end Irods.GenQuery1Conditions
