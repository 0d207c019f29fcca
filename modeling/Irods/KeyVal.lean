import Irods.CText

/-! The keyword-value pairs of rcMisc.cpp. The two arrays are allocated apart from the length; an
operation that touches a slot outside of them, or compares with a NULL keyword, gives none. -/
namespace Irods.KeyVal
open CText List Option Prod

def PTR_ARRAY_MALLOC_LEN : Nat := 10
abbrev Slots := Option (List (Option Text))

structure KeyValPair where
  len : Nat
  keyWord : Slots
  value : Slots
  deriving DecidableEq, Repr

def zeroed : KeyValPair := ⟨0,none,none⟩

def slot (s : Slots) (i : Nat) : Option (Option Text) := s.bind (·[i]?)

def store (s : Slots) (i : Nat) (x : Option Text) : Option Slots :=
  s.bind fun l => if i < l.length then some (some (l.set i x)) else none

def firstFrom (test : Nat → Option Bool) : Nat → Nat → Option (Option Nat)
  | 0,_ => some none
  | n+1,i => do if ← test i then some (some i) else firstFrom test n (i+1)

def getValByKey (p : KeyValPair) (k : Text) : Option (Option Text) := do
  match ← firstFrom (fun i => do return (← ← slot p.keyWord i) == k) p.len 0 with
  | some i => slot p.value i
  | none => return none

def isFree (w : Option Text) : Bool := w.all List.isEmpty

-- realloc keeps the slots in use, and the new ones are NULL.
def grown (len : Nat) (s : Slots) : Slots :=
  if len%PTR_ARRAY_MALLOC_LEN = 0 then some ((s.getD []).take len ++ List.replicate PTR_ARRAY_MALLOC_LEN none) else s

def addKeyVal (p : KeyValPair) (k : Text) (v : Option Text) : Option KeyValPair := do
  let len := if p.keyWord = none ∨ p.value = none then 0 else p.len
  match ← firstFrom (fun i => do let w ← slot p.keyWord i; return isFree w || w == some k) len 0 with
  | some i => return ⟨len,← store p.keyWord i k,← store p.value i v⟩
  | none => return ⟨len+1,← store (grown len p.keyWord) len k,← store (grown len p.value) len v⟩

def shift : Nat → Nat → Slots → Option Slots
  | 0,_,s => some s
  | n+1,j,s => do shift n (j+1) (← store s j (← slot s (j+1)))

def rmKeyVal (p : KeyValPair) (k : Text) : Option KeyValPair := do
  match ← firstFrom (fun i => do return (← slot p.keyWord i) == some k) p.len 0 with
  | none => return p
  | some i =>
    let keyWord ← shift (p.len-1-i) i p.keyWord
    let value ← shift (p.len-1-i) i p.value
    if p.len-1 = 0 then return ⟨0,none,none⟩ else return ⟨p.len-1,keyWord,value⟩

inductive Op where
  | add (k : Text) (v : Option Text)
  | rm (k : Text)
  | get (k : Text)

def step (p : KeyValPair) : Op → Option KeyValPair
  | .add k v => addKeyVal p k v
  | .rm k => rmKeyVal p k
  | .get k => (getValByKey p k).map fun _ => p

def run : List Op → Option KeyValPair
  | [] => some zeroed
  | op::older => (run older).bind (step · op)

abbrev Entry := Text × Option Text

structure Holds (p : KeyValPair) (es : List Entry) : Prop where
  len : p.len = es.length
  none : es = [] → p.keyWord = none ∧ p.value = none
  some : es ≠ [] → ∃ spareK spareV, p.keyWord = some (es.map (fun e => some e.1) ++ spareK) ∧
    p.value = some (es.map Prod.snd ++ spareV) ∧
    (10-es.length%10)%10 ≤ spareK.length ∧ (10-es.length%10)%10 ≤ spareV.length

theorem firstFound {α : Type} {test good es} {front : List α}
    (same : ∀ i e, (front ++ es)[i]? = some e → test i = some (good e)) :
    firstFrom test es.length front.length = some ((es.findIdx? good).map (front.length+·)) := by
  induction es generalizing front with
  | nil => rfl
  | cons e es ih =>
    have here := same front.length e (by simp)
    have later := @ih (front ++ [e]) fun i x found => same i x (by simpa using found)
    rw [length_cons,firstFrom,here,findIdx?_cons]
    cases good e with
    | true => rfl
    | false =>
      rw [length_append,length_singleton] at later
      simp only [later]
      cases es.findIdx? good with
      | none => rfl
      | some i => simp; omega

theorem firstEntry {α : Type} {test} {g} {es : List α}
    (same : ∀ i e, es[i]? = some e → test i = some (g e)) : firstFrom test es.length 0 = some (es.findIdx? g) := by
  have found := @firstFound α test g es [] same
  simpa using found

def put (k : Text) (v : Option Text) : List Entry → List Entry
  | [] => [(k,v)]
  | e::es => if e.1.isEmpty || e.1 == k then (k,v)::es else e::put k v es

def remove (k : Text) (es : List Entry) : List Entry := es.eraseP (·.1 == k)

theorem putIdx (k v es) : put k v es =
    match es.findIdx? fun e => e.1.isEmpty || e.1 == k with
    | some i => es.set i (k,v)
    | none => es ++ [(k,v)] := by
  induction es with
  | nil => rfl
  | cons e es ih =>
    rw [put,findIdx?_cons,ih]
    cases e.1.isEmpty || e.1 == k with
    | true => rfl
    | false => cases es.findIdx? fun e => e.1.isEmpty || e.1 == k <;> rfl

theorem lookupIdx (k) (es : List Entry) :
    (es.lookup k).join = (es.findIdx? (·.1 == k)).bind fun i => (es[i]?).bind snd := by
  induction es with
  | nil => rfl
  | cons e _ ih =>
    rw [lookup_cons,findIdx?_cons,BEq.comm]
    cases e.1 == k with
    | true => rfl
    | false =>
      simp [ih,bind_map]

section Entries
variable {p : KeyValPair} {es : List Entry}

theorem slotEntry {α : Type} {f} {xs : List α} {spare} {i x} (found : xs[i]? = some x) :
    slot (some (xs.map f ++ spare)) i = some (f x) := by
  obtain ⟨inside,rfl⟩ := List.getElem?_eq_some_iff.mp found
  simp [slot,List.getElem?_append,inside]

theorem getHolds (holds : Holds p es) (k) : getValByKey p k = some (es.lookup k).join := by
  rw [lookupIdx]
  by_cases empty : es = []
  · rw [empty] at holds ⊢
    rw [getValByKey,holds.len]
    rfl
  obtain ⟨_,_,keys,values,-,-⟩ := holds.some empty
  rw [getValByKey,holds.len,firstEntry fun i e found => by rw [keys,slotEntry found]; rfl]
  cases position : es.findIdx? (·.1 == k) with
  | none => rfl
  | some i =>
    have inside := (findIdx?_eq_some_iff_getElem.mp position).1
    simp [values,slotEntry (getElem?_eq_getElem inside),getElem?_eq_getElem inside]

theorem storeEntry {f} {spare} {i} (e) (inside : i < es.length) :
    store (some (es.map f ++ spare)) i (f e) = some (some ((es.set i e).map f ++ spare)) := by
  rw [store,bind_some,if_pos (by simp; omega),set_append_left _ _ (by simpa using inside),map_set]

theorem storeNext {f} {spare} (e) (room : (10-es.length%10)%10 ≤ spare.length) :
    ∃ spare', store (grown es.length (some (es.map f ++ spare))) es.length
      (f e) = some (some ((es ++ [e]).map f ++ spare')) ∧
      (10-(es.length+1)%10)%10 ≤ spare'.length := by
  have stored : ∀ x spare',
    store (some (es.map f ++ x::spare')) es.length (f e) = some (some ((es ++ [e]).map f ++ spare')) := by
    simp [store]
  unfold grown PTR_ARRAY_MALLOC_LEN
  split
  · refine ⟨replicate 9 none,?_,by simp; omega⟩
    have cut : (es.map f ++ spare).take es.length = es.map f := by simp
    rw [getD_some,cut]
    exact stored none (replicate 9 none)
  · cases spare with
    | nil => simp at room; omega
    | cons x spare' => exact ⟨spare',stored x spare',by simp at room; omega⟩

theorem addHolds (holds : Holds p es) (k v) : ∃ p', addKeyVal p k v = some p' ∧ Holds p' (put k v es) := by
  by_cases empty : es = []
  · rw [empty] at holds ⊢
    obtain ⟨keys,values⟩ := holds.none rfl
    refine ⟨⟨1,some (some k::replicate 9 none),some (v::replicate 9 none)⟩,?_,rfl,nofun,fun _ => ⟨_,_,rfl,rfl,?_⟩⟩
    · rw [addKeyVal,keys]
      rfl
    · simp [put]
  obtain ⟨spareK,spareV,keys,values,roomK,roomV⟩ := holds.some empty
  have full : (if p.keyWord = none ∨ p.value = none then 0 else p.len) = es.length := by simp [keys,values,holds.len]
  rw [addKeyVal,full,
      firstEntry (g :=
        fun e => e.1.isEmpty || e.1 == k) fun i e found => by rw [keys,slotEntry found]; simp [isFree],putIdx]
  cases position : es.findIdx? fun e => e.1.isEmpty || e.1 == k with
  | some i =>
    have inside := (findIdx?_eq_some_iff_getElem.mp position).1
    refine ⟨_,by simp only [keys,values,bind_eq_bind,bind_some,storeEntry (k,v) inside]; rfl,by simp,
        fun none => absurd (by simpa using none) empty,fun _ => ⟨spareK,spareV,rfl,rfl,?_⟩⟩
    simpa using ⟨roomK,roomV⟩
  | none =>
    obtain ⟨nextK,storedK,moreK⟩ := storeNext (f := fun e => some e.1) (k,v) roomK
    obtain ⟨nextV,storedV,moreV⟩ := storeNext (f := snd) (k,v) roomV
    refine ⟨_,by simp only [keys,values,storedK,storedV]; rfl,by simp,by simp,
      fun _ => ⟨nextK,nextV,rfl,rfl,?_⟩⟩
    simpa using ⟨moreK,moreV⟩

theorem shiftSlots (front rest spare x) :
    ∃ y, shift rest.length front.length
      (some (front ++ x::(rest ++ spare))) = some (some (front ++ (rest ++ y::spare))) := by
  induction rest generalizing front x with
  | nil => exact ⟨x,rfl⟩
  | cons r rest ih =>
    obtain ⟨y,shifted⟩ := ih (front ++ [r]) r
    have moved : store (some (front ++ x::(r::rest ++ spare))) front.length r =
      some (some ((front ++ [r]) ++ r::(rest ++ spare))) := by
      simp [store]
    have read : slot (some (front ++ x::(r::rest ++ spare))) (front.length+1) = some r := by simp [slot]
    rw [length_append,length_singleton] at shifted
    rw [length_cons,shift]
    simp only [read,moved,shifted,bind_eq_bind,bind_some]
    simp

theorem shiftEntry {f} {spare} {i} (inside : i < es.length) :
    ∃ y, shift (es.length-1-i) i (some (es.map f ++ spare)) = some (some ((es.eraseIdx i).map f ++ y::spare)) := by
  obtain ⟨y,shifted⟩ := shiftSlots ((es.take i).map f) ((es.drop (i+1)).map f) spare (f es[i])
  refine ⟨y,?_⟩
  have whole : es.map f ++ spare = (es.take i).map f ++ f es[i]::((es.drop (i+1)).map f ++ spare) := by
    rw [← cons_append,← append_assoc,← map_cons,getElem_cons_drop,← map_append,take_append_drop]
  have size : ((es.drop (i+1)).map f).length = es.length-1-i := by simp; omega
  have front : ((es.take i).map f).length = i := by simp; omega
  rw [size,front,← whole] at shifted
  rw [shifted,eraseIdx_eq_take_drop_succ,map_append,append_assoc]

theorem rmHolds (holds : Holds p es) (k) : ∃ p', rmKeyVal p k = some p' ∧ Holds p' (remove k es) := by
  by_cases empty : es = []
  · rw [empty] at holds ⊢
    refine ⟨p,?_,holds⟩
    rw [rmKeyVal,holds.len]
    rfl
  obtain ⟨spareK,spareV,keys,values,_,_⟩ := holds.some empty
  rw [rmKeyVal,holds.len,firstEntry (g := (·.1 == k)) fun i e found => by rw [keys,slotEntry found]; simp,remove,
      eraseP_eq_eraseIdx]
  cases position : es.findIdx? (·.1 == k) with
  | none => exact ⟨p,rfl,holds⟩
  | some i =>
    have inside := (findIdx?_eq_some_iff_getElem.mp position).1
    obtain ⟨x,shiftedK⟩ := @shiftEntry es (fun e => some e.1) spareK i inside
    obtain ⟨y,shiftedV⟩ := @shiftEntry es snd spareV i inside
    have size := length_eraseIdx_of_lt inside
    simp only [keys,values,shiftedK,shiftedV,bind_eq_bind,bind_some]
    by_cases last : es.length-1 = 0
    · have gone := length_eq_zero_iff.mp (size.trans last)
      rw [if_pos last,gone]
      exact ⟨_,rfl,rfl,fun _ => ⟨rfl,rfl⟩,fun some => absurd rfl some⟩
    · rw [if_neg last]
      refine ⟨_,rfl,size.symm,fun none => absurd (size.symm.trans (by rw [none]; rfl)) last,
          fun _ => ⟨x::spareK,y::spareV,rfl,rfl,?_⟩⟩
      simp only [length_cons]
      omega

end Entries

/-! The law of the map. A keyword without characters marks a free slot: it stands last, and the next
new keyword takes its place. -/
def Neat : List Entry → Prop
  | [] => True
  | e::es => e.1 ∉ es.map Prod.fst ∧ (e.1 = [] → es = []) ∧ Neat es

theorem putKeys {k v es k'} (mem : k' ∈ (put k v es).map fst) :
    k' = k ∨ k' ∈ es.map fst := by
  induction es with
  | nil => exact .inl (by simpa [put] using mem)
  | cons e _ ih =>
    unfold put at mem
    split at mem
    · exact (mem_cons.mp mem).imp_right (mem_cons_of_mem _)
    rcases mem_cons.mp mem with rfl | later
    · exact .inr mem_cons_self
    · exact (ih later).imp_right (mem_cons_of_mem _)

theorem putNeat {es} (neat : Neat es) (k v) : Neat (put k v es) := by
  induction es with
  | nil => exact ⟨nofun,fun _ => rfl,trivial⟩
  | cons e _ ih =>
    obtain ⟨fresh,last,rest⟩ := neat
    unfold put
    split
    · rename_i hit
      rcases Bool.or_eq_true_iff.mp hit with free | same
      · rw [last (isEmpty_iff.mp free)]
        exact ⟨nofun,fun _ => rfl,trivial⟩
      · rw [← eq_of_beq same]
        exact ⟨fresh,last,rest⟩
    · rename_i miss
      simp only [Bool.or_eq_true,List.isEmpty_iff,beq_iff_eq,not_or] at miss
      refine ⟨fun mem => ?_,fun free => absurd free miss.1,ih rest⟩
      exact (putKeys mem).elim miss.2 fresh

theorem lookupCons (k e) (es : List Entry) : (e::es).lookup k = if k = e.1 then some e.2 else es.lookup k := by
  rw [lookup_cons]
  by_cases same : k = e.1
  · simp [same]
  · rw [if_neg same,beq_eq_false_iff_ne.mpr same]

theorem lookupPut {es} (neat : Neat es) (k v) (k') : (put k v es).lookup k' =
    if k' = k then some v else if k' = [] ∧ es.lookup k = none then none else es.lookup k' := by
  induction es with
  | nil => simp [put,lookupCons]
  | cons e _ ih =>
    obtain ⟨-,last,rest⟩ := neat
    unfold put
    by_cases free : e.1 = []
    · rw [last free]
      by_cases none : k' = []
      · by_cases given : k = [] <;> simp [free,none,given]
      · simp [free,none,lookupCons]
    by_cases hit : e.1 = k
    · simp only [hit,beq_self_eq_true,Bool.or_true,if_true,lookupCons]
      by_cases same : k' = k <;> simp [same]
    have miss : (e.1.isEmpty || e.1 == k) = false := by simp [free,hit]
    simp only [miss,Bool.false_eq_true,if_false,lookupCons,ih rest]
    by_cases here : k' = e.1
    · simp [here,free,hit]
    · have other : ¬k = e.1 := fun equal => hit equal.symm
      simp only [here,other,if_false]

theorem removeLookup {es} (neat : Neat es) (k k') : Neat (remove k es) ∧
    (remove k es).lookup k' = if k' = k then none else es.lookup k' := by
  induction es with
  | nil => exact ⟨trivial,by simp [remove]⟩
  | cons e _ ih =>
    obtain ⟨fresh,last,rest⟩ := neat
    unfold remove at ih ⊢
    by_cases hit : e.1 = k
    · rw [eraseP_cons_of_pos (by simpa using hit)]
      refine ⟨rest,?_⟩
      by_cases same : k' = k
      · rw [if_pos same,same,← hit,lookup_eq_none_iff]
        exact fun p mem => by simpa using fun equal : e.1 = p.1 => fresh (equal ▸ mem_map_of_mem mem)
      · rw [if_neg same,lookupCons,if_neg (hit ▸ same)]
    · rw [eraseP_cons_of_neg (by simpa using hit)]
      refine ⟨⟨fun mem => fresh ?_,fun free => by rw [last free]; rfl,(ih rest).1⟩,?_⟩
      · exact (eraseP_sublist.map fst).subset mem
      rw [lookupCons,lookupCons,(ih rest).2]
      by_cases same : k' = k
      · simp [same,Ne.symm hit]
      · simp [same]

def held : List Op → Text → Option (Option Text)
  | [],_ => none
  | .add k' v::older,k => if k = k' then some v else if k = [] ∧ held older k' = none then none else held older k
  | .rm k'::older,k => if k = k' then none else held older k
  | .get _::older,k => held older k

def keyWords (p : KeyValPair) : List (Option Text) := (p.keyWord.getD []).take p.len

theorem runHolds (history) : ∃ p es, run history = some p ∧ Holds p es ∧ Neat es ∧
    ∀ k, es.lookup k = held history k := by
  induction history with
  | nil => exact ⟨zeroed,[],rfl,⟨rfl,fun _ => ⟨rfl,rfl⟩,fun some => absurd rfl some⟩,trivial,fun _ => rfl⟩
  | cons op _ ih =>
    obtain ⟨p,es,ran,holds,neat,same⟩ := ih
    rw [run,ran]
    cases op with
    | add k v =>
      obtain ⟨p',added,holds'⟩ := addHolds holds k v
      refine ⟨p',_,added,holds',putNeat neat k v,fun k' => ?_⟩
      rw [lookupPut neat,held,same,same]
    | rm k =>
      obtain ⟨p',removed,holds'⟩ := rmHolds holds k
      refine ⟨p',_,removed,holds',(removeLookup neat k k).1,fun k' => ?_⟩
      rw [(removeLookup neat k k').2,held,same]
    | get k => exact ⟨p,es,by rw [bind_some,step,getHolds holds]; rfl,holds,neat,same⟩

theorem keyWordsHeld {p es} (holds : Holds p es) (neat : Neat es) : (keyWords p).Nodup := by
  have all : keyWords p = es.map fun e => some e.1 := by
    by_cases empty : es = []
    · rw [keyWords,holds.len,empty]
      rfl
    · obtain ⟨_,_,keys,-⟩ := holds.some empty
      rw [keyWords,keys,holds.len]
      simp
  rw [all]
  clear all holds
  induction es with
  | nil => exact .nil
  | cons e _ ih => exact nodup_cons.mpr ⟨by simpa using neat.1,ih neat.2.2⟩

theorem historyKept (history : List Op) : ∃ p, run history = some p ∧ (keyWords p).Nodup ∧
    ∀ k, getValByKey p k = some (held history k).join := by
  obtain ⟨p,_,ran,holds,neat,same⟩ := runHolds history
  exact ⟨p,ran,keyWordsHeld holds neat,fun k => by rw [getHolds holds,same]⟩

theorem emptyKeyLost :
    (run [.add (lit "a") (some (lit "2")),.add [] (some (lit "1"))]).map (fun p => (getValByKey p [],p.len)) =
    some (some none,1) := rfl

end Irods.KeyVal
