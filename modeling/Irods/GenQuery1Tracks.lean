import Irods.GenQuery1Forms

/-! What the parts of the conditions leave in the static arrays, and what each bind pointer then
points to. -/
namespace Irods.GenQuery1Tracks
open CText StringOpr StaticMemory GenQuery1Setup GenQuery1Tables GenQuery1Conditions GenQuery1Generate GenQuery1Forms
    List Nat Binds

theorem bindDone {α β x} {f : α → Outcome β} {r} (run : (x >>= f) = .done r) :
    ∃ a, x = .done a ∧ f a = .done r := by
  cases x with
  | done a => exact ⟨a,rfl,run⟩
  | failed _ b => cases run
  | undefined => cases run

def Grown (q q' : Query) (t : Text) : Prop := q' = { q with whereSQL := q.whereSQL ++ t }

theorem grownTrans {q q' q'' t u} (one : Grown q q' t) (two : Grown q' q'' u) : Grown q q'' (t ++ u) := by
  unfold Grown at *
  rw [two,one,append_assoc]

variable {st st' : State}

theorem appendDone {ts} (run : appendWhere st ts = .done st') :
    Grown st.q st'.q ts.flatten ∧ st'.b = st.b := by
  unfold appendWhere at run
  split at run
  · rename_i fits
    cases run
    exact ⟨by rw [Grown,rstrcatsDone fits],rfl⟩
  · cases run

theorem pushDone {p} (run : pushBind st p = .done st') :
    st' = { st with b := { st.b with cllBindVars := st.b.cllBindVars ++ [p] } } := by
  unfold pushBind at run
  split at run
  · cases run
  · cases run; rfl

/- The place a bound operand was copied to. A string of the IN array may be cut to nothing; the
strings of BETWEEN all start at the same array; a path lives until the next parent_of. Nothing
is said of a pointer that was there before. -/
inductive Slot where
  | leftover
  | plain (v : Text)
  | listed (v : Text)
  | bounded (ix : Nat) (v : Text)
  | parent (i : Nat) (v : Text)
  | destroyed (v : Text)
  deriving DecidableEq, Repr

def Slot.operand : Slot → Text
  | .leftover => []
  | .plain v => v
  | .listed v => v
  | .bounded _ v => v
  | .parent _ v => v
  | .destroyed v => v

def Slot.cleared : Slot → Slot
  | .parent _ v => .destroyed v
  | slot => slot

def boundedSlots : Nat → List Text → List Slot
  | _,[] => []
  | ix,v::vs => .bounded ix v::boundedSlots (ix+v.length+1) vs

def formSlots (s : Setup) : Form → List Slot
  | .inList vs => vs.map .listed
  | .between vs => boundedSlots 0 vs
  | .nullTest _ => []
  | .beginOf v => [.plain v]
  | .parentOf v => (parentPaths (s.split v)).zipIdx.map (fun p => .parent p.2 p.1)
  | .comparison _ v => [.plain v]
  | .malformed => []

def isParent : Form → Bool
  | .parentOf _ => true
  | _ => false

def addSlots (s : Setup) (ss : List Slot) (f : Form) : List Slot :=
  (if isParent f then ss.map Slot.cleared else ss) ++ formSlots s f

def slots (s : Setup) (n : Nat) (fs : List Form) : List Slot := fs.foldl (addSlots s) (List.replicate n .leftover)

def storeAll (m : Memory) : Nat → List Text → Memory
  | _,[] => m
  | ix,v::vs => storeAll (store m ix v) (ix+v.length+1) vs

def replayForm (m : Memory) : Form → Memory
  | .between vs => storeAll m 0 vs
  | _ => m

def replay (fs : List Form) : Memory := fs.foldl replayForm zeros
def stringsExtent (vs : List Text) : Nat := (vs.map (fun v => v.length+1)).sum

def formExtent : Form → Nat
  | .between vs => stringsExtent vs
  | _ => 0

def extent (fs : List Form) : Nat := fs.foldl (fun n f => max n (formExtent f)) 0

def kept (v : Text) : Text := if v.length < MAX_SQL_SIZE_GQ then v else []

def Points (b : Binds) (p : BindPtr) : Slot → Prop
  | .leftover => True
  | .plain v => ∃ i, p = .bindVar i ∧ Holds b.bindVars i v ∧ i+v.length < b.bindIx
  | .listed v => ∃ i, p = .inString i ∧ Holds b.inStrings i (kept v) ∧ i+(kept v).length < b.inStrIx
  | .bounded ix _ => p = .betweenString ix
  | .parent i v => p = .parent i ∧ b.inStringVec[i]? = some v
  | .destroyed _ => p = .dangling

structure Tracks (s : Setup) (n : Nat) (b : Binds) (fs : List Form) : Prop where
  points : List.Forall₂ (Points b) b.cllBindVars (slots s n fs)
  between : ∀ i < extent fs, b.betweenStrings i = replay fs i
  room : extent fs ≤ MAX_SQL_SIZE_GQ
  bindIx : b.bindIx ≤ MAX_SQL_SIZE_GQ+90
  inStrIx : b.inStrIx ≤ MAX_SQL_SIZE_GQ*2

theorem slotsAppend (s n fs f) :
    slots s n (fs ++ [f]) = addSlots s (slots s n fs) f := by
  simp [slots]

theorem replayAppend (fs f) : replay (fs ++ [f]) = replayForm (replay fs) f := by
  simp [replay]

theorem extentAppend (fs f) : extent (fs ++ [f]) = max (extent fs) (formExtent f) := by
  simp [extent]

theorem operandCleared (slot : Slot) : slot.cleared.operand = slot.operand := by cases slot <;> rfl

theorem boundedOperands (ix vs) : (boundedSlots ix vs).map Slot.operand = vs := by
  induction vs generalizing ix with
  | nil => rfl
  | cons v _ ih => rw [boundedSlots,map_cons,ih]; rfl

theorem formOperands (s f) : (formSlots s f).map Slot.operand = f.operands s := by
  cases f with
  | between vs => exact boundedOperands 0 vs
  | inList _ => simp [formSlots,Form.operands,Function.comp_def,Slot.operand]
  | parentOf v =>
    rw [formSlots,map_map]
    exact zipIdx_map_fst 0 _
  | _ => rfl

theorem slotsOperands (s fs) : (slots s 0 fs).map Slot.operand = fs.flatMap (Form.operands s) := by
  induction fs using reverseRecOn with
  | nil => rfl
  | append_singleton fs f ih =>
    have clear : (if isParent f then (slots s 0 fs).map Slot.cleared else slots s 0 fs).map Slot.operand =
        (slots s 0 fs).map Slot.operand := by
      split
      · rw [map_map]
        exact map_congr_left fun slot _ => operandCleared slot
      · rfl
    rw [slotsAppend,addSlots,map_append,clear,ih,formOperands,flatMap_append,flatMap_singleton]

variable {slot : Slot}

theorem pointsKept {b b' p} (held : Points b p slot)
    (vars : ∀ i < b.bindIx, b'.bindVars i = b.bindVars i) (bindIx : b.bindIx ≤ b'.bindIx)
    (strings : ∀ i < b.inStrIx, b'.inStrings i = b.inStrings i) (inStrIx : b.inStrIx ≤ b'.inStrIx)
    (vector : b'.inStringVec = b.inStringVec) : Points b' p slot := by
  cases slot with
  | leftover => trivial
  | plain v =>
    obtain ⟨i,position,holds,below⟩ := held
    exact ⟨i,position,holdsKept holds fun j _ upper => vars j (by omega),by omega⟩
  | listed v =>
    obtain ⟨i,position,holds,_⟩ := held
    exact ⟨i,position,holdsKept holds fun j _ upper => strings j (by omega),by omega⟩
  | bounded _ v => exact held
  | parent i v => exact ⟨held.1,vector ▸ held.2⟩
  | destroyed v => exact held

theorem temporaryText (v) : (rstrncat [] v v.length MAX_SQL_SIZE_GQ).1 = kept v := by
  unfold rstrncat kept
  by_cases short : v.length < MAX_SQL_SIZE_GQ
  · rw [if_pos short,if_neg (by simp only [length_nil]; omega)]
    simp
  · rw [if_neg short,if_pos (by simp only [length_nil]; omega)]

variable {size ix : Nat} {m m' : Memory}

theorem storedText {v} (run : storeQuoted size ix m v = .stored m') :
    ix+v.length < size ∧ m' = write (store m ix (kept v)) (ix+v.length) [NUL] := by
  unfold storeQuoted at run
  dsimp only at run
  rw [temporaryText] at run
  split at run
  · cases run
  split at run
  · cases run
  · cases run
    exact ⟨by omega,rfl⟩

theorem keptLength (v) : (kept v).length ≤ v.length := by
  unfold kept
  split
  · exact le_refl _
  · exact zero_le _

theorem storedHolds (m ix v) :
    Holds (write (store m ix (kept v)) (ix+v.length) [NUL]) ix (kept v) := by
  have held := storeHolds m ix (kept v)
  have short := keptLength v
  intro i inside
  by_cases last : ix+i = ix+v.length
  · have written := writeInside (m := store m ix (kept v)) (ix+v.length) (i := 0) (t := [NUL]) (by simp)
    have full : i = (kept v).length := by omega
    rw [last]
    simpa [full] using written
  · rw [writeOutside (by simp only [length_singleton]; omega)]
    exact held i inside

theorem storedBelow {i v} (below : i < ix) :
    write (store m ix (kept v)) (ix+v.length) [NUL] i = m i := by
  rw [writeOutside (by omega),store,writeOutside (by omega)]

theorem storedShort {v} (short : v.length < MAX_SQL_SIZE_GQ) :
    write (store m ix (kept v)) (ix+v.length) [NUL] = store m ix v := by
  funext i
  rw [show kept v = v by rw [kept,if_pos short]]
  by_cases last : i = ix+v.length
  · have held := storeHolds m ix v v.length (Nat.le_refl _)
    have written := writeInside (m := store m ix v) (ix+v.length) (i := 0) (t := [NUL]) (by simp)
    rw [last]
    rw [Nat.add_zero] at written
    rw [written,held]
    simp
  · exact writeOutside (by simp only [length_singleton]; omega)

structure InStep (b b' : Binds) (vs : List Text) : Prop where
  bindVars : b'.bindVars = b.bindVars
  bindIx : b'.bindIx = b.bindIx
  betweenStrings : b'.betweenStrings = b.betweenStrings
  conditionsForBindIx : b'.conditionsForBindIx = b.conditionsForBindIx
  points : ∀ ss, List.Forall₂ (Points b) b.cllBindVars ss →
    List.Forall₂ (Points b') b'.cllBindVars (ss ++ vs.map .listed)
  inStrIx : b.inStrIx ≤ MAX_SQL_SIZE_GQ*2 → b'.inStrIx ≤ MAX_SQL_SIZE_GQ*2
  advanced : b'.inStrIx = b.inStrIx+stringsExtent vs

def listMarks : Bool → List Text → Text
  | _,[] => []
  | first,_::vs => (if first then lit "?" else lit ", ?") ++ listMarks false vs

variable {first : Bool} {vs : List Text}

theorem addInStringsDone (run : addInStrings st first vs = .done st') :
    Grown st.q st'.q (listMarks first vs) ∧ InStep st.b st'.b vs := by
  induction vs generalizing st first with
  | nil =>
    cases run
    refine ⟨by simp [Grown,listMarks],rfl,rfl,rfl,rfl,?_,id,rfl⟩
    intro ss points
    rwa [map_nil,append_nil]
  | cons v _ ih =>
    obtain ⟨one,appended,run⟩ := bindDone run
    obtain ⟨grown,same⟩ := appendDone appended
    rw [flatten_singleton] at grown
    split at run
    · cases run
    · cases run
    rename_i stored
    obtain ⟨inside,written⟩ := storedText stored
    obtain ⟨_,pushed,run⟩ := bindDone run
    cases pushDone pushed
    obtain ⟨rest,step⟩ := ih run
    obtain ⟨q,b⟩ := one
    dsimp only at same grown inside written rest step
    subst same written
    refine ⟨grownTrans grown rest,step.bindVars,step.bindIx,step.betweenStrings,step.conditionsForBindIx,?_,?_,?_⟩
    · intro _ points
      rw [map_cons,append_cons]
      refine step.points _ (rel_append ?_ ?_)
      · refine List.Forall₂.imp ?_ points
        intro p _ held
        refine pointsKept held (fun _ _ => rfl) (le_refl _) ?_ ?_ rfl
        · intro i below
          exact storedBelow below
        · exact le_succ_of_le (le_add_right _ _)
      · refine .cons ⟨_,rfl,storedHolds _ _ v,?_⟩ .nil
        have short := keptLength v
        dsimp only
        omega
    · intro _
      exact step.inStrIx (by dsimp only; omega)
    · have rest := step.advanced
      simp only [stringsExtent,map_cons,sum_cons] at rest ⊢
      omega

theorem listMarksText (vs) : listMarks true vs = placeholders vs.length := by
  have later : ∀ vs, listMarks false vs = (replicate vs.length (lit ", ?")).flatten := by
    intro vs
    induction vs with
    | nil => rfl
    | cons v vs ih =>
      rw [listMarks,ih]
      rfl
  cases vs with
  | nil => rfl
  | cons v _ =>
    rw [listMarks,later]
    rfl

structure BetweenStep (b b' : Binds) (ix : Nat) (vs : List Text) : Prop where
  same : b' = { b with cllBindVars := b'.cllBindVars, betweenStrings := storeAll b.betweenStrings ix vs }
  points : b'.cllBindVars = b.cllBindVars ++ (boundedSlots ix vs).map (fun slot => match slot with
    | .bounded i _ => BindPtr.betweenString i
    | _ => .dangling)
  fits : ix ≤ MAX_SQL_SIZE_GQ → ix+stringsExtent vs ≤ MAX_SQL_SIZE_GQ

def betweenMarks : Bool → List Text → Text
  | _,[] => []
  | first,_::vs => (if first then lit "?" else lit " AND ? ") ++ betweenMarks false vs

theorem addBetweenStringsDone
    (run : addBetweenStrings st ix first vs = .done st') :
    Grown st.q st'.q (betweenMarks first vs) ∧ BetweenStep st.b st'.b ix vs := by
  induction vs generalizing st ix first with
  | nil =>
    cases run
    exact ⟨by simp [Grown,betweenMarks],rfl,by simp [boundedSlots],id⟩
  | cons v _ ih =>
    obtain ⟨one,appended,run⟩ := bindDone run
    obtain ⟨grown,same⟩ := appendDone appended
    rw [flatten_singleton] at grown
    split at run
    · cases run
    · cases run
    rename_i stored
    obtain ⟨inside,written⟩ := storedText stored
    have short : v.length < MAX_SQL_SIZE_GQ := by omega
    obtain ⟨_,pushed,run⟩ := bindDone run
    cases pushDone pushed
    obtain ⟨rest,step⟩ := ih run
    obtain ⟨q,b⟩ := one
    rw [storedShort short] at written
    subst same written
    refine ⟨grownTrans grown rest,?_,?_,?_⟩
    · exact step.same
    · rw [step.points]
      simp [boundedSlots]
    · have rest := step.fits inside
      simp only [stringsExtent,map_cons,sum_cons] at rest ⊢
      omega

theorem inListDone {part} (run : addInClauseToWhereForIn st part = .done st') :
    Grown st.q st'.q (lit " IN (" ++ placeholders (quoted part).length ++ lit ")") ∧ quoted part ≠ [] ∧
      InStep st.b st'.b (quoted part) := by
  obtain ⟨_,opened,run⟩ := bindDone run
  obtain ⟨_,added,run⟩ := bindDone run
  obtain ⟨_,closed,run⟩ := bindDone run
  split at run
  · cases run
  rename_i some
  cases run
  obtain ⟨grownOne,sameOne⟩ := appendDone opened
  obtain ⟨grownTwo,step⟩ := addInStringsDone added
  obtain ⟨grownThree,sameThree⟩ := appendDone closed
  rw [listMarksText] at grownTwo
  rw [sameThree]
  rw [sameOne] at step
  refine ⟨grownTrans (grownTrans grownOne grownTwo) grownThree,?_,step⟩
  intro empty
  exact some (isEmpty_iff.mpr empty)

theorem betweenDone {part} (run : addBetweenClauseToWhere st part = .done st') :
    Grown st.q st'.q (lit " BETWEEN ? AND ? ") ∧ (quoted part).length = 2 ∧ BetweenStep st.b st'.b 0 (quoted part) := by
  obtain ⟨_,opened,run⟩ := bindDone run
  obtain ⟨_,added,run⟩ := bindDone run
  split at run
  · rename_i pair
    cases run
    obtain ⟨grownOne,sameOne⟩ := appendDone opened
    obtain ⟨grownTwo,step⟩ := addBetweenStringsDone added
    rw [sameOne] at step
    refine ⟨?_,pair,step⟩
    obtain ⟨a,b,same⟩ := length_eq_two.mp pair
    rw [same] at grownTwo
    exact grownTrans grownOne grownTwo
  · cases run

def clearedBy (b : Binds) (p : BindPtr) : BindPtr := if b.resetVector then p.cleared else p

variable {s : Setup}

theorem parentOfDone {v} (run : addInClauseToWhereForParentOf s st v = .done st') :
    Grown st.q st'.q (lit " IN (" ++ placeholders (parentPaths (s.split v)).length ++ lit ")") ∧
      st'.b = { st.b with
        inStringVec := parentPaths (s.split v)
        resetVector := true
        cllBindVars := st.b.cllBindVars.map (clearedBy st.b) ++ (range (parentPaths (s.split v)).length).map .parent
        unused := nofun } := by
  obtain ⟨q,b⟩ := st
  have empty : (if b.resetVector then [] else b.inStringVec) = [] := by
    split
    · rfl
    · rename_i never
      exact b.unused (by simpa using never)
  have bound : (if b.resetVector then b.cllBindVars.map BindPtr.cleared else b.cllBindVars) =
      b.cllBindVars.map (clearedBy b) := by
    unfold clearedBy
    split <;> simp
  unfold addInClauseToWhereForParentOf at run
  simp only [empty,bound,nil_append] at run
  obtain ⟨_,appended,run⟩ := bindDone run
  obtain ⟨grown,same⟩ := appendDone appended
  rw [flatten_singleton] at grown
  split at run
  · cases run
  · cases run
    exact ⟨grown,by rw [same]⟩

def withPlain (b : Binds) (v : Text) : Binds :=
  { b with bindVars := store b.bindVars (b.bindIx+1) v, bindIx := b.bindIx+1+v.length+1 }

theorem plainPoints {b v p} (held : Points b p slot) :
    Points (withPlain b v) p slot := by
  refine pointsKept held ?_ (by simp only [withPlain]; omega) (fun _ _ => rfl) (le_refl _) rfl
  intro i _
  exact writeOutside (by omega)

theorem plainHeld (b v) : Points (withPlain b v) (.bindVar (b.bindIx+1)) (.plain v) :=
  ⟨b.bindIx+1,rfl,storeHolds _ _ _,by simp only [withPlain]; omega⟩

theorem storeAllAgree {P : Nat → Prop} (same : ∀ i, P i → m i = m' i) :
    ∀ i, P i ∨ (ix ≤ i ∧ i < ix+stringsExtent vs) → storeAll m ix vs i = storeAll m' ix vs i := by
  induction vs generalizing P m m' ix with
  | nil =>
    rintro i (held | inside)
    · exact same i held
    · simp only [stringsExtent,map_nil,sum_nil] at inside
      omega
  | cons v _ ih =>
    have one : ∀ i, (P i ∨ (ix ≤ i ∧ i < ix+v.length+1)) → store m ix v i = store m' ix v i := by
      intro i position
      unfold store
      by_cases inside : ix ≤ i ∧ i < ix+v.length+1
      · obtain ⟨j,rfl⟩ := Nat.exists_eq_add_of_le inside.1
        have room : j < (v ++ [NUL]).length := by simp; omega
        rw [writeInside _ room,writeInside _ room]
      · rw [writeOutside (by simp; omega),writeOutside (by simp; omega)]
        exact same i (position.resolve_right inside)
    intro i position
    refine ih one i ?_
    simp only [stringsExtent,map_cons,sum_cons] at position ⊢
    rcases position with held | inside
    · exact .inl (.inl held)
    by_cases first : i < ix+v.length+1
    · exact .inl (.inr ⟨inside.1,first⟩)
    · exact .inr (by omega)

section
variable {s : Setup} {n b fs} (tracks : Tracks s n b fs)
include tracks

theorem inListTracks {b'} (step : InStep b b' vs) : Tracks s n b' (fs ++ [.inList vs]) where
  points := by
    rw [slotsAppend]
    exact step.points _ tracks.points
  between := by
    rw [extentAppend,replayAppend,step.betweenStrings]
    simpa [formExtent,replayForm] using tracks.between
  room := by
    rw [extentAppend]
    simpa [formExtent] using tracks.room
  bindIx := by rw [step.bindIx]; exact tracks.bindIx
  inStrIx := step.inStrIx tracks.inStrIx

theorem betweenTracks {b'} (step : BetweenStep b b' 0 vs) : Tracks s n b' (fs ++ [.between vs]) where
  points := by
    rw [slotsAppend,step.points]
    refine rel_append ?_ ?_
    · refine List.Forall₂.imp ?_ tracks.points
      intro p slot held
      rw [step.same]
      exact pointsKept held (fun _ _ => rfl) (le_refl _) (fun _ _ => rfl) (le_refl _) rfl
    · have each : ∀ ix vs, List.Forall₂ (Points b') ((boundedSlots ix vs).map fun slot => match slot with
          | .bounded i _ => BindPtr.betweenString i
          | _ => .dangling) (boundedSlots ix vs) := by
        intro ix vs
        induction vs generalizing ix with
        | nil => exact .nil
        | cons v vs ih => exact .cons rfl (ih _)
      exact each 0 vs
  between := by
    rw [extentAppend,replayAppend,step.same]
    intro i below
    refine storeAllAgree tracks.between i ?_
    simp only [formExtent] at below
    omega
  room := by
    rw [extentAppend]
    have fits := step.fits (zero_le _)
    have room := tracks.room
    simp only [formExtent]
    omega
  bindIx := by rw [step.same]; exact tracks.bindIx
  inStrIx := by rw [step.same]; exact tracks.inStrIx

theorem sameTracks {f} (nothing : formSlots s f = []) (other : isParent f = false) (keeps : ∀ m, replayForm m f = m)
    (flat : formExtent f = 0) :
    Tracks s n b (fs ++ [f]) where
  points := by
    rw [slotsAppend,addSlots,other,nothing]
    simpa using tracks.points
  between := by
    rw [extentAppend,replayAppend,flat,keeps,Nat.max_zero]
    exact tracks.between
  room := by
    rw [extentAppend,flat,Nat.max_zero]
    exact tracks.room
  bindIx := tracks.bindIx
  inStrIx := tracks.inStrIx

theorem plainTracks {f v} (one : formSlots s f = [.plain v]) (other : isParent f = false)
    (keeps : ∀ m, replayForm m f = m)
    (flat : formExtent f = 0) (room : (withPlain b v).bindIx ≤ MAX_SQL_SIZE_GQ+90) :
    Tracks s n { withPlain b v with cllBindVars := b.cllBindVars ++ [.bindVar (b.bindIx+1)] } (fs ++ [f]) where
  points := by
    rw [slotsAppend,addSlots,other,one]
    refine rel_append ?_ (.cons (plainHeld b v) .nil)
    refine List.Forall₂.imp ?_ tracks.points
    intro p _ held
    exact pointsKept (plainPoints held) (fun _ _ => rfl) (Nat.le_refl _) (fun _ _ => rfl) (Nat.le_refl _) rfl
  between := by
    rw [extentAppend,replayAppend,flat,keeps,Nat.max_zero]
    exact tracks.between
  room := by
    rw [extentAppend,flat,Nat.max_zero]
    exact tracks.room
  bindIx := room
  inStrIx := tracks.inStrIx

end

theorem pointsCleared {b b' p} (held : Points b p slot) (vars : b'.bindVars = b.bindVars)
    (bindIx : b'.bindIx = b.bindIx) (strings : b'.inStrings = b.inStrings) (inStrIx : b'.inStrIx = b.inStrIx) :
    Points b' (clearedBy b p) slot.cleared := by
  unfold clearedBy
  cases slot with
  | leftover => trivial
  | plain v =>
    obtain ⟨i,rfl,holds,below⟩ := held
    exact ⟨i,by split <;> rfl,vars ▸ holds,bindIx ▸ below⟩
  | listed v =>
    obtain ⟨i,rfl,holds,below⟩ := held
    exact ⟨i,by split <;> rfl,strings ▸ holds,inStrIx ▸ below⟩
  | bounded _ v =>
    cases held
    split <;> rfl
  | parent i v =>
    obtain ⟨rfl,there⟩ := held
    split
    · rfl
    rename_i never
    rw [b.unused (by simpa using never)] at there
    cases there
  | destroyed v =>
    cases held
    split <;> rfl

theorem parentOfTracks {n b fs v} (tracks : Tracks s n b fs)
    (room : (withPlain b v).bindIx ≤ MAX_SQL_SIZE_GQ+90) :
    Tracks s n { withPlain b v with
      inStringVec := parentPaths (s.split v)
      resetVector := true
      cllBindVars := b.cllBindVars.map (clearedBy b) ++ (range (parentPaths (s.split v)).length).map .parent
      unused := nofun } (fs ++ [.parentOf v]) where
  points := by
    rw [slotsAppend,addSlots,isParent,if_pos rfl]
    refine rel_append ?_ ?_
    · rw [forall₂_map_left_iff,forall₂_map_right_iff]
      refine List.Forall₂.imp ?_ tracks.points
      intro p _ held
      exact pointsCleared (b := withPlain b v) (plainPoints held) rfl rfl rfl rfl
    · rw [formSlots,forall₂_iff_get]
      simp [Points]
  between := by
    rw [extentAppend,replayAppend]
    simp only [formExtent,Nat.max_zero]
    exact tracks.between
  room := by
    rw [extentAppend]
    simpa [formExtent] using tracks.room
  bindIx := room
  inStrIx := tracks.inStrIx

def bindExtent : Form → Nat
  | .beginOf v => v.length+2
  | .parentOf v => v.length+2
  | .comparison _ v => v.length+2
  | _ => 0

def inExtent : Form → Nat
  | .inList vs => stringsExtent vs
  | _ => 0

structure PartStep (s : Setup) (st st' : State) (f : Form) : Prop where
  grown : Grown st.q st'.q (f.fragment s st.q.whereSQL)
  accepted : f.Accepted
  tracks : ∀ n fs, Tracks s n st.b fs → Tracks s n st'.b (fs ++ [f])
  bindIx : st'.b.bindIx = st.b.bindIx+bindExtent f
  inStrIx : st'.b.inStrIx = st.b.inStrIx+inExtent f
  conditionsForBindIx : st'.b.conditionsForBindIx = st.b.conditionsForBindIx

theorem operatorDone {head v b p}
    (pushed : st.b = { withPlain b v with cllBindVars := b.cllBindVars ++ [p] }) (position : p = .bindVar (b.bindIx+1))
    (room : (withPlain b v).bindIx ≤ MAX_SQL_SIZE_GQ+90) (checked : checkCondition (' '::head) = 0)
    (run : appendOperator s st head v = .done st') :
    PartStep s ⟨st.q,b⟩ st' (if (strstr (' '::head) (lit "begin_of")).isSome then .beginOf v
      else if (strstr (' '::head) (lit "parent_of")).isSome then .parentOf v else .comparison head v) := by
  subst position
  have bindIx : st.b.bindIx = b.bindIx+(v.length+2) := by
    rw [pushed]
    simp only [withPlain]
    omega
  have inStrIx : st.b.inStrIx = b.inStrIx := by rw [pushed]; rfl
  have condIx : st.b.conditionsForBindIx = b.conditionsForBindIx := by rw [pushed]; rfl
  unfold appendOperator at run
  split at run
  · rename_i begins
    rw [if_pos begins]
    obtain ⟨grown,same⟩ := appendDone run
    refine ⟨?_,trivial,?_,by rw [same]; exact bindIx,by rw [same]; exact inStrIx,by rw [same]; exact condIx⟩
    · simpa [Form.fragment] using grown
    intro n fs tracks
    rw [same,pushed]
    exact plainTracks tracks rfl rfl (fun _ => rfl) rfl room
  · rename_i begins
    rw [if_neg begins]
    split at run
    · rename_i parents
      rw [if_pos parents]
      obtain ⟨grown,same⟩ := parentOfDone run
      refine ⟨grown,trivial,?_,by rw [same]; exact bindIx,by rw [same]; exact inStrIx,by rw [same]; exact condIx⟩
      intro n fs tracks
      have stepped := parentOfTracks tracks room
      rw [same]
      simp only [pushed,dropLast_concat]
      exact stepped
    · rename_i parents
      rw [if_neg parents]
      obtain ⟨grown,same⟩ := appendDone run
      rw [flatten_singleton] at grown
      refine ⟨grown,checked,?_,by rw [same]; exact bindIx,by rw [same]; exact inStrIx,by rw [same]; exact condIx⟩
      intro n _ tracks
      rw [same,pushed]
      exact plainTracks tracks rfl rfl (fun _ => rfl) rfl room

theorem insertWhereDone {part} (run : insertWhere s st part = .done st') :
    PartStep s st st' (formOf part) := by
  unfold insertWhere at run
  unfold formOf
  split at run
  · rename_i isIn
    rw [if_pos isIn]
    obtain ⟨grown,some,step⟩ := inListDone run
    exact ⟨grown,some,fun n fs tracks => inListTracks tracks step,step.bindIx,step.advanced,step.conditionsForBindIx⟩
  rename_i isIn
  rw [if_neg isIn]
  split at run
  · rename_i isBetween
    rw [if_pos isBetween]
    obtain ⟨grown,pair,step⟩ := betweenDone run
    exact ⟨grown,pair,fun n fs tracks => betweenTracks tracks step,by rw [step.same]; rfl,by rw [step.same]; rfl,
        by rw [step.same]⟩
  rename_i isBetween
  rw [if_neg isBetween]
  split at run
  · rename_i null
    obtain ⟨grown,same⟩ := appendDone run
    have stays : ∀ negated n fs, Tracks s n st.b fs → Tracks s n st'.b (fs ++ [.nullTest negated]) := by
      intro _ n _ tracks
      rw [same]
      exact sameTracks tracks rfl rfl (fun _ => rfl) rfl
    rcases null with rfl | rfl
    · exact ⟨grown,trivial,stays false,congrArg bindIx same,congrArg inStrIx same,congrArg conditionsForBindIx same⟩
    · exact ⟨grown,trivial,stays true,congrArg bindIx same,congrArg inStrIx same,congrArg conditionsForBindIx same⟩
  rename_i null
  rw [if_neg fun same => null (.inl same),if_neg fun same => null (.inr same)]
  cases found : firstToLast part with
  | none =>
    simp only [found] at run
    cases run
  | some pair =>
    obtain ⟨_,v⟩ := pair
    simp only [found] at run
    split at run
    · cases run
    obtain ⟨_,pushed,run⟩ := bindDone run
    split at run
    · cases run
    split at run
    · cases run
    obtain ⟨_,appended,run⟩ := bindDone run
    split at run
    · rename_i checked
      cases run
      have same := pushDone pushed
      have room : (withPlain st.b v).bindIx ≤ MAX_SQL_SIZE_GQ+90 := by
        simp only [withPlain]
        omega
      have step := operatorDone (congrArg State.b same) rfl room checked appended
      rwa [same] at step
    · cases run

structure PartsStep (s : Setup) (st st' : State) (w' : Text) (fs : List Form) : Prop where
  query : st'.q = { st.q with whereSQL := w' }
  accepted : ∀ f ∈ fs, f.Accepted
  tracks : ∀ n gs, Tracks s n st.b gs → Tracks s n st'.b (gs ++ fs)

theorem insertPartsDone {tabAndColumn} {ps}
    (run : insertParts s tabAndColumn st ps = .done st') :
    PartsStep s st st' (addParts s tabAndColumn st.q.whereSQL ps) (ps.map fun p => formOf p.1) := by
  induction ps generalizing st with
  | nil =>
    cases run
    exact ⟨rfl,by simp,fun n gs tracks => by simpa using tracks⟩
  | cons p _ ih =>
    obtain ⟨_,column,run⟩ := bindDone run
    split at run
    · cases run
    obtain ⟨_,inserted,run⟩ := bindDone run
    obtain ⟨_,connected,run⟩ := bindDone run
    have rest := ih run
    have part := insertWhereDone inserted
    obtain ⟨grownOne,sameOne⟩ := appendDone column
    obtain ⟨grownThree,sameThree⟩ := appendDone connected
    rw [flatten_singleton] at grownOne grownThree
    have grownTwo := part.grown
    refine ⟨?_,?_,?_⟩
    · rw [rest.query,grownThree,grownTwo,grownOne]
      rfl
    · simpa using ⟨part.accepted,by simpa using rest.accepted⟩
    intro n gs tracks
    rw [map_cons,append_cons]
    refine rest.tracks n _ ?_
    rw [sameThree]
    have tracked := part.tracks n gs (by rw [sameOne]; exact tracks)
    refine ⟨?_,tracked.between,tracked.room,tracked.bindIx,tracked.inStrIx⟩
    refine List.Forall₂.imp ?_ tracked.points
    intro p _ held
    exact pointsKept held (fun _ _ => rfl) (le_refl _) (fun _ _ => rfl) (le_refl _) rfl

theorem compoundDone {condition prevWhereLen}
    (run : handleCompoundCondition s st condition prevWhereLen = .done st') :
    PartsStep s st st' (addCompound s st.q.whereSQL condition prevWhereLen)
      (((compoundParts condition.length condition).1.map Prod.fst ++
        [(compoundParts condition.length condition).2]).map formOf) := by
  obtain ⟨_,opened,run⟩ := bindDone run
  split at run
  · cases run
  obtain ⟨_,inserted,run⟩ := bindDone run
  obtain ⟨_,column,run⟩ := bindDone run
  obtain ⟨_,last,closed⟩ := bindDone run
  have parts := insertPartsDone inserted
  have part := insertWhereDone last
  obtain ⟨grownOne,sameOne⟩ := appendDone opened
  obtain ⟨grownThree,sameThree⟩ := appendDone column
  obtain ⟨grownFive,sameFive⟩ := appendDone closed
  rw [flatten_singleton] at grownOne grownThree grownFive
  have grownFour := part.grown
  refine ⟨?_,?_,?_⟩
  · rw [grownFive,grownFour,grownThree,parts.query,grownOne]
    rfl
  · intro f mem
    rw [map_append,map_map] at mem
    rcases mem_append.mp mem with early | final
    · exact parts.accepted f early
    · rw [mem_singleton.mp final]
      exact part.accepted
  · intro n gs tracks
    rw [map_append,map_map,← append_assoc,sameFive]
    refine part.tracks n _ ?_
    rw [sameThree]
    refine parts.tracks n gs ?_
    rw [sameOne]
    exact tracks

theorem insertConditionDone {condition prevWhereLen}
    (run : insertCondition s st condition prevWhereLen = .done st') :
    PartsStep s st st' (addConditionText s st.q.whereSQL condition prevWhereLen) ((partsOf condition).map formOf) := by
  unfold insertCondition at run
  unfold addConditionText partsOf
  split at run
  · rename_i compound
    rw [if_pos compound,if_pos compound]
    exact compoundDone run
  · rename_i compound
    rw [if_neg compound,if_neg compound]
    have part := insertWhereDone run
    exact ⟨part.grown,by simpa using part.accepted,part.tracks⟩

end Irods.GenQuery1Tracks
