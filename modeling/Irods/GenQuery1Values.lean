import Irods.GenQuery1Client

/-! The values the database is given: what each slot is read back as, and when that is the operand
it was made from. -/
namespace Irods.GenQuery1Values
open CText StringOpr StaticMemory GenQuery1Setup GenQuery1Tables GenQuery1Conditions GenQuery1Generate GenQuery1Forms
    List Nat
  GenQuery1Tracks

def slotValue (m : Memory) : Slot → Option Text
  | .leftover => none
  | .plain v => some v
  | .listed v => some (kept v)
  | .bounded ix _ => some (fetch m (MAX_SQL_SIZE_GQ-ix) ix)
  | .parent _ v => some v
  | .destroyed _ => none

def storedTexts : Form → List Text
  | .inList vs => vs
  | .between vs => vs
  | .beginOf v => [v]
  | .parentOf v => [v]
  | .comparison _ v => [v]
  | _ => []

def NulFree (fs : List Form) : Prop := ∀ f ∈ fs, ∀ v ∈ storedTexts f, NUL ∉ v

theorem quotedFromChars {c unclosed t v} (mem : v ∈ quotedFrom unclosed t) (inside : c ∈ v) :
    c ∈ t ∨ ∃ u, unclosed = some u ∧ c ∈ u := by
  induction t generalizing unclosed with
  | nil => cases unclosed <;> cases mem
  | cons d t ih =>
    cases unclosed with
    | none =>
      rw [quotedFrom] at mem
      split at mem
      · rcases ih mem with later | ⟨u,same,here⟩
        · exact .inl (mem_cons_of_mem _ later)
        · cases same
          cases here
      · rcases ih mem with later | ⟨u,same,here⟩
        · exact .inl (mem_cons_of_mem _ later)
        · cases same
    | some u =>
      rw [quotedFrom] at mem
      split at mem
      · rcases mem_cons.mp mem with rfl | later
        · exact .inr ⟨v,rfl,inside⟩
        rcases ih later with there | ⟨w,same,here⟩
        · exact .inl (mem_cons_of_mem _ there)
        · cases same
      · rcases ih mem with later | ⟨w,same,here⟩
        · exact .inl (mem_cons_of_mem _ later)
        cases same
        rcases mem_append.mp here with old | new
        · exact .inr ⟨u,rfl,old⟩
        · rw [mem_singleton.mp new]
          exact .inl mem_cons_self

theorem quotedChars {c t v} (mem : v ∈ quoted t) (inside : c ∈ v) : c ∈ t := by
  rcases quotedFromChars mem inside with here | ⟨u,same,-⟩
  · exact here
  · cases same

theorem firstToLastChars {c t head v} (found : firstToLast t = some (head,v)) :
    (c ∈ v → c ∈ t) ∧ (c ∈ head → c ∈ t) := by
  unfold firstToLast at found
  dsimp only at found
  split at found
  · cases found
    refine ⟨fun mem => ?_,fun mem => ( takeWhile_prefix _).subset mem⟩
    have one := (dropWhile_suffix _).subset (mem_of_mem_tail (mem_reverse.mp mem))
    exact (dropWhile_suffix _).subset (mem_of_mem_tail (mem_reverse.mp one))
  · cases found

theorem formTexts {c part v} (mem : v ∈ storedTexts (formOf part)) (inside : c ∈ v) : c ∈ part := by
  unfold formOf at mem
  split at mem
  · exact quotedChars mem inside
  split at mem
  · exact quotedChars mem inside
  split at mem
  · cases mem
  split at mem
  · cases mem
  split at mem
  · cases mem
  rename_i w found
  have chars := (firstToLastChars (c := c) found).1
  have only : v = w := by
    split at mem
    · exact mem_singleton.mp mem
    split at mem <;> exact mem_singleton.mp mem
  exact chars (only ▸ inside)

theorem compoundChars {c n t} :
    (∀ p ∈ (compoundParts n t).1, c ∈ p.1 → c ∈ t) ∧ (c ∈ (compoundParts n t).2 → c ∈ t) := by
  induction n generalizing t with
  | zero => exact ⟨fun p mem => (not_mem_nil mem).elim,id⟩
  | succ n ih =>
    rw [compoundParts]
    split
    · exact ⟨fun p mem => (not_mem_nil mem).elim,id⟩
    rename_i k _
    obtain ⟨early,last⟩ := ih
    refine ⟨?_,fun mem => mem_of_mem_drop (last mem)⟩
    intro p mem inside
    rcases mem_cons.mp mem with rfl | later
    · exact mem_of_mem_take inside
    · exact mem_of_mem_drop (early p later inside)

theorem partChars {c condition part} (mem : part ∈ partsOf condition) (inside : c ∈ part) : c ∈ condition := by
  unfold partsOf at mem
  split at mem
  · rcases mem_append.mp mem with early | last
    · obtain ⟨p,there,rfl⟩ := mem_map.mp early
      exact compoundChars.1 p there inside
    · rw [mem_singleton.mp last] at inside
      exact compoundChars.2 inside
  · rwa [mem_singleton.mp mem] at inside

theorem effectiveChars {c condition} (other : c ≠ ' ') (mem : c ∈ effectiveCondition condition) : c ∈ condition := by
  unfold effectiveCondition clearCast at mem
  split at mem
  · rcases mem_append.mp mem with blank | rest
    · exact ( takeWhile_prefix _).subset blank
    rcases mem_cons.mp rest with same | tail
    · contradiction
    · exact (dropWhile_suffix _).subset (mem_of_mem_tail tail)
  · exact mem

theorem formsNulFree (inp : GenQueryInp) : NulFree (conditionForms inp.conditions) := by
  intro f mem v text nul
  obtain ⟨c,there,rest⟩ := mem_flatMap.mp mem
  obtain ⟨_,inParts,rfl⟩ := mem_map.mp rest
  exact inp.nulFree c there (effectiveChars (by decide) (partChars inParts (formTexts text nul)))

theorem storeAllOutside {m ix i vs} (out : i < ix ∨ ix+stringsExtent vs ≤ i) :
    storeAll m ix vs i = m i := by
  induction vs generalizing m ix with
  | nil => rfl
  | cons v vs ih =>
    simp only [stringsExtent,map_cons,sum_cons] at out
    have rest : (vs.map fun v => v.length+1).sum = stringsExtent vs := rfl
    rw [storeAll,ih (by omega),store,writeOutside (by simp only [length_append,length_singleton]; omega)]

theorem storeAllEnd (m ix) {vs} (some : vs ≠ []) :
    storeAll m ix vs (ix+stringsExtent vs-1) = NUL := by
  induction vs generalizing m ix with
  | nil => contradiction
  | cons v vs ih =>
    cases vs with
    | nil =>
      have held := storeHolds m ix v v.length (le_refl _)
      simp only [storeAll,stringsExtent,map_cons,map_nil,sum_cons,sum_nil]
      rw [show ix+(v.length+1+0)-1 = ix+v.length by omega,held]
      simp
    | cons w _ =>
      have rest := @ih (store m ix v) (ix+v.length+1) (by simp)
      rw [storeAll]
      rw [← rest]
      congr 1
      simp only [stringsExtent,map_cons,sum_cons]
      omega

attribute [simp] formExtent replayForm

theorem replayEnd {fs} (accepted : ∀ f ∈ fs, f.Accepted) (some : 0 < extent fs) :
    replay fs (extent fs-1) = NUL := by
  induction fs using reverseRecOn with
  | nil => simp [extent] at some
  | append_singleton fs f ih =>
    have before := fun pos => ih (fun g mem => accepted g (mem_append_left _ mem)) pos
    rw [extentAppend] at some ⊢
    rw [replayAppend]
    cases f with
    | between vs =>
      have pair := accepted (.between vs) (by simp)
      have full : vs ≠ [] := by rintro rfl; cases pair
      simp only [formExtent,replayForm] at some ⊢
      by_cases longer : extent fs ≤ stringsExtent vs
      · have last := storeAllEnd (replay fs) 0 full
        rw [Nat.zero_add] at last
        rw [Nat.max_eq_right longer,last]
      · rw [Nat.max_eq_left (by omega),storeAllOutside (by omega)]
        exact before (by omega)
    | inList _ => simpa using before (by simpa using some)
    | nullTest _ => simpa using before (by simpa using some)
    | beginOf v => simpa using before (by simpa using some)
    | parentOf v => simpa using before (by simpa using some)
    | comparison _ v => simpa using before (by simpa using some)
    | malformed => simpa using before (by simpa using some)

theorem fetchAgree {m n size hi offset} (same : ∀ i < hi, m i = n i) (below : offset < hi)
    (ended : n (hi-1) = NUL) : fetch m size offset = fetch n size offset := by
  induction size generalizing offset with
  | zero => rfl
  | succ _ ih =>
    rw [fetch,fetch,same offset below]
    split
    · rfl
    rename_i more
    have next : offset+1 < hi := by
      by_contra last
      have position : offset = hi-1 := by omega
      exact more (position ▸ ended)
    rw [ih next]

def SlotOk (hi : Nat) : Slot → Prop
  | .plain v => NUL ∉ v
  | .listed v => NUL ∉ v
  | .bounded ix _ => ix < hi
  | _ => True

theorem slotOkCleared {hi slot} (ok : SlotOk hi slot) : SlotOk hi slot.cleared := by
  cases slot <;> exact ok

theorem slotOkMono {lo hi slot} (ok : SlotOk lo slot) (le : lo ≤ hi) : SlotOk hi slot := by
  cases slot with
  | bounded _ v => exact lt_of_lt_of_le ok le
  | _ => exact ok

theorem boundedBelow {ix vs} : ∀ slot ∈ boundedSlots ix vs, SlotOk (ix+stringsExtent vs) slot := by
  induction vs generalizing ix with
  | nil => exact fun slot mem => (not_mem_nil mem).elim
  | cons v vs ih =>
    intro slot mem
    have whole : ix+stringsExtent (v::vs) = ix+v.length+1+stringsExtent vs := by
      simp only [stringsExtent,map_cons,sum_cons]
      omega
    rcases mem_cons.mp mem with rfl | later
    · rw [whole]
      exact lt_of_lt_of_le (lt_succ_of_le (le_add_right _ _)) (le_add_right _ _)
    · rw [whole]
      exact ih slot later

theorem formSlotsOk {s f} (clean : ∀ v ∈ storedTexts f, NUL ∉ v) :
    ∀ slot ∈ formSlots s f, SlotOk (formExtent f) slot := by
  intro slot mem
  cases f with
  | inList vs =>
    obtain ⟨v,inside,rfl⟩ := mem_map.mp mem
    exact clean v inside
  | between _ =>
    have below := boundedBelow slot mem
    rwa [Nat.zero_add] at below
  | nullTest _ => cases mem
  | beginOf v =>
    rw [mem_singleton.mp mem]
    exact clean v (by simp [storedTexts])
  | parentOf v =>
    obtain ⟨p,-,rfl⟩ := mem_map.mp mem
    trivial
  | comparison _ v =>
    rw [mem_singleton.mp mem]
    exact clean v (by simp [storedTexts])
  | malformed => cases mem

theorem slotsOk {s fs} (clean : NulFree fs) : ∀ slot ∈ slots s 0 fs, SlotOk (extent fs) slot := by
  induction fs using reverseRecOn with
  | nil => exact fun slot mem => (not_mem_nil mem).elim
  | append_singleton _ f ih =>
    have before := ih fun g mem => clean g (mem_append_left _ mem)
    rw [slotsAppend,extentAppend]
    intro slot mem
    rcases mem_append.mp mem with old | new
    · refine slotOkMono ?_ (le_max_left _ _)
      split at old
      · obtain ⟨slot,inside,rfl⟩ := mem_map.mp old
        exact slotOkCleared (before slot inside)
      · exact before slot old
    · exact slotOkMono (formSlotsOk (clean f (by simp)) slot new) (le_max_right _ _)

theorem pointsValue {sess b hi m p slot} (points : Points b p slot)
    (ok : SlotOk hi slot) (known : slot ≠ .leftover) (same : ∀ i < hi, b.betweenStrings i = m i)
    (ended : 0 < hi → m (hi-1) = NUL)
    (bindIx : b.bindIx ≤ MAX_SQL_SIZE_GQ+90) (inStrIx : b.inStrIx ≤ MAX_SQL_SIZE_GQ*2) :
    deref sess b p = slotValue m slot := by
  cases slot with
  | leftover => contradiction
  | plain v =>
    obtain ⟨i,rfl,holds,below⟩ := points
    rw [deref,slotValue,fetchHolds holds ok (by omega)]
  | listed v =>
    obtain ⟨i,rfl,holds,_⟩ := points
    have free : NUL ∉ kept v := by
      unfold kept
      split
      · exact ok
      · exact not_mem_nil
    rw [deref,slotValue,fetchHolds holds free (by omega)]
  | bounded _ v =>
    cases points
    rw [deref,slotValue,fetchAgree same ok (ended (zero_lt_of_lt ok))]
  | parent i v =>
    obtain ⟨rfl,there⟩ := points
    exact there
  | destroyed v =>
    cases points
    rfl

theorem noLeftover (s fs) : Slot.leftover ∉ slots s 0 fs := by
  have own : ∀ f, Slot.leftover ∉ formSlots s f := by
    intro f mem
    have bounded : ∀ vs ix, Slot.leftover ∉ boundedSlots ix vs := by
      intro vs
      induction vs with
      | nil => exact fun ix => not_mem_nil
      | cons v _ ih => simpa [boundedSlots] using fun ix => ih _
    cases f <;> simp [formSlots,bounded] at mem
  induction fs using reverseRecOn with
  | nil => exact not_mem_nil
  | append_singleton _ f ih =>
    rw [slotsAppend]
    intro mem
    rcases mem_append.mp mem with old | new
    · split at old
      · obtain ⟨slot,inside,same⟩ := mem_map.mp old
        cases slot <;> cases same
        exact ih inside
      · exact ih old
    · exact own f new

theorem trackedValues {s} (sess) {b fs} (tracks : Tracks s 0 b fs)
    (accepted : ∀ f ∈ fs, f.Accepted) (clean : NulFree fs) :
    b.cllBindVars.map (deref sess b) = (slots s 0 fs).map (slotValue (replay fs)) := by
  have ok := slotsOk (s := s) clean
  have none := noLeftover s fs
  have points := tracks.points
  generalize slots s 0 fs = ss at ok none points
  generalize b.cllBindVars = ps at points
  induction points with
  | nil => rfl
  | @cons p slot _ _ held _ ih =>
    have here := ok slot mem_cons_self
    have known : slot ≠ .leftover := fun same => none (same ▸ mem_cons_self)
    rw [map_cons,ih (forall_mem_cons.mp ok).2 fun mem => none (mem_cons_of_mem _ mem)]
    congr 1
    exact pointsValue held here known tracks.between (replayEnd accepted) tracks.bindIx tracks.inStrIx

end Irods.GenQuery1Values
