import Irods.DelayExclusion

/-! When rules are run. The query looks at the time of a rule and the lock statement does not; between
the two the rule may have been run and put off by another thread. -/
namespace Irods.DelayServer
open CText RepeatTime List Option Prod
open ReplicaStateTable (decimalText decimalDigits digitChars)

def secondsOf (a : Text) : Int := leadingInteger a

def standing (id : Nat) : List Event → Option (Bool × Text)
  | [] => none
  | .queried _ rows::before =>
    match rows.lookup id with
    | some x => some (false,x)
    | none => standing id before
  | .cleared _ i x::before => if i = id then (standing id before).map (fun _ => (true,x)) else standing id before
  | .changed i x::before => if i = id then (standing id before).map (fun _ => (true,x)) else standing id before
  | .locked _ _ _ _::before => standing id before
  | .started _ _::before => standing id before
  | .deleted _ _::before => standing id before

structure Lock where
  id : Nat
  exeTime : Text
  time : Int
  before : List Event
  deriving DecidableEq, Repr

def lockOf (e : Executor) : List Event → Option Lock
  | [] => none
  | .locked e' id x t::before => if e' = e then some ⟨id,x,t,before⟩ else lockOf e before
  | .queried _ _::before => lockOf e before
  | .cleared _ _ _::before => lockOf e before
  | .changed _ _::before => lockOf e before
  | .started _ _::before => lockOf e before
  | .deleted _ _::before => lockOf e before

def EachStart (good : Lock → Prop) : List Event → Prop
  | [] => True
  | .started e id::before => (∃ l, lockOf e before = some l ∧ l.id = id ∧ good l) ∧ EachStart good before
  | .queried _ _::before => EachStart good before
  | .locked _ _ _ _::before => EachStart good before
  | .cleared _ _ _::before => EachStart good before
  | .changed _ _::before => EachStart good before
  | .deleted _ _::before => EachStart good before

def OnTime (events : List Event) : Prop := EachStart (fun l => secondsOf l.exeTime ≤ l.time) events

def Seen (id : Nat) (x : Text) (t : Int) (events : List Event) : Prop :=
  ∃ time rows, .queried time rows ∈ events ∧ (id,x) ∈ rows ∧ time ≤ t ∧ textLe x (decimalText time) = true

def Sound (l : Lock) : Prop :=
  ∃ written, standing l.id l.before = some (written,l.exeTime) ∧ (written = false → Seen l.id l.exeTime l.time l.before)

structure Timely (w : World) (events : List Event) : Prop where
  unique : (w.catalog.map Row.id).Nodup
  ahead : ∀ id, w.nextId ≤ id → Absent w.catalog id ∧ standing id events = none
  found : ∀ id, w.pending id → ∃ b x, standing id events = some (b,x)
  current : ∀ row ∈ w.catalog, ∀ b x, standing row.id events = some (b,x) → row.cells .exeTime = x
  asked : ∀ s t, (w.servers s).main = .asked t → t ≤ w.now
  seen : ∀ id x, standing id events = some (false,x) → Seen id x w.now events
  begun : ∀ e id, (w.phase e).begun = some id → ∃ l, lockOf e events = some l ∧ l.id = id ∧ Sound l
  started : EachStart Sound events

theorem seenLater {id x t t' events} (new) (later : t ≤ t') (seen : Seen id x t events) :
    Seen id x t' (new ++ events) := by
  obtain ⟨time,rows,mem,row,bound,due⟩ := seen
  exact ⟨time,rows,mem_append_right _ mem,row,le_trans bound later,due⟩

theorem timesAbsent {c c'} (ids : (c'.map Row.id).Sublist (c.map Row.id)) {id} (absent : Absent c id) :
    Absent c' id := by
  intro _ mem same
  obtain ⟨old,inside,eq⟩ := mem_map.mp (ids.subset (mem_map_of_mem mem))
  exact absent old inside (eq.trans same)

theorem exeTimeFound {w events} (inv : Timely w events) {row} (mem : row ∈ w.catalog) :
    exeTimeOf w.catalog row.id = row.cells .exeTime := by
  unfold exeTimeOf
  cases found : w.catalog.find? (·.id = row.id) with
  | none => exact absurd (decide_eq_true rfl) (find?_eq_none.mp found row mem)
  | some _ =>
    have hit := find?_some found
    have same := inj_on_of_nodup_map inv.unique (mem_of_find?_eq_some found) mem (of_decide_eq_true hit)
    rw [same]
    rfl

theorem lookupMap (order : List Nat) (f : Nat → Text) (id) :
    (order.map fun i => (i,f i)).lookup id = if id ∈ order then some (f id) else none := by
  induction order with
  | nil => rfl
  | cons i _ ih =>
    rw [map_cons,lookup_cons,ih]
    by_cases same : id = i
    · subst same
      simp
    · have other := beq_false_of_ne same
      simp [other,same]

section preserved
variable {w w' : World} {events : List Event}
section
variable (inv : Timely w events)
include inv

theorem askedBefore (frame : Frame w w') (s t) (asked : (w'.servers s).main = .asked t) : t ≤ w'.now := by
  rcases frame.asked s t asked with old | now
  · exact le_trans (inv.asked s t old) frame.now
  · exact now ▸ frame.now

theorem stillTimely {seen} (frame : Frame w w') (next : w'.nextId = w.nextId) (times : Times w.catalog w'.catalog)
    (unseen : seen = none ∨ ∃ e id, seen = some (.deleted e id)) : Timely w' (seen.toList ++ events) := by
  obtain ⟨stands,locks,starts⟩ : (∀ id, standing id (seen.toList ++ events) = standing id events) ∧
      (∀ e, lockOf e (seen.toList ++ events) = lockOf e events) ∧ EachStart Sound (seen.toList ++ events) := by
    rcases unseen with rfl | ⟨e,id,rfl⟩ <;> exact ⟨fun _ => rfl,fun _ => rfl,inv.started⟩
  refine ⟨inv.unique.sublist times.ids,?_,?_,?_,?_,?_,?_,starts⟩
  · intro id bound
    rw [stands]
    exact ⟨timesAbsent times.ids (inv.ahead id (next ▸ bound)).1,(inv.ahead id (next ▸ bound)).2⟩
  · intro id waits
    rw [stands]
    exact inv.found id (frame.pending id waits)
  · intro row mem b x same
    obtain ⟨old,inside,eq,time⟩ := times.same row mem
    rw [stands,eq] at same
    exact time.trans (inv.current old inside b x same)
  · exact askedBefore inv frame
  · intro id x same
    rw [stands] at same
    exact seenLater _ frame.now (inv.seen id x same)
  · intro e id begun
    rw [locks]
    exact inv.begun e id (frame.begun e id begun)

theorem submittedTimely {cells} (frame : Frame w w') (next : w'.nextId = w.nextId+1)
    (catalog : w'.catalog = w.catalog ++ [⟨w.nextId,cells⟩]) : Timely w' events := by
  have fresh := inv.ahead w.nextId (le_refl _)
  refine ⟨?_,?_,?_,?_,?_,?_,?_,inv.started⟩
  · rw [catalog,map_append]
    refine nodup_append.mpr ⟨inv.unique,nodup_singleton _,?_⟩
    intro i mem j new same
    obtain ⟨row,there,rfl⟩ := mem_map.mp mem
    exact fresh.1 row there (same.trans (mem_singleton.mp new))
  · intro id _
    refine ⟨?_,(inv.ahead id (by omega)).2⟩
    intro row mem
    rw [catalog] at mem
    rcases mem_append.mp mem with old | new
    · exact (inv.ahead id (by omega)).1 row old
    rw [mem_singleton.mp new]
    show w.nextId ≠ id
    omega
  · exact fun id waits => inv.found id (frame.pending id waits)
  · intro row mem b x same
    rw [catalog] at mem
    rcases mem_append.mp mem with old | new
    · exact inv.current row old b x same
    · rw [mem_singleton.mp new] at same
      exact absurd (fresh.2.symm.trans same) nofun
  · exact askedBefore inv frame
  · exact fun id x same => seenLater [] frame.now (inv.seen id x same)
  · exact fun e id begun => inv.begun e id (frame.begun e id begun)

theorem startedTimely {e id} (frame : Frame w w') (next : w'.nextId = w.nextId) (catalog : w'.catalog = w.catalog)
    (begun : (w.phase e).begun = some id) : Timely w' (.started e id::events) := by
  have times : Times w.catalog w'.catalog := catalog ▸ timesRefl _
  have rest := @stillTimely w w' events inv none frame next times (.inl rfl)
  exact ⟨rest.unique,rest.ahead,rest.found,rest.current,rest.asked,
      fun i x same => seenLater [_] (le_refl _) (rest.seen i x same),
    rest.begun,⟨inv.begun e id begun,inv.started⟩⟩

theorem queriedTimely {s time order} (now : w'.now = w.now) (next : w'.nextId = w.nextId)
    (catalog : w'.catalog = w.catalog)
    (asked : (w.servers s).main = .asked time) (ordered : Ordered w.catalog time order)
    (pending : ∀ id, w'.pending id → w.pending id ∨ id ∈ order)
    (asks : ∀ s t, (w'.servers s).main = .asked t → (w.servers s).main = .asked t)
    (phases : ∀ e, w'.phase e = w.phase e) :
    Timely w' (.queried time (order.map fun id => (id,exeTimeOf w.catalog id))::events) := by
  have stands : ∀ id, standing id (.queried time (order.map fun id => (id,exeTimeOf w.catalog id))::events) =
      if id ∈ order then some (false,exeTimeOf w.catalog id) else standing id events := by
    intro id
    rw [standing,lookupMap]
    by_cases mem : id ∈ order
    · rw [if_pos mem,if_pos mem]
    · rw [if_neg mem,if_neg mem]
  have rowOf : ∀ id ∈ order, ∃ row ∈ w.catalog, row.id = id ∧ due time row = true := by
    intro id mem
    obtain ⟨row,there,same⟩ := mem_map.mp (ordered.1.mem_iff.mp mem)
    obtain ⟨inside,due⟩ := mem_filter.mp there
    exact ⟨row,inside,same,due⟩
  refine ⟨catalog ▸ inv.unique,?_,?_,?_,?_,?_,?_,inv.started⟩
  · intro id bound
    obtain ⟨absent,nothing⟩ := inv.ahead id (next ▸ bound)
    have out : id ∉ order := by
      intro mem
      obtain ⟨row,there,same,-⟩ := rowOf id mem
      exact absent row there same
    rw [stands,if_neg out,catalog]
    exact ⟨absent,nothing⟩
  · intro id waits
    rw [stands]
    by_cases mem : id ∈ order
    · rw [if_pos mem]
      exact ⟨_,_,rfl⟩
    · rw [if_neg mem]
      exact inv.found id ((pending id waits).resolve_right mem)
  · intro row mem b x same
    rw [catalog] at mem
    rw [stands] at same
    split at same
    · have text := congrArg snd (some.inj same)
      exact (exeTimeFound inv mem).symm.trans text
    · exact inv.current row mem b x same
  · intro s t this
    rw [now]
    exact inv.asked s t (asks s t this)
  · intro id x same
    rw [stands] at same
    split at same
    · rename_i mem
      obtain ⟨_,there,eq,due⟩ := rowOf id mem
      have text : exeTimeOf w.catalog id = x := congrArg snd (some.inj same)
      refine ⟨time,_,mem_cons_self,mem_map.mpr ⟨id,mem,by rw [text]⟩,?_,?_⟩
      · rw [now]
        exact inv.asked s time asked
      · rw [← text,← eq,exeTimeFound inv there]
        exact (of_decide_eq_true due).1
    · exact seenLater [_] (le_of_eq now.symm) (inv.seen id x same)
  · intro e id begun
    rw [phases] at begun
    exact inv.begun e id begun

theorem lockedTimely {e id} (now : w'.now = w.now) (next : w'.nextId = w.nextId) (times : Times w.catalog w'.catalog)
    (waits : w.pending id) (there : ∃ row ∈ w.catalog, row.id = id) (pending : ∀ id, w'.pending id → w.pending id)
    (asks : ∀ s, (w'.servers s).main = (w.servers s).main) (mine : (w'.phase e).begun = some id)
    (others : ∀ e', e' ≠ e → w'.phase e' = w.phase e') :
    Timely w' (.locked e id (exeTimeOf w.catalog id) w.now::events) := by
  obtain ⟨row,inside,this⟩ := there
  obtain ⟨b,x,stands⟩ := inv.found id waits
  -- the time that is locked is the one of the history
  have text : exeTimeOf w.catalog id = x := by
    rw [← this,exeTimeFound inv inside]
    exact inv.current row inside b x (this ▸ stands)
  have sound : Sound ⟨id,exeTimeOf w.catalog id,w.now,events⟩ := by
    refine ⟨b,by rw [text]; exact stands,?_⟩
    rintro rfl
    rw [text]
    exact inv.seen id x stands
  refine ⟨inv.unique.sublist times.ids,?_,?_,?_,?_,?_,?_,inv.started⟩
  · intro i bound
    exact ⟨timesAbsent times.ids (inv.ahead i (next ▸ bound)).1,(inv.ahead i (next ▸ bound)).2⟩
  · exact fun i waits => inv.found i (pending i waits)
  · intro row mem b x same
    obtain ⟨old,inside,eq,time⟩ := times.same row mem
    rw [eq] at same
    exact time.trans (inv.current old inside b x same)
  · intro s t asked
    rw [now]
    exact inv.asked s t (asks s ▸ asked)
  · exact fun i x same => seenLater [_] (le_of_eq now.symm) (inv.seen i x same)
  · intro e' i begun
    by_cases me : e' = e
    · subst me
      have same := some.inj (mine.symm.trans begun)
      exact ⟨_,if_pos rfl,same,sound⟩
    · rw [others e' me] at begun
      have before : lockOf e' (.locked e id (exeTimeOf w.catalog id) w.now::events) = lockOf e' events :=
        if_neg (Ne.symm me)
      rw [before]
      exact inv.begun e' i begun

theorem wroteTimely {id x seen} (frame : Frame w w') (next : w'.nextId = w.nextId)
    (writes : Writes id x w.catalog w'.catalog)
    (event : (∃ e, seen = some (.cleared e id x)) ∨ seen = some (.changed id x)) :
    Timely w' (seen.toList ++ events) := by
  obtain ⟨stands,locks,starts⟩ : (∀ i, standing i (seen.toList ++ events) =
      if id = i then (standing i events).map fun _ => (true,x) else standing i events) ∧
      (∀ e, lockOf e (seen.toList ++ events) = lockOf e events) ∧ EachStart Sound (seen.toList ++ events) := by
    rcases event with ⟨e,rfl⟩ | rfl <;> exact ⟨fun _ => rfl,fun _ => rfl,inv.started⟩
  refine ⟨inv.unique.sublist writes.ids,?_,?_,?_,?_,?_,?_,starts⟩
  · intro i bound
    obtain ⟨absent,nothing⟩ := inv.ahead i (next ▸ bound)
    rw [stands,nothing]
    refine ⟨timesAbsent writes.ids absent,?_⟩
    split <;> rfl
  · intro i waits
    obtain ⟨b,y,before⟩ := inv.found i (frame.pending i waits)
    rw [stands,before]
    split <;> exact ⟨_,_,rfl⟩
  · intro row mem b y same
    rw [stands] at same
    split at same
    · rename_i this
      obtain ⟨old,-,eq⟩ := map_eq_some_iff.mp same
      rw [writes.here row mem this.symm]
      exact congrArg snd eq
    · rename_i other
      obtain ⟨old,inside,eq,time⟩ := writes.others row mem (Ne.symm other)
      rw [eq] at same
      exact time.trans (inv.current old inside b y same)
  · exact askedBefore inv frame
  · intro i y same
    rw [stands] at same
    split at same
    · obtain ⟨old,-,eq⟩ := map_eq_some_iff.mp same
      exact absurd (congrArg fst eq) (show ¬ true = false by decide)
    · exact seenLater _ frame.now (inv.seen i y same)
  · intro e i begun
    rw [locks]
    exact inv.begun e i (frame.begun e i begun)

end

theorem movesTimely {seen} (moves : Moves w w' seen) (inv : Timely w events) : Timely w' (seen.toList ++ events) := by
  cases moves with
  | still frame next times unseen => exact stillTimely inv frame next times unseen
  | submitted frame next catalog => exact submittedTimely inv frame next catalog
  | queried now next catalog asked ordered pending asks phases =>
    exact queriedTimely inv now next catalog asked ordered pending asks phases
  | locked now next times waits there pending asks mine others =>
    exact lockedTimely inv now next times waits there pending asks mine others
  | started frame next catalog begun => exact startedTimely inv frame next catalog begun
  | wrote frame next writes event => exact wroteTimely inv frame next writes event

end preserved

theorem initialTimely {w} (initial : Initial w) : Timely w [] := by
  have main : ∀ s, (w.servers s).main = .sleeping := fun s => by rw [initial.idle s]; rfl
  refine ⟨initial.unique,?_,?_,?_,?_,nofun,?_,trivial⟩
  · intro id _
    exact ⟨fun row mem same => by have := initial.ahead row mem; omega,rfl⟩
  · rintro id ⟨s,waits⟩
    rw [initial.idle s] at waits
    exact (freshPending waits).elim
  · exact fun row mem b x same => absurd same nofun
  · intro s t asked
    exact absurd ((main s).symm.trans asked) nofun
  · intro e _ begun
    rw [initialIdle initial] at begun
    contradiction

theorem reachedTimely {convertDateFormat start w events} (initial : Initial start)
    (reached : Reached convertDateFormat start w events) : Timely w events := by
  induction reached with
  | start => exact initialTimely initial
  | step _ taken ih => exact movesTimely (stepSteps taken).2 ih

def PlainTime (x : Text) (t : Int) : Prop := 0 ≤ t ∧ (∀ c ∈ x, c.isDigit = true) ∧ x.length ≤ (decimalText t).length

section
variable {x y : Text} (same : x.length = y.length) (digitX : ∀ c ∈ x, c.isDigit = true)
    (digitY : ∀ c ∈ y, c.isDigit = true)
include same digitX digitY

theorem digitsLess {a b} (less : a < b) : digits a x < digits b y := by
  induction x generalizing y a b with
  | nil =>
    rw [eq_nil_of_length_eq_zero same.symm]
    exact less
  | cons c x ih =>
    match y,same with
    | d::y,same =>
      have boundC := digitBounds (digitX c mem_cons_self)
      rw [digits,digits,if_pos (digitX c mem_cons_self),if_pos (digitY d mem_cons_self)]
      refine ih (Nat.succ.inj same) (forall_mem_cons.mp digitX).2 (forall_mem_cons.mp digitY).2 ?_
      omega

theorem digitsOrder (order : textLe x y = true) (a) : digits a x ≤ digits a y := by
  induction x generalizing y a with
  | nil =>
    rw [eq_nil_of_length_eq_zero same.symm]
  | cons c x ih =>
    match y,same with
    | d::y,same =>
      have digitX' : ∀ z ∈ x, z.isDigit = true := (forall_mem_cons.mp digitX).2
      have digitY' : ∀ z ∈ y, z.isDigit = true := (forall_mem_cons.mp digitY).2
      have boundC := digitBounds (digitX c mem_cons_self)
      rw [textLe] at order
      rw [digits,digits,if_pos (digitX c mem_cons_self),if_pos (digitY d mem_cons_self)]
      split at order
      · rename_i equal
        subst equal
        exact ih (Nat.succ.inj same) digitX' digitY' order _
      · have less := of_decide_eq_true order
        exact le_of_lt (digitsLess (Nat.succ.inj same) digitX' digitY' (by omega))

end

theorem secondsDigits {x} (digitX : ∀ c ∈ x, c.isDigit = true) : secondsOf x = digits 0 x := by
  unfold secondsOf leadingInteger
  cases x with
  | nil => rfl
  | cons c x =>
    obtain ⟨solid,minus,plus⟩ := digitChars (digitX c mem_cons_self)
    have kept : (c::x).dropWhile isSpace = c::x := by rw [dropWhile_cons,solid]; rfl
    rw [kept]
    split
    · rename_i same
      exact absurd (cons.inj same).1 minus
    · rename_i same
      exact absurd (cons.inj same).1 plus
    · rfl

theorem plainDue {x t} (plain : PlainTime x t) (order : textLe x (decimalText t) = true) : secondsOf x ≤ t := by
  obtain ⟨_,digitX,short⟩ := plain
  have text : decimalText t = Nat.toDigits 10 t.natAbs := if_neg (by omega)
  obtain ⟨digitT,value⟩ := decimalDigits t.natAbs
  rw [text] at short order
  have number : digits 0 x ≤ t.natAbs := by
    rcases Nat.lt_or_eq_of_le short with _ | same
    · cases x with
      | nil => exact Nat.zero_le _
      | cons c x =>
        have below := digitsBelow digitX 0
        have long : (Nat.toDigits 10 t.natAbs).length ≤ (c::x).length ↔ t.natAbs < 10^(c::x).length :=
          Nat.length_toDigits_le_iff (by decide) (Nat.zero_lt_succ _)
        omega
    · rw [← value]
      exact digitsOrder same digitX digitT order 0
  rw [secondsDigits digitX]
  omega

theorem lockBefore {e events l} (found : lockOf e events = some l) : ∀ x ∈ l.before, x ∈ events := by
  induction events with
  | nil => contradiction
  | cons event _ ih =>
    cases event with
    | locked _ id x t =>
      unfold lockOf at found
      split at found
      · cases found
        exact fun y mem => mem_cons_of_mem _ mem
      · exact fun y mem => mem_cons_of_mem _ (ih found y mem)
    | queried _ _ => exact fun y mem => mem_cons_of_mem _ (ih found y mem)
    | started e id => exact fun y mem => mem_cons_of_mem _ (ih found y mem)
    | cleared e id x => exact fun y mem => mem_cons_of_mem _ (ih found y mem)
    | deleted e id => exact fun y mem => mem_cons_of_mem _ (ih found y mem)
    | changed _ x => exact fun y mem => mem_cons_of_mem _ (ih found y mem)

theorem eachStartMap {P Q events} (all : EachStart P events)
    (imp : ∀ l, (∀ x ∈ l.before, x ∈ events) → P l → Q l) : EachStart Q events := by
  induction events with
  | nil => trivial
  | cons event before ih =>
    have rest : ∀ l, (∀ x ∈ l.before, x ∈ before) → P l → Q l :=
      fun l inside => imp l fun x mem => mem_cons_of_mem _ (inside x mem)
    cases event with
    | started e id =>
      obtain ⟨⟨l,found,same,holds⟩,others⟩ := all
      exact ⟨⟨l,found,same,rest l (lockBefore found) holds⟩,ih others rest⟩
    | queried _ _ => exact ih all rest
    | locked e id x t => exact ih all rest
    | cleared e id x => exact ih all rest
    | deleted e id => exact ih all rest
    | changed _ x => exact ih all rest

theorem eachStartBoth {P Q events} (allP : EachStart P events) (allQ : EachStart Q events) :
    EachStart (fun l => P l ∧ Q l) events := by
  induction events with
  | nil => trivial
  | cons event _ ih =>
    cases event with
    | started e id =>
      obtain ⟨⟨l,found,same,holds⟩,othersP⟩ := allP
      obtain ⟨⟨_,found',-,holds'⟩,othersQ⟩ := allQ
      cases some.inj (found.symm.trans found')
      exact ⟨⟨l,found,same,holds,holds'⟩,ih othersP othersQ⟩
    | queried _ _ => exact ih allP allQ
    | locked e id x t => exact ih allP allQ
    | cleared e id x => exact ih allP allQ
    | deleted e id => exact ih allP allQ
    | changed _ x => exact ih allP allQ

def PlainTimes (events : List Event) : Prop := ∀ time rows, .queried time rows ∈ events → ∀ p ∈ rows, PlainTime p.2 time

def PutOffDue (events : List Event) : Prop :=
  EachStart (fun l => ∀ x, standing l.id l.before = some (true,x) → secondsOf x ≤ l.time) events

theorem onTimeExactly {convertDateFormat} {start w : World} {events : List Event} (initial : Initial start)
    (reached : Reached convertDateFormat start w events) :
    (OnTime events ↔ EachStart (fun l => ∀ b x, standing l.id l.before = some (b,x) → secondsOf x ≤ l.time) events) ∧
    (PlainTimes events → (OnTime events ↔ PutOffDue events)) := by
  have sound := (reachedTimely initial reached).started
  refine ⟨⟨?_,?_⟩,fun plain => ⟨?_,?_⟩⟩
  · intro onTime
    refine eachStartMap (eachStartBoth sound onTime) ?_
    rintro l - ⟨⟨b,stands,-⟩,time⟩ _ x same
    cases some.inj (stands.symm.trans same)
    exact time
  · intro all
    refine eachStartMap (eachStartBoth sound all) ?_
    rintro l - ⟨⟨b,stands,-⟩,time⟩
    exact time b l.exeTime stands
  · intro onTime
    refine eachStartMap (eachStartBoth sound onTime) ?_
    rintro l - ⟨⟨b,stands,-⟩,time⟩ x same
    cases some.inj (stands.symm.trans same)
    exact time
  · intro all
    refine eachStartMap (eachStartBoth sound all) ?_
    rintro l inside ⟨⟨b,stands,found⟩,time⟩
    cases b with
    | true => exact time l.exeTime stands
    | false =>
      obtain ⟨asked,rows,query,row,bound,due⟩ := found rfl
      exact le_trans (plainDue (plain asked rows (inside _ query) _ row) due) bound

theorem firstRunOnTime : ∃ w events, Reached (fun s _ => s) twoServers w events ∧ .started (0,0) 1 ∈ events ∧
    OnTime events := by
  have ran : (runAll (fun s _ => s) twoServers [] (finds 0 ++ runs 0)).map snd =
      some [.started (0,0) 1,.locked (0,0) 1 (lit "1699999000") 1700000000,
        .queried 1700000000 [(1,lit "1699999000")]] := by
        decide +kernel
  obtain ⟨⟨w,_⟩,last,same⟩ := map_eq_some_iff.mp ran
  have reached := runReached _ .start last
  subst same
  refine ⟨w,_,reached,mem_cons_self,((onTimeExactly twoServersInitial reached).2 ?_).mpr ?_⟩
  · intro _ _ mem p row
    simp only [mem_cons,not_mem_nil,or_false,reduceCtorEq,false_or] at mem
    obtain ⟨rfl,rfl⟩ := mem
    rw [mem_singleton.mp row]
    have plain : (lit "1699999000").all Char.isDigit = true := rfl
    exact ⟨by decide,all_eq_true.mp plain,by decide⟩
  · refine ⟨⟨⟨1,lit "1699999000",1700000000,_⟩,rfl,rfl,fun x written => ?_⟩,trivial⟩
    exact absurd (congrArg fst (some.inj written)) (show ¬ false = true by decide)

theorem putOffRunEarly : ∃ w events, Reached (fun s _ => s) twoServers w events ∧
    events.take 2 = [.started (1,0) 1,.locked (1,0) 1 (lit "1700003600") 1700000000] ∧ ¬ OnTime events := by
  have ran : (runAll (fun s _ => s) twoServers []
      (finds 0 ++ finds 1 ++ runs 0 ++ [.act (0,0) (.settle 0 .answered)] ++ runs 1)).map snd =
      some [.started (1,0) 1,.locked (1,0) 1 (lit "1700003600") 1700000000,.cleared (0,0) 1 (lit "1700003600"),
        .started (0,0) 1,
        .locked (0,0) 1 (lit "1699999000") 1700000000,.queried 1700000000 [(1,lit "1699999000")],
        .queried 1700000000 [(1,lit "1699999000")]] := by decide +kernel
  obtain ⟨⟨w,_⟩,last,same⟩ := map_eq_some_iff.mp ran
  have reached := runReached _ .start last
  subst same
  refine ⟨w,_,reached,rfl,?_⟩
  rintro ⟨⟨l,found,-,time⟩,-⟩
  have lock : l.exeTime = lit "1700003600" ∧ l.time = 1700000000 := by
    cases some.inj found
    exact ⟨rfl,rfl⟩
  rw [lock.1,lock.2] at time
  exact absurd time (by decide)

end Irods.DelayServer
