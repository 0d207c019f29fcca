import Irods.GenQuery2Literals

/-! The join planner of genquery2_sql.cpp as a walk over the graph of tables: a pass joins every
listed neighbour of one table, the next pass starts from the table joined last. -/
namespace Irods.GenQuery2Joins
open CText SqlText GenQuery2Ast GenQuery2Columns GenQuery2Sql List

def adjacent (a b : Text) : Bool := (edgeBetween a b).isSome
def near (pivot : Text) (tables : List Text) : List Text := tables.filter (adjacent pivot)
def far (pivot : Text) (tables : List Text) : List Text := tables.filter (fun t => !adjacent pivot t)

def Linked (tables : List Text) (a b : Text) : Prop := a ∈ tables ∧ b ∈ tables ∧ adjacent a b = true
def Connected (tables : List Text) : Prop := ∀ a ∈ tables, ∀ b ∈ tables, Relation.ReflTransGen (Linked tables) a b

/- Each pivot is joined to all its neighbours, and the last of them is the next pivot. -/
inductive Spanned : Text → List Text → Prop where
  | done (pivot : Text) : Spanned pivot []
  | next {pivot last : Text} {tables front : List Text} : near pivot tables = front ++ [last] →
      Spanned last (far pivot tables) → Spanned pivot tables

/- A table joined before and one joined to it, in the order of the joins. -/
def plan : Nat → Text → List Text → List (Text × Text)
  | 0,_,_ => []
  | n+1,pivot,tables =>
    (near pivot tables).map (fun t => (pivot,t)) ++ plan n ((near pivot tables).getLastD pivot) (far pivot tables)

def left : Nat → Text → List Text → List Text
  | 0,_,tables => tables
  | n+1,pivot,tables => left n ((near pivot tables).getLastD pivot) (far pivot tables)

def aliasText (st : State) (table : Text) : Text := (st.tableAliases.lookup table).getD []

def conditionText (st : State) (e : Edge) : Text :=
  aliasText st e.first ++ text "." ++ e.firstColumn ++ text " = " ++ aliasText st e.second ++ text "." ++ e.secondColumn

def joinText (st : State) (pair : Text × Text) : Text :=
  match edgeBetween pair.1 pair.2 with
  | none => []
  | some e => text "inner join " ++ pair.2 ++ text " " ++ aliasText st pair.2 ++ text " on " ++ conditionText st e

def Introduced : List Text → List (Text × Text) → Prop
  | _,[] => True
  | seen,(a,b)::rest => a ∈ seen ∧
      (∃ e, edgeBetween a b = some e ∧ ((e.first = a ∧ e.second = b) ∨ (e.first = b ∧ e.second = a))) ∧
      Introduced (seen ++ [b]) rest

def Aliased (st : State) (table : Text) : Prop := (st.tableAliases.lookup table).isSome = true

theorem edgeEnds {a b e} (found : edgeBetween a b = some e) :
    (e.first = a ∧ e.second = b) ∨ (e.first = b ∧ e.second = a) := by
  have here := find?_some found
  simpa using here

theorem aliasFound {st table} (aliased : Aliased st table) : aliasAt st table = .ok (aliasText st table) := by
  obtain ⟨a,found⟩ := Option.isSome_iff_exists.mp aliased
  simp [aliasAt,aliasText,found]

theorem tableJoin {st a b} (left : a ∈ tableNames) (right : b ∈ tableNames) (one : Aliased st a) (two : Aliased st b) :
    getTableJoin st a b = .ok (if adjacent a b then some (joinText st (a,b)) else none) := by
  unfold getTableJoin adjacent joinText
  simp only [left,right]
  cases found : edgeBetween a b with
  | none => rfl
  | some e =>
    have ends : Aliased st e.first ∧ Aliased st e.second := by
      rcases edgeEnds found with ⟨first,second⟩ | ⟨first,second⟩
      · exact ⟨first ▸ one,second ▸ two⟩
      · exact ⟨first ▸ two,second ▸ one⟩
    simp only [aliasFound two,aliasFound ends.1,aliasFound ends.2,conditionText,
      append_assoc]
    rfl

section Pass
variable {st : State} {pivot : Text}

theorem passJoins (supported : pivot ∈ tableNames) (aliased : Aliased st pivot) {tables}
    (all : ∀ t ∈ tables, t ∈ tableNames ∧ Aliased st t) (joins processed) :
    joinPass st pivot joins processed tables =
      .ok ⟨joins ++ (near pivot tables).map fun t => joinText st (pivot,t),processed ++ near pivot tables,
        far pivot tables⟩ := by
  induction tables generalizing joins processed with
  | nil => simp [joinPass,near,far]
  | cons t _ ih =>
    obtain ⟨here,rest⟩ := forall_mem_cons.mp all
    rw [joinPass,tableJoin supported here.1 aliased here.2]
    cases joined : adjacent pivot t with
    | true =>
      simp only [if_true]
      rw [ih rest]
      simp [near,far,joined]
    | false =>
      rw [ih rest]
      simp [near,far,joined]

end Pass

theorem nearMem {pivot t tables} : t ∈ near pivot tables ↔ t ∈ tables ∧ adjacent pivot t = true := by
  simp [near]

theorem farMem {pivot t tables} : t ∈ far pivot tables ↔ t ∈ tables ∧ adjacent pivot t = false := by
  simp [far]

theorem lastNear {pivot tables} : (near pivot tables).getLastD pivot ∈ pivot::tables := by
  cases some : (near pivot tables).getLast? with
  | none => simp [some]
  | some t =>
    have mem := mem_of_getLast? some
    simp only [getLastD_eq_getLast?,some]
    exact mem_cons_of_mem _ (nearMem.mp mem).1

theorem passesJoin {st} (n) {tables joins processed pivot}
    (all : ∀ t ∈ pivot::tables, t ∈ tableNames ∧ Aliased st t) (last : processed.getLastD [] = pivot) :
    ∃ r, joinPasses st n ⟨joins,processed,tables⟩ = .ok r ∧
      r.joins = joins ++ (plan n pivot tables).map (joinText st) := by
  induction n generalizing tables joins processed pivot with
  | zero => exact ⟨_,rfl,by simp [plan]⟩
  | succ n ih =>
    obtain ⟨here,rest⟩ := forall_mem_cons.mp all
    have next : (processed ++ near pivot tables).getLastD [] = (near pivot tables).getLastD pivot := by
      rw [← last,getLastD_eq_getLast?,getLastD_eq_getLast?,getLastD_eq_getLast?,getLast?_append]
      cases (near (processed.getLast?.getD []) tables).getLast? <;> rfl
    have fewer : ∀ t ∈ (near pivot tables).getLastD pivot::far pivot tables, t ∈ tableNames ∧ Aliased st t := by
      intro t mem
      rcases mem_cons.mp mem with rfl | mem
      · exact all _ lastNear
      · exact rest t (farMem.mp mem).1
    obtain ⟨r,run,eq⟩ := @ih (far pivot tables) (joins ++ (near pivot tables).map fun t => joinText st (pivot,t))
      (processed ++ near pivot tables) _ fewer next
    refine ⟨r,?_,?_⟩
    · rw [joinPasses]
      simp only [last,passJoins here.1 here.2 rest]
      exact run
    · rw [eq,plan,map_append,map_map,append_assoc]
      rfl

theorem planPerm (n pivot tables) :
    ((plan n pivot tables).map Prod.snd ++ left n pivot tables).Perm tables := by
  induction n generalizing pivot tables with
  | zero => simp [plan,left]
  | succ n ih =>
    have names : ((near pivot tables).map fun t => (pivot,t)).map Prod.snd = near pivot tables := by
      rw [map_map]
      exact map_id _
    rw [plan,map_append,names,append_assoc]
    exact ((ih _ _).append_left _).trans (filter_append_perm (adjacent pivot) tables)

theorem introducedNear {seen front pivot rest} (known : pivot ∈ seen)
    (all : ∀ t ∈ front, adjacent pivot t = true) (tail : Introduced (seen ++ front) rest) :
    Introduced seen (front.map (fun t => (pivot,t)) ++ rest) := by
  induction front generalizing seen with
  | nil => simpa using tail
  | cons t _ ih =>
    obtain ⟨here,others⟩ := forall_mem_cons.mp all
    obtain ⟨e,found⟩ := Option.isSome_iff_exists.mp here
    refine ⟨known,⟨e,found,edgeEnds found⟩,ih (by simp [known]) others ?_⟩
    simpa using tail

theorem planIntroduced (n) {pivot tables seen} (known : pivot ∈ seen) :
    Introduced seen (plan n pivot tables) := by
  induction n generalizing pivot tables seen with
  | zero => exact True.intro
  | succ n ih =>
    apply introducedNear known fun t mem => (nearMem.mp mem).2
    apply ih
    cases some : (near pivot tables).getLast? with
    | none => simp [some,known]
    | some t =>
      simp only [getLastD_eq_getLast?,some]
      exact mem_append_right _ (mem_of_getLast? some)

theorem leftStuck (n) {pivot tables} (none : near pivot tables = []) :
    left n pivot tables = tables := by
  induction n with
  | zero => rfl
  | succ n ih =>
    have same : far pivot tables = tables := by
      apply filter_eq_self.mpr
      intro t mem
      have away : t ∉ near pivot tables := by simp [none]
      simpa [nearMem,mem] using away
    rw [left,none,same]
    exact ih

theorem nearFar (pivot tables) :
    (near pivot tables).length + (far pivot tables).length = tables.length := by
  have all := (filter_append_perm (adjacent pivot) tables).length_eq
  rwa [length_append] at all

theorem leftNothing (n) {pivot tables} (enough : tables.length ≤ n) :
    left n pivot tables = [] ↔ Spanned pivot tables := by
  induction n generalizing pivot tables with
  | zero =>
    have none : tables = [] := length_eq_zero_iff.mp (by omega)
    subst none
    exact ⟨fun _ => .done pivot,fun _ => rfl⟩
  | succ n ih =>
    rcases eq_nil_or_concat (near pivot tables) with none | ⟨_,last,some⟩
    · rw [leftStuck _ none]
      constructor
      · rintro rfl
        exact .done pivot
      intro spanned
      cases spanned with
      | done => rfl
      | next some _ => simp [none] at some
    · rw [concat_eq_append] at some
      have total := nearFar pivot tables
      rw [some,length_append,length_singleton] at total
      have back : (near pivot tables).getLastD pivot = last := by simp [some]
      rw [left,back,ih (by omega)]
      constructor
      · exact .next some
      intro spanned
      cases spanned with
      | done => simp [near] at some
      | next other rest =>
        obtain ⟨_,same⟩ := append_inj' (some.symm.trans other) rfl
        cases same
        exact rest

theorem linkedMono {a b some all} (included : ∀ t ∈ some, t ∈ all)
    (walk : Relation.ReflTransGen (Linked some) a b) : Relation.ReflTransGen (Linked all) a b :=
  Relation.ReflTransGen.mono (fun _ _ link => ⟨included _ link.1,included _ link.2.1,link.2.2⟩) _ _ walk

theorem adjacentSymm {a b} (joined : adjacent a b = true) : adjacent b a = true := by
  obtain ⟨e,found⟩ := Option.isSome_iff_exists.mp joined
  unfold adjacent edgeBetween
  rw [find?_isSome]
  refine ⟨e,mem_of_find?_eq_some found,?_⟩
  simpa [or_comm] using edgeEnds found

theorem spannedReach {pivot tables} (spanned : Spanned pivot tables) :
    ∀ t ∈ tables, Relation.ReflTransGen (Linked (pivot::tables)) pivot t := by
  induction spanned with
  | done => simp
  | @next pivot last tables _ some _ ih =>
    have one : ∀ t ∈ near pivot tables, Relation.ReflTransGen (Linked (pivot::tables)) pivot t := by
      intro t mem
      obtain ⟨listed,joined⟩ := nearMem.mp mem
      exact .single ⟨by simp,by simp [listed],joined⟩
    have lastMem : last ∈ near pivot tables := by simp [some]
    intro t mem
    cases joined : adjacent pivot t with
    | true => exact one t (nearMem.mpr ⟨mem,joined⟩)
    | false =>
      refine (one last lastMem).trans (linkedMono ?_ (ih t (farMem.mpr ⟨mem,joined⟩)))
      intro x listed
      rcases mem_cons.mp listed with rfl | listed
      · exact mem_cons_of_mem _ (nearMem.mp lastMem).1
      · exact mem_cons_of_mem _ (farMem.mp listed).1

theorem spannedConnected {pivot tables} (spanned : Spanned pivot tables) :
    Connected (pivot::tables) := by
  have flip : Std.Symm (Linked (pivot::tables)) := ⟨fun _ _ link => ⟨link.2.1,link.1,adjacentSymm link.2.2⟩⟩
  have reach : ∀ t ∈ pivot::tables, Relation.ReflTransGen (Linked (pivot::tables)) pivot t := by
    intro t mem
    rcases mem_cons.mp mem with rfl | mem
    · exact .refl
    · exact spannedReach spanned t mem
  intro a here b there
  exact (Relation.ReflTransGen.stdSymm.symm _ _ (reach a here)).trans (reach b there)

end Irods.GenQuery2Joins
