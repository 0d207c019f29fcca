import Irods.GenQuery1Generate

/-! The query a call is to build, were its texts unbounded: how each part of a condition is read,
the fragment it becomes, and the WHERE text the fragments add up to. -/
namespace Irods.GenQuery1Forms
open CText StringOpr GenQuery1Setup GenQuery1Tables GenQuery1Conditions GenQuery1Generate List

inductive Form where
  | inList (vs : List Text)
  | between (vs : List Text)
  | nullTest (negated : Bool)
  | beginOf (v : Text)
  | parentOf (v : Text)
  | comparison (head v : Text)
  | malformed
  deriving DecidableEq, Repr

def formOf (part : Text) : Form :=
  if leads (lit "in") (lit "IN") part then .inList (quoted part)
  else if leads (lit "between") (lit "BETWEEN") part then .between (quoted part)
  else if part = lit "IS NULL" then .nullTest false
  else if part = lit "IS NOT NULL" then .nullTest true
  else match firstToLast part with
    | none => .malformed
    | some (head,v) =>
      if (strstr (' '::head) (lit "begin_of")).isSome then .beginOf v
      else if (strstr (' '::head) (lit "parent_of")).isSome then .parentOf v
      else .comparison head v

def Form.operands (s : Setup) : Form → List Text
  | .inList vs => vs
  | .between vs => vs
  | .nullTest _ => []
  | .beginOf v => [v]
  | .parentOf v => parentPaths (s.split v)
  | .comparison _ v => [v]
  | .malformed => []

def Form.Accepted : Form → Prop
  | .inList vs => vs ≠ []
  | .between vs => vs.length = 2
  | .comparison head _ => checkCondition (' '::head) = 0
  | .malformed => False
  | _ => True

def Form.fragment (s : Setup) (w : Text) : Form → Text
  | .inList vs => lit " IN (" ++ placeholders vs.length ++ lit ")"
  | .between _ => lit " BETWEEN ? AND ? "
  | .nullTest false => lit " IS NULL "
  | .nullTest true => lit " IS NOT NULL "
  | .beginOf _ => lit "=substr(?,1,char_length(" ++ lastWord w ++ lit "))" ++ lit " AND char_length(" ++ lastWord w ++
      lit ")>0"
  | .parentOf v => lit " IN (" ++ placeholders (parentPaths (s.split v)).length ++ lit ")"
  | .comparison head _ => ' '::head ++ lit "? "
  | .malformed => []

def addPart (s : Setup) (w part : Text) : Text := w ++ (formOf part).fragment s w

def addParts (s : Setup) (tabAndColumn w : Text) : List (Text × Connective) → Text
  | [] => w
  | (part,connective)::rest => addParts s tabAndColumn (addPart s (w ++ tabAndColumn) part ++ connective.text) rest

def addCompound (s : Setup) (w condition : Text) (prevWhereLen : Nat) : Text :=
  let start := columnStart w prevWhereLen
  let parts := compoundParts condition.length condition
  addPart s (addParts s (w.drop start) (w.take start ++ lit " ( ") parts.1 ++ w.drop start) parts.2 ++ lit " ) "

def partsOf (condition : Text) : List Text :=
  if compoundConditionSpecified condition then
    (compoundParts condition.length condition).1.map Prod.fst ++ [(compoundParts condition.length condition).2]
  else [condition]

def tableOf (s : Setup) (column : Nat) : Option (Nat × Column) :=
  (findColumn s column).bind (fun c => (s.tables.findIdx? (fun t => t.tableName == c.tableName)).map (fun i => (i,c)))

def columnText (s : Setup) (upper cast : Bool) (column : Nat) : Text :=
  match tableOf s column with
  | none => []
  | some (i,c) => (conditionColumn upper cast (s.tables.getD i ⟨[],[],0⟩) c).flatten

def separator (w : Text) : Text := if 6 < w.length then lit " AND " else []

def intendedColumn (s : Setup) (q : Query) (column : Nat) (cast : Bool) : Query :=
  { (match tableOf s column with
    | none => q
    | some (i,_) => raise q i) with
    whereSQL := q.whereSQL ++ separator q.whereSQL ++ columnText s q.doUpperCase cast column }

def addConditionText (s : Setup) (w condition : Text) (prevWhereLen : Nat) : Text :=
  if compoundConditionSpecified condition then addCompound s w condition prevWhereLen else addPart s w condition

def intendedCondition (s : Setup) (q : Query) (c : Nat × Text) : Query :=
  let column := intendedColumn s q c.1 (castSpecified c.2)
  { column with whereSQL := addConditionText s column.whereSQL (effectiveCondition c.2) q.whereSQL.length }

def conditionForms (conditions : List (Nat × Text)) : List Form :=
  conditions.flatMap (fun c => (partsOf (effectiveCondition c.2)).map formOf)

theorem conditionFormsCons (c conditions) :
    conditionForms (c::conditions) = (partsOf (effectiveCondition c.2)).map formOf ++ conditionForms conditions := rfl

def intendedSelect (s : Setup) (q : Query) (x : Nat × Nat) : Query := (setTable s q x.1 true (x.2 &&& 0xf) false).2

def startAfterSelect (s : Setup) (start : Nat) (x : Nat × Nat) : Nat :=
  match tableOf s x.1 with
  | none => start
  | some (i,_) => if cyclerOf s i < 1 ∨ start = 0 then i else start

def startAfterCondition (s : Setup) (start : Nat) (c : Nat × Text) : Nat :=
  match tableOf s c.1 with
  | none => start
  | some (i,_) => if cyclerOf s i < 1 then i else start

def multiplied (inp : GenQueryInp) (q : Query) : Query :=
  let dataConditions := conditionsOn inp COL_META_DATA_ATTR_NAME
  let collConditions := conditionsOn inp COL_META_COLL_ATTR_NAME
  let q := if dataConditions > 1 then handleMultiDataAVUConditions dataConditions q else q
  if collConditions > 1 then handleMultiCollAVUConditions collConditions q else q

def conditionedQuery (s : Setup) (inp : GenQueryInp) : Query :=
  inp.conditions.foldl (intendedCondition s) (inp.selects.foldl (intendedSelect s) (startQuery inp.options))

def startingTable (s : Setup) (inp : GenQueryInp) : Nat :=
  inp.conditions.foldl (startAfterCondition s) (inp.selects.foldl (startAfterSelect s) 0)

def intendedQuery (s : Setup) (inp : GenQueryInp) : Query :=
  match tScan s (s.tables.length+1) (startingTable s inp) none (conditionedQuery s inp) with
  | none => conditionedQuery s inp
  | some (_,q) => multiplied inp q

theorem blankWordKeeps {t} (word) {c} (mem : c ∈ t) : c ∈ blankWord t word ∨ c ∈ word := by
  unfold blankWord
  split
  · exact .inl mem
  rename_i i found
  obtain ⟨rest,same⟩ := strstrFound found
  have whole : t = t.take i ++ word ++ rest := by rw [append_assoc,same,take_append_drop]
  have behind : t.drop (i+(List.replicate word.length ' ').length) = rest := by
    rw [length_replicate,← drop_drop,← same,drop_left]
  rw [replaceAt,behind]
  rw [whole] at mem
  simp only [mem_append] at mem ⊢
  tauto

theorem checkedChars {t} (ok : checkCondition t = 0) {c} (mem : c ∈ t) :
    c ∈ lit "<>=! begin_ofparent_ofnotNOTbetweenBETWEENlikeLIKEinIN" := by
  have words : ∀ (ws : List Text) t, c ∈ t → c ∈ ws.foldl blankWord t ∨ c ∈ ws.flatten := by
    intro ws
    induction ws with
    | nil => exact fun t mem => .inl mem
    | cons w _ ih =>
      intro t mem
      rcases blankWordKeeps w mem with left | inWord
      · exact (ih _ left).imp id (mem_append_right _)
      · exact .inr (mem_append_left _ inWord)
  by_cases operator : c = '<' ∨ c = '>' ∨ c = '=' ∨ c = '!'
  · rcases operator with rfl | rfl | rfl | rfl <;> decide
  unfold checkCondition at ok
  split at ok
  · contradiction
  dsimp only at ok
  split at ok
  · rename_i blank
    have kept : c ∈ t.map fun c => if c = '<' ∨ c = '>' ∨ c = '=' ∨ c = '!' then ' ' else c := by
      refine mem_map.mpr ⟨c,mem,?_⟩
      rw [if_neg operator]
    rcases words _ _ kept with left | inWords
    · have same := all_eq_true.mp blank c left
      rw [eq_of_beq same]
      decide
    · have widened := mem_append_right (lit "<>=! ") inWords
      exact widened
  · contradiction

theorem lastWordBehind {x y c} (mem : c ∈ lastWord (x ++ ' '::y)) : c ∈ y := by
  have cut : (x ++ ' '::y).reverse = y.reverse ++ ' '::x.reverse := by simp
  unfold lastWord at mem
  rw [mem_reverse,cut] at mem
  have behind : ∀ a b, c ∈ (a ++ ' '::b).takeWhile (fun c => c != ' ') → c ∈ a := by
    intro a b mem
    induction a with
    | nil => simp at mem
    | cons d a ih =>
      rw [cons_append,takeWhile_cons] at mem
      split at mem
      · rcases mem_cons.mp mem with rfl | later
        · exact mem_cons_self
        · exact mem_cons_of_mem _ (ih later)
      · cases mem
  exact mem_reverse.mp (behind _ _ mem)

end Irods.GenQuery1Forms
