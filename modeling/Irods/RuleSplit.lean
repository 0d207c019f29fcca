import Irods.CText

/-! smsi_split of the rule language: one pass over the string counts the fields, a second one cuts them out. -/
namespace Irods.RuleSplit
open CText List

section Split
-- strchr finds the character among the delimiters.

variable (delim : Char → Bool)

/- The first argument says that the inner loop is passing delimiters. The character it stops at is passed by the i++ of
the for statement, so trim is left as it is. -/
def countFields : Bool → Bool → Text → Nat
  | _,trim,[] => if trim then 0 else 1
  | true,trim,c::t =>
    if delim c then countFields true trim t else (if trim then 0 else 1)+countFields false trim t
  | false,trim,c::t => if delim c then countFields true trim t else countFields false false t

/- The fields stored, and the text from bufStart on. -/
def cutFields : Bool → Bool → Text → Text → List Text × Text
  | _,_,field,[] => ([],field)
  | true,trim,_,c::t => if delim c then cutFields true trim [] t else cutFields false trim [c] t
  | false,trim,field,c::t =>
    if delim c then ((if trim then [] else [field]) ++ (cutFields true trim [] t).1,(cutFields true trim [] t).2)
    else cutFields false false (field ++ [c]) t

/- The collection has count places: none if one of them is not filled or a field is stored behind them. -/
def collected (cut : List Text × Text) (count : Nat) : Option (List Text) :=
  let stored := if cut.1.length ≠ count then cut.1 ++ [cut.2] else cut.1
  if stored.length = count then some stored else none

def smsiSplit (s : Text) : Option (List Text) :=
  collected (cutFields delim false true [] s) (countFields delim false true s)

def fields (s : Text) : List Text := (s.splitOnP delim).filter (· ≠ [])
def firstField (s : Text) : Text := (s.dropWhile delim).takeWhile (fun c => !delim c)

variable {delim}

theorem fieldsAt {d} (field) (plain : ∀ c ∈ field, delim c = false) (ends : delim d = true) (t) :
    fields delim (field ++ d::t) = [field].filter (· ≠ []) ++ fields delim t := by
  rw [fields,splitOnP_append_cons_of_forall_mem plain d ends,← singleton_append,filter_append]
  rfl

theorem fieldsDelim {d} (ends : delim d = true) (t) : fields delim (d::t) = fields delim t := fieldsAt [] nofun ends t

theorem collectedAll {cut count all} (whole : cut.1 ++ [cut.2].filter (· ≠ []) = all) (size : count = all.length) :
    collected cut count = some all := by
  subst size whole
  by_cases empty : cut.2 = [] <;> simp [collected,empty]

theorem collectedLength {cut count all} (done : collected cut count = some all) : all.length = count := by
  simp only [collected] at done
  generalize (if cut.1.length ≠ count then cut.1 ++ [cut.2] else cut.1) = stored at done
  split at done <;> cases done
  assumption

attribute [simp] countFields cutFields

/- Once a character has cleared trim, both passes meet every field. -/
theorem cutsOpen (run field) (state : run = true ↔ field = []) (plain : ∀ c ∈ field, delim c = false) (t) :
    (cutFields delim run false field t).1 ++ [(cutFields delim run false field t).2].filter (· ≠ []) =
        fields delim (field ++ t) ∧
      countFields delim run false t = (fields delim (field ++ t)).length+(if run then 1 else 0) := by
  induction t generalizing run field with
  | nil =>
    have only : fields delim field = [field].filter (· ≠ []) := by rw [fields,splitOnP_eq_singleton plain]
    rw [append_nil,only]
    cases run with
    | true => simp [state.1 rfl]
    | false => simp [mt state.2 nofun]
  | cons c t ih =>
    by_cases ends : delim c = true
    · obtain ⟨whole,size⟩ := ih true [] (by simp) nofun
      rw [nil_append] at whole size
      rw [fieldsAt field plain ends]
      cases run with
      | true => exact ⟨by simpa [ends,state.1 rfl] using whole,by simpa [ends,state.1 rfl] using size⟩
      | false =>
        have filled := mt state.2 nofun
        refine ⟨?_,by simp [ends,filled,size]⟩
        simpa [ends,filled] using whole
    · have next : ∀ x ∈ field ++ [c], delim x = false := by simpa [ends,or_imp,forall_and] using plain
      obtain ⟨whole,size⟩ := ih false (field ++ [c]) (by simp) next
      rw [append_assoc,singleton_append] at whole size
      cases run with
      | true =>
        cases state.1 rfl
        refine ⟨by simpa [ends] using whole,?_⟩
        simp only [countFields,ends]
        simpa [Nat.add_comm] using size
      | false => exact ⟨by simpa [ends] using whole,by simpa [ends] using size⟩

theorem trimmedCount (delim t) : countFields delim true true t ≤ (fields delim t).length ∧
    ∀ field, (∀ c ∈ field, delim c = false) → countFields delim false true t ≤ (fields delim (field ++ t)).length := by
  induction t with
  | nil => simp
  | cons c t ih =>
    by_cases ends : delim c = true
    · refine ⟨?_,fun field plain => ?_⟩
      · simpa [ends,fieldsDelim ends] using ih.1
      have more := ih.1
      rw [fieldsAt field plain ends,length_append,countFields,if_pos ends]
      omega
    · have other : delim c = false := by simpa using ends
      refine ⟨?_,fun field plain => ?_⟩
      · have unclosed := ih.2 [c] (by simpa using other)
        simpa [ends] using unclosed
      · have next : ∀ x ∈ field ++ [c], delim x = false := by simpa [ends,or_imp,forall_and] using plain
        have size := (cutsOpen false (field ++ [c]) (by simp) next t).2
        simp [ends,size]

attribute [simp] firstField

theorem trimmedRun (delim t) :
    collected (cutFields delim true true [] t) (countFields delim true true t) = some (fields delim t) ↔
    (firstField delim t).length ≠ 1 := by
  induction t with
  | nil => exact iff_of_true rfl nofun
  | cons c t ih =>
    by_cases ends : delim c = true
    · simpa [ends,fieldsDelim ends] using ih
    have other : delim c = false := by simpa using ends
    simp only [cutFields,countFields,other]
    cases t with
    | nil => simp [collected,fields,splitOnP_cons_eq_if_modifyHead,other]
    | cons d t =>
      by_cases ends : delim d = true
      · refine iff_of_false (fun done => ?_) (by simp [other,ends])
        have size := collectedLength done
        have few := (trimmedCount delim t).1
        have position : fields delim (c::d::t) = [[c]] ++ fields delim t := fieldsAt [c] (by simpa using other) ends t
        simp [position,ends] at size
        omega
      · refine iff_of_true ?_ (by simp [other,ends])
        have plain : ∀ x ∈ [c,d], delim x = false := by simpa [other] using ends
        obtain ⟨whole,size⟩ := cutsOpen false _ (by simp) plain t
        exact collectedAll (by simpa [ends] using whole) (by simpa [ends] using size)

theorem splitExactly (delim : Char → Bool) (s : Text) : smsiSplit delim s = some (fields delim s) ↔
    ¬((s.head?.any delim) = true ∧ (firstField delim s).length = 1) := by
  cases s with
  | nil => simp [smsiSplit,collected,fields]
  | cons c t =>
    by_cases ends : delim c = true
    · simpa [smsiSplit,ends,fieldsDelim ends] using trimmedRun delim t
    have plain : ∀ x ∈ [c], delim x = false := by simpa using ends
    obtain ⟨whole,size⟩ := cutsOpen false _ (by simp) plain t
    refine iff_of_true ?_ (by simp [ends])
    exact collectedAll (by simpa [ends] using whole) (by simpa [ends] using size)

end Split

theorem firstFieldLost : smsiSplit (· == ',') (lit ",a,bc") = some [lit "bc"] ∧
    fields (· == ',') (lit ",a,bc") = [lit "a",lit "bc"] := by decide

end Irods.RuleSplit
