import Irods.PackText

/-! What xmlStrToStr makes of a value, against the replacement of each entity by its
character. -/
namespace Irods.PackStruct
open CText List

-- Each entity its character, every other character as it is.
def decodeEntities (correct : Bool) : Nat → Text → Text
  | _,[] => []
  | skip+1,_::rest => decodeEntities correct skip rest
  | 0,c::rest =>
    if c = '&' then
      match entity correct rest with
      | some (d,width) => d::decodeEntities correct width rest
      | none => c::decodeEntities correct 0 rest
    else c::decodeEntities correct 0 rest

-- No ampersand begins an entity.
def entityFree (correct : Bool) : Text → Bool
  | [] => true
  | c::rest => (c != '&' || (entity correct rest).isNone) && entityFree correct rest

/- The first ampersand that begins no entity, if there is one, stands at the start or
directly behind an entity, and no entity comes after it. -/
def bareInPlace (correct : Bool) : Bool → Nat → Text → Bool
  | _,_,[] => true
  | fresh,skip+1,_::rest => bareInPlace correct fresh skip rest
  | fresh,0,c::rest =>
    if c = '&' then
      match entity correct rest with
      | some (_,width) => bareInPlace correct true width rest
      | none => fresh && entityFree correct rest
    else bareInPlace correct false 0 rest

theorem decodeShorter (correct skip s) : (decodeEntities correct skip s).length ≤ s.length := by
  induction s generalizing skip with
  | nil => simp [decodeEntities]
  | cons c _ ih =>
    cases skip with
    | succ skip =>
      have tail := ih skip
      rw [decodeEntities,length_cons]
      omega
    | zero =>
      rw [decodeEntities]
      split
      · split
        · rename_i width _
          have tail := ih width
          simp only [length_cons]
          omega
        · have tail := ih 0
          simp only [length_cons]
          omega
      · have tail := ih 0
        simp only [length_cons]
        omega

theorem skipShorter {correct skip} (some : 0 < skip) {s} (there : s ≠ []) :
    (decodeEntities correct skip s).length < s.length := by
  cases s with
  | nil => contradiction
  | cons c rest =>
    cases skip with
    | zero => exact absurd some (Nat.lt_irrefl 0)
    | succ skip =>
      have tail := decodeShorter correct skip rest
      rw [decodeEntities,length_cons]
      omega

theorem entityWidth {correct rest d width} (found : entity correct rest = some (d,width)) :
    0 < width ∧ rest ≠ [] := by
  unfold entity at found
  refine ⟨?_,?_⟩
  · repeat' split at found
    all_goals cases found
    all_goals decide
  · rintro rfl
    cases found

theorem decodeSame (correct s) : decodeEntities correct 0 s = s ↔ entityFree correct s = true := by
  induction s with
  | nil => simp [decodeEntities,entityFree]
  | cons c rest ih =>
    rw [decodeEntities,entityFree]
    by_cases mark : c = '&'
    · subst mark
      simp only [if_true]
      cases found : entity correct rest with
      | none => simp [ih]
      | some e =>
        obtain ⟨d,width⟩ := e
        obtain ⟨positive,there⟩ := entityWidth found
        have short := @skipShorter correct width positive rest there
        simp only [Option.isNone_some,Bool.or_false,bne_self_eq_false,Bool.false_and,Bool.false_eq_true,iff_false]
        intro same
        have lengths := congrArg List.length same
        simp only [length_cons] at lengths
        omega
    · simp [mark,ih]

theorem loopExactly (correct) {pending} (plain : '&' ∉ pending) (skip s) :
    xmlStrLoop correct pending skip s = pending ++ decodeEntities correct skip s ↔
      bareInPlace correct pending.isEmpty skip s = true := by
  induction s generalizing pending skip with
  | nil => simp [xmlStrLoop,decodeEntities,bareInPlace]
  | cons c rest ih =>
    cases skip with
    | succ skip =>
      exact ih plain skip
    | zero =>
      rw [xmlStrLoop,decodeEntities,bareInPlace]
      by_cases mark : c = '&'
      · subst mark
        simp only [if_true]
        cases found : entity correct rest with
        | none =>
          cases pending with
          | nil =>
            have same := decodeSame correct rest
            simp only [nil_append,List.cons.injEq,true_and]
            exact ⟨fun back => same.mp back.symm,fun free => (same.mpr free).symm⟩
          | cons p pending =>
            have other : p ≠ '&' := fun bad => plain (bad ▸ mem_cons_self)
            simp [other]
        | some e =>
          obtain ⟨d,width⟩ := e
          have later := @ih [] not_mem_nil width
          simpa using later
      · have still : '&' ∉ pending ++ [c] := by
          simp only [mem_append,mem_singleton,not_or]
          exact ⟨plain,fun bad => mark bad.symm⟩
        have later := ih still 0
        have more : (pending ++ [c]).isEmpty = false := by cases pending <;> rfl
        rw [more,append_assoc] at later
        rw [if_neg mark,if_neg mark,if_neg mark]
        exact later

theorem decodedExactly (value : Text) (peer : Option Version) :
    xmlStrToStr value peer = decodeEntities (useCorrectXmlEncoding peer) 0 value ↔
      bareInPlace (useCorrectXmlEncoding peer) true 0 value = true := by
  have loop := @loopExactly (useCorrectXmlEncoding peer) [] not_mem_nil 0 value
  exact loop

theorem bareAmpersand :
    xmlStrToStr (lit "R&D &lt;1>") none = lit "RR&D &lt;1>" ∧
    decodeEntities false 0 (lit "R&D &lt;1>") = lit "R&D <1>" := by
      decide

end Irods.PackStruct
