import Irods.PathNames

/-! The SQL predicate LIKE. A percent sign matches any text, an underscore any one
character; behind the escape character, if there is one, a character stands for itself. -/
namespace Irods.SqlLike
open CText List

def like (escape : Option Char) : Text → Text → Bool
  | [],v => v.isEmpty
  | [p],v =>
    if some p = escape then false
    else if p = '%' then true
    else match v with
      | [] => false
      | c::v => (p == '_' || p == c) && v.isEmpty
  | p::q::ps,v =>
    if some p = escape then match v with
      | [] => false
      | c::v => q == c && like escape ps v
    else if p = '%' then v.tails.any (like escape (q::ps))
    else match v with
      | [] => false
      | c::v => (p == '_' || p == c) && like escape (q::ps) v

section Steps
variable {escape : Option Char} {p q : Char} {ps v : Text}

theorem likeEscaped (is : some p = escape) :
    like escape (p::q::ps) v = true ↔ ∃ w, v = q::w ∧ like escape ps w = true := by
  cases v with
  | nil => simp [like,is]
  | cons c v =>
    rw [like,if_pos is]
    simp [@eq_comm _ q c]

theorem likeLiteral (other : some p ≠ escape) (plain : p ≠ '%' ∧ p ≠ '_') :
    like escape (p::ps) v = true ↔ ∃ w, v = p::w ∧ like escape ps w = true := by
  cases ps with
  | nil =>
    cases v with
    | nil => simp [like,plain.1]
    | cons c v =>
      rw [like,if_neg other,if_neg plain.1]
      simp [plain.2,like,@eq_comm _ p c]
  | cons q _ =>
    cases v with
    | nil => simp [like,plain.1]
    | cons c v =>
      rw [like,if_neg other,if_neg plain.1]
      simp [plain.2,@eq_comm _ p c]

theorem likePercent (other : some '%' ≠ escape) : like escape ['%'] v = true := by simp [like,other]

end Steps

theorem likeSame {c ps v} (rest : like none ps v = true) : like none (c::ps) (c::v) = true := by
  by_cases percent : c = '%'
  · cases ps with
    | nil => simp [like,percent]
    | cons q ps =>
      rw [like,if_neg (by simp),if_pos percent,any_eq_true]
      exact ⟨v,(mem_tails _ _).mpr (suffix_cons c v),rest⟩
  · cases ps with
    | nil => simpa [like,percent] using rest
    | cons q _ => simpa [like,percent] using rest

theorem likeExtension (t w) : like none (t ++ ['%']) (t ++ w) = true := by
  induction t with
  | nil => exact likePercent (by simp)
  | cons c t ih => exact likeSame ih

def replace (c : Char) (replacement : Text) (t : Text) : Text := t.flatMap (fun d => if d = c then replacement else [d])

/- REPLACE three times: the escape character itself first, then the two wildcards. -/
def escapeWildcards (t : Text) : Text :=
  replace '_' ['\\','_'] (replace '%' ['\\','%'] (replace '\\' ['\\','\\'] t))

def special (c : Char) : Bool := c == '\\' || c == '%' || c == '_'

theorem replaceAppend (c replacement a b) :
    replace c replacement (a ++ b) = replace c replacement a ++ replace c replacement b := by
  simp [replace]

theorem escapeWildcardsCons (c t) : escapeWildcards (c::t) =
    (if special c then ['\\',c] else [c]) ++ escapeWildcards t := by
  have head : escapeWildcards (c::t) = escapeWildcards [c] ++ escapeWildcards t := by
    rw [← singleton_append,escapeWildcards,replaceAppend,replaceAppend,replaceAppend]
    rfl
  rw [head]
  congr 1
  by_cases backslash : c = '\\'
  · subst c; decide
  by_cases percent : c = '%'
  · subst c; decide
  by_cases underscore : c = '_'
  · subst c; decide
  · simp [escapeWildcards,replace,special,backslash,percent,underscore]

theorem likeEscapedText (t rest v) : like (some '\\') (escapeWildcards t ++ rest) v = true ↔
    ∃ w, v = t ++ w ∧ like (some '\\') rest w = true := by
  induction t generalizing v with
  | nil => simp [escapeWildcards,replace]
  | cons c t ih =>
    have step : like (some '\\') (escapeWildcards (c::t) ++ rest) v = true ↔
        ∃ w, v = c::w ∧ like (some '\\') (escapeWildcards t ++ rest) w = true := by
      rw [escapeWildcardsCons]
      by_cases wild : special c
      · rw [if_pos wild]
        exact likeEscaped rfl
      rw [if_neg wild]
      have plain : c ≠ '\\' ∧ c ≠ '%' ∧ c ≠ '_' := by
        simpa [special,and_assoc] using wild
      exact likeLiteral (by simpa using plain.1) plain.2
    rw [step]
    constructor
    · rintro ⟨w,rfl,matched⟩
      obtain ⟨x,rfl,last⟩ := (ih w).mp matched
      exact ⟨x,rfl,last⟩
    · rintro ⟨x,rfl,last⟩
      exact ⟨t ++ x,rfl,(ih _).mpr ⟨x,rfl,last⟩⟩

end Irods.SqlLike

/-! R_COLL_MAIN: its rows, and how the statements of db_plugin.cpp select the collections at and below a path. -/
namespace Irods.CollMain
open CText SqlLike PathNames List

structure CollRow where
  collId : Int
  parentCollName : Text
  collName : Text
  inheritance : Bool
  deriving DecidableEq, Repr

def makeEscapedPath (inPath : Text) : Text := inPath.flatMap fun c => if special c then ['\\',c] else [c]

-- coll_name = ? or coll_name like ?
def selects (pathName collName : Text) : Bool :=
  collName == pathName || like (some '\\') (makeEscapedPath pathName ++ lit "/%") collName

theorem escapedPath (t) : makeEscapedPath t = escapeWildcards t := by
  induction t with
  | nil => rfl
  | cons c t ih => rw [escapeWildcardsCons,← ih,makeEscapedPath,flatMap_cons,makeEscapedPath]

theorem selectsExactly (pathName collName) : selects pathName collName = true ↔ AtOrBeneath pathName collName := by
  have child : ∀ w, like (some '\\') (lit "/%") w = true ↔ ∃ v, w = '/'::v := fun w =>
    (likeLiteral (by decide) (by decide)).trans (exists_congr fun v => and_iff_left (likePercent (by decide)))
  simp only [selects,Bool.or_eq_true,beq_iff_eq,escapedPath,likeEscapedText,child]
  refine or_congr .rfl ⟨?_,?_⟩
  · rintro ⟨_,rfl,v,rfl⟩
    exact ⟨v,by simp⟩
  · rintro ⟨v,rfl⟩
    exact ⟨'/'::v,by simp,v,rfl⟩

end Irods.CollMain
