import Irods.PathNames

/-! boost::filesystem::path on POSIX, version 3: how a text is parsed, the elements an
iteration visits, and lexically_normal. Two slashes that no third one follows begin a
root name; a separator at the end of a path with names stands for an element dot. -/
namespace Irods.BoostPath
open CText PathNames List

structure Path where
  rootName : Text
  rootDirectory : Bool
  names : List Text
  trailing : Bool
  deriving DecidableEq, Repr

def rootNameOf : Text → Text
  | ['/','/'] => ['/','/']
  | '/' :: '/'::c::t => if c = '/' then [] else '/' :: '/'::(c::t).takeWhile (· ≠ '/')
  | _ => []

def parse (t : Text) : Path :=
  let root := rootNameOf t
  let rest := t.drop root.length
  ⟨root,rest.head? == some '/',names rest,!(names rest).isEmpty && rest.getLast? == some '/'⟩

def dot : Text := ['.']
def dotDot : Text := ['.','.']

def elements (p : Path) : List Text :=
  (if p.rootName.isEmpty then [] else [p.rootName]) ++ (if p.rootDirectory then [['/']] else []) ++
    p.names ++ (if p.trailing then [dot] else [])

def pushed (stack : List Text) (n : Text) : List Text :=
  if n = dot then stack
  else if n = dotDot ∧ ∃ last ∈ stack.getLast?, last ≠ dotDot then stack.dropLast
  else stack ++ [n]

def lexicallyNormal (p : Path) : Path :=
  if p.names.isEmpty then p
  else
    let stack := p.names.foldl pushed []
    let empty := p.rootName.isEmpty && !p.rootDirectory && stack.isEmpty
    let dotted := p.trailing || p.names.getLast? == some dot
    ⟨p.rootName,p.rootDirectory,if empty || dotted then stack ++ [dot] else stack,false⟩

def Plain (p : Path) : Prop := dot ∉ elements p ∧ dotDot ∉ elements p

instance (p) : Decidable (Plain p) := by unfold Plain; infer_instance

theorem pushedPlain {stack ns : List Text} (plain : ∀ n ∈ ns, n ≠ dot ∧ n ≠ dotDot) :
    ns.foldl pushed stack = stack ++ ns := by
  induction ns generalizing stack with
  | nil => simp
  | cons n _ ih =>
    have first := plain n mem_cons_self
    rw [foldl_cons,ih fun m member => plain m (mem_cons_of_mem n member),pushed,if_neg first.1,
      if_neg fun both => first.2 both.1]
    simp

theorem plainNames {p} (plain : Plain p) : ∀ n ∈ p.names, n ≠ dot ∧ n ≠ dotDot := by
  intro n member
  have inside : n ∈ elements p := by simp [elements,member]
  exact ⟨fun same => plain.1 (same ▸ inside),fun same => plain.2 (same ▸ inside)⟩

theorem plainEnds {p} (plain : Plain p) : p.trailing = false := by
  by_contra ends
  exact plain.1 (by simp [elements,ends])

theorem normalPlain {p} (rooted : p.rootDirectory) (plain : Plain p) : lexicallyNormal p = p := by
  unfold lexicallyNormal
  split
  · rfl
  have last : ¬p.names.getLast? = some dot := by
    intro found
    exact (plainNames plain dot (mem_of_getLast? found)).1 rfl
  have ends := plainEnds plain
  simp only [pushedPlain (plainNames plain)]
  cases p
  simp_all

end Irods.BoostPath
