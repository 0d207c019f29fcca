import Irods.GenQuery1Forms

/-! What the search for links and the renaming of repeated tables can do to a query. -/
namespace Irods.GenQuery1Links
open CText StringOpr GenQuery1Setup GenQuery1Tables GenQuery1Conditions GenQuery1Generate GenQuery1Forms List

def Scan.query : Scan → Query
  | .returned _ q => q
  | .running _ q => q

section search
variable {s : Setup} {P : Query → Prop}

theorem followLinksKeeps (links : ∀ l ∈ s.links, ∀ q, P q → P (useLink s l q).2)
    {visit}
    (visits : ∀ table i q k q', visit table i q = some (k,q') → P q → P q')
    {table link forward ls} (inside : ∀ x ∈ ls, x.1 ∈ s.links)
    {thisKeep q r} (run : followLinks s visit table link forward ls thisKeep q = some r)
    (held : P q) : P (Scan.query r) := by
  induction ls generalizing thisKeep q with
  | nil =>
    cases run
    exact held
  | cons x _ ih =>
    obtain ⟨l,i⟩ := x
    have later := (forall_mem_cons.mp inside).2
    unfold followLinks at run
    split at run
    · split at run
      · cases run
      rename_i q' visited
      have kept := visits _ _ _ _ _ visited held
      split at run
      · exact ih later run kept
      have used := links l (inside (l,i) mem_cons_self) q' kept
      dsimp only at run
      split at run
      · cases run
        exact used
      split at run
      · cases run
        exact used
      · exact ih later run used
    · exact ih later run held

theorem tScanKeeps (links : ∀ l ∈ s.links, ∀ q, P q → P (useLink s l q).2)
    (flags : ∀ q flag nToFind, P q → P { q with flag := flag, nToFind := nToFind })
    {n table link q q' k} (run : tScan s n table link q = some (k,q'))
    (held : P q) : P q' := by
  induction n generalizing table link q k q' with
  | zero => cases run
  | succ n ih =>
    have all : ∀ x ∈ s.links.zipIdx, x.1 ∈ s.links := by
      intro x mem
      exact (mem_zipIdx' mem).2 ▸ getElem_mem _
    have visits : ∀ table i q k q', tScan s n table (some i) q = some (k,q') → P q → P q' :=
      fun _ _ _ _ _ visited => ih visited
    have arrived : P (arrive q table) := by
      unfold arrive
      split
      · exact flags _ _ _ held
      · exact held
    have started : P (leave (arrive q table) table) := flags _ _ _ arrived
    unfold tScan at run
    dsimp only at run
    split at run
    · cases run
      exact arrived
    split at run
    · cases run
      exact held
    split at run
    · cases run
      exact arrived
    split at run
    · cases run
    · rename_i r forward
      cases run
      exact followLinksKeeps links visits all forward started
    · rename_i r forward
      have one := followLinksKeeps links visits all forward started
      split at run
      · cases run
      · rename_i backward
        cases run
        exact followLinksKeeps links visits all backward one
      · rename_i backward
        cases run
        exact followLinksKeeps links visits all backward one

end search

def shape (c : Char) : Char := if c.isLower || c.isDigit || c == '_' || c == '.' then 'x' else c
def shapeOf (t : Text) : Text := t.map shape

theorem replaceShape {w new i} (fresh : ∀ c ∈ new, shape c = 'x')
    (old : replicate new.length 'x' <+: (shapeOf w).drop i) : shapeOf (replaceAt w i new) = shapeOf w := by
  obtain ⟨rest,same⟩ := old
  have newest := map_eq_replicate_iff.mpr fresh
  have behind : (shapeOf w).drop (i+new.length) = rest := by
    rw [← drop_drop,← same,drop_left' (length_replicate ..)]
  calc shapeOf (replaceAt w i new)
      = (shapeOf w).take i ++ (replicate new.length 'x' ++ (shapeOf w).drop (i+new.length)) := by
        simp [shapeOf,replaceAt,newest]
    _ = shapeOf w := by rw [behind,same,take_append_drop]

def lowered (pattern : Text) : Prop := pattern.all (fun c => shape c == 'x') = true ∧ 16 ≤ pattern.length

theorem loweredChars {pattern} (low : lowered pattern) : ∀ c ∈ pattern, shape c = 'x' :=
  fun c mem => eq_of_beq (all_eq_true.mp low.1 c mem)

theorem foundShape {w pattern i} (low : lowered pattern) (found : strstr w pattern = some i) :
    replicate pattern.length 'x' <+: (shapeOf w).drop i := by
  have start := (strstrFound found).map shape
  rwa [map_eq_replicate_iff.mpr (loweredChars low),map_drop] at start

theorem replicateInside {m n k t} (held : replicate n 'x' <+: t) (fits : k+m ≤ n) :
    replicate m 'x' <+: t.drop k := by
  obtain ⟨_,rfl⟩ := held
  rw [drop_append_of_le_length (by simp only [length_replicate]; omega),drop_replicate]
  have cut : n-k = m+(n-k-m) := by omega
  rw [cut,replicate_add,append_assoc]
  exact prefix_append _ _

theorem twoDigitsShape (i) : ∀ c ∈ ('n'::twoDigits i).take 3, shape c = 'x' := by
  have digit : ∀ c, c.isDigit = true → shape c = 'x' := fun c is => by simp [shape,is]
  intro c mem
  rcases mem_cons.mp (mem_of_mem_take mem) with rfl | later
  · rfl
  unfold twoDigits at later
  split at later
  · rcases mem_cons.mp later with rfl | two
    · rfl
    · exact digit c (Nat.isDigit_of_mem_toDigits (by decide) (by decide) two)
  · exact digit c (Nat.isDigit_of_mem_toDigits (by decide) (by decide) later)

theorem renameNextShape {pattern w} (low : lowered pattern) (i) :
    shapeOf (renameNext pattern w i) = shapeOf w := by
  unfold renameNext
  split
  · rfl
  rename_i found
  refine replaceShape (twoDigitsShape i) ?_
  have here := replicateInside (k := 13) (m := (('n'::twoDigits i).take 3).length) (foundShape low found)
    (by have := low.2; simp only [length_take]; omega)
  rwa [drop_drop] at here

theorem renameShape {pattern w} (low : lowered pattern) (n) :
    shapeOf (renameOccurrences pattern n w) = shapeOf w := by
  unfold renameOccurrences
  split
  · rfl
  rename_i first found
  have start : replicate 1 'x' <+: (shapeOf w).drop first :=
    replicateInside (k := 0) (foundShape low found) (by have := low.2; omega)
  have marked : shapeOf (replaceAt w first ['x']) = shapeOf w := replaceShape (forall_mem_singleton.mpr rfl) start
  have others : ∀ (is : List Nat) t, shapeOf (is.foldl (renameNext pattern) t) = shapeOf t := by
    intro is
    induction is with
    | nil => exact fun _ => rfl
    | cons i _ ih =>
      intro t
      rw [foldl_cons,ih,renameNextShape low]
  rw [replaceShape (forall_mem_singleton.mpr rfl) (by rw [others,marked]; exact start),others,marked]

end Irods.GenQuery1Links
