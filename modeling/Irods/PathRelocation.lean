import Mathlib

/-! Moving a subtree of paths. A path is the list of its names; what lies at or below one path
goes below another. -/
namespace Irods.PathRelocation
open List

section Closed
variable {α : Type} {S : List α → Prop} (closed : ∀ p, S p → S p.dropLast)
include closed

theorem ancestorIn {p q} (above : q <+: p) (here : S p) : S q := by
  obtain ⟨rest,rfl⟩ := above
  induction rest using List.reverseRecOn with
  | nil => simpa using here
  | append_singleton _ _ ih =>
    have up := closed _ here
    rw [← append_assoc,dropLast_concat] at up
    exact ih up

theorem freeBelow {new p} (free : ¬S new) (here : S p) : ¬new <+: p :=
  fun above => free (ancestorIn closed above here)

end Closed

variable {α : Type} [DecidableEq α]

def relocate (old new p : List α) : List α := if old <+: p then new ++ p.drop old.length else p

theorem relocateBelow (old new rest : List α) : relocate old new (old ++ rest) = new ++ rest := by
  simp [relocate]

theorem relocateOther {old new p : List α} (outside : ¬old <+: p) : relocate old new p = p := if_neg outside

theorem relocateSelf (old new : List α) : relocate old new old = new := by
  simpa using relocateBelow old new []

theorem relocateParent {old new p : List α} (other : p ≠ old) :
    relocate old new p.dropLast = (relocate old new p).dropLast := by
  by_cases inside : old <+: p
  · obtain ⟨rest,rfl⟩ := inside
    have nonempty : rest ≠ [] := fun none => other (by simp [none])
    rw [dropLast_append_of_ne_nil nonempty,relocateBelow,relocateBelow,dropLast_append_of_ne_nil nonempty]
  · have outside : ¬old <+: p.dropLast := fun prefixed => inside (prefixed.trans ( dropLast_prefix p))
    rw [relocateOther inside,relocateOther outside]

section Free
variable {S : List α → Prop} {new : List α} (free : ∀ p, S p → ¬new <+: p)
include free

theorem relocateLeaf {old k p} {leaf} (here : S k) (there : S p)
    (same : relocate old new p = relocate old new k ++ [leaf]) : p = k ++ [leaf] ∨ p = old ∧ new = k ++ [leaf] := by
  by_cases first : old <+: k <;> by_cases second : old <+: p
  · obtain ⟨a,rfl⟩ := first
    obtain ⟨b,rfl⟩ := second
    rw [relocateBelow,relocateBelow,append_assoc] at same
    rw [append_cancel_left same,append_assoc]
    exact .inl rfl
  · obtain ⟨a,rfl⟩ := first
    rw [relocateBelow,relocateOther second,append_assoc] at same
    exact absurd ⟨_,same.symm⟩ (free p there)
  · obtain ⟨b,rfl⟩ := second
    rw [relocateBelow,relocateOther first] at same
    rcases eq_nil_or_concat b with rfl | ⟨b',_,rfl⟩
    · exact .inr ⟨append_nil old,by simpa using same⟩
    · rw [concat_eq_append,← append_assoc] at same
      exact absurd ⟨b',append_inj_left' same rfl⟩ (free k here)
  · rw [relocateOther first,relocateOther second] at same
    exact .inl same

end Free

end Irods.PathRelocation
