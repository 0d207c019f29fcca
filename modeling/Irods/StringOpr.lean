import Irods.CText

/-! The bounded string writers of stringOpr.cpp. A destination is the text it
holds and the size of its array; a failed write returns NULL, here false, next
to what is left in the destination. -/
namespace Irods.StringOpr
open CText List

def NAME_LEN : Nat := 64
def MAX_NAME_LEN : Nat := 1024+64

-- A source too long is cut to maxLen-1 bytes, and the caller is told.
def rstrcpy (src : Text) (maxLen : Nat) : Text × Bool :=
  (boundedCopy maxLen src,decide (src.length < maxLen))

-- The two appends leave the destination alone when the source does not fit.
def rstrcat (dest src : Text) (maxLen : Nat) : Text × Bool :=
  if dest.length+src.length ≥ maxLen then (dest,false) else (dest++src,true)

def rstrncat (dest src : Text) (len maxLen : Nat) : Text × Bool :=
  if dest.length+len ≥ maxLen then (dest,false) else (dest++src.take len,true)

theorem rstrcpyFits {src maxLen} (fits : src.length < maxLen) :
    rstrcpy src maxLen = (src,true) := by
  simp [rstrcpy,boundedCopyFits fits,fits]

/- A chain of rstrcat calls that gives up at the first one that does not fit. -/
def rstrcats (dest : Text) (maxLen : Nat) : List Text → Text × Bool
  | [] => (dest,true)
  | t::ts => if (rstrcat dest t maxLen).2 then rstrcats (rstrcat dest t maxLen).1 maxLen ts else (dest,false)

theorem rstrcatsDone {dest maxLen ts} (ok : (rstrcats dest maxLen ts).2 = true) :
    (rstrcats dest maxLen ts).1 = dest ++ ts.flatten := by
  induction ts generalizing dest with
  | nil => simp [rstrcats]
  | cons t _ ih =>
    unfold rstrcats at ok ⊢
    split at ok
    · rename_i fits
      rw [if_pos fits,ih ok]
      unfold rstrcat at fits ⊢
      split at fits
      · contradiction
      · rename_i room
        rw [if_neg room,flatten_cons,append_assoc]
    · contradiction

theorem rstrcatsFits {dest maxLen ts} (room : dest.length < maxLen) :
    (rstrcats dest maxLen ts).2 = true ↔ (dest ++ ts.flatten).length < maxLen := by
  induction ts generalizing dest with
  | nil => simpa [rstrcats] using room
  | cons t _ ih =>
    unfold rstrcats rstrcat
    by_cases fits : dest.length+t.length ≥ maxLen
    · simp only [if_pos fits,Bool.false_eq_true,if_false,false_iff,flatten_cons,length_append]
      omega
    · simp only [if_neg fits,if_true]
      rw [ih (by simp only [length_append]; omega),flatten_cons,append_assoc]

theorem rstrcatsPart (dest maxLen ts) :
    ∃ k, (rstrcats dest maxLen ts).1 = dest ++ (ts.take k).flatten := by
  induction ts generalizing dest with
  | nil => exact ⟨0,by simp [rstrcats]⟩
  | cons t _ ih =>
    unfold rstrcats rstrcat
    by_cases fits : dest.length+t.length ≥ maxLen
    · exact ⟨0,by simp [fits]⟩
    obtain ⟨k,same⟩ := ih (dest ++ t)
    refine ⟨k+1,?_⟩
    simpa [fits] using same

end Irods.StringOpr
