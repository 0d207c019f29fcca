import Irods.PackNative

/-! packStruct and unpackStruct over whole messages of the native protocol. -/
namespace Irods.PackMessage
open CText StringOpr PackStruct List

def RoundTrips (ctx : Context) (fuel : Nat) (packInstName : Text) (vs : List Value) : Prop :=
  ∃ p visited, packStruct ctx fuel packInstName vs = .ok p ∧
    unpackStruct ctx fuel packInstName p.text = .ok (vs,⟨[],visited⟩)

theorem elementsLength {ctx child item c items n cur cur' es}
    (read : unpackElements ctx child item c items n cur = .ok (es,cur')) : es.length = n := by
  induction n generalizing cur es with
  | zero => cases read; rfl
  | succ n ih =>
    rw [unpackElements] at read
    split at read
    · cases read
    split at read
    · cases read
    rename_i tail
    cases read
    rw [length_cons,ih tail]

theorem structLength {ctx fuel n item c cur cur' es}
    (read : unpackChildStruct ctx fuel item c n cur = .ok (es,cur')) : es.length = n := by
  cases fuel with
  | zero => cases read
  | succ _ =>
    unfold unpackChildStruct at read
    split at read
    · rename_i none
      cases read
      exact none.symm
    split at read
    · cases read
    split at read
    · cases read
    · exact elementsLength read

def shortTable : Context := tableOf .NATIVE_PROT [(lit "Buf_PI",lit "int n; char *a(n); str s[20];")]
def shortValue (bytes s : Text) : List Value := [.ints [(bytes.length : Int)],.pointer (.bytes bytes),.strs [s]]

def shortItems : List PackItem := [
  ⟨.PACK_INT_TYPE,lit "n",.NON_POINTER,0,[]⟩,⟨.PACK_CHAR_TYPE,lit "a(n)",.A_POINTER,0,[]⟩,
    ⟨.PACK_STR_TYPE,lit "s[20]",.NON_POINTER,0,[]⟩]

theorem shortShaped : Shaped shortTable 2 (lit "Buf_PI") (shortValue (lit "abc") (lit "x")) := by
  have parsed : parsePackInstruct (lit "int n; char *a(n); str s[20];") = .ok shortItems := by decide +kernel
  have fits : ∀ s ∈ [lit "x"], StringFits (some 20) s := by
    intro s mem
    cases mem_singleton.mp mem
    exact ⟨by decide,by decide⟩
  refine ⟨rfl,fun _ => ⟨_,shortItems,rfl,parsed,by decide,fun vs mem => ?_⟩⟩
  cases mem_singleton.mp mem
  refine ⟨⟨.PACK_INT_TYPE,lit "n",.NON_POINTER,0,[]⟩,⟨[],[]⟩,rfl,⟨rfl,rfl⟩,
    ⟨.PACK_CHAR_TYPE,lit "a",.A_POINTER,0,[]⟩,⟨[],[3]⟩,rfl,⟨rfl,by decide,rfl,fun bad => nomatch bad⟩,
    ⟨.PACK_STR_TYPE,lit "s",.NON_POINTER,0,[]⟩,⟨[20],[]⟩,rfl,⟨some 20,rfl,fits⟩,trivial⟩

end Irods.PackMessage
