import Irods.UnpackStruct
import Irods.PackDouble

/-! packStruct over a tree of field values. A value that does not have the shape the
instruction asks for is memory of another kind, and reading it is wild. -/
namespace Irods.PackMessage
open CText StringOpr PackStruct

def SYS_INTERNAL_NULL_INPUT_ERR : Int := -24000

-- The text, and where in it the pointers begin that are not NULL.
structure Packed where
  text : Text
  starts : List Nat
  deriving DecidableEq, Repr

def Packed.nil : Packed := ⟨[],[]⟩
def Packed.of (text : Text) : Packed := ⟨text,[]⟩
def Packed.append (a b : Packed) : Packed := ⟨a.text ++ b.text,a.starts ++ b.starts.map (·+a.text.length)⟩
def Packed.started (p : Packed) : Packed := ⟨p.text,0::p.starts⟩

-- The number of buffers not packed so far, and how far the read pointer is behind the
-- end of the field just read. What a field that is not a string reads from there
-- depends on the padding, and is taken as wild.
structure Source where
  nopack : Nat
  past : Nat
  deriving DecidableEq, Repr

def networkOrder : Nat → Nat → Text
  | 0,_ => []
  | size+1,v => networkOrder size (v/256) ++ [Char.ofNat (v%256)]

def inRange (typeInx : PackType) (z : Int) : Bool :=
  -((256^numberSize typeInx : Nat) : Int) ≤ 2*z ∧ 2*z < ((256^numberSize typeInx : Nat) : Int)

def window : PackType → Nat
  | .PACK_DOUBLE_TYPE => 20
  | _ => 12

def packNumbers (ctx : Context) (typeInx : PackType) (name : Text) (zs : List Int) : Text :=
  match ctx.prot with
  | .XML_PROT => packXmlNumbers (window typeInx) name zs
  | .NATIVE_PROT =>
      zs.flatMap (fun z : Int => networkOrder (numberSize typeInx) (z % ((256^numberSize typeInx : Nat) : Int)).toNat)

def packChar (ctx : Context) (typeInx : PackType) (name bytes : Text) : Text :=
  if bytes = [] then []
  else match ctx.prot with
    | .NATIVE_PROT => bytes
    | .XML_PROT => tagText name .start ++
        ((if typeInx = .PACK_BIN_TYPE then Base64.encode (bytes.map Char.toNat) else bytes) ++ tagText name .finish)

def packString (ctx : Context) (maxStrLen : Option Nat) (name s : Text) : Except Fault Text :=
  if nul ∈ s then .error .wild
  else if tooLong maxStrLen s then .error (.code USER_PACKSTRUCT_INPUT_ERR)
  else match ctx.prot with
    | .NATIVE_PROT => .ok (s ++ [nul])
    | .XML_PROT => .ok (tagText name .start ++ (strToXmlStr s ctx.peer ++ tagText name .finish))

def packStrings (ctx : Context) (maxStrLen : Option Nat) (name : Text) : List Text → Except Fault Text
  | [] => .ok []
  | s::ss => match packString ctx maxStrLen name s with
    | .error e => .error e
    | .ok t => match packStrings ctx maxStrLen name ss with
      | .error e => .error e
      | .ok ts => .ok (t ++ ts)

-- After a string up to its NUL the XML routine moves the read pointer by the length of
-- the escaped string.
def pastString (ctx : Context) (maxStrLen : Option Nat) (s : Text) : Nat :=
  match ctx.prot,maxStrLen with
  | .XML_PROT,none => (strToXmlStr s ctx.peer).length-s.length
  | _,_ => 0

abbrev PackChild := PackItem → Chain → Nat → List (List Value) → Source → Except Fault (Packed × Source)
abbrev PackedItem := Except Fault (Packed × PackItem × Source)

def packInlineStrings (ctx : Context) (item : PackItem) (d : Dims) (ss : List Text) (src : Source) : PackedItem :=
  match strShape d.dimSize with
  | none => .error .wild
  | some (maxStrLen,numStr) =>
    -- a pointer past the start of a string up to its NUL reads the rest of it
    let read := if maxStrLen = none then ss.map (·.drop src.past) else ss
    if ss.length ≠ numStr ∨ (src.past ≠ 0 ∧ (maxStrLen ≠ none ∨ (ss.headD []).length < src.past)) then .error .wild
    else match packStrings ctx maxStrLen item.name read with
      | .error e => .error e
      | .ok t =>
        let saved := if numStr = 1 ∧
        item.typeInx = .PACK_PI_STR_TYPE then boundedCopy NAME_LEN (read.headD []) else item.strValue
        .ok (.of t,{item with strValue := saved},⟨src.nopack,pastString ctx maxStrLen (read.headD [])⟩)

def packNonpointerItem (ctx : Context) (child : PackChild) (c : Chain) (item : PackItem) (d : Dims) (v : Value)
    (src : Source) :
    PackedItem :=
  match item.typeInx,v with
  | .PACK_CHAR_TYPE,.bytes bs | .PACK_BIN_TYPE,.bytes bs =>
    if bs.length ≠ d.numElement ∨ src.past ≠ 0 then .error .wild
    else .ok (.of (packChar ctx item.typeInx item.name bs),item,src)
  | .PACK_STR_TYPE,.strs ss | .PACK_PI_STR_TYPE,.strs ss => packInlineStrings ctx item d ss src
  | .PACK_INT_TYPE,.ints zs | .PACK_INT16_TYPE,.ints zs | .PACK_DOUBLE_TYPE,.ints zs =>
    if zs.length ≠ d.numElement ∨ !zs.all (inRange item.typeInx) ∨ src.past ≠ 0 then .error .wild
    else
      let intValue := if item.typeInx = .PACK_DOUBLE_TYPE then item.intValue else max 0 (zs.headD 0)
      .ok (.of (packNumbers ctx item.typeInx item.name zs),{item with intValue},src)
  | .PACK_STRUCT_TYPE,.structs es =>
    match child item c d.numElement es src with
    | .error e => .error e
    | .ok (p,src) => .ok (p,item,src)
  | .PACK_DEPENDENT_TYPE,_ | .PACK_INT_DEPENDENT_TYPE,_ => .error (.code SYS_PACK_INSTRUCT_FORMAT_ERR)
  | _,_ => .error .wild

/-! Pointers. In an array a pointer can be NULL by itself. -/
def packStringTarget (ctx : Context) (item : PackItem) (d : Dims) : Value → Except Fault Packed
  | .strs ss =>
    if ss.length ≠ (hintShape d.hintDimSize).2 then .error .wild
    else (packStrings ctx (hintShape d.hintDimSize).1 item.name ss).map .of
  | .null => match ctx.prot with
    | .XML_PROT => .error (.code SYS_INTERNAL_NULL_INPUT_ERR)
    | .NATIVE_PROT => if (hintShape d.hintDimSize).2 = 1 then .ok (.of [nul]) else .error .wild
  | _ => .error .wild

-- For a NULL the bytes are zeros, and they are not encoded.
def packNullChar (ctx : Context) (name : Text) (len : Nat) : Text :=
  packChar ctx .PACK_CHAR_TYPE name (List.replicate len nul)

-- The buffer is put aside, and its index packed.
def packNopackPointer (ctx : Context) (name : Text) (nopack : Nat) : Packed × Nat :=
  (.of (packNumbers ctx .PACK_INT_TYPE name [(nopack : Int)]),nopack+1)

def packCharTarget (ctx : Context) (item : PackItem) (d : Dims) (nopack : Nat) (v : Value) :
    Except Fault (Packed × Nat) :=
  match v with
  | .bytes bs =>
    if item.pointerType = .NO_PACK_POINTER ∨ bs.length ≠ d.numHintElement then .error .wild
    else .ok (.of (packChar ctx item.typeInx item.name bs),nopack)
  | .null =>
    if item.pointerType = .NO_PACK_POINTER then .ok (packNopackPointer ctx item.name nopack)
    else .ok (.of (packNullChar ctx item.name d.numHintElement),nopack)
  | .unpacked =>
    if item.pointerType = .NO_PACK_POINTER then .ok (packNopackPointer ctx item.name nopack) else .error .wild
  | _ => .error .wild

def packNumberTarget (ctx : Context) (item : PackItem) (d : Dims) : Value → Except Fault Packed
  | .ints zs =>
    if zs.length ≠ d.numHintElement ∨ !zs.all (inRange item.typeInx) then .error .wild
    else .ok (.of (packNumbers ctx item.typeInx item.name zs))
  | .null => match ctx.prot with
    | .XML_PROT => .ok .nil
    | .NATIVE_PROT => .ok (.of (packNumbers ctx item.typeInx item.name (List.replicate d.numHintElement 0)))
  | _ => .error .wild

def packTarget (ctx : Context) (child : PackChild) (c : Chain) (item : PackItem) (d : Dims) (nopack : Nat) (v : Value) :
    Except Fault (Packed × Nat) :=
  match item.typeInx with
  | .PACK_CHAR_TYPE | .PACK_BIN_TYPE => packCharTarget ctx item d nopack v
  | .PACK_STR_TYPE | .PACK_PI_STR_TYPE =>
    if d.hintDimSize ≠ [] ∧ (d.numHintElement = 0 ∨ d.hintDimSize.getLast? = some 0) then .ok (.nil,nopack)
    else (packStringTarget ctx item d v).map (·,nopack)
  | .PACK_INT_TYPE | .PACK_INT16_TYPE | .PACK_DOUBLE_TYPE => (packNumberTarget ctx item d v).map (·,nopack)
  | .PACK_STRUCT_TYPE => match v with
    | .structs es => match child item c d.numHintElement es ⟨nopack,0⟩ with
      | .error e => .error e
      | .ok (p,src) => .ok (p,src.nopack)
    | _ => .error .wild
  | .PACK_DEPENDENT_TYPE | .PACK_INT_DEPENDENT_TYPE => .error (.code SYS_PACK_INSTRUCT_FORMAT_ERR)

def packTargets (ctx : Context) (child : PackChild) (c : Chain) (item : PackItem) (d : Dims) : Nat → List Value →
    Except Fault (Packed × Nat)
  | nopack,[] => .ok (.nil,nopack)
  | nopack,v::vs => match packTarget ctx child c item d nopack v with
    | .error e => .error e
    | .ok (p,nopack) => match packTargets ctx child c item d nopack vs with
      | .error e => .error e
      | .ok (q,nopack) => .ok (p.append q,nopack)

def packPointerItem (ctx : Context) (child : PackChild) (c : Chain) (item : PackItem) (d : Dims) (v : Value)
    (nopack : Nat) :
    PackedItem :=
  match v with
  | .null => .ok (.of (if ctx.prot = .NATIVE_PROT then NULL_PTR_PACK_STR ++ [nul] else []),item,⟨nopack,0⟩)
  | .pointer t =>
    if d.dimSize ≠ [] then .error .wild
    else match packTarget ctx child c item d nopack t with
      | .error e => .error e
      | .ok (p,nopack) =>
        let saved := if item.typeInx = .PACK_PI_STR_TYPE then boundedCopy NAME_LEN (firstString t) else item.strValue
        .ok (p.started,{item with strValue := saved},⟨nopack,0⟩)
  | .array ts =>
    if d.dimSize = [] ∨ ts.length ≠ d.numElement then .error .wild
    else match packTargets ctx child c item d nopack ts with
      | .error e => .error e
      | .ok (p,nopack) => .ok (p.started,item,⟨nopack,0⟩)
  | _ => .error .wild

def isNull : Value → Bool
  | .null => true
  | _ => false

def packItem (ctx : Context) (child : PackChild) (c : Chain) (item : PackItem) (v : Value) (src : Source) :
    PackedItem :=
  match resolvePackedItem item c (isNull v) with
  | .error e => .error (.code e)
  | .ok (resolved,d) =>
    if resolved.pointerType = .NON_POINTER then packNonpointerItem ctx child (c.kept item) resolved d v src
    else if src.past ≠ 0 then .error .wild
    else packPointerItem ctx child (c.kept item) resolved d v src.nopack

def packItems (ctx : Context) (child : PackChild) :
    List PackItem → Chain → List Value → Source → Except Fault (Packed × Source)
  | [],_,[],src => .ok (.nil,src)
  | item::items,c,v::vs,src => match packItem ctx child c item v src with
    | .error e => .error e
    | .ok (p,done,src) => match packItems ctx child items ((c.kept item).push done) vs src with
      | .error e => .error e
      | .ok (q,src) => .ok (p.append q,src)
  | _,_,_,_ => .error .wild

def packElements (ctx : Context) (child : PackChild) (name : Text) (inner : Chain) (items : List PackItem) :
    List (List Value) → Source → Except Fault (Packed × Source)
  | [],src => .ok (.nil,src)
  | vs::es,src => match packItems ctx child items inner vs src with
    | .error e => .error e
    | .ok (p,src) => match packElements ctx child name inner items es src with
      | .error e => .error e
      | .ok (q,src) =>
        let element := if ctx.prot = .XML_PROT then
            ((Packed.of (tagText name .startLine)).append p).append (.of (tagText name .finish))
          else p
        .ok (element.append q,src)

def packChildStruct (ctx : Context) : Nat → PackChild
  | 0,_,_,_,_,_ => .error .deep
  | fuel+1,myPackedItem,c,numElement,es,src =>
    if es.length ≠ numElement then .error .wild
    else if numElement = 0 then .ok (.nil,src)
    else match ctx.matchPackInstruct myPackedItem.name with
      | none => .error (.code SYS_UNMATCH_PACK_INSTRUCTI_NAME)
      | some packInstruct => match parsePackInstruct packInstruct with
        | .error e => .error (.code e)
        | .ok items => packElements ctx (packChildStruct ctx fuel) myPackedItem.name
            (c.inside myPackedItem) items es src

def packStruct (ctx : Context) (fuel : Nat) (packInstName : Text) (vs : List Value) : Except Fault Packed :=
  (packChildStruct ctx fuel (rootItem packInstName) ⟨[],[]⟩ 1 [vs] ⟨0,0⟩).map Prod.fst

end Irods.PackMessage
