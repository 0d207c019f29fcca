import Irods.PackInstruct
import Irods.Base64

/-! unpackStruct: an instruction followed over a message. What is stored is kept as
a tree of field values, each with what was really written; addresses and padding
are left out. Every leaf that is not behind a pointer is noted with the place in
the message where it was looked for. -/
namespace Irods.PackMessage
open CText StringOpr PackStruct

def NULL_PTR_PACK_STR : Text := lit "%@#ANULLSTR$%"

inductive Prot where
  | NATIVE_PROT
  | XML_PROT
  deriving DecidableEq, Repr

inductive Value where
  | ints (stored : List Int)
  | bytes (stored : Text)
  | strs (stored : List Text)
  | structs (elements : List (List Value))
  | null
  | pointer (target : Value)
  | array (targets : List Value)
  | unpacked   -- a NO_PACK_POINTER, for which nothing is written

-- An error code, a read or write outside what is there, or a nesting deeper than the fuel.
inductive Fault where
  | code (status : Int)
  | wild
  | deep
  deriving DecidableEq, Repr

structure Visit where
  typeInx : PackType
  name : Text
  numElement : Nat
  place : Text
  deriving DecidableEq, Repr

structure Cursor where
  rest : Text
  visited : List Visit
  deriving DecidableEq, Repr

structure Context where
  prot : Prot
  peer : Option Version
  matchPackInstruct : Text → Option Text

def nul : Char := Char.ofNat 0
def bigEndian (bytes : Text) : Nat := bytes.foldl (fun acc c => 256*acc+c.toNat) 0

def unpackNatNumbers (size : Nat) : Nat → Text → Option (List Int × Text)
  | 0,rest => some ([],rest)
  | n+1,rest =>
    if rest.length < size then none
    else (unpackNatNumbers size n (rest.drop size)).map
      (fun (tail,rest') => ((bigEndian (rest.take size) : Int).bmod (256^size)::tail,rest'))

def numberSize : PackType → Nat
  | .PACK_INT_TYPE => 4
  | .PACK_INT16_TYPE => 2
  | _ => 8

def xmlNumber : PackType → Text → Int
  | .PACK_INT_TYPE => atoi
  | .PACK_INT16_TYPE => atoiShort
  | _ => strtoll0

-- The three ...ToOutPtr routines for numbers: the numbers stored, the pointer, and
-- the error that ended the loop.
def unpackNumbers (ctx : Context) (typeInx : PackType) (name : Text) (n : Nat) (rest : Text) :
    Except Fault (Text × List Int × Option Int) :=
  match ctx.prot with
  | .XML_PROT => .ok (unpackXmlNumbers (xmlNumber typeInx) name n rest)
  | .NATIVE_PROT => match unpackNatNumbers (numberSize typeInx) n rest with
    | none => .error .wild
    | some (stored,rest) => .ok (rest,stored,none)

-- unpackCharToOutPtr: the bytes written, the pointer and the status.
def unpackXmlChar (typeInx : PackType) (name : Text) (len : Nat) (rest : Text) : Text × Text × Int :=
  match parseXmlValue rest name with
  | (rest,.error e) => ([],rest,e)
  | (rest,.ok (inLen,endTagLen)) =>
    if typeInx = .PACK_BIN_TYPE then
      match Base64.decode (rest.take inLen) len with
      | (bytes,status) =>
        if status ≠ 0 then (bytes.map Char.ofNat,rest,status)
        else (bytes.map Char.ofNat,rest.drop (inLen+endTagLen),0)
    else if inLen > len then ([],rest,USER_PACKSTRUCT_INPUT_ERR)
    else (rest.take inLen,rest.drop (inLen+endTagLen),0)

def unpackCharToOutPtr (ctx : Context) (typeInx : PackType) (name : Text) (len : Nat) (rest : Text) :
    Except Fault (Text × Text × Int) :=
  match ctx.prot with
  | .XML_PROT => .ok (unpackXmlChar typeInx name len rest)
  | .NATIVE_PROT => if rest.length < len then .error .wild else .ok (rest.take len,rest.drop len,0)

-- maxStrLen none stands for -1, a string up to its NUL. In XML the routine for an
-- inline string goes on one character behind the value, that for a pointer behind the end tag.
def tooLong (maxStrLen : Option Nat) (s : Text) : Bool := maxStrLen.any (· ≤ s.length)

def unpackNatString (maxStrLen : Option Nat) (rest : Text) : Except Fault (Text × Text) :=
  if nul ∉ rest then .error .wild
  else
    let s := rest.takeWhile (· != nul)
    if tooLong maxStrLen s then .error (.code USER_PACKSTRUCT_INPUT_ERR) else .ok (s,rest.drop (s.length+1))

def unpackXmlString (peer : Option Version) (inline : Bool) (maxStrLen : Option Nat) (name rest : Text) :
    Except Fault (Text × Text) :=
  match parseXmlValue rest name with
  | (_,.error e) => .error (.code e)
  | (rest,.ok (origStrLen,endTagLen)) =>
    let s := xmlStrToStr (rest.take origStrLen) peer
    if tooLong maxStrLen s then .error (.code USER_PACKSTRUCT_INPUT_ERR)
    else .ok (s,rest.drop (origStrLen+if inline then 1 else endTagLen))

def unpackString (ctx : Context) (inline : Bool) (maxStrLen : Option Nat) (name rest : Text) :
    Except Fault (Text × Text) :=
  match ctx.prot with
  | .XML_PROT => unpackXmlString ctx.peer inline maxStrLen name rest
  | .NATIVE_PROT => unpackNatString maxStrLen rest

def unpackStrings (ctx : Context) (inline : Bool) (maxStrLen : Option Nat) (name : Text) : Nat → Text →
    Except Fault (List Text × Text)
  | 0,rest => .ok ([],rest)
  | n+1,rest =>
    match unpackString ctx inline maxStrLen name rest with
    | .error e => .error e
    | .ok (s,rest) => match unpackStrings ctx inline maxStrLen name n rest with
      | .error e => .error e
      | .ok (ss,rest) => .ok (s::ss,rest)

-- The size of the last dimension bounds each string; without dimensions there is one
-- string up to its NUL. A last dimension of 0 is divided by.
def strShape (dims : List Nat) : Option (Option Nat × Nat) :=
  match dims.getLast? with
  | none => some (none,1)
  | some maxStrLen => if maxStrLen = 0 then none else some (some maxStrLen,dims.prod/maxStrLen)

-- unpackChildStruct for the structs below, one level of fuel less.
abbrev Child := PackItem → Chain → Nat → Cursor → Except Fault (List (List Value) × Cursor)

def noted (item : PackItem) (numElement : Nat) (cur : Cursor) (rest : Text) : Cursor :=
  ⟨rest,cur.visited ++ [⟨item.typeInx,item.name,numElement,cur.rest⟩]⟩

-- What the int routines hand back as the item's value: an error reads as a negative
-- number, and a negative number as 0. For int16 it goes through a short first.
def intStatus (typeInx : PackType) (stored : List Int) (failed : Option Int) : Int :=
  let status := failed.getD (stored.headD 0)
  max 0 (if typeInx = .PACK_INT16_TYPE then status.bmod (2^16) else status)

abbrev Unpacked := Except Fault (Value × PackItem × Cursor)

-- The status of the routine below is not looked at.
def unpackChar (ctx : Context) (item : PackItem) (len : Nat) (cur : Cursor) : Unpacked :=
  if len = 0 then .ok (.bytes [],item,cur)
  else match unpackCharToOutPtr ctx item.typeInx item.name len cur.rest with
    | .error e => .error e
    | .ok (stored,rest,_) => .ok (.bytes stored,item,noted item len cur rest)

-- A piStr keeps its first string, unless it is empty.
def unpackInlineStrings (ctx : Context) (item : PackItem) (d : Dims) (cur : Cursor) : Unpacked :=
  match strShape d.dimSize with
  | none => .error .wild
  | some (maxStrLen,numStr) =>
    match unpackStrings ctx true maxStrLen item.name numStr cur.rest with
    | .error e => .error e
    | .ok (ss,rest) =>
      let saved := if item.typeInx = .PACK_PI_STR_TYPE ∧
      ss.headD [] ≠ [] then (ss.headD []).take NAME_LEN else item.strValue
      .ok (.strs ss,{item with strValue := saved},noted item numStr cur rest)

-- unpackInt, unpackInt16 and unpackDouble: the first two keep a value, the last no status.
def unpackInlineNumbers (ctx : Context) (item : PackItem) (numElement : Nat) (cur : Cursor) : Unpacked :=
  if numElement = 0 then .ok (.ints [],item,cur)
  else match unpackNumbers ctx item.typeInx item.name numElement cur.rest with
    | .error e => .error e
    | .ok (rest,stored,failed) =>
      let intValue := if item.typeInx = .PACK_DOUBLE_TYPE then item.intValue else intStatus item.typeInx stored failed
      .ok (.ints stored,{item with intValue},noted item numElement cur rest)

def unpackNonpointerItem (ctx : Context) (child : Child) (c : Chain) (item : PackItem) (d : Dims) (cur : Cursor) :
    Unpacked :=
  match item.typeInx with
  | .PACK_CHAR_TYPE | .PACK_BIN_TYPE => unpackChar ctx item d.numElement cur
  | .PACK_STR_TYPE | .PACK_PI_STR_TYPE => unpackInlineStrings ctx item d cur
  | .PACK_INT_TYPE | .PACK_INT16_TYPE | .PACK_DOUBLE_TYPE => unpackInlineNumbers ctx item d.numElement cur
  | .PACK_STRUCT_TYPE =>
    match child item c d.numElement cur with
    | .error e => .error e
    | .ok (elements,cur) => .ok (.structs elements,item,cur)
  | .PACK_DEPENDENT_TYPE | .PACK_INT_DEPENDENT_TYPE => .error (.code SYS_PACK_INSTRUCT_FORMAT_ERR)

-- unpackNullString: the pointer is NULL, and where the message goes on.
def unpackNullString (ctx : Context) (item : PackItem) (d : Dims) (rest : Text) : Option Text :=
  let empty := d.numHintElement = 0 ∨ (d.dimSize ≠ [] ∧ d.numElement = 0)
  match ctx.prot with
  | .XML_PROT => match parseXmlTag rest item.name .start with
    | .error _ => some rest
    | .ok (tagLen,skipLen) =>
      let myPtr := rest.drop (tagLen+skipLen)
      if empty then
        if (lit "</" ++ item.name).isPrefixOf myPtr then
          let behind := myPtr.drop (item.name.length+3)
          some (behind.drop (lineFeed behind))
        else some rest
      else none
  | .NATIVE_PROT =>
    if (NULL_PTR_PACK_STR ++ [nul]).isPrefixOf rest then some (rest.drop (NULL_PTR_PACK_STR.length+1))
    else if empty then some rest else none

def hintShape (hints : List Nat) : Option Nat × Nat :=
  match hints.getLast? with
  | none => (none,1)
  | some maxStrLen => (some maxStrLen,hints.prod/maxStrLen)

abbrev Target := Except Fault (Value × Cursor)

def unpackCharTarget (ctx : Context) (item : PackItem) (d : Dims) (cur : Cursor) : Target :=
  if item.pointerType = .NO_PACK_POINTER then .ok (.unpacked,cur)
  else match unpackCharToOutPtr ctx item.typeInx item.name d.numHintElement cur.rest with
    | .error e => .error e
    | .ok (stored,rest,status) => if status < 0 then .error (.code status) else .ok (.bytes stored,⟨rest,cur.visited⟩)

def unpackStringTarget (ctx : Context) (item : PackItem) (d : Dims) (cur : Cursor) : Target :=
  match unpackStrings ctx false (hintShape d.hintDimSize).1 item.name (hintShape d.hintDimSize).2 cur.rest with
  | .error e => .error e
  | .ok (ss,rest) => .ok (.strs ss,⟨rest,cur.visited⟩)

def arrayStatus (typeInx : PackType) (stored : List Int) (failed : Option Int) : Int :=
  failed.getD (if typeInx = .PACK_DOUBLE_TYPE then 0 else stored.headD 0)

-- For a single pointer the status is not looked at. A pointer array asks for the size
-- in bytes as the count of elements, and writes them into that many bytes.
def unpackNumberTarget (ctx : Context) (item : PackItem) (d : Dims) (cur : Cursor) : Target :=
  if d.dimSize = [] then
    match unpackNumbers ctx item.typeInx item.name d.numHintElement cur.rest with
    | .error e => .error e
    | .ok (rest,stored,_) => .ok (.ints stored,⟨rest,cur.visited⟩)
  else
    match unpackNumbers ctx item.typeInx item.name (d.numHintElement*numberSize item.typeInx) cur.rest with
    | .error e => .error e
    | .ok (rest,stored,failed) =>
      if stored.length > d.numHintElement then .error .wild
      else
        let status := arrayStatus item.typeInx stored failed
        if status < 0 then .error (.code status) else .ok (.ints stored,⟨rest,cur.visited⟩)

-- What one pointer points to.
def unpackTarget (ctx : Context) (child : Child) (c : Chain) (item : PackItem) (d : Dims) (cur : Cursor) : Target :=
  match item.typeInx with
  | .PACK_CHAR_TYPE | .PACK_BIN_TYPE => unpackCharTarget ctx item d cur
  | .PACK_STR_TYPE | .PACK_PI_STR_TYPE => unpackStringTarget ctx item d cur
  | .PACK_INT_TYPE | .PACK_INT16_TYPE | .PACK_DOUBLE_TYPE => unpackNumberTarget ctx item d cur
  | .PACK_STRUCT_TYPE =>
    match child item c d.numHintElement cur with
    | .error e => .error e
    | .ok (elements,cur) => .ok (.structs elements,cur)
  | .PACK_DEPENDENT_TYPE | .PACK_INT_DEPENDENT_TYPE => .error (.code SYS_PACK_INSTRUCT_FORMAT_ERR)

def unpackTargets (ctx : Context) (child : Child) (c : Chain) (item : PackItem) (d : Dims) : Nat → Cursor →
    Except Fault (List Value × Cursor)
  | 0,cur => .ok ([],cur)
  | n+1,cur =>
    match unpackTarget ctx child c item d cur with
    | .error e => .error e
    | .ok (v,cur) => match unpackTargets ctx child c item d n cur with
      | .error e => .error e
      | .ok (vs,cur) => .ok (v::vs,cur)

def firstString : Value → Text
  | .strs (s::_) => s
  | _ => []

def unpackPointerItem (ctx : Context) (child : Child) (c : Chain) (item : PackItem) (d : Dims) (cur : Cursor) :
    Unpacked :=
  match unpackNullString ctx item d cur.rest with
  | some rest => .ok (.null,item,⟨rest,cur.visited⟩)
  | none =>
    if d.dimSize = [] then
      match unpackTarget ctx child c item d cur with
      | .error e => .error e
      | .ok (v,cur) =>
        let saved := if item.typeInx = .PACK_PI_STR_TYPE then (firstString v).take NAME_LEN else item.strValue
        .ok (.pointer v,{item with strValue := saved},cur)
    else match unpackTargets ctx child c item d d.numElement cur with
      | .error e => .error e
      | .ok (vs,cur) => .ok (.array vs,item,cur)

def unpackItem (ctx : Context) (child : Child) (c : Chain) (item : PackItem) (cur : Cursor) : Unpacked :=
  match resolvePackedItem item c true with
  | .error e => .error (.code e)
  | .ok (resolved,d) =>
    if resolved.pointerType = .NON_POINTER then unpackNonpointerItem ctx child (c.kept item) resolved d cur
    else unpackPointerItem ctx child (c.kept item) resolved d cur

def unpackItems (ctx : Context) (child : Child) : List PackItem → Chain → Cursor → Except Fault (List Value × Cursor)
  | [],_,cur => .ok ([],cur)
  | item::items,c,cur =>
    match unpackItem ctx child c item cur with
    | .error e => .error e
    | .ok (v,done,cur) => match unpackItems ctx child items ((c.kept item).push done) cur with
      | .error e => .error e
      | .ok (vs,cur) => .ok (v::vs,cur)

-- One element of unpackChildStruct. A pointer whose start tag is not there gets a NULL.
def unpackElement (ctx : Context) (child : Child) (myPackedItem : PackItem) (inner : Chain) (items : List PackItem)
    (cur : Cursor) :
    Except Fault (List Value × Cursor) :=
  match ctx.prot with
  | .NATIVE_PROT => unpackItems ctx child items inner cur
  | .XML_PROT => match parseXmlTag cur.rest myPackedItem.name .startLine with
    | .error e => if myPackedItem.pointerType = .NON_POINTER then .error (.code e) else .ok ([.null],cur)
    | .ok (tagLen,skipLen) =>
      match unpackItems ctx child items inner ⟨cur.rest.drop (tagLen+skipLen),cur.visited⟩ with
      | .error e => .error e
      | .ok (vs,cur) => match parseXmlTag cur.rest myPackedItem.name .finish with
        | .error e => .error (.code e)
        | .ok (tagLen,skipLen) => .ok (vs,⟨cur.rest.drop (tagLen+skipLen),cur.visited⟩)

def unpackElements (ctx : Context) (child : Child) (myPackedItem : PackItem) (inner : Chain) (items : List PackItem) :
    Nat → Cursor →
    Except Fault (List (List Value) × Cursor)
  | 0,cur => .ok ([],cur)
  | n+1,cur =>
    match unpackElement ctx child myPackedItem inner items cur with
    | .error e => .error e
    | .ok (vs,cur) => match unpackElements ctx child myPackedItem inner items n cur with
      | .error e => .error e
      | .ok (rest,cur) => .ok (vs::rest,cur)

def unpackChildStruct (ctx : Context) : Nat → Child
  | 0,_,_,_,_ => .error .deep
  | fuel+1,myPackedItem,c,numElement,cur =>
    if numElement = 0 then .ok ([],cur)
    else match ctx.matchPackInstruct myPackedItem.name with
      | none => .error (.code SYS_UNMATCH_PACK_INSTRUCTI_NAME)
      | some packInstruct => match parsePackInstruct packInstruct with
        | .error e => .error (.code e)
        | .ok items =>
          unpackElements ctx (unpackChildStruct ctx fuel) myPackedItem (c.inside myPackedItem) items numElement cur

def rootItem (packInstName : Text) : PackItem := {PackItem.zero with name := packInstName}

def unpackStruct (ctx : Context) (fuel : Nat) (packInstName inPackedStr : Text) : Except Fault (List Value × Cursor) :=
  match unpackChildStruct ctx fuel (rootItem packInstName) ⟨[],[]⟩ 1 ⟨inPackedStr,[]⟩ with
  | .error e => .error e
  | .ok (elements,cur) => .ok (elements.headD [],cur)

end Irods.PackMessage
