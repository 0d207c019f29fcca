import Irods.PackText

/-! Pack instructions: parsePackInstruct, and how an item's name is resolved
against the items before it, those of the enclosing structs and the constants. -/
namespace Irods.PackStruct
open CText StringOpr

def SYS_UNMATCH_PACK_INSTRUCTI_NAME : Int := -44000
def MAX_PACK_DIM : Nat := 20

inductive PackType where
  | PACK_CHAR_TYPE
  | PACK_BIN_TYPE
  | PACK_STR_TYPE
  | PACK_PI_STR_TYPE
  | PACK_INT_TYPE
  | PACK_DOUBLE_TYPE
  | PACK_STRUCT_TYPE
  | PACK_DEPENDENT_TYPE
  | PACK_INT_DEPENDENT_TYPE
  | PACK_INT16_TYPE
  deriving DecidableEq, Repr

def packTypeTable : List (Text × PackType) := [
  (lit "char",.PACK_CHAR_TYPE),(lit "bin",.PACK_BIN_TYPE),(lit "str",.PACK_STR_TYPE),(lit "piStr",.PACK_PI_STR_TYPE),
  (lit "int",.PACK_INT_TYPE),(lit "double",.PACK_DOUBLE_TYPE),(lit "struct",.PACK_STRUCT_TYPE),
  (lit "?",.PACK_DEPENDENT_TYPE),(lit "%",.PACK_INT_DEPENDENT_TYPE),(lit "int16",.PACK_INT16_TYPE)]

def packTypeLookup (typeName : Text) : Option PackType := packTypeTable.lookup typeName

inductive PointerType where
  | NON_POINTER
  | A_POINTER
  | NO_FREE_POINTER
  | NO_PACK_POINTER
  deriving DecidableEq, Repr

structure PackItem where
  typeInx : PackType
  name : Text
  pointerType : PointerType
  intValue : Int
  strValue : Text
  deriving DecidableEq, Repr

def PackItem.zero : PackItem := ⟨.PACK_CHAR_TYPE,[],.NON_POINTER,0,[]⟩

/-! Tokens. A token ends at white space, of which one character is passed, or in
front of a special character, which is a token by itself. -/
def special (c : Char) : Bool := c == '*' || c == ';' || c == '?' || c == '$'

def copyStrFromPiBuf (inBuf : Text) : Text × Text :=
  match inBuf.dropWhile isSpace with
  | [] => ([],[])
  | c::rest =>
    if special c then ([c],rest)
    else
      let word := (c::rest).takeWhile (fun d => !(isSpace d || special d))
      let behind := (c::rest).drop word.length
      (word,if behind.head?.any isSpace then behind.tail else behind)

-- With dependentFlag: all up to the next semicolon.
def copyDependentFromPiBuf (inBuf : Text) : Text × Text :=
  let trimmed := inBuf.dropWhile isSpace
  (trimmed.takeWhile (· != ';'),trimmed.dropWhile (· != ';'))

structure Parser where
  queued : List PackItem
  myPackItem : Option PackItem
  gotTypeCast : Bool
  gotItemName : Bool
  deriving DecidableEq, Repr

def setPointer (p : Parser) (item : PackItem) (pointerType : PointerType) : Except Int Parser :=
  if !p.gotTypeCast || p.gotItemName then .error SYS_PACK_INSTRUCT_FORMAT_ERR
  else .ok {p with myPackItem := some {item with pointerType}}

-- One token, and for '%' and '?' the one behind it.
def parseToken (p : Parser) (buf rest : Text) : Except Int (Parser × Text) :=
  let item := p.myPackItem.getD .zero
  if buf = lit ";" then
    if !p.gotTypeCast && !p.gotItemName then .ok ({p with myPackItem := some item},rest)
    else if p.gotTypeCast && !p.gotItemName then .error SYS_PACK_INSTRUCT_FORMAT_ERR
    else .ok (⟨p.queued ++ [item],none,false,false⟩,rest)
  else if buf = lit "%" then
    if p.gotTypeCast || p.gotItemName then .error SYS_PACK_INSTRUCT_FORMAT_ERR
    else if (copyDependentFromPiBuf rest).1 = [] then .error SYS_PACK_INSTRUCT_FORMAT_ERR
    else .ok ({p with
        myPackItem := some {item with typeInx := .PACK_INT_DEPENDENT_TYPE,name := (copyDependentFromPiBuf rest).1},
        gotTypeCast := true,gotItemName := true},(copyDependentFromPiBuf rest).2)
  else if buf = lit "?" then
    if p.gotTypeCast || p.gotItemName then .error SYS_PACK_INSTRUCT_FORMAT_ERR
    else if (copyStrFromPiBuf rest).1 = [] then .error SYS_PACK_INSTRUCT_FORMAT_ERR
    else .ok ({p with
        myPackItem :=
        some {item with typeInx := .PACK_DEPENDENT_TYPE,strValue := boundedCopy NAME_LEN (copyStrFromPiBuf rest).1},
        gotTypeCast := true},(copyStrFromPiBuf rest).2)
  else if buf = lit "*" then (setPointer p item .A_POINTER).map (·,rest)
  else if buf = lit "#" then (setPointer p item .NO_PACK_POINTER).map (·,rest)
  else if buf = lit "$" then (setPointer p item .NO_FREE_POINTER).map (·,rest)
  else if !p.gotTypeCast then
    match packTypeLookup buf with
    | none => .error SYS_PACK_INSTRUCT_FORMAT_ERR
    | some typeInx => .ok ({p with myPackItem := some {item with typeInx},gotTypeCast := true},rest)
  else if !p.gotItemName then .ok ({p with myPackItem := some {item with name := buf},gotItemName := true},rest)
  else .error SYS_PACK_INSTRUCT_FORMAT_ERR

def parseTokens : Nat → Parser → Text → Except Int (List PackItem)
  | 0,_,_ => .error SYS_PACK_INSTRUCT_FORMAT_ERR
  | fuel+1,p,inptr =>
    match copyStrFromPiBuf inptr with
    | ([],_) => if p.myPackItem.isSome then .error SYS_PACK_INSTRUCT_FORMAT_ERR else .ok p.queued
    | (buf,rest) =>
      match parseToken p buf rest with
      | .error e => .error e
      | .ok (p,rest) => parseTokens fuel p rest

def parsePackInstruct (packInstruct : Text) : Except Int (List PackItem) :=
  parseTokens (packInstruct.length+1) ⟨[],some .zero,false,false⟩ packInstruct

example : parsePackInstruct (lit "int iiLen; int *inx(iiLen); ?type *val;") = .ok [
    ⟨.PACK_INT_TYPE,lit "iiLen",.NON_POINTER,0,[]⟩,
    ⟨.PACK_INT_TYPE,lit "inx(iiLen)",.A_POINTER,0,[]⟩,
    ⟨.PACK_DEPENDENT_TYPE,lit "val",.A_POINTER,0,lit "type"⟩] := by decide +kernel

def PackConstantTable : List (Text × Int) := [
  (lit "HEADER_TYPE_LEN",128),(lit "NAME_LEN",64),(lit "CHKSUM_LEN",64),(lit "LONG_NAME_LEN",256),
  (lit "MAX_NAME_LEN",1088),(lit "SHORT_STR_LEN",32),(lit "TIME_LEN",32),(lit "DIR_LEN",256),(lit "ERR_MSG_LEN",1024),
  (lit "MAX_SQL_ATTR",50),(lit "RULE_SET_DEF_LENGTH",10880),(lit "META_STR_LEN",20480),(lit "CHALLENGE_LEN",64),
  (lit "RESPONSE_LEN",16),(lit "MAX_PASSWORD_LEN",50),(lit "MAX_ERROR_SIZE",80),(lit "OBJID_DIM",2),
  (lit "H5S_MAX_RANK",32),(lit "H5DATASPACE_MAX_RANK",32),(lit "HUGE_NAME_LEN",100000),
    (lit "MAX_NUM_CONFIG_TRAN_THR",64)]

-- The items before this one, the nearest first, and what the first of them links to as parent.
structure Chain where
  prevs : List PackItem
  outer : List PackItem
  deriving DecidableEq, Repr

-- The walk starts at prev: the first item of a struct does not come to its parent.
def Chain.items (c : Chain) : List PackItem := if c.prevs = [] then [] else c.prevs ++ c.outer

def resolveIntInItem (name : Text) (c : Chain) : Int :=
  if name.all Char.isDigit then atoi name
  else match c.items.find? (fun i => i.name = name ∧ i.typeInx = .PACK_INT_TYPE) with
    | some i => i.intValue
    | none => (PackConstantTable.lookup name).getD SYS_PACK_INSTRUCT_FORMAT_ERR

def resolveStrInItem (item : PackItem) (c : Chain) : Except Int PackItem :=
  match c.items.find? (fun i => i.name = item.strValue ∧ i.typeInx = .PACK_PI_STR_TYPE) with
  | none => .error SYS_PACK_INSTRUCT_FORMAT_ERR
  | some i => .ok {item with typeInx := .PACK_STRUCT_TYPE,name := i.strValue}

-- The key stands in front of a colon; blanks and colons before it are passed over.
def keyBlank (c : Char) : Bool := c == ' ' || c == '\t' || c == '\n'

def intDepKey (name : Text) : Text × Text :=
  let started := name.dropWhile (fun c => keyBlank c || c == ':')
  ((started.takeWhile (· != ':')).filter (fun c => !keyBlank c),(started.dropWhile (· != ':')).tail)

-- The settings "value,value=PI:value=PI" behind the key; buf holds what came since the last mark.
def intDepSetting (keyVal : Int) (buf : Text) : Text → Except Int Text
  | [] => .ok []
  | c::rest =>
    if c = ',' ∨ c = '=' then
      if (strstr buf (lit "default")).isSome ∨ atoi buf = keyVal then
        if c = ',' ∧ ((rest.dropWhile (fun d => !(d == '=' || d == ';' || d == ':'))).head? ≠ some '=') then
          .error SYS_PACK_INSTRUCT_FORMAT_ERR
        else
          let pi := if c = ',' then (rest.dropWhile (· != '=')).tail else rest
          .ok (pi.takeWhile (fun d => !(d == ':' || d == ';')) ++ lit ";")
      else if c = '=' then
        if (rest.dropWhile (fun d => !(d == ':' || d == ';'))).head? ≠ some ':' then .error SYS_PACK_INSTRUCT_FORMAT_ERR
        else intDepSkip keyVal rest
      else intDepSetting keyVal [] rest
    else intDepSetting keyVal (buf ++ [c]) rest
where
  intDepSkip (keyVal : Int) : Text → Except Int Text
  | [] => .ok []
  | c::rest => if c = ':' then intDepSetting keyVal [] rest else intDepSkip keyVal rest

/- The instruction chosen has one statement, which takes the item's place. -/
def resolveIntDepItem (item : PackItem) (c : Chain) : Except Int PackItem :=
  let keyVal := resolveIntInItem (intDepKey item.name).1 c
  if keyVal = SYS_PACK_INSTRUCT_FORMAT_ERR then .error SYS_PACK_INSTRUCT_FORMAT_ERR
  else match intDepSetting keyVal [] (intDepKey item.name).2 with
    | .error e => .error e
    | .ok pi => match parsePackInstruct pi with
      | .error e => .error e
      | .ok items => .ok (items.headD .zero)

def iparseDependent (item : PackItem) (c : Chain) : Except Int PackItem :=
  match item.typeInx with
  | .PACK_DEPENDENT_TYPE => resolveStrInItem item c
  | .PACK_INT_DEPENDENT_TYPE => resolveIntDepItem item c
  | _ => .ok item

structure Dims where
  dimSize : List Nat
  hintDimSize : List Nat
  deriving DecidableEq, Repr

def resolveDim (c : Chain) (buffer : Text) : Except Int Nat :=
  if buffer = [] ∨ resolveIntInItem buffer c < 0 then .error SYS_PACK_INSTRUCT_FORMAT_ERR
  else .ok (resolveIntInItem buffer c).toNat

def dimLoop (c : Chain) (d : Dims) (openSymbol : Option Char) (buffer : Text) : Text → Except Int Dims
  | [] => .ok d
  | ch::rest =>
    if ch = '[' ∨ ch = '(' then
      if openSymbol.isSome ∨ (ch = '[' ∧ d.dimSize.length ≥ MAX_PACK_DIM) ∨
      (ch = '(' ∧ d.hintDimSize.length ≥ MAX_PACK_DIM) then
        .error SYS_PACK_INSTRUCT_FORMAT_ERR
      else dimLoop c d (some ch) [] rest
    else if ch = ']' then
      if openSymbol ≠ some '[' then .error SYS_PACK_INSTRUCT_FORMAT_ERR
      else match resolveDim c buffer with
        | .error e => .error e
        | .ok n => dimLoop c {d with dimSize := d.dimSize ++ [n]} none buffer rest
    else if ch = ')' then
      if openSymbol ≠ some '(' then .error SYS_PACK_INSTRUCT_FORMAT_ERR
      else match resolveDim c buffer with
        | .error e => .error e
        | .ok n => dimLoop c {d with hintDimSize := d.hintDimSize ++ [n]} none buffer rest
    else dimLoop c d openSymbol (if openSymbol.isSome then buffer ++ [ch] else buffer) rest

-- The name is cut at its first bracket.
def resolveDepInArray (item : PackItem) (c : Chain) : Except Int (PackItem × Dims) :=
  match dimLoop c ⟨[],[]⟩ none [] item.name with
  | .error e => .error e
  | .ok d => .ok ({item with name := item.name.takeWhile (fun ch => !(ch == '[' || ch == '('))},d)

-- nullPointer: the pointer read from the struct, or the one an item to unpack has.
def resolvePackedItem (item : PackItem) (c : Chain) (nullPointer : Bool) : Except Int (PackItem × Dims) :=
  match iparseDependent item c with
  | .error e => .error e
  | .ok item => match resolveDepInArray item c with
    | .error e => .error e
    | .ok (item,d) =>
      if item.name = [] then
        if item.pointerType = .NON_POINTER ∨ !nullPointer then .error SYS_PACK_INSTRUCT_FORMAT_ERR
        else .ok ({item with name := lit "STR_PTR_PI"},d)
      else .ok (item,d)

def Dims.numElement (d : Dims) : Nat := d.dimSize.prod
def Dims.numHintElement (d : Dims) : Nat := d.hintDimSize.prod

-- An instruction put in the place of a first item brings an empty parent link.
def Chain.kept (c : Chain) (before : PackItem) : Chain :=
  if c.prevs = [] ∧ before.typeInx = .PACK_INT_DEPENDENT_TYPE then ⟨[],[]⟩ else c

def Chain.push (c : Chain) (done : PackItem) : Chain := ⟨done::c.prevs,c.outer⟩
def Chain.inside (c : Chain) (parent : PackItem) : Chain := ⟨[],parent::(c.prevs ++ c.outer)⟩

end Irods.PackStruct
