import Irods.PathElements
import Irods.StringOpr

/-! parseRodsPath: a path of the command line made absolute with the home or the
current collection, then rewritten in place until no "//", "/./" or "/../" is
left. Beside it, the component-wise reading of the same path. -/
namespace Irods.RodsPath
open CText PathNames StringOpr
open LogicalPath (dot dotDot)

def MAX_PATH_ALLOWED : Nat := 1024
def USER_NULL_INPUT_ERR : Int := -316000
def USER_INPUT_PATH_ERR : Int := -317000
def USER_PATH_EXCEEDS_MAX : Int := -346000

inductive ObjType where
  | UNKNOWN_OBJ_T
  | COLL_OBJ_T
  deriving DecidableEq, Repr

structure RodsEnv where
  rodsHome : Text
  rodsCwd : Text
  deriving DecidableEq, Repr

structure Parsed where
  outPath : Text
  objType : ObjType
  deriving DecidableEq, Repr

-- while (strstr(outPath,needle)): what follows the needle is copied behind its first slash.
def takeOut (needle : Text) : Nat → Text → Text
  | 0,t => t
  | fuel+1,t => match strstr t needle with
    | none => t
    | some i => takeOut needle fuel (t.take (i+1) ++ t.drop (i+needle.length))

-- From the byte in front of position i back to a slash: how much of the text
-- is kept, the slash included. At the start of outPath the byte read is the last
-- one of inPath, which lies right in front of it; only after it the bound is tested.
def goBack (lastByte : Char) (t : Text) (i : Nat) : Option Nat :=
  if i = 0 then if lastByte = '/' then some 0 else none
  else if '/' ∈ t.take i then some (((t.take i).reverse.dropWhile (· != '/')).length) else none

def takeOutParents (lastByte : Char) : Nat → Text → Except Int Text
  | 0,t => .ok t
  | fuel+1,t => match strstr t (lit "/../") with
    | none => .ok t
    | some i => match goBack lastByte t i with
      | none => .error USER_INPUT_PATH_ERR
      | some kept => takeOutParents lastByte fuel (t.take kept ++ t.drop (i+4))

def checked (t : Text) (objType : ObjType) : Except Int Parsed :=
  if MAX_PATH_ALLOWED-1 ≤ min t.length MAX_PATH_ALLOWED then .error USER_PATH_EXCEEDS_MAX else .ok ⟨t,objType⟩

def finish (lastByte : Char) (t : Text) : Except Int Parsed :=
  if (lit "/..").isSuffixOf t then
    match goBack lastByte t (t.length-3) with
    | none => .error USER_INPUT_PATH_ERR
    | some 0 => checked t .COLL_OBJ_T   -- the NUL went in front of outPath
    | some 1 => checked ['/'] .COLL_OBJ_T
    | some (kept+1) => checked (t.take kept) .COLL_OBJ_T
  else if (lit "/.").isSuffixOf t then checked (t.take (t.length-2)) .COLL_OBJ_T
  else if t.getLast? = some '/' ∧ 1 < t.length then checked t.dropLast .COLL_OBJ_T
  else checked t .UNKNOWN_OBJ_T

def rewrite (lastByte : Char) (outPath : Text) : Except Int Parsed :=
  let outPath := takeOut (lit "//") outPath.length outPath
  let outPath := takeOut (lit "/./") outPath.length outPath
  match takeOutParents lastByte outPath.length outPath with
  | .error code => .error code
  | .ok outPath => finish lastByte outPath

-- The two formats of snprintf and the plain copy, before the bound.
def expanded (env : RodsEnv) (inPath : Text) : Text :=
  match inPath with
  | '~' :: '/' :: rest => env.rodsHome ++ '/'::rest
  | '/'::_ => inPath
  | _ => env.rodsCwd ++ '/'::inPath

def atCwd (inPath : Text) : Bool := inPath == [] || inPath == lit "." || inPath == lit "./"
def atHome (inPath : Text) : Bool := inPath == lit "~" || inPath == lit "~/"

def parseRodsPath (lastByte : Char) (inPath : Text) (myRodsEnv : Option RodsEnv) : Except Int Parsed :=
  match myRodsEnv with
  | none =>
    if inPath.head? = some '/' then rewrite lastByte (boundedCopy MAX_NAME_LEN inPath) else .error USER_NULL_INPUT_ERR
  | some env =>
    if atCwd inPath then .ok ⟨boundedCopy MAX_NAME_LEN env.rodsCwd,.COLL_OBJ_T⟩
    else if atHome inPath then .ok ⟨boundedCopy MAX_NAME_LEN env.rodsHome,.COLL_OBJ_T⟩
    else rewrite lastByte (boundedCopy MAX_NAME_LEN (expanded env inPath))

def parseRodsPathStr (lastByte : Char) (inPath : Option Text) (myRodsEnv : Option RodsEnv) : Except Int Text :=
  match inPath with
  | none => .error USER_NULL_INPUT_ERR
  | some inPath =>
    if MAX_NAME_LEN-1 ≤ min inPath.length MAX_NAME_LEN then .error USER_PATH_EXCEEDS_MAX
    else (parseRodsPath lastByte (boundedCopy MAX_NAME_LEN inPath) myRodsEnv).map
      (fun parsed => boundedCopy MAX_NAME_LEN parsed.outPath)

/- Components one by one: a dot is skipped, a dot-dot takes the last one away. -/
def resolveStep (done : List Text) (n : Text) : Option (List Text) :=
  if n = dot then some done
  else if n = dotDot then if done = [] then none else some done.dropLast
  else some (done ++ [n])

def resolve (ns : List Text) : Option (List Text) := ns.foldlM resolveStep []

def absoluteForm (env : RodsEnv) (inPath : Text) : Text :=
  if inPath = lit "~" then env.rodsHome else expanded env inPath

structure Resolves (absolute outPath : Text) : Prop where
  resolved : resolve (names absolute) = some (names outPath)
  canonical : Canonical outPath
  plain : ∀ n ∈ names outPath, n ≠ dot ∧ n ≠ dotDot

-- No component to remove, or a path longer than the code allows.
def Refusable (absolute : Text) : Prop :=
  resolve (names absolute) = none ∨
    ∃ ns, resolve (names absolute) = some ns ∧ MAX_PATH_ALLOWED-1 ≤ (pathText ns).length

def Canonicalises (absolute : Text) : Except Int Parsed → Prop
  | .ok parsed => Resolves absolute parsed.outPath
  | .error _ => Refusable absolute

end Irods.RodsPath
