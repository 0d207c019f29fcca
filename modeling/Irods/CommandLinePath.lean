import Irods.RodsPathParse

/-! parse_command_line_path of rodsPath.cpp: the paths of an argument vector, parsed and escaped. -/
namespace Irods.CommandLinePath
open CText StringOpr List
open RodsPath (RodsEnv parseRodsPath USER_NULL_INPUT_ERR)

inductive FileType
  | UNKNOWN_OBJ_T | DATA_OBJ_T | COLL_OBJ_T | UNKNOWN_FILE_T | LOCAL_FILE_T | LOCAL_DIR_T | NO_INPUT_T
  deriving DecidableEq

def FileType.irods (t : FileType) : Bool := t.ctorIdx ≤ FileType.COLL_OBJ_T.ctorIdx
def ALLOW_NO_SRC_FLAG : Nat := 1

structure RodsPath where
  inPath : Text
  outPath : Text
  deriving DecidableEq

structure RodsPathInp where
  srcPath : List RodsPath
  destPath : Option RodsPath
  deriving DecidableEq

def formFeed : Char := Char.ofNat 12
def escapePath (path : Text) : Text := path.flatMap (fun c => if c = formFeed then lit "\\f" else [c])

-- The first byte stays, also when it is a slash.
def stripped : Text → Text
  | [] => []
  | c::rest => c::rest.rdropWhile (· == '/')

def sourceText (arg : Text) : Text := boundedCopy MAX_NAME_LEN (stripped (boundedCopy MAX_NAME_LEN arg))
def addSrcInPath (src : List RodsPath) (arg : Text) : List RodsPath := src ++ [⟨sourceText arg,[]⟩]

-- inPath is a buffer of zeros before it is filled, so its last byte is NUL.
def rodsPath (myRodsEnv : Option RodsEnv) (inPath : Text) : Except Int Text :=
  (parseRodsPath (Char.ofNat 0) inPath myRodsEnv).map (·.outPath)

def rstrcpyEscaped (p : RodsPath) : RodsPath := { p with outPath := boundedCopy MAX_NAME_LEN (escapePath p.outPath) }

section parse
/- The local path of an argument, or a negative status: parse_local_path and parseLocalPath. -/

variable (localPath : Text → Except Int Text) (myRodsEnv : Option RodsEnv)

/- One round of the loop. What is escaped is the path srcPath points to. -/
def parseSource (srcFileType : FileType) (src : List RodsPath) (arg : Text) : Except Int (List RodsPath) := do
  let added := addSrcInPath src arg
  let inPath := sourceText arg
  if srcFileType.irods then
    let outPath ← rodsPath myRodsEnv inPath
    .ok ((added.set src.length ⟨inPath,outPath⟩).modifyHead rstrcpyEscaped)
  else
    let outPath ← localPath inPath
    .ok (added.set src.length ⟨inPath,outPath⟩)

def sources (argv : List Text) (optInd : Nat) (destFileType : FileType) : List Text :=
  let input := argv.drop optInd
  if input.length = 0 then [lit "."]
  else if input.length = 1 then input
  else if destFileType = .NO_INPUT_T then input
  else input.dropLast

def destination (argv : List Text) (optInd : Nat) : Text :=
  boundedCopy MAX_NAME_LEN (if 1 < (argv.drop optInd).length then argv.getLastD [] else lit ".")

def parseDest (destFileType : FileType) (inPath : Text) : Except Int (Option RodsPath) := do
  if destFileType = .NO_INPUT_T then .ok none
  else if destFileType.irods then
    let outPath ← rodsPath myRodsEnv inPath
    .ok (some (rstrcpyEscaped ⟨inPath,outPath⟩))
  else
    let outPath ← localPath inPath
    .ok (some ⟨inPath,outPath⟩)

def parseCommandLinePath (argv : List Text) (optInd : Nat) (srcFileType destFileType : FileType) (flag : Nat) :
    Except Int RodsPathInp := do
  if argv.length ≤ optInd ∧ flag &&& ALLOW_NO_SRC_FLAG = 0 then .error USER_NULL_INPUT_ERR
  else
    let src ← (sources argv optInd destFileType).foldlM (parseSource localPath myRodsEnv srcFileType) []
    let dest ← parseDest localPath myRodsEnv destFileType (destination argv optInd)
    .ok ⟨src,dest⟩

def Escaped (inPath : Text) (p : RodsPath) : Prop :=
  ∃ path, rodsPath myRodsEnv inPath = .ok path ∧ p.outPath = escapePath path

structure EachEscaped (argv : List Text) (optInd : Nat) (destFileType : FileType) (inp : RodsPathInp) : Prop where
  source : List.Forall₂ (fun arg => Escaped myRodsEnv (sourceText arg)) (sources argv optInd destFileType) inp.srcPath
  dest : destFileType.irods = true → ∃ p ∈ inp.destPath, Escaped myRodsEnv (destination argv optInd) p

def Fits (inPath : Text) : Prop :=
  ∀ path, rodsPath myRodsEnv inPath = .ok path → (escapePath path).length < MAX_NAME_LEN

def Plain (inPath : Text) : Prop := ∀ path, rodsPath myRodsEnv inPath = .ok path → formFeed ∉ path

structure Suited (argv : List Text) (optInd : Nat) (destFileType : FileType) : Prop where
  first : ∀ arg ∈ (sources argv optInd destFileType).head?, Fits myRodsEnv (sourceText arg)
  others : ∀ arg ∈ (sources argv optInd destFileType).tail, Plain myRodsEnv (sourceText arg)
  dest : destFileType.irods = true → Fits myRodsEnv (destination argv optInd)

end parse

variable {localPath : Text → Except Int Text} {myRodsEnv : Option RodsEnv} {srcFileType : FileType} {inPath : Text}

theorem escapeSame {path} : escapePath path = path ↔ formFeed ∉ path := by
  induction path with
  | nil => simp [escapePath]
  | cons c _ ih =>
    unfold escapePath at ih ⊢
    rw [flatMap_cons]
    by_cases feed : c = formFeed
    · rw [feed]
      simp [lit,formFeed]
    · rw [if_neg feed,singleton_append,cons_inj_right,ih,mem_cons,not_or]
      exact (and_iff_right (Ne.symm feed)).symm

theorem escapedPlain (path) : formFeed ∉ escapePath path := by
  unfold escapePath
  rw [mem_flatMap]
  rintro ⟨c,-,there⟩
  split at there
  · exact absurd there (by decide)
  · exact absurd (mem_singleton.mp there).symm ‹_›

theorem boundedSame {t} : boundedCopy MAX_NAME_LEN t = t ↔ t.length < MAX_NAME_LEN := by
  rw [boundedCopy,take_eq_self_iff]
  exact Nat.le_sub_one_iff_lt (by decide)

theorem escapedAgain (p) : rstrcpyEscaped (rstrcpyEscaped p) = rstrcpyEscaped p := by
  have plain : formFeed ∉ boundedCopy MAX_NAME_LEN (escapePath p.outPath) := fun there =>
    escapedPlain p.outPath (mem_of_mem_take there)
  unfold rstrcpyEscaped
  rw [escapeSame.mpr plain,boundedCopy,boundedCopy,take_take,Nat.min_self]

theorem escapedIff {path} (parsed : rodsPath myRodsEnv inPath = .ok path) {p} :
    Escaped myRodsEnv inPath p ↔ p.outPath = escapePath path := by
  constructor
  · rintro ⟨_,same,escaped⟩
    cases parsed.symm.trans same
    exact escaped
  · exact fun escaped => ⟨path,parsed,escaped⟩

theorem fitsIff {p} (parsed : rodsPath myRodsEnv inPath = .ok p.outPath) :
    Escaped myRodsEnv inPath (rstrcpyEscaped p) ↔ Fits myRodsEnv inPath := by
  have only : Fits myRodsEnv inPath ↔ (escapePath p.outPath).length < MAX_NAME_LEN := by simp [Fits,parsed]
  rw [escapedIff parsed,only]
  exact boundedSame

theorem plainIff {p} (parsed : rodsPath myRodsEnv inPath = .ok p.outPath) :
    Escaped myRodsEnv inPath p ↔ Plain myRodsEnv inPath := by
  have only : Plain myRodsEnv inPath ↔ formFeed ∉ p.outPath := by simp [Plain,parsed]
  rw [escapedIff parsed,only,← escapeSame]
  exact eq_comm

def Raw (myRodsEnv : Option RodsEnv) (arg : Text) (e : RodsPath) : Prop :=
  e.inPath = sourceText arg ∧ rodsPath myRodsEnv (sourceText arg) = .ok e.outPath

theorem sourceRound {arg src next} (irods : srcFileType.irods = true)
    (runs : parseSource localPath myRodsEnv srcFileType src arg = .ok next) :
    ∃ e, Raw myRodsEnv arg e ∧ next = (src ++ [e]).modifyHead rstrcpyEscaped := by
  unfold parseSource at runs
  rw [if_pos irods] at runs
  cases parsed : rodsPath myRodsEnv (sourceText arg) with
  | error e => simp [parsed,bind,Except.bind] at runs
  | ok path =>
    rw [parsed] at runs
    refine ⟨⟨sourceText arg,path⟩,⟨rfl,parsed⟩,?_⟩
    rw [← Except.ok.inj runs]
    simp [addSrcInPath]

theorem sourcesLater {args p ps src} (irods : srcFileType.irods = true)
    (runs : args.foldlM (parseSource localPath myRodsEnv srcFileType) (rstrcpyEscaped p::ps) = .ok src) :
    ∃ rest, List.Forall₂ (Raw myRodsEnv) args rest ∧
      src = rstrcpyEscaped p::(ps ++ rest) := by
  induction args generalizing ps with
  | nil => exact ⟨[],.nil,by simpa using (Except.ok.inj runs).symm⟩
  | cons arg _ ih =>
    rw [foldlM_cons] at runs
    cases first : parseSource localPath myRodsEnv srcFileType (rstrcpyEscaped p::ps) arg with
    | error e => simp [first,bind,Except.bind] at runs
    | ok _ =>
      obtain ⟨e,raw,rfl⟩ := sourceRound irods first
      rw [first,cons_append,modifyHead_cons,escapedAgain] at runs
      obtain ⟨rest,all,rfl⟩ := ih runs
      exact ⟨e::rest,.cons raw all,by simp⟩

theorem laterPlain {args rest}
    (all : List.Forall₂ (Raw myRodsEnv) args rest) :
    List.Forall₂ (fun arg => Escaped myRodsEnv (sourceText arg)) args rest ↔
    ∀ arg ∈ args, Plain myRodsEnv (sourceText arg) := by
  induction all with
  | nil => simp
  | cons first _ ih =>
    rw [forall₂_cons,ih,plainIff first.2,forall_mem_cons]

theorem destFits {destFileType} {dest} (irods : destFileType.irods = true)
    (runs : parseDest localPath myRodsEnv destFileType inPath = .ok dest) :
    (∃ p ∈ dest, Escaped myRodsEnv inPath p) ↔ Fits myRodsEnv inPath := by
  have some : destFileType ≠ .NO_INPUT_T := by
    rintro rfl
    exact absurd irods (by decide)
  unfold parseDest at runs
  rw [if_neg some,if_pos irods] at runs
  cases parsed : rodsPath myRodsEnv inPath with
  | error e => simp [parsed,bind,Except.bind] at runs
  | ok path =>
    rw [parsed] at runs
    rw [← Except.ok.inj runs,← @fitsIff _ _ ⟨inPath,path⟩ parsed]
    simp

theorem sourcesSome (argv optInd destFileType) :
    ∃ arg rest, sources argv optInd destFileType = arg::rest := by
  refine exists_cons_of_ne_nil ?_
  unfold sources
  extract_lets input
  split
  · decide
  split
  · exact ne_nil_of_length_pos (by omega)
  split
  · exact ne_nil_of_length_pos (by omega)
  · exact ne_nil_of_length_pos (by rw [length_dropLast]; omega)

theorem escapedSuited (localPath : Text → Except Int Text) (myRodsEnv : Option RodsEnv) (argv : List Text)
    (optInd : Nat)
    (srcFileType destFileType : FileType) (flag : Nat) (inp : RodsPathInp) (irods : srcFileType.irods = true)
    (runs : parseCommandLinePath localPath myRodsEnv argv optInd srcFileType destFileType flag = .ok inp) :
    EachEscaped myRodsEnv argv optInd destFileType inp ↔ Suited myRodsEnv argv optInd destFileType := by
  obtain ⟨arg,args,shape⟩ := sourcesSome argv optInd destFileType
  unfold parseCommandLinePath at runs
  split at runs
  · contradiction
  rw [shape,foldlM_cons] at runs
  simp only [bind,Except.bind] at runs
  split at runs
  · contradiction
  rename_i loop
  split at runs
  · contradiction
  rename_i last
  cases Except.ok.inj runs
  -- the loop: the first source, then the others
  cases first : parseSource localPath myRodsEnv srcFileType [] arg with
  | error e => simp [first] at loop
  | ok _ =>
    obtain ⟨e,raw,rfl⟩ := sourceRound irods first
    rw [first] at loop
    obtain ⟨rest,all,rfl⟩ := sourcesLater irods loop
    have sourcesIff : List.Forall₂ (fun arg => Escaped myRodsEnv (sourceText arg)) (sources argv optInd destFileType)
        (rstrcpyEscaped e::([] ++ rest)) ↔
        Fits myRodsEnv (sourceText arg) ∧ ∀ arg ∈ args, Plain myRodsEnv (sourceText arg) := by
      rw [shape,forall₂_cons,fitsIff raw.2,nil_append,laterPlain all]
    constructor
    · intro each
      obtain ⟨fits,plain⟩ := sourcesIff.mp each.source
      exact ⟨by simpa [shape] using fits,by simpa [shape] using plain,
          fun irods => (destFits irods last).mp (each.dest irods)⟩
    · intro suited
      exact ⟨sourcesIff.mpr ⟨suited.first arg (by simp [shape]),
          fun arg mem => suited.others arg (by simpa [shape] using mem)⟩,
        fun irods => (destFits irods last).mpr (suited.dest irods)⟩

def homeEnv : RodsEnv := ⟨lit "/z/h",lit "/z/h"⟩
def feedName : Text := 'b'::[formFeed]
def movedTwo : RodsPathInp := ⟨[⟨feedName,lit "/z/h/b\\f"⟩,⟨lit "d",lit "/z/h/d"⟩],some ⟨lit "c/",lit "/z/h/c"⟩⟩

theorem escapedSuitedPair : FileType.irods .UNKNOWN_OBJ_T = true ∧
    parseCommandLinePath .ok (some homeEnv) [lit "imv",feedName,lit "d",lit "c/"] 1 .UNKNOWN_OBJ_T .UNKNOWN_OBJ_T 0 =
      .ok movedTwo ∧
    (EachEscaped (some homeEnv) [lit "imv",feedName,lit "d",lit "c/"] 1 .UNKNOWN_OBJ_T movedTwo ↔
      Suited (some homeEnv) [lit "imv",feedName,lit "d",lit "c/"] 1 .UNKNOWN_OBJ_T) :=
  have runs : parseCommandLinePath .ok (some homeEnv) [lit "imv",feedName,lit "d",
      lit "c/"] 1 .UNKNOWN_OBJ_T .UNKNOWN_OBJ_T 0 =
      .ok movedTwo := by decide +kernel
  ⟨rfl,runs,escapedSuited _ _ _ _ _ _ _ _ rfl runs⟩

theorem secondUnescaped :
    ∃ inp, parseCommandLinePath .ok (some homeEnv) [lit "irm",lit "a",feedName] 1 .UNKNOWN_OBJ_T .NO_INPUT_T 0 =
      .ok inp ∧
    ¬EachEscaped (some homeEnv) [lit "irm",lit "a",feedName] 1 .NO_INPUT_T inp := by
  refine ⟨⟨[⟨lit "a",lit "/z/h/a"⟩,⟨feedName,lit "/z/h/" ++ feedName⟩],none⟩,by decide +kernel,?_⟩
  intro each
  have parsed : rodsPath (some homeEnv) (sourceText feedName) = .ok (lit "/z/h/" ++ feedName) := by decide +kernel
  have second := (forall₂_cons.mp (forall₂_cons.mp each.source).2).1
  exact absurd ((escapedIff parsed).mp second) (by decide)

end Irods.CommandLinePath
