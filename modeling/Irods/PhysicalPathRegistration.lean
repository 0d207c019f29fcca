import Irods.BoostPath

/-! Which physical paths may be registered, fileOpr.cpp. The directories of the server
are fixed when it is built; symbolic links are not followed. -/
namespace Irods.PhysicalPathRegistration
open CText PathNames BoostPath List

def SYS_INVALID_FILE_PATH : Int := -31000

structure Directory where
  names : List Text
  clean : ∀ n ∈ names, IsName n ∧ n ≠ dot ∧ n ≠ dotDot

def pathOf (d : Directory) (below : List Text) : Path := ⟨[],true,d.names ++ below,false⟩

structure ServerPaths where
  config : Directory
  plugin : Directory
  home : Directory
  runstate : Directory
  sbin : Directory

def pathIsAtOrBeneath (p base : Path) : Bool :=
  (elements (lexicallyNormal base)).isPrefixOf (elements (lexicallyNormal p))

def blockedDirectories (s : ServerPaths) : List Path :=
  [pathOf s.config [],pathOf s.plugin [],pathOf s.home [],pathOf s.runstate [lit "irods"]]

def binaries : List Text :=
  [lit "irodsAgent",lit "irodsDelayServer",lit "irodsPamAuthCheck",lit "irodsServer"]

def blockedFiles (s : ServerPaths) : List Path := binaries.map (fun b => pathOf s.sbin [b])

-- getenv and strncmp(option,"1",1).
def unsafeAllowed : Option Text → Bool
  | none => false
  | some option => strncmpZero 1 option ['1']

def isProtectedIrodsServerPath (env : Option Text) (s : ServerPaths) (p : Path) : Bool :=
  if unsafeAllowed env then false
  else if pathIsAtOrBeneath p (pathOf s.home [lit "Vault"]) then false
  else if (blockedDirectories s).any (pathIsAtOrBeneath p) then true
  else (blockedFiles s).any (fun f => elements (lexicallyNormal p) == elements (lexicallyNormal f))

def isValidPhysicalPathForRegistration (env : Option Text) (s : ServerPaths) (path : Text) : Int :=
  if path.isEmpty then SYS_INVALID_FILE_PATH
  else
    let physicalPath := parse path
    if !physicalPath.rootDirectory then SYS_INVALID_FILE_PATH
    else if (elements physicalPath).any (fun e => e == dot || e == dotDot) then SYS_INVALID_FILE_PATH
    else if isProtectedIrodsServerPath env s physicalPath then SYS_INVALID_FILE_PATH
    else 0

/- Where POSIX finds an absolute path: any run of slashes is one, a dot stays, a
dot-dot goes up and at the root stays. -/
def visited (position : List Text) (n : Text) : List Text :=
  if n = dot then position else if n = dotDot then position.dropLast else position ++ [n]

def posixLocation (path : Text) : List Text := (names path).foldl visited []

def InVault (s : ServerPaths) (position : List Text) : Prop := s.home.names ++ [lit "Vault"] <+: position

def ProtectedElsewhere (s : ServerPaths) (position : List Text) : Prop :=
  s.config.names <+: position ∨ s.plugin.names <+: position ∨ s.runstate.names ++ [lit "irods"] <+: position ∨
    ∃ b ∈ binaries, position = s.sbin.names ++ [b]

def Protected (s : ServerPaths) (position : List Text) : Prop :=
  ProtectedElsewhere s position ∨ (s.home.names <+: position ∧ ¬InVault s position)

theorem visitedPlain {position ns : List Text} (plain : ∀ n ∈ ns, n ≠ dot ∧ n ≠ dotDot) :
    ns.foldl visited position = position ++ ns := by
  induction ns generalizing position with
  | nil => simp
  | cons n _ ih =>
    have first := plain n mem_cons_self
    rw [foldl_cons,ih fun m member => plain m (mem_cons_of_mem n member),visited,if_neg first.1,
      if_neg first.2]
    simp

/- The checks in front of the protected ones: a root directory and no dot elements. -/
def Admissible (path : Text) : Prop := (parse path).rootDirectory = true ∧ Plain (parse path)

theorem pathOfPlain (d) {below} (clean : ∀ n ∈ below, n ≠ dot ∧ n ≠ dotDot) :
    Plain (pathOf d below) := by
  have all : ∀ n ∈ d.names ++ below, n ≠ dot ∧ n ≠ dotDot := by
    intro n member
    rcases mem_append.mp member with inside | behind
    · exact (d.clean n inside).2
    · exact clean n behind
  constructor
  · intro member
    rcases mem_cons.mp member with root | name
    · exact absurd root (by decide)
    · exact (all dot (by simpa [pathOf] using name)).1 rfl
  · intro member
    rcases mem_cons.mp member with root | name
    · exact absurd root (by decide)
    · exact (all dotDot (by simpa [pathOf] using name)).2 rfl

theorem elementsPathOf (d below) :
    elements (pathOf d below) = ['/']::(d.names ++ below) := by simp [elements,pathOf]

section Rooted
variable {p : Path} (rooted : p.rootDirectory = true) (plain : Plain p)
include rooted plain

theorem elementsRooted :
    elements p = (if p.rootName.isEmpty then [] else [p.rootName]) ++ ['/']::p.names := by
  simp [elements,rooted,plainEnds plain]

theorem atOrBeneathDirectory (d) {below} (clean : ∀ n ∈ below, n ≠ dot ∧ n ≠ dotDot)
    (host : p.rootName = []) : pathIsAtOrBeneath p (pathOf d below) = true ↔ d.names ++ below <+: p.names := by
  rw [pathIsAtOrBeneath,normalPlain rooted plain,normalPlain rfl (pathOfPlain d clean),elementsPathOf,
    elementsRooted rooted plain,host]
  simp

theorem notBeneathDirectory (d) {below} (clean : ∀ n ∈ below, n ≠ dot ∧ n ≠ dotDot)
    (host : p.rootName ≠ []) (long : p.rootName ≠ ['/']) : pathIsAtOrBeneath p (pathOf d below) = false := by
  rw [pathIsAtOrBeneath,normalPlain rooted plain,normalPlain rfl (pathOfPlain d clean),elementsPathOf,
    elementsRooted rooted plain]
  simp [host,List.isPrefixOf,Ne.symm long]

theorem sameFile (d) {b} (clean : ∀ n ∈ [b], n ≠ dot ∧ n ≠ dotDot) (host : p.rootName = []) :
    (elements (lexicallyNormal p) == elements (lexicallyNormal (pathOf d [b]))) = true ↔ p.names = d.names ++ [b] := by
  rw [normalPlain rooted plain,normalPlain rfl (pathOfPlain d clean),elementsPathOf,
    elementsRooted rooted plain,host]
  simp

theorem otherFile (d) {b} (clean : ∀ n ∈ [b], n ≠ dot ∧ n ≠ dotDot)
    (host : p.rootName ≠ []) (long : p.rootName ≠ ['/']) :
    (elements (lexicallyNormal p) == elements (lexicallyNormal (pathOf d [b]))) = false := by
  rw [normalPlain rooted plain,normalPlain rfl (pathOfPlain d clean),elementsPathOf,
    elementsRooted rooted plain]
  simp [host,long]

end Rooted

theorem noneClean : ∀ n ∈ ([] : List Text), n ≠ dot ∧ n ≠ dotDot := by simp

theorem vaultClean : ∀ n ∈ [lit "Vault"], n ≠ dot ∧ n ≠ dotDot := by decide

theorem irodsClean : ∀ n ∈ [lit "irods"], n ≠ dot ∧ n ≠ dotDot := by decide

theorem binaryClean {b} (member : b ∈ binaries) : ∀ n ∈ [b], n ≠ dot ∧ n ≠ dotDot := by
  have all : binaries.all fun c => c != dot && c != dotDot = true := rfl
  have here := all_eq_true.mp all b member
  simpa using here

variable {s : ServerPaths} {path : Text}

theorem protectedUnset (p) : isProtectedIrodsServerPath none s p = true ↔
    ¬pathIsAtOrBeneath p (pathOf s.home [lit "Vault"]) = true ∧
      ((blockedDirectories s).any (pathIsAtOrBeneath p) = true ∨
        (blockedFiles s).any fun f => elements (lexicallyNormal p) == elements (lexicallyNormal f) = true) := by
  unfold isProtectedIrodsServerPath
  rw [if_neg (by decide)]
  split
  · rename_i inside
    simp [inside]
  rename_i outside
  split
  · rename_i blocked
    simp [outside,blocked]
  · rename_i free
    simp [outside,free]

section WithoutHost
variable {p : Path} (rooted : p.rootDirectory = true) (plain : Plain p) (host : p.rootName = [])
include rooted plain host

theorem blockedDirectory : (blockedDirectories s).any (pathIsAtOrBeneath p) = true ↔
    s.config.names <+: p.names ∨ s.plugin.names <+: p.names ∨ s.home.names <+: p.names ∨
      s.runstate.names ++ [lit "irods"] <+: p.names := by
  have here := fun d => atOrBeneathDirectory rooted plain d noneClean host
  simp only [append_nil] at here
  simp [blockedDirectories,here,atOrBeneathDirectory rooted plain s.runstate irodsClean host]

theorem blockedFile :
    (blockedFiles s).any fun f => elements (lexicallyNormal p) == elements (lexicallyNormal f) = true ↔
      ∃ b ∈ binaries, p.names = s.sbin.names ++ [b] := by
  rw [any_eq_true]
  constructor
  · rintro ⟨f,member,same⟩
    obtain ⟨b,inside,rfl⟩ := mem_map.mp member
    exact ⟨b,inside,(sameFile rooted plain s.sbin (binaryClean inside) host).mp same⟩
  · rintro ⟨b,inside,same⟩
    exact ⟨_,mem_map.mpr ⟨b,inside,rfl⟩,(sameFile rooted plain s.sbin (binaryClean inside) host).mpr same⟩

theorem protectedWithoutHost : isProtectedIrodsServerPath none s p = true ↔
    ¬InVault s p.names ∧ (ProtectedElsewhere s p.names ∨ s.home.names <+: p.names) := by
  rw [protectedUnset,atOrBeneathDirectory rooted plain s.home vaultClean host,blockedDirectory rooted plain host,
    blockedFile rooted plain host]
  refine and_congr_right fun _ => ?_
  constructor
  · rintro ((config | plugin | home | runstate) | file)
    · exact .inl (.inl config)
    · exact .inl (.inr (.inl plugin))
    · exact .inr home
    · exact .inl (.inr (.inr (.inl runstate)))
    · exact .inl (.inr (.inr (.inr file)))
  · rintro ((config | plugin | runstate | file) | home)
    · exact .inl (.inl config)
    · exact .inl (.inr (.inl plugin))
    · exact .inl (.inr (.inr (.inr runstate)))
    · exact .inr file
    · exact .inl (.inr (.inr (.inl home)))

end WithoutHost

theorem protectedWithHost {p} (rooted : p.rootDirectory = true) (plain : Plain p) (host : p.rootName ≠ [])
    (long : p.rootName ≠ ['/']) : isProtectedIrodsServerPath none s p = false := by
  have directories : (blockedDirectories s).any (pathIsAtOrBeneath p) = false := by
    simp [blockedDirectories,notBeneathDirectory rooted plain _ noneClean host long,
      notBeneathDirectory rooted plain _ irodsClean host long]
  have files : (blockedFiles s).any fun f => elements (lexicallyNormal p) == elements (lexicallyNormal f) = false := by
    rw [any_eq_false]
    intro f member
    obtain ⟨b,inside,rfl⟩ := mem_map.mp member
    simp [otherFile rooted plain s.sbin (binaryClean inside) host long]
  unfold isProtectedIrodsServerPath
  rw [directories,files]
  simp

theorem rootNameLong (t) : rootNameOf t ≠ ['/'] := by
  unfold rootNameOf
  split
  · simp
  · split <;> simp
  · simp

theorem validExactly : isValidPhysicalPathForRegistration none s path = 0 ↔
    Admissible path ∧ isProtectedIrodsServerPath none s (parse path) = false := by
  have bad : SYS_INVALID_FILE_PATH ≠ 0 := by decide
  have dots : (elements (parse path)).any fun e => e == dot || e == dotDot = true ↔ ¬Plain (parse path) := by
    rw [any_eq_true,Plain,not_and_or,not_not,not_not]
    constructor
    · rintro ⟨e,member,same⟩
      rcases Bool.or_eq_true_iff.mp same with one | two
      · exact .inl (eq_of_beq one ▸ member)
      · exact .inr (eq_of_beq two ▸ member)
    · rintro (one | two)
      · exact ⟨dot,one,rfl⟩
      · exact ⟨dotDot,two,rfl⟩
  unfold isValidPhysicalPathForRegistration Admissible
  split
  · rename_i empty
    have absent : (parse path).rootDirectory = false := by rw [isEmpty_iff.mp empty]; rfl
    simp [absent,bad]
  dsimp only
  split
  · simp_all
  split
  · rename_i dotted
    simp [dots.mp dotted,bad]
  split
  · rename_i blocked
    simp [blocked,bad]
  · simp_all

theorem parseNames (host : rootNameOf path = []) : (parse path).names = names path := by simp [parse,host]

def Allowed (s : ServerPaths) (path : Text) : Prop := isValidPhysicalPathForRegistration none s path = 0

instance (s path) : Decidable (Allowed s path) := by unfold Allowed; infer_instance

/- The locations that escape the check: every protected one behind a root name; else one
inside home/Vault that another protected directory reaches. -/
def Escapes (s : ServerPaths) (path : Text) : Prop :=
  if rootNameOf path = [] then InVault s (posixLocation path) ∧ ProtectedElsewhere s (posixLocation path)
  else Protected s (posixLocation path)

theorem registrationSafeExactly (s : ServerPaths) (path : Text) :
    (Allowed s path → ¬Protected s (posixLocation path)) ↔ (Admissible path → ¬Escapes s path) := by
  rw [Allowed,validExactly,and_imp]
  refine imp_congr_right fun admissible => ?_
  obtain ⟨rooted,plain⟩ := admissible
  unfold Escapes
  split
  · rename_i host
    have location : posixLocation path = (parse path).names := by
      rw [posixLocation,← parseNames host,visitedPlain (plainNames plain)]
      rfl
    rw [← Bool.not_eq_true,protectedWithoutHost rooted plain host,location,Protected]
    tauto
  · rename_i host
    simp [protectedWithHost rooted plain host (rootNameLong path)]

def packaged : ServerPaths where
  config := ⟨[lit "etc",lit "irods"],by decide⟩
  plugin := ⟨[lit "usr",lit "lib",lit "irods",lit "plugins"],by decide⟩
  home := ⟨[lit "var",lit "lib",lit "irods"],by decide⟩
  runstate := ⟨[lit "var",lit "run"],by decide⟩
  sbin := ⟨[lit "usr",lit "sbin"],by decide⟩

theorem doubleSlashRegisters :
    Allowed packaged (lit "//etc/irods/server_config.json") ∧
      Protected packaged (posixLocation (lit "//etc/irods/server_config.json")) :=
  ⟨by decide,.inl (.inl (by decide))⟩

end Irods.PhysicalPathRegistration
