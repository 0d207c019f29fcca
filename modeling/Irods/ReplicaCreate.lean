import Irods.StringOpr

/-! Creating the file of a replica: create_physical_file_for_replica of physPath.cpp over
rsFileCreate. The resource plugin, the remote server, the descriptor table and
resolveDupFilePath are arbitrary, and may answer differently at every call. -/
namespace Irods.ReplicaCreate
open CText StringOpr Option

/- The content of a char array of MAX_NAME_LEN bytes. -/
abbrev Name := {t : Text // t.length < MAX_NAME_LEN}

def stored (t : Text) : Name := ⟨(rstrcpy t MAX_NAME_LEN).1,by
  simp only [rstrcpy,boundedCopy,List.length_take,MAX_NAME_LEN]
  omega⟩

/- DataObjInfo and fileCreateInp_t, as far as the loop reads and writes them. -/
structure Replica where
  filePath : Name
  rescHier : Name
  deriving DecidableEq

structure CreateInp where
  fileName : Name
  rescHier : Name
  noChkPerm : Bool
  deriving DecidableEq

structure FileObject where
  physicalPath : Text
  rescHier : Text
  deriving DecidableEq

inductive ChkType where
  | disallowPathReg
  | noChkPathPerm
  | doChkPathPerm
  | chkNonVaultPathPerm
  deriving DecidableEq, Repr

inductive Host where
  | error (code : Int)
  | localHost
  | remote
  | flag (value : Int)
  deriving DecidableEq, Repr

/- What surrounds the loop. A plugin may rewrite the file object of a create, also when it
fails; none from resolveDupFilePath is a negative answer, some the path left in the replica. -/
structure World (σ : Type) where
  chkFilePathPerm : σ → CreateInp → Int
  fileCreate : σ → FileObject → Except Int Int × FileObject × σ
  mkDirForFilePath : σ → FileObject → Int × σ
  fileRmdir : σ → CreateInp → σ
  hostOf : σ → Name → Host
  remoteFileCreate : σ → CreateInp → Int × Option Name × σ
  allocAndFillFileDesc : σ → CreateInp → Int → Int × σ
  resolveDupFilePath : σ → Replica → Option Name × σ

def EEXIST : Nat := 17
def ENOENT : Nat := 2
def getErrno (code : Int) : Nat := (code.tmod 1000).natAbs
def PATH_REG_NOT_ALLOWED : Int := -129000
def SYS_FILE_DESC_OUT_OF_RANGE : Int := -19000
def SYS_UNRECOGNIZED_REMOTE_FLAG : Int := -20000
def maximumRetries : Nat := 100

/- The descriptor or error, the request left behind, the reported path, and where a file was created. -/
structure Answer (σ : Type) where
  fd : Int
  inp : CreateInp
  out : Option Name
  created : Option (Name × Name)
  world : σ

section Create
variable {σ : Type} (w : World σ)

def createTwice (s : σ) (inp : CreateInp) (obj : FileObject) : Except Int Int × FileObject × σ :=
  match w.fileCreate s obj with
  | (.ok fd,obj,s) => (.ok fd,obj,s)
  | (.error code,obj,s) =>
    if getErrno code = ENOENT then
      match w.mkDirForFilePath s obj with
      | (status,s) => if status ≠ 0 then (.error status,obj,s) else w.fileCreate s obj
    else if getErrno code = EEXIST then w.fileCreate (w.fileRmdir s inp) obj
    else (.error code,obj,s)

def rsFileCreateLocal (s : σ) (inp : CreateInp) : Answer σ :=
  if !inp.noChkPerm && decide (w.chkFilePathPerm s inp < 0) then ⟨w.chkFilePathPerm s inp,inp,none,none,s⟩
  else match createTwice w s inp ⟨inp.fileName.1,inp.rescHier.1⟩ with
    | (.error code,_,s) => ⟨code,inp,none,none,s⟩
    | (.ok fd,obj,s) =>
      let path := stored obj.physicalPath
      let hier := stored obj.rescHier
      ⟨fd,{inp with fileName := path, rescHier := hier},some path,some (path,hier),s⟩

-- The remote server works on a copy of the request; only the path comes back.
def rsFileCreateRemote (s : σ) (inp : CreateInp) : Answer σ :=
  match w.remoteFileCreate s inp with
  | (fd,out,s) => ⟨fd,inp,out,if fd < 0 then none else out.map (·,inp.rescHier),s⟩

def filled (a : Answer σ) : Answer σ :=
  if a.fd < 0 then a
  else match w.allocAndFillFileDesc a.world a.inp a.fd with
    | (fd,s) => {a with fd := fd, world := s}

def rsFileCreate (s : σ) (inp : CreateInp) : Answer σ :=
  match w.hostOf s inp.rescHier with
  | .error code => ⟨code,inp,none,none,s⟩
  | .localHost => filled w (rsFileCreateLocal w s inp)
  | .remote => filled w (rsFileCreateRemote w s inp)
  | .flag value => ⟨if value < 0 then value else SYS_UNRECOGNIZED_REMOTE_FLAG,inp,none,none,s⟩

structure Attempt where
  asked : CreateInp
  fd : Int
  created : Option (Name × Name)
  deriving DecidableEq

structure Run where
  code : Int
  replica : Replica
  attempts : List Attempt
  deriving DecidableEq

def tried (inp : CreateInp) (a : Answer σ) : Attempt := ⟨inp,a.fd,a.created⟩

def reported (r : Replica) (a : Answer σ) : Replica :=
  match a.out with
  | none => r
  | some path => ⟨path,a.inp.rescHier⟩

def attempt : Nat → σ → CreateInp → Replica → Int → Run
  | 0,_,_,r,fd => ⟨fd,r,[]⟩
  | left+1,s,inp,r,_ =>
    let a := rsFileCreate w s inp
    if a.fd < 3 then
      if 0 ≤ a.fd then ⟨SYS_FILE_DESC_OUT_OF_RANGE,r,[tried inp a]⟩
      else if getErrno a.fd ≠ EEXIST then ⟨a.fd,r,[tried inp a]⟩
      else
        let r := reported r a
        match w.resolveDupFilePath a.world r with
        | (none,_) => ⟨a.fd,r,[tried inp a]⟩
        | (some path,s) =>
          let rest := attempt left s {a.inp with fileName := path} {r with filePath := path} a.fd
          {rest with attempts := tried inp a::rest.attempts}
    -- A valid descriptor ends the loop before the replica is told what was reported.
    else ⟨a.fd,r,[tried inp a]⟩

def createPhysicalFileForReplica (chkType : ChkType) (s : σ) (r : Replica) : Run :=
  if chkType = .disallowPathReg then ⟨PATH_REG_NOT_ALLOWED,r,[]⟩
  else attempt w maximumRetries s ⟨r.filePath,r.rescHier,chkType == .noChkPathPerm⟩ r 0

end Create

section Run
variable {σ : Type} {w : World σ}

theorem unreported {s inp} (silent : (rsFileCreate w s inp).out = none) :
    (rsFileCreate w s inp).inp = inp := by
  have kept : ∀ a, (filled w a).out = a.out ∧ (filled w a).inp = a.inp := by
    intro a
    unfold filled
    split <;> exact ⟨rfl,rfl⟩
  unfold rsFileCreate at silent ⊢
  cases host : w.hostOf s inp.rescHier with
  | error code => rfl
  | flag _ => rfl
  | remote => exact (kept _).2
  | localHost =>
    simp only [host,(kept _).1] at silent
    simp only [(kept _).2]
    unfold rsFileCreateLocal at silent ⊢
    split at silent
    · rename_i refused
      rw [if_pos refused]
    rename_i allowed
    rw [if_neg allowed]
    cases made : createTwice w s inp ⟨inp.fileName.1,inp.rescHier.1⟩ with
    | mk answer _ =>
      cases answer with
      | error _ => rfl
      | ok _ =>
        rw [made] at silent
        cases silent

def InStep (inp : CreateInp) (r : Replica) : Prop := inp.fileName = r.filePath ∧ inp.rescHier = r.rescHier

theorem reportedHier {s inp r} (step : InStep inp r) :
    (rsFileCreate w s inp).inp.rescHier = (reported r (rsFileCreate w s inp)).rescHier := by
  unfold reported
  cases silent : (rsFileCreate w s inp).out with
  | none =>
    rw [unreported silent]
    exact step.2
  | some _ => rfl

/- A descriptor is returned by the last attempt alone, and the replica then still holds
what that attempt was asked for. -/
structure Last (left : Nat) (run : Run) : Prop where
  few : run.attempts.length ≤ left
  returned : 3 ≤ run.code → ∃ a, run.attempts.getLast? = some a ∧ a.fd = run.code
  asked : ∀ a, run.attempts.getLast? = some a → 3 ≤ a.fd →
    run.code = a.fd ∧ run.replica = ⟨a.asked.fileName,a.asked.rescHier⟩

theorem lastOfFailure {left code r a} (failed : a.fd < 3) (small : code < 3) :
    Last (left+1) ⟨code,r,[a]⟩ where
  few := by simp
  returned valid := absurd valid (by simpa using small)
  asked b last valid := by
    have same : a = b := by simpa using last
    exact absurd valid (by rw [← same]; omega)

theorem attemptLast (left) {s inp r fd} (small : fd < 3) (step : InStep inp r) :
    Last left (attempt w left s inp r fd) := by
  induction left generalizing s inp r fd with
  | zero => exact ⟨by simp [attempt],fun valid => absurd valid (by simpa [attempt] using small),by simp [attempt]⟩
  | succ left ih =>
    unfold attempt
    dsimp only
    split
    · rename_i failed
      split
      · exact lastOfFailure failed (by decide)
      split
      · exact lastOfFailure failed (by omega)
      cases resolved : w.resolveDupFilePath (rsFileCreate w s inp).world (reported r (rsFileCreate w s inp)) with
      | mk path s2 =>
        cases path with
        | none => exact lastOfFailure failed (by omega)
        | some path =>
          have rest : Last left (attempt w left s2 {(rsFileCreate w s inp).inp with fileName := path}
              {reported r (rsFileCreate w s inp) with filePath := path} (rsFileCreate w s inp).fd) :=
            ih failed ⟨rfl,reportedHier step⟩
          refine ⟨Nat.succ_le_succ rest.few,?_,?_⟩
          · intro valid
            obtain ⟨a,last,code⟩ := rest.returned valid
            exact ⟨a,by simp [List.getLast?_cons,last],code⟩
          intro a last valid
          rw [List.getLast?_cons] at last
          cases found : (attempt w left s2 {(rsFileCreate w s inp).inp with fileName := path}
              {reported r (rsFileCreate w s inp) with filePath := path}
              (rsFileCreate w s inp).fd).attempts.getLast? with
          | none =>
            rw [found] at last
            cases some.inj last
            exact absurd valid (by simpa [tried] using failed)
          | some b =>
            rw [found] at last
            cases some.inj last
            exact rest.asked b found valid
    · refine ⟨by simp,fun _ => ⟨_,rfl,rfl⟩,?_⟩
      intro a last _
      have same : tried inp (rsFileCreate w s inp) = a := by simpa using last
      subst same
      exact ⟨rfl,by rw [tried,step.1,step.2]⟩

end Run

structure Recorded (run : Run) : Prop where
  few : run.attempts.length ≤ maximumRetries
  created : 3 ≤ run.code → ∃ a, run.attempts.getLast? = some a ∧ a.fd = run.code ∧
    a.created = some (run.replica.filePath,run.replica.rescHier)

def Obedient (run : Run) : Prop := ∀ a, run.attempts.getLast? = some a → 3 ≤ a.fd →
  a.created = some (a.asked.fileName,a.asked.rescHier)

theorem replicaRecordedExactly {σ : Type} (w : World σ) (chkType : ChkType) (s : σ) (r : Replica) :
    Recorded (createPhysicalFileForReplica w chkType s r) ↔ Obedient (createPhysicalFileForReplica w chkType s r) := by
  have last : Last maximumRetries (createPhysicalFileForReplica w chkType s r) := by
    unfold createPhysicalFileForReplica
    split
    · exact ⟨by simp,fun valid => absurd valid (by simp [PATH_REG_NOT_ALLOWED]),by simp⟩
    · exact attemptLast maximumRetries (by decide) ⟨rfl,rfl⟩
  constructor
  · rintro ⟨-,created⟩ a final valid
    obtain ⟨code,replica⟩ := last.asked a final valid
    obtain ⟨b,same,-,made⟩ := created (code ▸ valid)
    cases some.inj (final.symm.trans same)
    rw [made,replica]
  · intro obedient
    refine ⟨last.few,fun valid => ?_⟩
    obtain ⟨a,final,code⟩ := last.returned valid
    have high := code.symm ▸ valid
    refine ⟨a,final,code,?_⟩
    rw [obedient a final high,(last.asked a final high).2]

def relocating : World Unit where
  chkFilePathPerm _ _ := 0
  fileCreate s obj := (.ok 7,{obj with physicalPath := lit "/archive/0001"},s)
  mkDirForFilePath s _ := (0,s)
  fileRmdir s _ := s
  hostOf _ _ := .localHost
  remoteFileCreate s _ := (-1,none,s)
  allocAndFillFileDesc s _ _ := (3,s)
  resolveDupFilePath s _ := (none,s)

theorem relocatedFileForgotten :
    let run := createPhysicalFileForReplica relocating .noChkPathPerm () ⟨stored (lit "/vault/f"),stored (lit "resc")⟩
    run.code = 3 ∧ run.replica.filePath = stored (lit "/vault/f") ∧
      run.attempts.map (·.created) = [some (stored (lit "/archive/0001"),stored (lit "resc"))] := by
  decide

end Irods.ReplicaCreate
