import Irods.HierarchyParser

/-! resolve_hier_for_open_or_write: the roots of an object's replicas vote in the order of their names. What a root
answers and the votes the replicas have then are parameters, with rationals for floats. -/
namespace Irods.ReplicaVoting
open CText List
open HierarchyParser (setString)

def SYS_REPLICA_DOES_NOT_EXIST : Int := -164000
def SYS_REPLICA_INACCESSIBLE : Int := -168000
def HIERARCHY_ERROR : Int := -1803000

def voteIsZero (vote : ℚ) : Bool := vote - 1/100000000 ≤ 0

-- first_resc of the parser made from the hierarchy, which throws if there is no name.
def firstResc (hier : Text) : Option Text := (setString hier).2.head?

structure Replica where
  replNum : Int
  rescHier : Text
  vote : ℚ
  rooted : (firstResc rescHier).isSome = true

def Replica.root (r : Replica) : Text := (firstResc r.rescHier).get r.rooted

structure FileObject where
  replicas : List Replica
  replRequested : Int

-- None stands for every failure of the root, a parent included.
def requestVoteForFileObject (outcome : Text → Option (Text × ℚ)) (root : Text) : Option (Text × ℚ) :=
  (outcome root).filter fun o => !voteIsZero o.2

structure Scan where
  kwMatch : Option Text
  maxHier : Text
  maxVote : ℚ

def count (keyWord root hier : Text) (vote : ℚ) (s : Scan) : Scan :=
  if s.kwMatch.isSome then s
  else
    let s := if ¬voteIsZero vote ∧ keyWord ≠ [] ∧ root = keyWord then { s with kwMatch := some hier } else s
    if vote > s.maxVote then { s with maxVote := vote, maxHier := hier } else s

def visit (outcome : Text → Option (Text × ℚ)) (keyWord : Text) (s : Scan) (root : Text) : Scan :=
  match requestVoteForFileObject outcome root with
  | none => s
  | some (hier,vote) => count keyWord root hier vote s

def rootMap (obj : FileObject) : List Text := (obj.replicas.map Replica.root).toFinset.sort

def resolveHierForOpenOrWrite (outcome : Text → Option (Text × ℚ)) (keyWord : Text) (obj : FileObject) :
    Except Int Text :=
  if rootMap obj = [] then .error SYS_REPLICA_DOES_NOT_EXIST
  else
    let s := (rootMap obj).foldl (visit outcome keyWord) ⟨none,[],-1⟩
    if voteIsZero s.maxVote then .error HIERARCHY_ERROR
    else if obj.replRequested > -1 then
      match obj.replicas.find? (·.replNum = obj.replRequested) with
      | none => .error SYS_REPLICA_DOES_NOT_EXIST
      | some r => if voteIsZero r.vote then .error SYS_REPLICA_INACCESSIBLE else .ok r.rescHier
    else .ok (s.kwMatch.getD s.maxHier)

structure Answer where
  root : Text
  hier : Text
  vote : ℚ

/- The roots that succeed with a vote, by their names. -/
def answers (outcome : Text → Option (Text × ℚ)) (obj : FileObject) : List Answer :=
  (rootMap obj).filterMap fun root => (requestVoteForFileObject outcome root).map fun o => ⟨root,o.1,o.2⟩

def Wins (given : List Answer) (a : Answer) : Prop := a ∈ given ∧ ∀ b ∈ given, b.vote < a.vote ∨ b.vote = a.vote ∧
    a.root ≤ b.root

section Scanning
variable {keyWord : Text}

structure Scanned (keyWord : Text) (given : List Answer) (s : Scan) : Prop where
  silent : given = [] → s.maxVote = -1
  heard : given ≠ [] → voteIsZero s.maxVote = false
  keyed : ∀ hier, s.kwMatch = some hier ↔ keyWord ≠ [] ∧ ∃ a ∈ given, a.root = keyWord ∧ a.hier = hier
  best : s.kwMatch = none → given ≠ [] → ∃ a, Wins given a ∧ s.maxHier = a.hier ∧ s.maxVote = a.vote

theorem counted {given a s} (scanned : Scanned keyWord given s) (last : ∀ b ∈ given, b.root < a.root)
    (voted : voteIsZero a.vote = false) :
    Scanned keyWord (given ++ [a]) (count keyWord a.root a.hier a.vote s) := by
  have above : 1/100000000 < a.vote := by simpa [voteIsZero] using voted
  obtain ⟨kwMatch,maxHier,maxVote⟩ := s
  cases kwMatch with
  | some found =>
    obtain ⟨named,b,here,its⟩ := (scanned.keyed found).1 rfl
    have fresh : a.root ≠ keyWord := its.1 ▸ (last b here).ne'
    refine ⟨by simp,fun _ => scanned.heard (ne_nil_of_mem here),fun hier => ?_,nofun⟩
    simpa [count,or_and_right,exists_or,fresh] using scanned.keyed hier
  | none =>
    have before : ∀ b ∈ given, b.vote ≤ maxVote := by
      intro b here
      obtain ⟨w,⟨_,beats⟩,_,same⟩ := scanned.best rfl (ne_nil_of_mem here)
      rcases beats b here with less | ⟨equal,_⟩ <;> simp_all [le_of_lt]
    have unkeyed : keyWord ≠ [] → ∀ b ∈ given, b.root ≠ keyWord := fun named b here same =>
      nomatch (scanned.keyed b.hier).2 ⟨named,b,here,same,rfl⟩
    have result : count keyWord a.root a.hier a.vote ⟨none,maxHier,maxVote⟩ =
      ⟨if keyWord ≠ [] ∧ a.root = keyWord then some a.hier else none,
        if maxVote < a.vote then a.hier else maxHier,if maxVote < a.vote then a.vote else maxVote⟩ := by
      simp only [count,voted]
      split_ifs <;> simp_all
    rw [result]
    refine ⟨by simp,fun _ => ?_,fun hier => ?_,fun _ _ => ?_⟩
    · by_cases higher : maxVote < a.vote
      · simp [higher,voted]
      · simp only [voteIsZero,decide_eq_false_iff_not,not_le,if_neg higher]
        linarith
    · have old := scanned.keyed hier
      by_cases named : keyWord = [] <;> by_cases key : a.root = keyWord <;> simp_all
    · by_cases higher : maxVote < a.vote
      · refine ⟨a,⟨by simp,fun b here => ?_⟩,if_pos higher,if_pos higher⟩
        rcases mem_append.1 here with here | here
        · exact .inl ((before b here).trans_lt higher)
        · exact .inr (by simp [mem_singleton.1 here])
      · have nonempty : given ≠ [] :=
          fun none => higher (by have low := scanned.silent none; simp only at low; linarith)
        obtain ⟨w,⟨here,beats⟩,hier,vote⟩ := scanned.best rfl nonempty
        refine ⟨w,⟨by simp [here],fun b there => ?_⟩,(if_neg higher).trans hier,(if_neg higher).trans vote⟩
        rcases mem_append.1 there with there | there
        · exact beats b there
        · rw [mem_singleton.1 there,← vote]
          exact (lt_or_eq_of_le (not_lt.1 higher)).imp_right fun same => ⟨same,(last w here).le⟩

theorem scannedAll {outcome : Text → Option (Text × ℚ)} {roots : List Text} (sorted : roots.Pairwise (· < ·)) :
    Scanned keyWord (roots.filterMap fun root => (requestVoteForFileObject outcome root).map fun o => ⟨root,o.1,o.2⟩)
      (roots.foldl (visit outcome keyWord) ⟨none,[],-1⟩) := by
  induction roots using reverseRecOn with
  | nil => exact ⟨fun _ => rfl,by simp,by simp,by simp⟩
  | append_singleton roots root ih =>
    obtain ⟨front,_,before⟩ := pairwise_append.1 sorted
    rw [foldl_append,filterMap_append]
    cases answer : requestVoteForFileObject outcome root with
    | none => simpa [visit,answer] using ih front
    | some o =>
      have voted : voteIsZero o.2 = false := by simpa using (Option.filter_eq_some_iff.1 answer).2
      have step : Scanned keyWord (_ ++ [⟨root,o.1,o.2⟩]) _ := counted (ih front) ?_ voted
      · simpa [visit,answer] using step
      simp only [mem_filterMap,Option.map_eq_some_iff]
      rintro b ⟨other,here,_,_,rfl⟩
      exact before other here root (by simp)

end Scanning

section Resolution
variable {outcome : Text → Option (Text × ℚ)} {keyWord : Text} {obj : FileObject}

theorem rootsEmpty : rootMap obj = [] ↔ obj.replicas = [] := by simp [rootMap,eq_nil_iff_forall_not_mem]

theorem scannedRoots :
    Scanned keyWord (answers outcome obj) ((rootMap obj).foldl (visit outcome keyWord) ⟨none,[],-1⟩) :=
  scannedAll (Finset.sortedLT_sort _).pairwise

theorem resolvedSilent (replicas : obj.replicas ≠ []) (silent : answers outcome obj = []) :
    resolveHierForOpenOrWrite outcome keyWord obj = .error HIERARCHY_ERROR := by
  have low := (@scannedRoots outcome keyWord obj).silent silent
  rw [resolveHierForOpenOrWrite,if_neg (mt rootsEmpty.1 replicas)]
  exact if_pos (by rw [low]; norm_num [voteIsZero])

theorem answeredReplicas (heard : answers outcome obj ≠ []) : obj.replicas ≠ [] := by
  intro none
  simp [answers,rootsEmpty.2 none] at heard

theorem resolvedHeard (heard : answers outcome obj ≠ []) : resolveHierForOpenOrWrite outcome keyWord obj =
    let s := (rootMap obj).foldl (visit outcome keyWord) ⟨none,[],-1⟩
    if obj.replRequested > -1 then
      match obj.replicas.find? (·.replNum = obj.replRequested) with
      | none => .error SYS_REPLICA_DOES_NOT_EXIST
      | some r => if voteIsZero r.vote then .error SYS_REPLICA_INACCESSIBLE else .ok r.rescHier
    else .ok (s.kwMatch.getD s.maxHier) := by
  have high := (@scannedRoots outcome keyWord obj).heard heard
  rw [resolveHierForOpenOrWrite,if_neg (mt rootsEmpty.1 (answeredReplicas heard))]
  exact if_neg (by rw [high]; decide)

theorem heardAnswers (heard : answers outcome obj ≠ []) :
    resolveHierForOpenOrWrite outcome keyWord obj ≠ .error HIERARCHY_ERROR := by
  intro thrown
  rw [resolvedHeard heard] at thrown
  dsimp only at thrown
  split at thrown
  · split at thrown
    · cases thrown
    · split at thrown <;> cases thrown
  · cases thrown

end Resolution

/- What the resolution answers, by the roots that succeed. -/
structure Resolved (given : List Answer) (keyWord : Text) (obj : FileObject) (result : Except Int Text) : Prop where
  thrown : result = .error HIERARCHY_ERROR ↔ obj.replicas ≠ [] ∧ given = []
  absent : obj.replicas = [] → result = .error SYS_REPLICA_DOES_NOT_EXIST
  requested : given ≠ [] → obj.replRequested > -1 → result =
    match obj.replicas.find? (·.replNum = obj.replRequested) with
    | none => .error SYS_REPLICA_DOES_NOT_EXIST
    | some r => if voteIsZero r.vote then .error SYS_REPLICA_INACCESSIBLE else .ok r.rescHier
  keyed : given ≠ [] → ¬obj.replRequested > -1 → keyWord ≠ [] → ∀ a ∈ given, a.root = keyWord → result = .ok a.hier
  voted : given ≠ [] → ¬obj.replRequested > -1 → (keyWord ≠ [] → ∀ a ∈ given, a.root ≠ keyWord) →
    ∃ a, Wins given a ∧ result = .ok a.hier

theorem openResolvesExactly (outcome keyWord obj) :
    Resolved (answers outcome obj) keyWord obj (resolveHierForOpenOrWrite outcome keyWord obj) where
  thrown := by
    constructor
    · intro thrown
      have silent : answers outcome obj = [] := by_contra fun heard => heardAnswers heard thrown
      refine ⟨fun none => ?_,silent⟩
      rw [resolveHierForOpenOrWrite,if_pos (rootsEmpty.2 none)] at thrown
      cases thrown
    · rintro ⟨replicas,silent⟩
      exact resolvedSilent replicas silent
  absent none := if_pos (rootsEmpty.2 none)
  requested heard asked := (resolvedHeard heard).trans (if_pos asked)
  keyed heard unasked named a here same := by
    have found := (scannedRoots.keyed a.hier).2 ⟨named,a,here,same,rfl⟩
    rw [resolvedHeard heard]
    dsimp only
    rw [if_neg unasked,found,Option.getD_some]
  voted heard unasked away := by
    have scanned := @scannedRoots outcome keyWord obj
    have unkeyed := Option.eq_none_iff_forall_ne_some.2 fun hier found => by
      obtain ⟨named,a,here,same,_⟩ := (scanned.keyed hier).1 found
      exact away named a here same
    obtain ⟨a,wins,hier,_⟩ := scanned.best unkeyed heard
    refine ⟨a,wins,?_⟩
    rw [resolvedHeard heard]
    dsimp only
    rw [if_neg unasked,unkeyed,Option.getD_none,hier]

end Irods.ReplicaVoting
