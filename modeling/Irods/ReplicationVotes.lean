import Irods.CText

/-! The votes a replication resource takes from its children: create_replication_list, resolve_children and
select_child of librepl.cpp, over any ordered votes. -/
namespace Irods.ReplicationVotes
open CText List

section Votes
variable {V : Type} [LinearOrder V] [Zero V]

-- A child without success leaves something in out_vote, made from what was there: the same if it wrote
-- none, and a passthru resource scales it. One that finds no child makes no vote out of nothing.
inductive Outcome (V : Type) [Zero V] where
  | voted (vote : V) (parser : Text)
  | childNotFound (parser : Text) (written : V → V) (fromZero : written 0 = 0)
  | failed (written : V → V)

structure Child (V : Type) [Zero V] where
  name : Text
  outcome : Outcome V

/- Both loops: out_vote is what the last call wrote, and CHILD_NOT_FOUND is no failure. -/
def resolveEach : V → List (Child V) → List (V × Text)
  | _,[] => []
  | outVote,c::rest =>
    match c.outcome with
    | .voted vote parser => (vote,parser)::resolveEach vote rest
    | .childNotFound parser written _ => (written outVote,parser)::resolveEach (written outVote) rest
    | .failed written => resolveEach (written outVote) rest

def outside (selected : List Text) (children : List (Child V)) : List (Child V) := children.filter (·.name ∉ selected)
def positive (entries : List (V × Text)) : List (V × Text) := entries.filter (0 < ·.1)

def createReplicationList (selected : List Text) (children : List (Child V)) : List Text :=
  (positive (resolveEach 0 (outside selected children))).map Prod.snd

def resolveChildren (children : List (Child V)) : List (V × Text) :=
  (resolveEach 0 children).mergeSort fun a b => b.1 ≤ a.1

-- The first entry, or the random one if the read policy says so.
def selectChild (random : Option Nat) (redirectMap : List (V × Text)) : Option (V × Text) :=
  match random with
  | none => redirectMap.head?
  | some index => (positive redirectMap)[index % (positive redirectMap).length]?

def ownEntry (c : Child V) : Option (V × Text) :=
  match c.outcome with
  | .voted vote parser => some (vote,parser)
  | .childNotFound parser _ _ => some (0,parser)
  | .failed _ => none

structure OwnVotes (selected : List Text) (children : List (Child V)) : Prop where
  listed : createReplicationList selected children =
    (positive ((outside selected children).filterMap ownEntry)).map Prod.snd
  mapped : resolveEach 0 children = children.filterMap ownEntry
  chosen : ∀ random vote parser, selectChild random (resolveChildren children) = some (vote,parser) → 0 < vote →
    ∃ c ∈ children, c.outcome = .voted vote parser

/- No child is without a vote of its own while a bad one is carried. -/
def Fresh (bad : V → Prop) : V → List (Child V) → Prop
  | _,[] => True
  | carried,c::rest =>
    match c.outcome with
    | .voted vote _ => Fresh bad vote rest
    | .childNotFound _ written _ => ¬bad (written carried) ∧ Fresh bad (written carried) rest
    | .failed written => Fresh bad (written carried) rest

attribute [simp] resolveEach ownEntry

theorem mappedExactly (children) : ∀ carried : V, resolveEach carried children = children.filterMap ownEntry ↔
    Fresh (· ≠ 0) carried children := by
  induction children with
  | nil => simp [Fresh]
  | cons c _ ih =>
    cases outcome : c.outcome <;> simp [Fresh,outcome,ih]

attribute [simp] positive

theorem listedMore (children) : ∀ carried : V, (positive (children.filterMap ownEntry)).length ≤
    (positive (resolveEach carried children)).length := by
  induction children with
  | nil => simp
  | cons c _ ih =>
    intro carried
    cases outcome : c.outcome with
    | voted vote parser => by_cases high : 0 < vote <;> simpa [outcome,high] using ih vote
    | childNotFound _ written _ =>
      have more := ih (written carried)
      by_cases high : 0 < written carried
      · simpa [outcome,high] using Nat.le_succ_of_le more
      · simpa [outcome,high] using more
    | failed written => simpa [outcome] using ih (written carried)

theorem listedExactly (children) : ∀ carried : V, (positive (resolveEach carried children)).map Prod.snd =
    (positive (children.filterMap ownEntry)).map Prod.snd ↔ Fresh (0 < ·) carried children := by
  induction children with
  | nil => simp [Fresh]
  | cons c rest ih =>
    intro carried
    cases outcome : c.outcome with
    | voted vote parser => by_cases high : 0 < vote <;> simpa [Fresh,outcome,high] using ih vote
    | childNotFound _ written _ =>
      by_cases high : 0 < written carried
      · have more := listedMore rest (written carried)
        simp only [resolveEach,Fresh,outcome,high]
        refine iff_of_false (fun same => ?_) (by simp)
        have sizes := congrArg length same
        simp [high,outcome] at sizes more
        omega
      · simpa [Fresh,outcome,high] using ih (written carried)
    | failed written => simpa [Fresh,outcome] using ih (written carried)

theorem selectedEntry {random} {entries : List (V × Text)} {e} (picked : selectChild random entries = some e) :
    e ∈ entries := by
  cases random with
  | none => exact mem_of_mem_head? picked
  | some _ => exact mem_of_mem_filter (mem_of_getElem? picked)

theorem ownVotesExactly (selected) (children : List (Child V)) :
    OwnVotes selected children ↔ Fresh (0 < ·) 0 (outside selected children) ∧ Fresh (· ≠ 0) 0 children := by
  constructor
  · exact fun own => ⟨(listedExactly _ 0).1 own.listed,(mappedExactly _ 0).1 own.mapped⟩
  rintro ⟨list,map⟩
  have mapped := (mappedExactly children 0).2 map
  refine ⟨(listedExactly _ 0).2 list,mapped,fun random vote parser picked high => ?_⟩
  have entry := selectedEntry picked
  rw [resolveChildren,mem_mergeSort,mapped,mem_filterMap] at entry
  obtain ⟨c,here,its⟩ := entry
  refine ⟨c,here,?_⟩
  unfold ownEntry at its
  split at its
  · next same => cases its; exact same
  · cases its; exact absurd high (lt_irrefl _)
  · cases its

end Votes

theorem childlessReplicated :
    createReplicationList [] [⟨lit "a",.voted 1 (lit "r;a")⟩,⟨lit "b",.childNotFound (lit "r;b") id rfl⟩] =
    [lit "r;a",lit "r;b"] ∧ ¬OwnVotes [] [⟨lit "a",.voted 1 (lit "r;a")⟩,⟨lit "b",.childNotFound (lit "r;b") id rfl⟩] :=
  ⟨by decide,fun own => absurd own.listed (by decide)⟩

end Irods.ReplicationVotes
