import Mathlib

/-! fixed_buffer_resource: first fit over a list of headers laid out in the
caller's buffer. The list is in the order of its links, which is that of the
addresses; a block knows the pointer stored right in front of it. -/
namespace Irods.FixedBuffer

def sizeofHeader : Nat := 32
def alignofHeader : Nat := 8
def sizeofPointer : Nat := 8
def wordSize : Nat := 2^64
def wrap (z : Int) : Nat := (z % wordSize).toNat

structure Header where
  addr : Nat
  size : Nat
  used : Bool
  deriving DecidableEq, Repr

structure Block where
  ptr : Nat
  bytes : Nat
  alignment : Nat
  data : Nat
  deriving DecidableEq, Repr

structure Resource where
  buffer : Nat
  buffer_size : Nat
  allocated : Nat
  headers : List Header
  deriving DecidableEq, Repr

def addressOfDataSegment (h : Header) : Nat := h.addr+sizeofHeader

def roundUp (alignment ptr : Nat) : Nat := (ptr+alignment-1)/alignment*alignment

-- std::align: the pointer moved up and the space left behind it; a pointer that
-- comes round to zero is a null pointer for the caller.
def stdAlign (alignment size ptr space : Nat) : Option (Nat × Nat) :=
  if space < size then none
  else
    let aligned := roundUp alignment ptr % wordSize
    let diff := wrap (aligned-ptr)
    if space-size < diff then none else if aligned = 0 then none else some (aligned,space-diff)

/- The buffer is moved up for the header, the header stays where the buffer began. -/
def construct (buffer buffer_size : Nat) : Option Resource :=
  if buffer = 0 ∨ buffer_size = 0 then none
  else match stdAlign alignofHeader sizeofPointer buffer buffer_size with
    | none => none
    | some (aligned,space) =>
      if space ≤ sizeofHeader then none else some ⟨aligned,buffer_size,0,[⟨buffer,space-sizeofHeader,false⟩]⟩

def alignedPointer (bytes alignment : Nat) (h : Header) : Option (Nat × Nat) :=
  match stdAlign alignment bytes (addressOfDataSegment h+sizeofPointer) (wrap (h.size-sizeofPointer)) with
  | none => none
  | some (ptr,space) => if space < bytes then none else some (ptr,space)

-- The pointer and what stands for the header now; beside it what allocated_ grows by.
def allocateBlock (bytes alignment : Nat) (h : Header) : Option (Nat × List Header) × Nat :=
  if h.used then (none,0)
  else if bytes = h.size then
    match alignedPointer bytes alignment h with
    | none => (none,0)
    | some (ptr,_) => (some (ptr,[{h with used := true}]),bytes)
  else if (sizeofPointer+bytes+alignment-1) % wordSize ≤ h.size then
    match alignedPointer bytes alignment h with
    | none => (none,0)
    | some (ptr,space) =>
      if space-bytes ≤ sizeofHeader+alignofHeader-1 then (some (ptr,[{h with size := bytes,used := true}]),bytes)
      else match stdAlign alignofHeader sizeofHeader (ptr+bytes) (space-bytes) with
        | none => (none,bytes)
        | some (storage,left) =>
          (some (ptr,[{h with size := bytes,used := true},⟨storage,left-sizeofHeader,false⟩]),bytes)
  else (none,0)

structure Given where
  ptr : Nat
  data : Nat
  headers : List Header
  deriving DecidableEq, Repr

def allocateFrom (bytes alignment : Nat) : List Header → Option Given × Nat
  | [] => (none,0)
  | h::rest => match allocateBlock bytes alignment h with
    | (some (ptr,new),added) => (some ⟨ptr,addressOfDataSegment h,new ++ rest⟩,added)
    | (none,added) =>
      let later := allocateFrom bytes alignment rest
      (later.1.map (fun g => {g with headers := h::g.headers}),added+later.2)

def endOf (stop : Nat) : List Header → Nat
  | [] => stop
  | h::_ => h.addr

-- coalesce_with_next_unused_block on the header in front.
def coalesce (stop : Nat) : List Header → List Header
  | h::next::rest =>
    if h.used || next.used then h::next::rest
    else {h with size := wrap (endOf stop rest-addressOfDataSegment h)}::rest
  | hs => hs

def release (stop addr : Nat) : List Header → List Header
  | [] => []
  | h::rest =>
    if h.addr = addr then coalesce stop ({h with used := false}::rest)
    else if endOf stop rest = addr then coalesce stop (h::release stop addr rest)
    else h::release stop addr rest

structure State where
  base : Nat
  resource : Resource
  live : List Block
  deriving DecidableEq, Repr

inductive Op where
  | allocate (bytes alignment : Nat)
  | deallocate (b : Block)
  deriving DecidableEq, Repr

def doAllocate (s : State) (bytes alignment : Nat) : State :=
  match allocateFrom bytes alignment s.resource.headers with
  | (none,added) => {s with resource := {s.resource with allocated := (s.resource.allocated+added) % wordSize}}
  | (some g,added) => {s with
      resource := {s.resource with allocated := (s.resource.allocated+added) % wordSize,headers := g.headers},
      live := ⟨g.ptr,bytes,alignment,g.data⟩::s.live}

def doDeallocate (s : State) (b : Block) : State :=
  {s with
    resource := {s.resource with
      headers := release (s.resource.buffer+s.resource.buffer_size) (b.data-sizeofHeader) s.resource.headers,
      allocated := wrap (s.resource.allocated-b.bytes)},
    live := s.live.erase b}

def step (s : State) : Op → State
  | .allocate bytes alignment => doAllocate s bytes alignment
  | .deallocate b => doDeallocate s b

def run (s : State) (ops : List Op) : State := ops.foldl step s

-- Sizes are words, alignments powers of two; only live blocks are given back.
def Legal (s : State) : Op → Prop
  | .allocate bytes alignment => bytes < wordSize ∧ ∃ k < 64, alignment = 2^k
  | .deallocate b => b ∈ s.live

instance (s op) : Decidable (Legal s op) := by cases op <;> unfold Legal <;> infer_instance

def LegalRun (s : State) : List Op → Prop
  | [] => True
  | op::ops => Legal s op ∧ LegalRun (step s op) ops

instance decidableLegalRun (s : State) : (ops : List Op) → Decidable (LegalRun s ops)
  | [] => inferInstanceAs (Decidable True)
  | op::ops => @instDecidableAnd _ _ inferInstance (decidableLegalRun (step s op) ops)

def Apart (a n b m : Nat) : Prop := a+n ≤ b ∨ b+m ≤ a ∨ n = 0 ∨ m = 0

instance (a n b m) : Decidable (Apart a n b m) := by unfold Apart; infer_instance

structure Sound (s : State) : Prop where
  inside : ∀ b ∈ s.live, s.base ≤ b.ptr ∧ b.ptr+b.bytes ≤ s.base+s.resource.buffer_size
  aligned : ∀ b ∈ s.live, b.alignment ∣ b.ptr
  apart : s.live.Pairwise (fun a b => Apart a.ptr a.bytes b.ptr b.bytes)
  clear : ∀ b ∈ s.live, ∀ h ∈ s.resource.headers, Apart b.ptr b.bytes h.addr sizeofHeader

def segments (stop : Nat) : List Header → List (Header × Nat)
  | [] => []
  | h::rest => (h,endOf stop rest)::segments stop rest

-- No wrap of the space asked for, and where an unused block of just this size is
-- smaller than the pointer in front of it, the room up to the next header is enough.
def Meets (s : State) : Op → Prop
  | .allocate bytes alignment => sizeofPointer+bytes+alignment-1 < wordSize ∧
      ∀ g ∈ segments (s.resource.buffer+s.resource.buffer_size) s.resource.headers,
        g.1.used = false → g.1.size = bytes → bytes < sizeofPointer →
          roundUp alignment (addressOfDataSegment g.1+sizeofPointer)+bytes ≤ g.2
  | .deallocate _ => True

instance (s op) : Decidable (Meets s op) := by cases op <;> unfold Meets <;> infer_instance

def MeetsRun (s : State) : List Op → Prop
  | [] => True
  | op::ops => Meets s op ∧ MeetsRun (step s op) ops

instance decidableMeetsRun (s : State) : (ops : List Op) → Decidable (MeetsRun s ops)
  | [] => inferInstanceAs (Decidable True)
  | op::ops => @instDecidableAnd _ _ inferInstance (decidableMeetsRun (step s op) ops)

end Irods.FixedBuffer
