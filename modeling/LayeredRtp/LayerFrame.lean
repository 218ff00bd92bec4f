import LayeredRtp.Failure

/-! How one spatial layer of a picture is to be coded: which codec buffers it predicts
from and which ones it is stored in. Frames of one picture may be coded one upon the other,
from the lowest spatial layer up. -/
namespace LayeredRtp

structure BufferUse where
  buffer : Nat
  referenced : Bool
  updated : Bool
deriving DecidableEq, Repr

namespace BufferUse

def bufferCount : Nat := 8
def maxPerFrame : Nat := 3

def reads (buffer : Nat) : BufferUse := ⟨buffer, true, false⟩
def writes (buffer : Nat) : BufferUse := ⟨buffer, false, true⟩
def readsAndWrites (buffer : Nat) : BufferUse := ⟨buffer, true, true⟩

end BufferUse

structure LayerFrame where
  /-- Lets the controller know its own frames again. -/
  tag : Nat := 0
  spatial : Nat := 0
  temporal : Nat := 0
  isKey : Bool := false
  buffers : List BufferUse := []
deriving DecidableEq, Repr

namespace LayerFrame

def withUse (f : LayerFrame) (u : BufferUse) : Checked LayerFrame :=
  if u.buffer < BufferUse.bufferCount then
    if f.buffers.length < BufferUse.maxPerFrame then
      .ok { f with buffers := f.buffers ++ [u] }
    else .error .tooManyBuffers
  else .error (.bufferIndex u.buffer)

def references (f : LayerFrame) : List Nat :=
  (f.buffers.filter (·.referenced)).map (·.buffer)

def updates (f : LayerFrame) : List Nat :=
  (f.buffers.filter (·.updated)).map (·.buffer)

def linked (make : Option Nat → Nat → LayerFrame) : Option Nat → List Nat → List LayerFrame
  | _, [] => []
  | below, sid :: rest => make below sid :: linked make (some sid) rest

theorem length_linked (make : Option Nat → Nat → LayerFrame) (below : Option Nat)
    (sids : List Nat) : (linked make below sids).length = sids.length := by
  induction sids generalizing below with
  | nil => rfl
  | cons sid rest ih => simp [linked, ih]

def readsIf (buffer : Option Nat) : List BufferUse :=
  match buffer with
  | some b => [BufferUse.reads b]
  | none => []

end LayerFrame

/-- What is told about a coded frame: its place, its buffers, for each spatial layer
whether the frame belongs to that layer's chain, and which decode targets are on. -/
structure FrameReport where
  spatial : Nat
  temporal : Nat
  buffers : List BufferUse
  inChain : List Bool
  targets : Nat
deriving DecidableEq, Repr

end LayeredRtp
