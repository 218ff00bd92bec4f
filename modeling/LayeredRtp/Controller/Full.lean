import LayeredRtp.LayerFrame
import LayeredRtp.LayerGrid

/-! Layers that are predicted from the spatial layer below on every picture. -/
namespace LayeredRtp

structure FullController where
  targets : LayerGrid
  last : TemporalPhase := .idle
  baseReady : PerLayer Bool := .replicate false
  middleReady : PerLayer Bool := .replicate false
deriving DecidableEq, Repr

namespace FullController

def new (spatial temporal : Nat) : Checked FullController := do
  return { targets := ← LayerGrid.new spatial temporal }

def baseFrame (c : FullController) (pattern : TemporalPhase) (below : Option Nat) (sid : Nat) :
    LayerFrame where
  tag := pattern.tag
  spatial := sid
  temporal := 0
  isKey := below.isNone && pattern == .key
  buffers := LayerFrame.readsIf (below.map (c.targets.buffer · 0)) ++
    [if c.baseReady.get sid then .readsAndWrites (c.targets.buffer sid 0)
     else .writes (c.targets.buffer sid 0)]

def middleFrame (c : FullController) (below : Option Nat) (sid : Nat) : LayerFrame where
  tag := TemporalPhase.t1.tag
  spatial := sid
  temporal := 1
  buffers := .reads (c.targets.buffer sid 0) ::
    LayerFrame.readsIf (below.map (c.targets.buffer · 1)) ++
    if 2 < c.targets.temporal ∨ sid + 1 < c.targets.spatial then
      [.writes (c.targets.buffer sid 1)]
    else []

def topFrame (c : FullController) (pattern : TemporalPhase) (below : Option Nat) (sid : Nat) :
    LayerFrame where
  tag := pattern.tag
  spatial := sid
  temporal := 2
  buffers :=
    .reads (c.targets.buffer sid (if pattern == .lateT2 && c.middleReady.get sid then 1 else 0)) ::
    LayerFrame.readsIf (below.map (c.targets.buffer · 2)) ++
    if sid + 1 < c.targets.spatial then [.writes (c.targets.buffer sid 2)] else []

/-- What is left to predict from when a picture of the lowest temporal layer begins. A
spatial layer that is not sent now holds an old frame, and no middle frame reaches across. -/
def settle (c : FullController) : FullController :=
  { c with
    baseReady := .ofFn fun sid => c.baseReady.get sid &&
      !(sid < c.targets.spatial && !c.targets.isActive sid 0)
    middleReady := .replicate false }

def readyAt (c : FullController) (tid : Nat) : List Nat :=
  (c.targets.activeAt tid).filter fun sid => c.baseReady.get sid

def framesFor (c : FullController) : TemporalPhase → List LayerFrame × FullController
  | .idle => ([], c)
  | .key => (LayerFrame.linked (c.baseFrame .key) none (c.targets.activeAt 0), c.settle)
  | .t0 => (LayerFrame.linked (c.baseFrame .t0) none (c.targets.activeAt 0), c.settle)
  | .t1 => (LayerFrame.linked c.middleFrame none (c.readyAt 1), c)
  | .earlyT2 => (LayerFrame.linked (c.topFrame .earlyT2) none (c.readyAt 2), c)
  | .lateT2 => (LayerFrame.linked (c.topFrame .lateT2) none (c.readyAt 2), c)

def plan (c : FullController) (restart : Bool) : List LayerFrame × FullController :=
  let c :=
    if c.last == .idle || restart then
      { c with baseReady := .replicate false, last := .idle }
    else c
  c.framesFor (c.targets.nextPhase c.last)

/-- The frames of the next picture. A picture without frames makes it start over, and
there are none at all only if no target is on. -/
def next (c : FullController) (restart : Bool) : List LayerFrame × FullController :=
  if !c.targets.any then ([], { c with last := .idle })
  else
    let (frames, c) := c.plan restart
    if frames.isEmpty && !restart then c.plan true else (frames, c)

/-- A frame was coded. Only now does the temporal structure move on, so a picture that was
dropped is asked for again. -/
def done (c : FullController) (f : LayerFrame) : Checked (FrameReport × FullController) :=
  if f.temporal < 2 ∧ PerLayer.count ≤ f.spatial then .error .outOfRange
  else
    let report : FrameReport :=
      { spatial := f.spatial
        temporal := f.temporal
        buffers := f.buffers
        inChain := c.targets.spatialIds.map fun s => f.temporal == 0 && f.spatial ≤ s
        targets := c.targets.bits }
    .ok (report,
      { c with
        last := .ofTag f.tag
        baseReady := if f.temporal = 0 then c.baseReady.set f.spatial true else c.baseReady
        middleReady :=
          if f.temporal = 1 then c.middleReady.set f.spatial true else c.middleReady })

def setRates (c : FullController) (r : LayerRates) : FullController :=
  { c with targets := c.targets.setRates r }

end FullController
end LayeredRtp
