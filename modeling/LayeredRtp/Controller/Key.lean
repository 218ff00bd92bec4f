import LayeredRtp.LayerFrame
import LayeredRtp.LayerGrid

/-! Layers that are predicted from the spatial layer below on key pictures only. Turning a
spatial layer on again takes a key picture. -/
namespace LayeredRtp

structure KeyController where
  targets : LayerGrid
  last : TemporalPhase := .idle
  enabled : PerLayer Bool := .replicate false
  middleReady : PerLayer Bool := .replicate false
deriving DecidableEq, Repr

namespace KeyController

def new (spatial temporal : Nat) : Checked KeyController := do
  return { targets := ← LayerGrid.new spatial temporal }

def keyFrame (c : KeyController) (below : Option Nat) (sid : Nat) : LayerFrame where
  tag := TemporalPhase.key.tag
  spatial := sid
  temporal := 0
  isKey := below.isNone
  buffers := LayerFrame.readsIf (below.map (c.targets.buffer · 0)) ++
    [.writes (c.targets.buffer sid 0)]

def baseFrame (c : KeyController) (sid : Nat) : LayerFrame where
  tag := TemporalPhase.t0.tag
  spatial := sid
  temporal := 0
  buffers := [.readsAndWrites (c.targets.buffer sid 0)]

def middleFrame (c : KeyController) (sid : Nat) : LayerFrame where
  tag := TemporalPhase.t1.tag
  spatial := sid
  temporal := 1
  buffers := .reads (c.targets.buffer sid 0) ::
    if 2 < c.targets.temporal then [.writes (c.targets.buffer sid 1)] else []

def topFrame (c : KeyController) (pattern : TemporalPhase) (sid : Nat) : LayerFrame where
  tag := pattern.tag
  spatial := sid
  temporal := 2
  buffers := [.reads (c.targets.buffer sid (if c.middleReady.get sid then 1 else 0))]

def startKey (c : KeyController) : KeyController :=
  { c with
    enabled := .ofFn fun sid => c.targets.isActive sid 0
    middleReady := .replicate false }

def settle (c : KeyController) : KeyController :=
  { c with
    enabled := .ofFn fun sid => c.enabled.get sid &&
      !(sid < c.targets.spatial && !c.targets.isActive sid 0)
    middleReady := .replicate false }

def framesFor (c : KeyController) : TemporalPhase → List LayerFrame × KeyController
  | .idle => ([], c)
  | .key => (LayerFrame.linked c.keyFrame none (c.targets.activeAt 0), c.startKey)
  | .t0 => ((c.targets.activeAt 0).map c.baseFrame, c.settle)
  | .t1 => ((c.targets.activeAt 1).map c.middleFrame, c)
  | .earlyT2 => ((c.targets.activeAt 2).map (c.topFrame .earlyT2), c)
  | .lateT2 => ((c.targets.activeAt 2).map (c.topFrame .lateT2), c)

def next (c : KeyController) (restart : Bool) : List LayerFrame × KeyController :=
  if !c.targets.any then ([], { c with last := .idle })
  else
    let c := if restart then { c with last := .idle } else c
    c.framesFor (c.targets.nextPhase c.last)

def done (c : KeyController) (f : LayerFrame) : Checked (FrameReport × KeyController) :=
  if f.temporal = 1 ∧ PerLayer.count ≤ f.spatial then .error .outOfRange
  else
    let last := TemporalPhase.ofTag f.tag
    let inKey := f.isKey || last == .key
    let report : FrameReport :=
      { spatial := f.spatial
        temporal := f.temporal
        buffers := f.buffers
        inChain := c.targets.spatialIds.map fun s =>
          if inKey then f.spatial ≤ s else f.temporal == 0 && f.spatial == s
        targets := c.targets.bits }
    .ok (report,
      { c with
        last
        middleReady :=
          if f.temporal = 1 then c.middleReady.set f.spatial true else c.middleReady })

/-- A spatial layer that comes on makes the structure start over. -/
def setRates (c : KeyController) (r : LayerRates) : KeyController :=
  let comesOn := c.targets.spatialIds.any fun sid => !c.enabled.get sid && r.isOn sid
  { c with
    targets := c.targets.setRates r
    last := if comesOn then .idle else c.last }

end KeyController
end LayeredRtp
