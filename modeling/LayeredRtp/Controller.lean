import LayeredRtp.Controller.Full
import LayeredRtp.Controller.Key
import LayeredRtp.ScalabilityMode

/-! What decides, picture by picture, which layers are coded and from which buffers. -/
namespace LayeredRtp

inductive Controller where
  | full (c : FullController)
  | key (c : KeyController)
deriving DecidableEq, Repr

namespace Controller

def new (keyOnly : Bool) (spatial temporal : Nat) : Checked Controller :=
  if keyOnly then (KeyController.new spatial temporal).map key
  else (FullController.new spatial temporal).map full

def ofMode (m : ScalabilityMode) : Controller :=
  let targets : LayerGrid := { spatial := m.spatial, temporal := m.temporal }
  if m.keyOnly then key { targets } else full { targets }

def targets : Controller → LayerGrid
  | full c => c.targets
  | key c => c.targets

def layout (c : Controller) : StreamLayout := .halving c.targets.spatial c.targets.temporal

def next (c : Controller) (restart : Bool) : List LayerFrame × Controller :=
  match c with
  | full c => (c.next restart).map id full
  | key c => (c.next restart).map id key

def done (c : Controller) (f : LayerFrame) : Checked (FrameReport × Controller) :=
  match c with
  | full c => (c.done f).map (Prod.map id full)
  | key c => (c.done f).map (Prod.map id key)

def setRates (c : Controller) (r : LayerRates) : Controller :=
  match c with
  | full c => full (c.setRates r)
  | key c => key (c.setRates r)

/-- A mode's controller is made like any other. -/
theorem new_of_mode (m : ScalabilityMode) :
    new m.keyOnly m.spatial m.temporal = .ok (ofMode m) := by
  obtain ⟨s, t, k, hs, ht, hk⟩ := m
  cases k <;>
    simp [new, ofMode, FullController.new, KeyController.new, LayerGrid.new, hs, ht,
      Except.map, bind, Except.bind, pure, Except.pure]

end Controller
end LayeredRtp
