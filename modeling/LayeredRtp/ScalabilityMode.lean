import LayeredRtp.Failure
import LayeredRtp.LayerGrid

/-! The layer structures that can be asked for by name, such as L3T2 or L2T3_KEY. -/
namespace LayeredRtp

inductive LayerPrediction where
  | off
  | on
  | keyPictures
deriving DecidableEq, Repr

def LayerPrediction.text : LayerPrediction → String
  | off => "Off"
  | on => "On"
  | keyPictures => "OnKeyPic"

structure StreamLayout where
  spatial : Nat
  temporal : Nat
  isScaled : Bool
  numerators : PerLayer Nat
  denominators : PerLayer Nat
deriving DecidableEq, Repr

def StreamLayout.halving (spatial temporal : Nat) : StreamLayout where
  spatial
  temporal
  isScaled := 1 < spatial
  numerators := .replicate 1
  denominators := .ofFn fun sid => 1 <<< (spatial - 1 - sid)

/-- One to three layers of each kind. Prediction between spatial layers may be kept to key
pictures, which makes a difference from two spatial layers on. -/
structure ScalabilityMode where
  spatial : Nat
  temporal : Nat
  keyOnly : Bool := false
  spatial_bounds : 1 ≤ spatial ∧ spatial ≤ 3 := by decide
  temporal_bounds : 1 ≤ temporal ∧ temporal ≤ 3 := by decide
  keyOnly_scaled : keyOnly = true → 2 ≤ spatial := by decide
deriving DecidableEq, Repr

namespace ScalabilityMode

def all : List ScalabilityMode :=
  [⟨1, 1, false, by decide, by decide, by decide⟩,
   ⟨1, 2, false, by decide, by decide, by decide⟩,
   ⟨1, 3, false, by decide, by decide, by decide⟩,
   ⟨2, 1, false, by decide, by decide, by decide⟩,
   ⟨2, 2, false, by decide, by decide, by decide⟩,
   ⟨2, 3, false, by decide, by decide, by decide⟩,
   ⟨3, 1, false, by decide, by decide, by decide⟩,
   ⟨3, 2, false, by decide, by decide, by decide⟩,
   ⟨3, 3, false, by decide, by decide, by decide⟩,
   ⟨2, 1, true, by decide, by decide, by decide⟩,
   ⟨2, 2, true, by decide, by decide, by decide⟩,
   ⟨2, 3, true, by decide, by decide, by decide⟩,
   ⟨3, 1, true, by decide, by decide, by decide⟩,
   ⟨3, 2, true, by decide, by decide, by decide⟩,
   ⟨3, 3, true, by decide, by decide, by decide⟩]

def counts (m : ScalabilityMode) : String :=
  "L" ++ toString m.spatial ++ "T" ++ toString m.temporal

def name (m : ScalabilityMode) : String := m.counts ++ if m.keyOnly then "_KEY" else ""

def word (m : ScalabilityMode) : String := m.counts ++ if m.keyOnly then "Key" else ""

def ofName (name : String) : Except LayerError ScalabilityMode :=
  match all.find? fun m => m.name == name with
  | some m => .ok m
  | none => .error (.unknownMode name)

def prediction (m : ScalabilityMode) : LayerPrediction :=
  if m.keyOnly then .keyPictures else .on

def layout (m : ScalabilityMode) : StreamLayout := .halving m.spatial m.temporal

instance : Inhabited ScalabilityMode := ⟨{ spatial := 1, temporal := 1 }⟩

end ScalabilityMode
end LayeredRtp
