import LayeredRtp.BitRate
import LayeredRtp.Failure

/-! Spatial and temporal layers, counted from zero, of which there are never more than three
each: the bit rate meant for each of them, which of them are being sent, and the order in
which the temporal layers take turns. -/
namespace LayeredRtp

structure PerLayer (α : Type) where
  first : α
  second : α
  third : α
deriving DecidableEq, Repr

namespace PerLayer
variable {α : Type}

def count : Nat := 3

def replicate (a : α) : PerLayer α := ⟨a, a, a⟩

def ofFn (f : Nat → α) : PerLayer α := ⟨f 0, f 1, f 2⟩

def get (p : PerLayer α) : Nat → α
  | 0 => p.first
  | 1 => p.second
  | _ => p.third

def set (p : PerLayer α) (i : Nat) (a : α) : PerLayer α :=
  match i with
  | 0 => { p with first := a }
  | 1 => { p with second := a }
  | 2 => { p with third := a }
  | _ => p

def toList (p : PerLayer α) : List α := [p.first, p.second, p.third]

@[simp] theorem get_replicate (a : α) (i : Nat) : (replicate a).get i = a := by
  unfold get; split <;> rfl

@[simp] theorem get_set (p : PerLayer α) (i j : Nat) (a : α) (hi : i < 3) (hj : j < 3) :
    (p.set i a).get j = if j = i then a else p.get j := by
  match i, j, hi, hj with
  | 0, 0, _, _ | 0, 1, _, _ | 0, 2, _, _ | 1, 0, _, _ | 1, 1, _, _ | 1, 2, _, _
  | 2, 0, _, _ | 2, 1, _, _ | 2, 2, _, _ => rfl

theorem get_ofFn (f : Nat → α) (i : Nat) (hi : i < 3) : (ofFn f).get i = f i := by
  match i, hi with
  | 0, _ | 1, _ | 2, _ => rfl

end PerLayer

structure LayerRates where
  rates : PerLayer (PerLayer BitRate) := .replicate (.replicate .zero)
deriving DecidableEq, Repr

namespace LayerRates

def rate (r : LayerRates) (sid tid : Nat) : BitRate :=
  if sid < PerLayer.count ∧ tid < PerLayer.count then (r.rates.get sid).get tid else .zero

def set (r : LayerRates) (sid tid : Nat) (rate : BitRate) : LayerRates :=
  ⟨r.rates.set sid ((r.rates.get sid).set tid rate)⟩

def isOn (r : LayerRates) (sid : Nat) : Bool := !(r.rate sid 0).isZero

def isEmpty (r : LayerRates) : Bool :=
  (List.range PerLayer.count).all fun sid =>
    (List.range PerLayer.count).all fun tid => (r.rate sid tid).isZero

def reaches (r : LayerRates) (sid tid : Nat) : Bool :=
  (List.range (tid + 1)).all fun t => !(r.rate sid t).isZero

end LayerRates

inductive TemporalPhase where
  | idle
  | key
  | earlyT2
  | t1
  | lateT2
  | t0
deriving DecidableEq, Repr

namespace TemporalPhase

def tag : TemporalPhase → Nat
  | idle => 0
  | key => 1
  | earlyT2 => 2
  | t1 => 3
  | lateT2 => 4
  | t0 => 5

def ofTag : Nat → TemporalPhase
  | 1 => key
  | 2 => earlyT2
  | 3 => t1
  | 4 => lateT2
  | 5 => t0
  | _ => idle

theorem ofTag_tag (p : TemporalPhase) : ofTag p.tag = p := by cases p <;> rfl

end TemporalPhase

structure LayerGrid where
  spatial : Nat
  temporal : Nat
  active : PerLayer (PerLayer Bool) := .replicate (.replicate true)
deriving DecidableEq, Repr

namespace LayerGrid

def new (spatial temporal : Nat) : Checked LayerGrid :=
  if 1 ≤ spatial ∧ spatial ≤ 3 then
    if 1 ≤ temporal ∧ temporal ≤ 3 then .ok { spatial, temporal }
    else .error (.temporalLayerCount temporal)
  else .error (.spatialLayerCount spatial)

def isActive (t : LayerGrid) (sid tid : Nat) : Bool :=
  sid < t.spatial && tid < t.temporal && (t.active.get sid).get tid

def spatialIds (t : LayerGrid) : List Nat := List.range t.spatial

def activeAt (t : LayerGrid) (tid : Nat) : List Nat :=
  t.spatialIds.filter fun sid => t.isActive sid tid

/-- A temporal layer is sent when it and all below it have rates. -/
def setRates (t : LayerGrid) (r : LayerRates) : LayerGrid :=
  { t with active := .ofFn fun sid => .ofFn fun tid => r.reaches sid tid }

def bits (t : LayerGrid) : Nat :=
  (t.spatialIds.flatMap fun sid => (List.range t.temporal).map fun tid =>
    if t.isActive sid tid then 1 <<< (sid * t.temporal + tid) else 0).foldr (· + ·) 0

def any (t : LayerGrid) : Bool :=
  t.spatialIds.any fun sid => (List.range t.temporal).any fun tid => t.isActive sid tid

def sendsTemporal (t : LayerGrid) (tid : Nat) : Bool :=
  t.spatialIds.any fun sid => t.isActive sid tid

/-- The buffer of a layer's latest frame. The two upper temporal layers share one. -/
def buffer (t : LayerGrid) (sid tid : Nat) : Nat :=
  if tid = 0 then sid else t.spatial + sid

/-- The pattern after `last`, leaving out temporal layers that are not sent. -/
def nextPhase (t : LayerGrid) (last : TemporalPhase) : TemporalPhase :=
  match last with
  | .idle => .key
  | .lateT2 => .t0
  | .earlyT2 => if t.sendsTemporal 1 then .t1 else .t0
  | .t1 => if t.sendsTemporal 2 then .lateT2 else .t0
  | .key | .t0 =>
    if t.sendsTemporal 2 then .earlyT2
    else if t.sendsTemporal 1 then .t1
    else .t0

end LayerGrid

end LayeredRtp
