import LayeredRtp.Proofs.ControllerSteps
import LayeredRtp.Proofs.PictureTracking

/-! What holds between any two pictures: the encoder remembers only frames that are still in the
buffers, and its counts agree with the pictures it has emitted. -/
namespace LayeredRtp

namespace LayerRange

theorem extend_mem {range got : LayerRange} {sids : List Nat} (h : range.extend sids = .ok got)
    (hsort : sids.Pairwise (· < ·)) (hlt : ∀ s ∈ sids, range.stop ≤ s)
    (hrange : range.first < range.stop) (s : Nat) :
    got.first ≤ s ∧ s < got.stop ↔ (range.first ≤ s ∧ s < range.stop) ∨ s ∈ sids := by
  induction sids generalizing range with
  | nil =>
    simp only [extend, Except.ok.injEq] at h
    simp [h]
  | cons a rest ih =>
    obtain ⟨hrest, hsort⟩ := List.pairwise_cons.mp hsort
    have ha := hlt a (by simp)
    by_cases hgap : range.stop < a
    · simp [extend, hgap] at h
    · simp only [extend, hgap, if_false] at h
      rw [ih h hsort (fun x hx => hrest x hx) (by simp only; omega)]
      by_cases hs : s ∈ rest
      · simp [hs]
      · simp only [hs, List.mem_cons, or_false]
        omega

/-- The range of some rates has exactly the layers that are on. -/
theorem ofRates_mem {r : LayerRates} {spatial : Nat} {range : LayerRange}
    (h : ofRates r spatial = .ok range) (s : Nat) :
    range.first ≤ s ∧ s < range.stop ↔ s < spatial ∧ r.isOn s = true := by
  have hmem : s ∈ (List.range spatial).filter r.isOn ↔ s < spatial ∧ r.isOn s = true := by simp
  have hsort : ((List.range spatial).filter r.isOn).Pairwise (· < ·) :=
    List.Pairwise.filter _ List.pairwise_lt_range
  rw [← hmem]
  unfold ofRates at h
  split at h
  · rename_i hnil
    simp only [Except.ok.injEq] at h
    rw [hnil, ← h]
    simp
  · rename_i first rest hcons
    rw [hcons] at hsort ⊢
    obtain ⟨hrest, hsort⟩ := List.pairwise_cons.mp hsort
    rw [extend_mem h hsort (fun x hx => hrest x hx) (by simp only; omega)]
    by_cases hs : s ∈ rest
    · simp [hs]
    · simp only [hs, List.mem_cons, or_false]
      omega

end LayerRange

namespace LayerRates

theorem reaches_zero (r : LayerRates) (s : Nat) : r.reaches s 0 = r.isOn s := by
  simp [reaches, isOn]

theorem reaches_base {r : LayerRates} {s t : Nat} (h : r.reaches s t = true) :
    r.reaches s 0 = true := by
  simp only [reaches, List.all_eq_true, List.mem_range] at h ⊢
  intro u hu
  exact h u (by omega)

end LayerRates

namespace LayerGrid

@[simp] theorem spatial_setRates (g : LayerGrid) (r : LayerRates) :
    (g.setRates r).spatial = g.spatial := rfl

@[simp] theorem temporal_setRates (g : LayerGrid) (r : LayerRates) :
    (g.setRates r).temporal = g.temporal := rfl

@[simp] theorem buffer_setRates (g : LayerGrid) (r : LayerRates) (s t : Nat) :
    (g.setRates r).buffer s t = g.buffer s t := rfl

theorem isActive_setRates {g : LayerGrid} (hs : g.spatial ≤ 3) (ht : g.temporal ≤ 3)
    (r : LayerRates) (s t : Nat) : (g.setRates r).isActive s t =
      (decide (s < g.spatial) && decide (t < g.temporal) && r.reaches s t) := by
  by_cases h : s < g.spatial ∧ t < g.temporal
  · simp only [isActive, setRates, PerLayer.get_ofFn _ s (Nat.lt_of_lt_of_le h.1 hs),
      PerLayer.get_ofFn _ t (Nat.lt_of_lt_of_le h.2 ht)]
    rfl
  · simp only [isActive, setRates]
    by_cases hs : s < g.spatial
    · simp [hs, show ¬t < g.temporal from fun ht => h ⟨hs, ht⟩]
    · simp [hs]

theorem layered_setRates {g : LayerGrid} (hs : g.spatial ≤ 3) (ht : g.temporal ≤ 3)
    (r : LayerRates) : (g.setRates r).Layered := by
  intro sid tid ha
  simp only [isActive_setRates hs ht, Bool.and_eq_true, decide_eq_true_eq] at ha ⊢
  exact ⟨⟨ha.1.1, by omega⟩, LayerRates.reaches_base ha.2⟩

/-- All layers are on at first. -/
theorem layered_new (spatial temporal : Nat) : Layered { spatial, temporal } := by
  intro sid tid ha
  simp_all [isActive]
  omega

end LayerGrid

namespace Controller

@[simp] theorem targets_setRates (c : Controller) (r : LayerRates) :
    (c.setRates r).targets = c.targets.setRates r := by cases c <;> rfl

@[simp] theorem targets_ofMode (m : ScalabilityMode) :
    (ofMode m).targets = { spatial := m.spatial, temporal := m.temporal } := by
  unfold ofMode
  split <;> rfl

@[simp] theorem isFull_setRates (c : Controller) (r : LayerRates) :
    (c.setRates r).isFull = c.isFull := by cases c <;> rfl

@[simp] theorem baseReady_setRates (c : Controller) (r : LayerRates) :
    (c.setRates r).baseReady = c.baseReady := by cases c <;> rfl

@[simp] theorem middleReady_setRates (c : Controller) (r : LayerRates) :
    (c.setRates r).middleReady = c.middleReady := by cases c <;> rfl

end Controller

namespace Encoder

def BaseFresh (e : Encoder) (h : List Picture) (s : Nat) : Prop :=
  Picture.Fresh h e.picturesSinceKey (e.controller.targets.buffer s 0) s 0

structure Sound (e : Encoder) (h : List Picture) : Prop where
  spatial : e.controller.targets.spatial = e.mode.spatial
  temporal : e.controller.targets.temporal = e.mode.temporal
  kind : e.controller.isFull = !e.mode.keyOnly
  layered : e.controller.targets.Layered
  range : ∀ s, e.controller.targets.isActive s 0 = true ↔ e.range.first ≤ s ∧ s < e.range.stop
  tracks : e.tracker.Tracks e.picturesSinceKey h
  base : ∀ s < 3, e.controller.baseReady s = true → s < e.mode.spatial ∧ e.BaseFresh h s
  middle : e.mode.temporal = 3 → ∀ s < e.mode.spatial, e.controller.middleReady s = true →
    Picture.Fresh h e.picturesSinceKey (e.controller.targets.buffer s 1) s 2
  closed : e.keyForced = false → ∀ s < 3, e.controller.baseReady s = true →
    ∀ l, e.range.first ≤ l → l < s → e.controller.baseReady l = true
  keyed : e.mode.keyOnly = true → e.keyForced = false → ∀ s,
    e.controller.targets.isActive s 0 = true → e.BaseFresh h s
  opened : e.keyForced = false → h ≠ []
  epoch : h ≠ [] → e.picturesSinceKey < h.length
  noKey : ∀ q ∈ h.take e.picturesSinceKey, Picture.isKey q = false
  firstId : e.firstPictureId < pictureIds
  id : ∀ cur, e.pictureId = some cur → cur < pictureIds
  ids : ∀ i q, h[i]? = some q → q ≠ [] ∧ ∃ cur, e.pictureId = some cur ∧ ∀ g ∈ q,
    g.descriptor.pictureId < pictureIds ∧ (g.descriptor.pictureId + i) % pictureIds = cur

theorem new_eq {s : EncoderSettings} {e : Encoder} (h : Encoder.new s = .ok e) :
    e = {
      mode := s.mode
      width := s.width
      height := s.height
      flexible := s.flexible
      keyOnDeactivation := s.keyOnDeactivation
      firstPictureId := s.firstPictureId
      controller := .ofMode s.mode
      range := ⟨0, s.mode.spatial⟩ } := by
  by_cases hsize : s.width = 0 ∨ s.height = 0
  · simp [Encoder.new, hsize] at h
  · simp only [Encoder.new, hsize, if_false, Except.ok.injEq] at h
    exact h.symm

theorem sound_new {s : EncoderSettings} {e : Encoder} (hid : s.firstPictureId < pictureIds)
    (h : Encoder.new s = .ok e) : e.Sound [] := by
  obtain ⟨hs, ht⟩ := s.mode.spatial_bounds, s.mode.temporal_bounds
  have htargets := Controller.targets_ofMode s.mode
  have hstart : (Controller.ofMode s.mode).isFull = !s.mode.keyOnly ∧
      (∀ l, (Controller.ofMode s.mode).baseReady l = false) ∧
      ∀ l, (Controller.ofMode s.mode).middleReady l = false := by
    cases hk : s.mode.keyOnly <;>
      simp [Controller.ofMode, hk, Controller.isFull, Controller.baseReady, Controller.middleReady]
  obtain ⟨hkind, hbase, hmiddle⟩ := hstart
  rw [new_eq h]
  constructor
  case spatial => rw [htargets]
  case temporal => rw [htargets]
  case kind => exact hkind
  case layered =>
    rw [htargets]
    exact LayerGrid.layered_new _ _
  case range =>
    rw [htargets]
    simp [LayerGrid.isActive]
    omega
  case tracks => exact .empty _ _
  case base => simp [hbase]
  case middle => simp [hmiddle]
  case closed => simp
  case keyed => simp
  case opened => simp
  case epoch => simp
  case noKey => simp
  case firstId => exact hid
  case id => simp
  case ids => simp

theorem Sound.requestKey {e : Encoder} {h : List Picture} (hs : e.Sound h) :
    e.requestKey.Sound h :=
  { hs with
    closed := fun hk => by simp [Encoder.requestKey] at hk
    keyed := fun _ hk => by simp [Encoder.requestKey] at hk
    opened := fun hk => by simp [Encoder.requestKey] at hk }

theorem prediction_keyOnly {m : ScalabilityMode} (h : m.keyOnly = true) : m.prediction ≠ .on := by
  simp [ScalabilityMode.prediction, h]

theorem setRates_eq {e next : Encoder} {r : LayerRates} (h : e.setRates r = .ok next) :
    ∃ range, LayerRange.ofRates r e.mode.spatial = .ok range ∧
      next = { e with
        keyForced := e.keyForced || (range.first < e.range.first ||
          (e.range.stop < range.stop && e.mode.prediction != .on) ||
          ((e.range.first < range.first || range.stop < e.range.stop) && e.keyOnDeactivation))
        structureNeeded := e.structureNeeded || range != e.range
        range
        controller := e.controller.setRates r } := by
  cases hrange : LayerRange.ofRates r e.mode.spatial with
  | error why => simp [Encoder.setRates, hrange, bind, Except.bind] at h
  | ok range =>
    simp only [Encoder.setRates, hrange, bind, Except.bind, pure, Except.pure,
      Except.ok.injEq] at h
    exact ⟨range, rfl, h.symm⟩

/-- A coded layer is accepted once receivers can be told of it, it is stored and the controller is
told of it. -/
theorem acceptLayer_ok {e next : Encoder} {layer : CodedLayer} {f : LayerFrame}
    {p : PicturePlan} {first endOfPicture : Bool} {timestamp : UInt32} {g : EncodedFrame}
    (h : e.acceptLayer layer f p first endOfPicture timestamp = .ok (g, next)) :
    ∃ info tracker controller,
      e.tracker.info f p.config p.picture (!first && e.predictsFromBelow (p.picture == 0))
        e.mode.prediction = .ok info ∧
      e.tracker.record f p.config p.picture = .ok tracker ∧
      e.controller.done f = .ok (g.report, controller) ∧
      g = {
        timestamp
        isKey := layer.isKey && !g.descriptor.fromBelow
        descriptor := e.descriptor layer f p.picture first endOfPicture info
        report := g.report
        data := layer.data } ∧
      next = { e with
        tracker
        controller
        structureNeeded := e.structureNeeded && !g.descriptor.hasStructure
        keyForced := e.keyForced && !g.isKey } := by
  simp only [acceptLayer, bind, Except.bind, pure, Except.pure] at h
  split at h
  · cases h
  · rename_i info hinfo
    split at h
    · cases h
    · rename_i tracker hrecord
      split at h
      · cases h
      · rename_i told hdone
        obtain ⟨report, controller⟩ := told
        cases h
        exact ⟨info, tracker, controller, hinfo, hrecord, hdone, rfl, rfl⟩

/-- What accepting a coded layer makes of it, and what it changes. -/
theorem acceptLayer_cases {e next : Encoder} {layer : CodedLayer} {f : LayerFrame}
    {p : PicturePlan} {first endOfPicture : Bool} {timestamp : UInt32} {g : EncodedFrame}
    (h : e.acceptLayer layer f p first endOfPicture timestamp = .ok (g, next)) :
    ∃ info tracker controller, e.controller.done f = .ok (g.report, controller) ∧
      g.descriptor = e.descriptor layer f p.picture first endOfPicture info ∧
      g.isKey = (layer.isKey && !g.descriptor.fromBelow) ∧
      next = { e with
        tracker
        controller
        structureNeeded := e.structureNeeded && !g.descriptor.hasStructure
        keyForced := e.keyForced && !g.isKey } := by
  obtain ⟨info, tracker, controller, -, -, hdone, hg, hnext⟩ := acceptLayer_ok h
  exact ⟨info, tracker, controller, hdone, congrArg EncodedFrame.descriptor hg,
    congrArg EncodedFrame.isKey hg, hnext⟩

def entered (e : Encoder) (layer : CodedLayer) (first : Bool) : Encoder :=
  if first then (e.countPicture layer.isKey first).beginPicture layer.temporal
  else e.countPicture layer.isKey first

/-- A coded layer is counted. It is accepted if the count is as planned, and refused if not. -/
theorem takeLayer_ends {e next : Encoder} {layer : CodedLayer} {f : LayerFrame} {p : PicturePlan}
    {first endOfPicture : Bool} {timestamp : UInt32} {answer : Except LayerError EncodedFrame}
    (h : e.takeLayer layer f p first endOfPicture timestamp = .ok (answer, next)) :
    ((∃ why, answer = .error why) ∧ next = e.countPicture layer.isKey first ∧
        next.picturesSinceKey ≠ p.picture) ∨
      ∃ g, answer = .ok g ∧
        (e.countPicture layer.isKey first).picturesSinceKey = p.picture ∧
        (e.entered layer first).acceptLayer layer f p first endOfPicture timestamp =
          .ok (g, next) := by
  unfold takeLayer at h
  by_cases hcount : (e.countPicture layer.isKey first).picturesSinceKey = p.picture
  · simp only [hcount, ne_eq, not_true_eq_false, if_false] at h
    split at h
    · cases h
    · cases haccept :
        (e.entered layer first).acceptLayer layer f p first endOfPicture timestamp with
      | error b =>
        unfold entered at haccept
        simp [haccept, Except.map] at h
      | ok accepted =>
        unfold entered at haccept
        simp only [haccept, Except.map] at h
        cases h
        exact .inr ⟨accepted.1, rfl, hcount, rfl⟩
  · simp only [ne_eq, hcount, not_false_eq_true, if_true] at h
    cases h
    exact .inl ⟨⟨_, rfl⟩, rfl, hcount⟩

/-- Taking layers ends with the first of them, or it goes on with the others. -/
theorem takeLayers_ends {e next : Encoder} {p : PicturePlan} {timestamp : UInt32} {first : Bool}
    {layer : CodedLayer} {rest : List CodedLayer} {answer : Except LayerError Picture}
    (h : e.takeLayers p timestamp first (layer :: rest) = .ok (answer, next)) :
    ((∃ why, answer = .error why) ∧ next = e ∧
        (p.frames.find? fun f => f.spatial == layer.spatial) = none) ∨
      ∃ f, (p.frames.find? fun f => f.spatial == layer.spatial) = some f ∧
        ((∃ why, answer = .error why ∧
            e.takeLayer layer f p first rest.isEmpty timestamp = .ok (.error why, next)) ∨
          ∃ g mid more, e.takeLayer layer f p first rest.isEmpty timestamp = .ok (.ok g, mid) ∧
            mid.takeLayers p timestamp false rest = .ok (more, next) ∧
            answer = more.map (g :: ·)) := by
  simp only [takeLayers] at h
  cases hfind : p.frames.find? fun f => f.spatial == layer.spatial with
  | none =>
    simp only [hfind] at h
    cases h
    exact .inl ⟨⟨_, rfl⟩, rfl, rfl⟩
  | some f =>
    simp only [hfind] at h
    refine .inr ⟨f, rfl, ?_⟩
    split at h
    · cases h
    · rename_i htake
      cases h
      exact .inl ⟨_, rfl, htake⟩
    · rename_i g mid htake
      right
      split at h
      · cases h
      · rename_i hrest
        cases h
        exact ⟨g, mid, _, htake, hrest, rfl⟩
      · rename_i hrest
        cases h
        exact ⟨g, mid, _, htake, hrest, rfl⟩

theorem Sound.setRates {e next : Encoder} {h : List Picture} {r : LayerRates} (hs : e.Sound h)
    (hr : e.setRates r = .ok next) : next.Sound h := by
  obtain ⟨range, hrange, rfl⟩ := setRates_eq hr
  have hspatial := hs.spatial
  have htemporal := hs.temporal
  have hactive (s t : Nat) := LayerGrid.isActive_setRates
    (hspatial ▸ e.mode.spatial_bounds.2) (htemporal ▸ e.mode.temporal_bounds.2) r s t
  have hnew (s : Nat) : (e.controller.targets.setRates r).isActive s 0 = true ↔
      range.first ≤ s ∧ s < range.stop := by
    rw [LayerRange.ofRates_mem hrange, hactive, hspatial, htemporal, LayerRates.reaches_zero]
    simp [Nat.lt_of_lt_of_le Nat.zero_lt_one e.mode.temporal_bounds.1]
  constructor
  case spatial => simpa using hspatial
  case temporal => simpa using htemporal
  case kind => simpa using hs.kind
  case layered =>
    rw [Controller.targets_setRates]
    exact LayerGrid.layered_setRates (hspatial ▸ e.mode.spatial_bounds.2)
      (htemporal ▸ e.mode.temporal_bounds.2) r
  case range => simpa using hnew
  case tracks => exact hs.tracks
  case base => simpa [BaseFresh] using hs.base
  case middle => simpa using hs.middle
  case closed =>
    -- A lower layer that comes on takes a key picture, so without one there is none.
    intro hk s hlt hready l (hl : range.first ≤ l) hls
    simp only [Bool.or_eq_false_iff] at hk
    simp only [Controller.baseReady_setRates] at hready ⊢
    have hlow := of_decide_eq_false hk.2.1.1
    exact hs.closed hk.1 s hlt hready l (by omega) hls
  case keyed =>
    -- Where layers are not predicted from below, a higher one that comes on takes one too.
    intro hmode hk s ha
    simp only [Bool.or_eq_false_iff, Bool.and_eq_false_iff] at hk
    obtain ⟨hkey, ⟨hlow, hhigh⟩, -⟩ := hk
    have hhigh := hhigh.resolve_right (by simp [prediction_keyOnly hmode])
    have hlow := of_decide_eq_false hlow
    have hhigh := of_decide_eq_false hhigh
    simp only [Controller.targets_setRates, hnew] at ha
    have hold := (hs.range s).mpr ⟨by omega, by omega⟩
    simpa [BaseFresh] using hs.keyed hmode hkey s hold
  case opened =>
    intro hk
    simp only [Bool.or_eq_false_iff] at hk
    exact hs.opened hk.1
  case epoch => exact hs.epoch
  case noKey => exact hs.noKey
  case firstId => exact hs.firstId
  case id => exact hs.id
  case ids => exact hs.ids

end Encoder
end LayeredRtp
