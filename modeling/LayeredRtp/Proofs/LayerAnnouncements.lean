import LayeredRtp.Proofs.DroppedPictures
import LayeredRtp.Proofs.KeyRequests
import Mathlib.Algebra.Group.Nat.Defs

/-! Announcements of the spatial layers that are on. Receivers learn of them from the structure that
some frames carry. A change of the layers is remembered until a frame has told of it, through
dropped pictures and pictures of upper temporal layers, and then it is told no more. -/
namespace LayeredRtp

namespace LayerRange

def Regular (range : LayerRange) : Prop := range.first < range.stop ∨ range = ⟨0, 0⟩

def layers (range : LayerRange) (spatial : Nat) : List Nat :=
  (List.range spatial).filter fun sid => range.first ≤ sid && sid < range.stop

variable {range other : LayerRange} {spatial : Nat} {r : LayerRates}

theorem mem_layers (hstop : range.stop ≤ spatial) (sid : Nat) :
    sid ∈ range.layers spatial ↔ range.first ≤ sid ∧ sid < range.stop := by
  simp only [layers, List.mem_filter, List.mem_range, Bool.and_eq_true, decide_eq_true_eq]
  omega

theorem Regular.eq_of_layers (hr : range.Regular) (ho : other.Regular)
    (hrange : range.stop ≤ spatial) (hother : other.stop ≤ spatial)
    (h : range.layers spatial = other.layers spatial) : range = other := by
  have hmem (sid : Nat) : range.first ≤ sid ∧ sid < range.stop ↔
      other.first ≤ sid ∧ sid < other.stop := by
    rw [← mem_layers hrange, h, mem_layers hother]
  have hfirst := hmem range.first
  have hlast := hmem (range.stop - 1)
  have hfirst' := hmem other.first
  have hlast' := hmem (other.stop - 1)
  obtain ⟨first, stop⟩ := range
  obtain ⟨first', stop'⟩ := other
  simp only [Regular, LayerRange.mk.injEq] at *
  omega

theorem regular_extend {sids : List Nat} (h : range.extend sids = .ok other)
    (hrange : range.first < range.stop) (hsort : ∀ sid ∈ sids, range.first ≤ sid) :
    other.first < other.stop := by
  induction sids generalizing range with
  | nil =>
    cases h
    exact hrange
  | cons sid rest ih =>
    simp only [extend] at h
    split at h
    · cases h
    · have hsid := hsort sid List.mem_cons_self
      exact ih h (Nat.lt_succ_of_le hsid) fun x hx => hsort x (List.mem_cons_of_mem sid hx)

/-- The range of some rates is that of the layers with rates. -/
theorem ofRates_layers (h : ofRates r spatial = .ok range) :
    range.Regular ∧ range.stop ≤ spatial ∧
      range.layers spatial = (List.range spatial).filter r.isOn := by
  have hmem := ofRates_mem h
  have hregular : range.Regular := by
    have hsort : ((List.range spatial).filter r.isOn).Pairwise (· < ·) :=
      List.Pairwise.filter _ List.pairwise_lt_range
    unfold ofRates at h
    split at h
    · cases h
      exact .inr rfl
    · rename_i first rest hon
      rw [hon] at hsort
      have hrest := (List.pairwise_cons.mp hsort).1
      exact .inl (regular_extend h (Nat.lt_succ_self first) fun sid hsid =>
        Nat.le_of_lt (hrest sid hsid))
  refine ⟨hregular, ?_, List.filter_congr fun sid hsid => ?_⟩
  · cases hregular with
    | inl hlt =>
      have hlast := (hmem (range.stop - 1)).mp (by omega)
      omega
    | inr hnone => simp [hnone]
  · have hsid := hmem sid
    have hlt := List.mem_range.mp ‹sid ∈ _›
    rw [Bool.eq_iff_iff, Bool.and_eq_true, decide_eq_true_eq, decide_eq_true_eq, hsid]
    exact and_iff_right hlt

end LayerRange

inductive StreamEvent where
  | rated (r : LayerRates)
  | emitted (frames : Picture)
deriving DecidableEq, Repr

namespace StreamEvent

def active (spatial : Nat) : List StreamEvent → List Nat
  | [] => List.range spatial
  | .rated r :: _ => (List.range spatial).filter r.isOn
  | .emitted _ :: older => active spatial older

/-- The frames since the latest rates that changed which layers are on, if any have. -/
def sinceChange (spatial : Nat) : List StreamEvent → Option (List EncodedFrame)
  | [] => none
  | .rated r :: older =>
    if (List.range spatial).filter r.isOn = active spatial older then sinceChange spatial older
    else some []
  | .emitted frames :: older => (sinceChange spatial older).map (· ++ frames)

end StreamEvent

def EncodedFrame.IsLowest (f : EncodedFrame) (layers : List Nat) : Prop :=
  f.report.temporal = 0 ∧ f.report.spatial ∈ layers ∧ ∀ sid ∈ layers, f.report.spatial ≤ sid

structure PayloadDescriptor.Announces (d : PayloadDescriptor) (s : EncoderSettings)
    (layers : List Nat) : Prop where
  highest : ∃ top ∈ layers, (∀ sid ∈ layers, sid ≤ top) ∧ d.spatialLayers = top + 1
  lowest : d.firstActive ∈ layers ∧ ∀ sid ∈ layers, d.firstActive ≤ sid
  resolutions : d.hasResolutions = true
  on : ∀ sid ∈ layers, d.widths.get sid = s.width / 2 ^ (s.mode.spatial - 1 - sid) ∧
    d.heights.get sid = s.height / 2 ^ (s.mode.spatial - 1 - sid)
  off : ∀ sid < PerLayer.count, sid ∉ layers →
    d.widths.get sid = 0 ∧ d.heights.get sid = 0

namespace Encoder

inductive Traced (s : EncoderSettings) : Encoder → List StreamEvent → Prop
  | new {e : Encoder} : Encoder.new s = .ok e → Traced s e []
  | setRates {e next : Encoder} {events : List StreamEvent} (r : LayerRates) :
      Traced s e events → e.setRates r = .ok next → Traced s next (.rated r :: events)
  | requestKey {e : Encoder} {events : List StreamEvent} :
      Traced s e events → Traced s e.requestKey events
  | encode {e next : Encoder} {events : List StreamEvent} {answer : Except LayerError Picture}
      (timestamp : UInt32) (codec : CodecRequest → CodecAnswer) : Traced s e events →
      e.AnsweredBy codec → e.encode timestamp codec = .ok (answer, next) →
      Traced s next (.emitted (answer.toOption.getD []) :: events)

variable {start e next : Encoder} {h : List Picture} {g f : EncodedFrame} {above : Picture}
  {s : EncoderSettings} {id : Nat} {events : List StreamEvent} {timestamp : UInt32}
  {codec : CodecRequest → CodecAnswer} {answer : Except LayerError Picture}

structure StillNeeds (e next : Encoder) : Prop extends e.SameStream next where
  structureNeeded : next.structureNeeded = e.structureNeeded
  keyForced : e.keyForced = true → next.keyForced = true

theorem stillNeeds_requestKey (e : Encoder) : e.StillNeeds e.requestKey :=
  ⟨⟨rfl, rfl, rfl, rfl⟩, rfl, fun _ => rfl⟩

theorem stillNeeds_plan (e : Encoder) : e.StillNeeds e.plan.2 := by
  obtain ⟨c, forced, -, hforced, hplan⟩ := e.plan_leaves
  exact hplan ▸ ⟨⟨rfl, rfl, rfl, rfl⟩, rfl, hforced⟩

/-- Coding a picture emits nothing, or it emits a picture from an encoder that still needed all that
was needed before. -/
theorem Sound.encode_opens (hs : e.Sound h) (hcodec : e.AnsweredBy codec)
    (henc : e.encode timestamp codec = .ok (answer, next)) :
    ∃ start, e.StillNeeds start ∧ (answer.toOption.getD [] = [] ∧ next = start ∨
      ∃ g above, answer = .ok (g :: above) ∧ start.Opens g above next) := by
  have hstill := e.stillNeeds_plan
  rcases encode_ends henc with
    ⟨_, hplan, rfl⟩ | ⟨p, start, hplan, ⟨_, -, rfl, rfl⟩ | ⟨layers, hlayers, htake⟩⟩
  · rw [hplan] at hstill
    exact ⟨next, hstill, .inl ⟨rfl, rfl⟩⟩
  · rw [hplan] at hstill
    exact ⟨next, hstill, .inl ⟨rfl, rfl⟩⟩
  · rw [hplan] at hstill
    refine ⟨start, hstill, ?_⟩
    obtain ⟨-, tid, own, make, sids, hp⟩ := hs.plans hplan
    rcases hcodec p start hplan with ⟨why, hwhy⟩ | ⟨_, hcoded, hanswers, -⟩
    · rw [hlayers] at hwhy
      cases hwhy
    · cases hlayers.symm.trans hcoded
      obtain ⟨gs, last, hok, -, hcases⟩ := hp.takeLayers hanswers timestamp
      cases htake.symm.trans hok
      cases gs with
      | nil => exact .inl ⟨rfl, (hcases.resolve_right fun hne => hne.1 rfl).2⟩
      | cons g above => exact .inr ⟨g, above, rfl, hp.opens hanswers htake⟩

open StreamEvent (active sinceChange)

structure Informed (e : Encoder) (s : EncoderSettings) (events : List StreamEvent) : Prop where
  mode : e.mode = s.mode
  width : e.width = s.width
  height : e.height = s.height
  regular : e.range.Regular
  bounded : e.range.stop ≤ s.mode.spatial
  layers : active s.mode.spatial events = e.range.layers s.mode.spatial
  opening : sinceChange s.mode.spatial events = none → e.structureNeeded = true →
    e.keyForced = true
  needed : ∀ since, sinceChange s.mode.spatial events = some since →
    (e.structureNeeded = true ↔ ∀ g ∈ since, g.descriptor.hasStructure = false)
  quiet : ∀ since, sinceChange s.mode.spatial events = some since → e.structureNeeded = true →
    ∀ g ∈ since, ¬g.IsLowest (active s.mode.spatial events)

theorem informed_new (h : Encoder.new s = .ok e) : e.Informed s [] := by
  rw [new_eq h]
  constructor
  case mode => rfl
  case width => rfl
  case height => rfl
  case regular => exact .inl s.mode.spatial_bounds.1
  case bounded => exact Nat.le_refl _
  case layers =>
    refine (List.filter_eq_self.mpr fun sid hsid => ?_).symm
    simpa using List.mem_range.mp hsid
  case opening => exact fun _ _ => rfl
  case needed => simp [sinceChange]
  case quiet => simp [sinceChange]

theorem Informed.still (hi : e.Informed s events) (h : e.StillNeeds next) :
    next.Informed s events where
  mode := h.mode.trans hi.mode
  width := h.width.trans hi.width
  height := h.height.trans hi.height
  regular := h.range ▸ hi.regular
  bounded := h.range ▸ hi.bounded
  layers := h.range ▸ hi.layers
  opening hnone hneeded := h.keyForced (hi.opening hnone (h.structureNeeded ▸ hneeded))
  needed since hsince := h.structureNeeded ▸ hi.needed since hsince
  quiet since hsince hneeded := hi.quiet since hsince (h.structureNeeded ▸ hneeded)

theorem Informed.congr (hi : e.Informed s events) {others : List StreamEvent}
    (hactive : active s.mode.spatial others = active s.mode.spatial events)
    (hsince : sinceChange s.mode.spatial others = sinceChange s.mode.spatial events) :
    e.Informed s others :=
  { hi with
    layers := hactive.trans hi.layers
    opening := fun hnone => hi.opening (hsince ▸ hnone)
    needed := fun since h => hi.needed since (hsince ▸ h)
    quiet := fun since h => hactive ▸ hi.quiet since (hsince ▸ h) }

theorem Informed.setRates {r : LayerRates} (hi : e.Informed s events)
    (hr : e.setRates r = .ok next) : next.Informed s (.rated r :: events) := by
  obtain ⟨range, hrange, rfl⟩ := setRates_eq hr
  rw [hi.mode] at hrange
  obtain ⟨hregular, hbounded, hlayers⟩ := LayerRange.ofRates_layers hrange
  by_cases hsame : (List.range s.mode.spatial).filter r.isOn = active s.mode.spatial events
  · have heq : range = e.range := hregular.eq_of_layers hi.regular hbounded hi.bounded
      (hlayers.trans (hsame.trans hi.layers))
    subst heq
    have hactive : active s.mode.spatial (.rated r :: events) = active s.mode.spatial events :=
      hsame
    refine .congr (hi.still ?_) hactive (if_pos hsame)
    exact ⟨⟨rfl, rfl, rfl, rfl⟩, by simp, fun hk => by simp [hk]⟩
  · have hne : range ≠ e.range := fun heq => hsame (by rw [← hlayers, heq, hi.layers])
    have hsince : sinceChange s.mode.spatial (.rated r :: events) = some [] := if_neg hsame
    constructor
    case mode => exact hi.mode
    case width => exact hi.width
    case height => exact hi.height
    case regular => exact hregular
    case bounded => exact hbounded
    case layers => exact hlayers.symm
    case opening => simp [hsince]
    case needed => simp [hsince, hne]
    case quiet => simp [hsince]

theorem Informed.isLowest_iff (hi : e.Informed s events) :
    g.IsLowest (active s.mode.spatial events) ↔ g.report.temporal = 0 ∧
      e.range.first < e.range.stop ∧ g.report.spatial = e.range.first := by
  simp only [EncodedFrame.IsLowest, hi.layers, LayerRange.mem_layers hi.bounded]
  refine and_congr_right fun _ => ⟨fun ⟨hon, hall⟩ => ?_, fun ⟨hlt, heq⟩ => ?_⟩
  · have hlt := Nat.lt_of_le_of_lt hon.1 hon.2
    exact ⟨hlt, Nat.le_antisymm (hall _ ⟨Nat.le_refl _, hlt⟩) hon.1⟩
  · exact ⟨by omega, fun sid hsid => heq ▸ hsid.1⟩

theorem Informed.emitted (hi : start.Informed s events) (ho : start.Opens g above next) :
    next.Informed s (.emitted (g :: above) :: events) := by
  -- Afterwards a structure is needed only if one was needed before and the first frame has none.
  have hneeded : next.structureNeeded = true ↔
      start.structureNeeded = true ∧ g.descriptor.hasStructure = false := by
    rw [ho.needed, Bool.and_eq_true, Bool.not_eq_true']
  constructor
  case mode => exact ho.same.mode.trans hi.mode
  case width => exact ho.same.width.trans hi.width
  case height => exact ho.same.height.trans hi.height
  case regular => exact ho.same.range ▸ hi.regular
  case bounded => exact ho.same.range ▸ hi.bounded
  case layers => exact ho.same.range ▸ hi.layers
  case opening =>
    intro hnone hneeds
    obtain ⟨hbefore, hnostructure⟩ := hneeded.mp hneeds
    have hforced := hi.opening (Option.map_eq_none_iff.mp hnone) hbefore
    simp [ho.hasStructure, ho.isKey, hforced] at hnostructure
  case needed =>
    intro since hsince
    obtain ⟨before, hbefore, rfl⟩ := Option.map_eq_some_iff.mp hsince
    have habove : ∀ x ∈ above, x.descriptor.hasStructure = false := fun x hx => (ho.above x hx).2.1
    rw [hneeded, hi.needed before hbefore]
    simp only [List.mem_append, List.mem_cons]
    constructor
    · rintro ⟨hnone, hg⟩ x (hx | rfl | hx)
      · exact hnone x hx
      · exact hg
      · exact habove x hx
    · intro hnone
      exact ⟨fun x hx => hnone x (.inl hx), hnone g (.inr (.inl rfl))⟩
  case quiet =>
    intro since hsince hneeds
    obtain ⟨before, hbefore, rfl⟩ := Option.map_eq_some_iff.mp hsince
    obtain ⟨hstart, hnostructure⟩ := hneeded.mp hneeds
    change ∀ x ∈ before ++ g :: above, ¬x.IsLowest (active s.mode.spatial events)
    intro x hx hlowest
    simp only [List.mem_append, List.mem_cons] at hx
    rcases hx with hx | rfl | hx
    · exact hi.quiet before hbefore hstart x hx hlowest
    · obtain ⟨htemporal, -, hspatial⟩ := hi.isLowest_iff.mp hlowest
      simp [ho.hasStructure, hstart, htemporal, hspatial] at hnostructure
    · have hlt := (ho.above x hx).2.2
      have heq := (hi.isLowest_iff.mp hlowest).2.2
      omega

theorem Traced.reached (ht : Traced s e events) : Reached s e := by
  induction ht with
  | new hnew => exact .new hnew
  | setRates r _ hset ih => exact .setRates r ih hset
  | requestKey _ ih => exact .requestKey ih
  | encode timestamp codec _ hcodec henc ih => exact .encode timestamp codec ih hcodec henc

theorem Traced.informed (ht : Traced (s.setPictureId id) e events) :
    e.Informed (s.setPictureId id) events := by
  induction ht with
  | new hnew => exact informed_new hnew
  | setRates r _ hset ih => exact ih.setRates hset
  | requestKey _ ih => exact ih.still (stillNeeds_requestKey _)
  | @encode e next events answer timestamp codec ht hcodec henc ih =>
    obtain ⟨h, hsound, -⟩ := ht.reached.staged
    obtain ⟨start, hstill, hdone⟩ := hsound.encode_opens hcodec henc
    have hstart := ih.still hstill
    rcases hdone with ⟨hnone, rfl⟩ | ⟨g, above, rfl, ho⟩
    · rw [hnone]
      exact hstart.congr rfl (by simp [sinceChange])
    · exact hstart.emitted ho

theorem stopLayer_eq (hon : e.range.first < e.range.stop) : e.stopLayer = e.range.stop := by
  unfold stopLayer
  omega

theorem scaled_eq {full sid : Nat} (hfull : full < 0x10000) (hsid : sid < PerLayer.count) :
    e.scaled full sid = full / 2 ^ (e.mode.spatial - 1 - sid) := by
  have hle := Nat.div_le_self full (2 ^ (e.mode.spatial - 1 - sid))
  simp only [scaled, ScalabilityMode.layout, StreamLayout.halving, PerLayer.get_replicate,
    PerLayer.get_ofFn _ sid hsid, Nat.mul_one, Nat.one_shiftLeft]
  exact Nat.mod_eq_of_lt (Nat.lt_of_le_of_lt hle hfull)

theorem get_layerSizes {full sid : Nat} (hfull : full < 0x10000) (hsid : sid < PerLayer.count)
    (hon : e.range.first < e.range.stop) :
    (e.layerSizes full).get sid = if e.range.first ≤ sid ∧ sid < e.range.stop then
      full / 2 ^ (e.mode.spatial - 1 - sid) else 0 := by
  rw [layerSizes, PerLayer.get_ofFn _ sid hsid, stopLayer_eq hon, scaled_eq hfull hsid]

/-- A structure tells of the layers that are on by then. -/
theorem Informed.announces (hi : e.Informed s events) (hwidth : s.width < 0x10000)
    (hheight : s.height < 0x10000) (hon : e.range.first < e.range.stop) {d : PayloadDescriptor}
    (ht : e.Tells d) : d.Announces s (active s.mode.spatial events) := by
  have hstop := stopLayer_eq hon
  have hbound := Nat.le_trans hi.bounded s.mode.spatial_bounds.2
  have hfirst : d.firstActive = e.range.first := by
    rw [ht.firstActive, hstop]
    split <;> omega
  have hmem := LayerRange.mem_layers hi.bounded
  rw [hi.layers]
  constructor
  case highest =>
    refine ⟨e.range.stop - 1, (hmem _).mpr (by omega), fun sid hsid => ?_, ?_⟩
    · have := (hmem sid).mp hsid
      omega
    · rw [ht.spatialLayers, hstop]
      omega
  case lowest =>
    rw [hfirst]
    exact ⟨(hmem _).mpr ⟨Nat.le_refl _, hon⟩, fun sid hsid => ((hmem sid).mp hsid).1⟩
  case resolutions => exact ht.resolutions
  case on =>
    intro sid hsid
    have hin := (hmem sid).mp hsid
    have hthree : sid < PerLayer.count := Nat.lt_of_lt_of_le hin.2 hbound
    rw [ht.widths, ht.heights, get_layerSizes (hi.width ▸ hwidth) hthree hon,
      get_layerSizes (hi.height ▸ hheight) hthree hon, if_pos hin, if_pos hin, hi.width, hi.height,
      hi.mode]
    exact ⟨rfl, rfl⟩
  case off =>
    intro sid hthree hsid
    rw [hmem] at hsid
    rw [ht.widths, ht.heights, get_layerSizes (hi.width ▸ hwidth) hthree hon,
      get_layerSizes (hi.height ▸ hheight) hthree hon, if_neg hsid, if_neg hsid]
    exact ⟨rfl, rfl⟩

/-- The first frame of a picture carries a structure if it is a key frame or the first of the lowest
layers since a change that nothing has told of. -/
theorem Informed.carries_iff (hi : start.Informed s events) (ho : start.Opens g above next) :
    g.descriptor.hasStructure = true ↔ g.isKey = true ∨
      g.IsLowest (active s.mode.spatial events) ∧
        ∃ since, sinceChange s.mode.spatial events = some since ∧
          ∀ x ∈ since ++ [], ¬x.IsLowest (active s.mode.spatial events) ∧
            x.descriptor.hasStructure = false := by
  have hon := Nat.lt_of_le_of_lt ho.on.1 ho.on.2
  simp only [ho.hasStructure, Bool.or_eq_true, Bool.and_eq_true, beq_iff_eq, List.append_nil]
  constructor
  · rintro (hkey | ⟨⟨hneeded, htemporal⟩, hspatial⟩)
    · exact .inl hkey
    · cases hsince : sinceChange s.mode.spatial events with
      | none => exact .inl (ho.isKey.trans (hi.opening hsince hneeded))
      | some since =>
        refine .inr ⟨hi.isLowest_iff.mpr ⟨htemporal, hon, hspatial⟩, since, rfl, fun x hx => ?_⟩
        exact ⟨hi.quiet since hsince hneeded x hx, (hi.needed since hsince).mp hneeded x hx⟩
  · rintro (hkey | ⟨hlowest, since, hsince, hall⟩)
    · exact .inl hkey
    · obtain ⟨htemporal, -, hspatial⟩ := hi.isLowest_iff.mp hlowest
      have hneeded := (hi.needed since hsince).mpr fun x hx => (hall x hx).2
      exact .inr ⟨⟨hneeded, htemporal⟩, hspatial⟩

/-- Every change of the spatial layers that are on is announced once. A frame carries a structure if
it is a key frame, or if it is the first of the lowest layers since a change that nothing has told
of, and then only. Such a frame is the first of its picture and tells of the layers that are on. -/
theorem Traced.announced_once (ht : Traced (s.setPictureId id) e events)
    (hwidth : s.width < 0x10000) (hheight : s.height < 0x10000) (hcodec : e.AnsweredBy codec)
    {frames below : Picture} (henc : e.encode timestamp codec = .ok (.ok frames, next))
    (hframes : frames = below ++ f :: above) :
    (f.descriptor.hasStructure = true ↔ f.isKey = true ∨
      f.IsLowest (active s.mode.spatial events) ∧
        ∃ since, sinceChange s.mode.spatial events = some since ∧
          ∀ g ∈ since ++ below, ¬g.IsLowest (active s.mode.spatial events) ∧
            g.descriptor.hasStructure = false) ∧
    (f.descriptor.hasStructure = true →
      below = [] ∧ f.descriptor.Announces s (active s.mode.spatial events)) := by
  obtain ⟨h, hsound, -⟩ := ht.reached.staged
  obtain ⟨start, hstill, hdone⟩ := hsound.encode_opens hcodec henc
  have hi : start.Informed (s.setPictureId id) events := ht.informed.still hstill
  rcases hdone with ⟨hnone, -⟩ | ⟨first, others, hok, ho⟩
  · simp [Except.toOption, hframes] at hnone
  · cases hok
    cases below with
    | nil =>
      obtain ⟨rfl, rfl⟩ := List.cons.inj hframes
      have hon := Nat.lt_of_le_of_lt ho.on.1 ho.on.2
      refine ⟨hi.carries_iff ho, fun hs => ⟨rfl, ?_⟩⟩
      exact { hi.announces hwidth hheight hon (ho.tells hs) with }
    | cons lowest below =>
      obtain ⟨rfl, rfl⟩ := List.cons.inj hframes
      obtain ⟨hnokey, hnostructure, hlt⟩ := ho.above f (by simp)
      have hnot : ¬f.IsLowest (active s.mode.spatial events) := fun hlowest => by
        have heq := (hi.isLowest_iff.mp hlowest).2.2
        omega
      simp [hnokey, hnostructure, hnot]

/-- The highest of three layers goes off after a key picture, and the next picture tells of it. -/
theorem announced_once_second : ∃ (s : EncoderSettings) (e next : Encoder)
    (events : List StreamEvent) (codec : CodecRequest → CodecAnswer) (f : EncodedFrame)
    (above : Picture), Traced (s.setPictureId 7) e events ∧ s.width < 0x10000 ∧
    s.height < 0x10000 ∧ e.AnsweredBy codec ∧ e.encode 0 codec = .ok (.ok (f :: above), next) ∧
    active s.mode.spatial events = [0, 1] ∧ f.isKey = false ∧
    f.descriptor.hasStructure = true ∧ f.descriptor.Announces s [0, 1] := by
  let s : EncoderSettings :=
    { width := 320, height := 180, mode := { spatial := 3, temporal := 1 } }
  let lower : LayerRates := (LayerRates.set {} 0 0 ⟨1000⟩).set 1 0 ⟨1000⟩
  let three : CodecRequest → CodecAnswer :=
    fun _ => .ok [⟨0, 0, true, [1]⟩, ⟨1, 0, false, [2]⟩, ⟨2, 0, false, [3]⟩]
  let two : CodecRequest → CodecAnswer := fun _ => .ok [⟨0, 0, false, [1]⟩, ⟨1, 0, false, [2]⟩]
  obtain ⟨e, events, ht, hcodec, hactive, f, above, next, hok, hkey, hs⟩ :
      ∃ e events, Traced (s.setPictureId 7) e events ∧ e.AnsweredBy two ∧
        active s.mode.spatial events = [0, 1] ∧ ∃ f above next,
          e.encode 0 two = .ok (.ok (f :: above), next) ∧ f.isKey = false ∧
          f.descriptor.hasStructure = true := by
    refine ⟨_, _, .setRates lower (.encode 0 three (.new rfl)
      (obeyedBy_of_plan rfl rfl ?_ rfl).answered rfl) rfl,
      (obeyedBy_of_plan rfl rfl ?_ rfl).answered, rfl, _, _, _, rfl, rfl, rfl⟩
    · exact ⟨rfl, rfl, rfl, rfl, rfl, rfl, rfl, rfl, rfl, trivial⟩
    · exact ⟨rfl, rfl, rfl, rfl, rfl, rfl, trivial⟩
  have hannounced := (ht.announced_once (by decide) (by decide) hcodec hok
    (List.nil_append (f :: above)).symm).2 hs
  exact ⟨s, e, next, events, two, f, above, ht, by decide, by decide, hcodec, hok, hactive, hkey,
    hs, hactive ▸ hannounced.2⟩

end Encoder
end LayeredRtp
