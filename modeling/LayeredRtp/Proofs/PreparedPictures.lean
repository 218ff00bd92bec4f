import LayeredRtp.Proofs.SoundEncoder

/-! Planning the next picture. The frames that a sound encoder prepares are predicted only from
buffers that receivers have too, and the encoder is as sound as before if none of them is coded. -/
namespace LayeredRtp
namespace Encoder

def links (e : Encoder) : Bool := e.predictsFromBelow e.keyForced

def nextPicture (e : Encoder) : Nat := if e.keyForced then 0 else e.picturesSinceKey + 1

/-- An encoder that has chosen the layers `sids` for the next picture, of one temporal layer, and
how to make their frames. -/
structure Prepares (e : Encoder) (h : List Picture) (tid : Nat) (own : Nat → List Nat)
    (make : Option Nat → Nat → LayerFrame) (sids : List Nat) : Prop where
  sound : e.Sound h
  low : tid ≤ 2
  makes : Makes e.controller.targets tid e.links own make
  chosen : sids ≠ []
  sorted : sids.Pairwise (· < ·)
  mem : ∀ s, s ∈ sids ↔ e.controller.targets.isActive s tid = true ∧
    (e.controller.isFull = true → tid ≠ 0 → e.controller.baseReady s = true)
  lowest : e.keyForced = true → tid = 0
  own : ∀ s ∈ sids, ∀ b ∈ own s,
    e.keyForced = false ∧ Picture.Fresh h e.picturesSinceKey b s tid
  started : e.keyForced = true → ∀ s < 3,
    e.controller.baseReady s = false ∧ e.controller.middleReady s = false

theorem Sound.follow {e : Encoder} {h : List Picture} {c : Controller} (hs : e.Sound h)
    (hkept : c.Follows e.controller)
    (hbase : ∀ s < 3, c.baseReady s = true → e.controller.baseReady s = true)
    (hmiddle : ∀ s < 3, c.middleReady s = true → e.controller.middleReady s = true)
    (hclosed : e.keyForced = false → ∀ s < 3, c.baseReady s = true →
      ∀ l, e.range.first ≤ l → l < s → c.baseReady l = true) :
    { e with controller := c }.Sound h := by
  obtain ⟨hfull, htargets⟩ := hkept
  have hbound := e.mode.spatial_bounds
  constructor
  case spatial => exact htargets ▸ hs.spatial
  case temporal => exact htargets ▸ hs.temporal
  case kind => exact hfull ▸ hs.kind
  case layered => exact htargets ▸ hs.layered
  case range => exact htargets ▸ hs.range
  case tracks => exact hs.tracks
  case base =>
    intro s hlt hr
    simp only [BaseFresh, htargets]
    exact hs.base s hlt (hbase s hlt hr)
  case middle =>
    intro ht s hlt hr
    simp only [htargets]
    exact hs.middle ht s hlt (hmiddle s (by simp only at hlt; omega) hr)
  case closed => exact hclosed
  case keyed =>
    intro hm hk s ha
    simp only [htargets] at ha
    simp only [BaseFresh, htargets]
    exact hs.keyed hm hk s ha
  case opened => exact hs.opened
  case epoch => exact hs.epoch
  case noKey => exact hs.noKey
  case firstId => exact hs.firstId
  case id => exact hs.id
  case ids => exact hs.ids

theorem planOnce_nil {e : Encoder} {c : Controller}
    (h : e.controller.next e.keyForced = ([], c)) :
    e.planOnce = (.error (.refusal .noLayers), { e with controller := c }) := by
  simp [planOnce, h]

/-- One attempt at planning, once the controller has chosen frames. -/
theorem planOnce_cons {e : Encoder} {c : Controller} {first : LayerFrame}
    {rest : List LayerFrame} (h : e.controller.next e.keyForced = (first :: rest, c)) :
    e.planOnce =
      let next := { e with controller := c, keyForced := e.keyForced || first.isKey }
      ((next.tracker.configure (first :: rest) next.nextPicture next.mode.prediction).map
        ({ first, frames := first :: rest, config := ·, picture := next.nextPicture }), next) := by
  simp only [planOnce, h]
  rfl

/-- Planning leaves all as it is but the controller, and it wants key pictures no less. -/
theorem planOnce_leaves (e : Encoder) : ∃ forced, (e.keyForced = true → forced = true) ∧
    e.planOnce.2 =
      { e with controller := (e.controller.next e.keyForced).2, keyForced := forced } := by
  cases hnext : e.controller.next e.keyForced with
  | mk frames c =>
    cases frames with
    | nil => exact ⟨e.keyForced, id, by rw [planOnce_nil hnext]⟩
    | cons first rest =>
      exact ⟨e.keyForced || first.isKey, by simp +contextual, by rw [planOnce_cons hnext]⟩

/-- Coding a picture ends where none can be planned, where the codec fails, or with the layers that
the codec answers with. -/
theorem encode_ends {e next : Encoder} {timestamp : UInt32} {codec : CodecRequest → CodecAnswer}
    {answer : Except LayerError Picture} (h : e.encode timestamp codec = .ok (answer, next)) :
    (∃ why, e.plan = (.error (.refusal why), next) ∧ answer = .error why) ∨
      ∃ p start, e.plan = (.ok p, start) ∧
        ((∃ why, codec (start.request p) = .error why ∧ answer = .error why ∧ next = start) ∨
          ∃ layers, codec (start.request p) = .ok layers ∧
            start.takeLayers p timestamp true layers = .ok (answer, next)) := by
  cases hplan : e.plan with
  | mk result start =>
    cases result with
    | error stop =>
      cases stop with
      | breach b => simp [encode, hplan] at h
      | refusal why =>
        simp only [encode, hplan] at h
        cases h
        exact .inl ⟨why, rfl, rfl⟩
    | ok p =>
      refine .inr ⟨p, start, rfl, ?_⟩
      cases hcodec : codec (start.request p) with
      | error why =>
        simp only [encode, hplan, hcodec] at h
        cases h
        exact .inl ⟨why, rfl, rfl, rfl⟩
      | ok layers =>
        simp only [encode, hplan, hcodec] at h
        exact .inr ⟨layers, rfl, h⟩

/-- What is emitted are layers from the codec, all of them taken. -/
theorem encode_ok {e next : Encoder} {timestamp : UInt32} {codec : CodecRequest → CodecAnswer}
    {gs : Picture} (h : e.encode timestamp codec = .ok (.ok gs, next)) :
    ∃ p start layers, e.plan = (.ok p, start) ∧ codec (start.request p) = .ok layers ∧
      start.takeLayers p timestamp true layers = .ok (.ok gs, next) := by
  rcases encode_ends h with ⟨_, -, hno⟩ | ⟨p, start, hplan, ⟨_, -, hno, -⟩ | ⟨layers, hok⟩⟩
  · cases hno
  · cases hno
  · exact ⟨p, start, layers, hplan, hok⟩

theorem links_forced {e : Encoder} (h : e.keyForced = true) : e.links = true := by
  unfold links predictsFromBelow ScalabilityMode.prediction
  cases e.mode.keyOnly <;> simp [h]

theorem links_unforced {e : Encoder} (h : e.keyForced = false) :
    e.links = !e.mode.keyOnly := by
  unfold links predictsFromBelow ScalabilityMode.prediction
  cases e.mode.keyOnly <;> simp [h]

theorem Prepares.key {e : Encoder} {h : List Picture} {make : Option Nat → Nat → LayerFrame}
    {c : Controller} (hs : e.Sound h) (hp : e.controller.KeyPlan make c) :
    { e with controller := c, keyForced := true }.Prepares h 0 (fun _ => []) make
      (e.controller.targets.activeAt 0) := by
  have hsound : { e.requestKey with controller := c }.Sound h := by
    refine hs.requestKey.follow hp.kept (fun s hlt hr => ?_) (fun s hlt hr => ?_) (fun hk => ?_)
    · simp [hp.base s hlt] at hr
    · simp [hp.middle s hlt] at hr
    · simp [Encoder.requestKey] at hk
  constructor
  case sound => exact hsound
  case low => omega
  case makes =>
    rw [links_forced rfl]
    exact hp.kept.targets ▸ hp.makes
  case chosen => exact hp.chosen
  case sorted => exact LayerGrid.sorted_activeAt _ 0
  case mem => simp [hp.kept.targets, LayerGrid.mem_activeAt]
  case lowest => simp
  case own => simp
  case started => exact fun _ s hlt => ⟨hp.base s hlt, hp.middle s hlt⟩

/-- A layer that is ready where it has to be was stored in its base buffer. -/
theorem Sound.base_fresh {e : Encoder} {h : List Picture} (hs : e.Sound h)
    (hunforced : e.keyForced = false) {s : Nat}
    (ha : e.controller.targets.isActive s 0 = true)
    (hr : e.controller.isFull = true → e.controller.baseReady s = true) : e.BaseFresh h s := by
  have hlt := hs.spatial ▸ (LayerGrid.lt_of_isActive ha).1
  have hbound := e.mode.spatial_bounds.2
  cases hf : e.controller.isFull with
  | true => exact (hs.base s (by omega) (hr hf)).2
  | false =>
    have hk := hs.kind
    rw [hf] at hk
    exact hs.keyed (by simpa using hk) hunforced s ha

theorem Prepares.delta {e : Encoder} {h : List Picture} {tid : Nat} {own : Nat → List Nat}
    {make : Option Nat → Nat → LayerFrame} {sids : List Nat} {c : Controller} (hs : e.Sound h)
    (hunforced : e.keyForced = false) (hp : e.controller.DeltaPlan tid own make sids c) :
    { e with controller := c }.Prepares h tid own make sids := by
  have hspatial := hs.spatial
  have hbound := e.mode.spatial_bounds.2
  have hready (s : Nat) (hlt : s < 3) (hr : c.baseReady s = true) :
      e.controller.baseReady s = true := ((hp.base s hlt).mp hr).1
  constructor
  case sound =>
    refine hs.follow hp.kept hready hp.middle fun _ s hlt hr l hl hls => ?_
    have hrs := hready s hlt hr
    refine (hp.base l (by omega)).mpr ⟨hs.closed hunforced s hlt hrs l hl hls, fun h0 _ => ?_⟩
    have ha := ((hp.base s hlt).mp hr).2 h0 (hspatial ▸ (hs.base s hlt hrs).1)
    have := (hs.range s).mp ha
    exact (hs.range l).mpr ⟨hl, by omega⟩
  case low => exact hp.low
  case makes =>
    rw [links_unforced (e := { e with controller := c }) hunforced, ← hs.kind]
    exact hp.kept.targets ▸ hp.makes
  case chosen => exact hp.chosen
  case sorted => exact hp.sorted
  case mem =>
    intro s
    simp only [hp.kept.targets, hp.kept.isFull]
    rw [hp.mem s]
    refine and_congr_right fun ha => ?_
    have hlt : s < 3 := by
      have := (LayerGrid.lt_of_isActive ha).1
      omega
    constructor
    · intro hr hf ht
      exact (hp.base s hlt).mpr ⟨hr hf ht, fun h0 => absurd h0 ht⟩
    · intro hr hf ht
      exact hready s hlt (hr hf ht)
  case lowest => simp [hunforced]
  case own =>
    intro s hin b hb
    have ha := ((hp.mem s).mp hin).1
    obtain ⟨hlt, ht⟩ := LayerGrid.lt_of_isActive ha
    refine ⟨hunforced, ?_⟩
    rcases hp.own s hin b hb with ⟨hb, hr⟩ | ⟨hb, hr, htwo⟩
    · obtain ⟨d, g, hd, hle, hg, ht⟩ := hs.base_fresh hunforced (hs.layered s tid ha) hr
      exact ⟨d, g, hb ▸ hd, hle, hg, by omega⟩
    · have hthree := hs.temporal
      have := e.mode.temporal_bounds.2
      rw [hb, htwo]
      exact hs.middle (by omega) s (by omega) hr
  case started =>
    intro hk
    simp only [hunforced] at hk
    exact absurd hk (by simp)

def planOf (next : Encoder) (first : LayerFrame) (frames : List LayerFrame) :
    Except Stop PicturePlan × Encoder :=
  ((next.tracker.configure frames next.nextPicture next.mode.prediction).map
    ({ first, frames, config := ·, picture := next.nextPicture }), next)

structure Keeps (e next : Encoder) : Prop where
  mode : next.mode = e.mode
  targets : next.controller.targets = e.controller.targets

structure Precedes (e next : Encoder) : Prop extends e.Keeps next where
  forced : e.keyForced = true → next.keyForced = true

theorem Keeps.trans {e next last : Encoder} (h : e.Keeps next) (h' : next.Keeps last) :
    e.Keeps last :=
  ⟨h'.mode.trans h.mode, h'.targets.trans h.targets⟩

theorem Sound.planOnce_cases {e : Encoder} {h : List Picture} (hs : e.Sound h) :
    ((e.controller.next e.keyForced).1 = [] ∧
      ∃ next, e.planOnce = (.error (.refusal .noLayers), next) ∧ next.Sound h ∧ e.Keeps next) ∨
    ∃ next tid own make sids first, next.Prepares h tid own make sids ∧ e.Precedes next ∧
      (e.controller.next e.keyForced).1 = LayerFrame.linked make none sids ∧
      e.planOnce = next.planOf first (LayerFrame.linked make none sids) := by
  have hplanned := e.controller.next_planned e.keyForced hs.layered
  generalize hnext : e.controller.next e.keyForced = planned at hplanned
  obtain ⟨frames, c⟩ := planned
  simp only at hplanned ⊢
  cases hplanned with
  | nothing none hbase hmiddle hkept _ =>
    refine .inl ⟨rfl, _, planOnce_nil hnext, hs.follow hkept ?_ ?_ ?_, rfl, hkept.targets⟩
    · simp [hbase]
    · simp [hmiddle]
    · rw [hbase]
      exact hs.closed
  | @key make _ hp =>
    right
    obtain ⟨s, rest, hsids⟩ := List.exists_cons_of_ne_nil hp.chosen
    refine ⟨_, 0, _, make, e.controller.targets.activeAt 0, make none s, .key hs hp,
      ⟨⟨rfl, hp.kept.targets⟩, fun _ => rfl⟩, rfl, ?_⟩
    rw [hsids] at hnext ⊢
    rw [planOnce_cons hnext, hp.isKey none s, Option.isNone_none, Bool.or_true]
    rfl
  | @delta tid own make sids _ hrestart hp =>
    right
    obtain ⟨s, rest, hsids⟩ := List.exists_cons_of_ne_nil hp.chosen
    refine ⟨_, tid, own, make, sids, make none s, .delta hs hrestart hp,
      ⟨⟨rfl, hp.kept.targets⟩, fun hf => hf⟩, rfl, ?_⟩
    rw [hsids] at hnext ⊢
    rw [planOnce_cons hnext, hp.isKey none s, Bool.or_false]
    rfl

def Usable (e : Encoder) (h : List Picture) (earlier : List LayerFrame) (f : LayerFrame)
    (b : Nat) : Prop :=
  (b < 8 ∧ (∀ l ∈ earlier, b ∉ l.updates) ∧ e.keyForced = false ∧ ∃ d g,
    Picture.holder b h = some (d, g) ∧ d ≤ e.picturesSinceKey ∧
    d + 1 ≤ ReferenceBuffers.maxDistance ∧
    g.report.spatial = f.spatial ∧ g.report.temporal ≤ f.temporal) ∨
  (e.links = true ∧ (∃ l ∈ earlier, b ∈ l.updates) ∧
    ∀ l ∈ earlier, b ∈ l.updates → l.spatial + 1 = f.spatial)

theorem checkOlder_ok {s : FrameOrigin} {f : LayerFrame} {mode : LayerPrediction}
    (hs : s.spatial = f.spatial) (ht : s.temporal ≤ f.temporal) :
    ReferenceBuffers.checkOlder s f mode = .ok () := by
  simp [ReferenceBuffers.checkOlder, hs, Nat.not_lt.mpr ht]

theorem prediction_ne_off (m : ScalabilityMode) : m.prediction ≠ .off := by
  unfold ScalabilityMode.prediction
  split <;> simp

/-- A check of a reference to the layer below looks at its place alone. -/
theorem check_below {e : Encoder} {b : Nat} {earlier : List LayerFrame} {f : LayerFrame}
    (hsome : ∃ l ∈ earlier, b ∈ l.updates)
    (hbelow : ∀ l ∈ earlier, b ∈ l.updates → l.spatial + 1 = f.spatial) :
    e.tracker.checkReference earlier f e.nextPicture e.mode.prediction b = .ok () := by
  cases hfind : earlier.find? fun l => decide (b ∈ l.updates) with
  | none =>
    obtain ⟨l, hl, hb⟩ := hsome
    have := List.find?_eq_none.mp hfind l hl
    simp [hb] at this
  | some l =>
    have hb := List.find?_some hfind
    have hl := hbelow l (List.mem_of_find?_eq_some hfind) (by simpa using hb)
    simp [ReferenceBuffers.checkReference, hfind, prediction_ne_off, hl]

/-- A check of a reference to an earlier picture of the own layer looks at its age alone. -/
theorem Sound.check_own {e : Encoder} {h : List Picture} (hs : e.Sound h) {b : Nat}
    {earlier : List LayerFrame} {f : LayerFrame} (hb : b < 8)
    (hnot : ∀ l ∈ earlier, b ∉ l.updates) (hk : e.keyForced = false)
    (hfresh : Picture.Fresh h e.picturesSinceKey b f.spatial f.temporal) :
    ∃ d g, Picture.holder b h = some (d, g) ∧ d ≤ e.picturesSinceKey ∧
      g.report.spatial = f.spatial ∧ g.report.temporal ≤ f.temporal ∧
      e.tracker.checkReference earlier f e.nextPicture e.mode.prediction b =
        if d + 1 ≤ ReferenceBuffers.maxDistance then .ok ()
        else .error (.refusal (.referenceTooOld (d + 1))) := by
  obtain ⟨d, g, hd, hle, hg, ht⟩ := hfresh
  obtain ⟨s, hslot, hspatial, htemporal, hpicture⟩ := hs.tracks b hb _ hd
  have hnum := hpicture hle
  have hfind : (earlier.find? fun l => decide (b ∈ l.updates)) = none := by
    simpa [List.find?_eq_none] using hnot
  have hage : e.picturesSinceKey + 1 - s.picture = d + 1 := by
    simp only at hnum
    omega
  have hnewer : ¬e.picturesSinceKey + 1 ≤ s.picture := by omega
  refine ⟨d, g, hd, hle, hg, ht, ?_⟩
  simp only [ReferenceBuffers.checkReference, hfind, hslot, nextPicture, hk, Bool.false_eq_true,
    if_false, hnewer, checkOlder_ok (f := f) (hspatial ▸ hg) (htemporal ▸ ht), hage]
  by_cases hfar : d + 1 ≤ ReferenceBuffers.maxDistance
  · rw [if_neg (Nat.not_lt.mpr hfar), if_pos hfar]
  · rw [if_pos (Nat.not_le.mp hfar), if_neg hfar]

variable {e : Encoder} {h : List Picture} {tid : Nat} {own : Nat → List Nat}
  {make : Option Nat → Nat → LayerFrame} {sids : List Nat}

theorem Sound.buffer_lt (hs : e.Sound h) {s t : Nat} (hlt : s < e.mode.spatial) :
    e.controller.targets.buffer s t < 8 := by
  have hspatial := hs.spatial
  have hbound := e.mode.spatial_bounds.2
  unfold LayerGrid.buffer
  split <;> omega

theorem Prepares.lt (hp : e.Prepares h tid own make sids) :
    ∀ s ∈ sids, s < e.controller.targets.spatial ∧ s < 3 := by
  intro s hs
  have hlt := (LayerGrid.lt_of_isActive ((hp.mem s).mp hs).1).1
  have := hp.sound.spatial
  have := e.mode.spatial_bounds.2
  exact ⟨hlt, by omega⟩

theorem Prepares.frame (hp : e.Prepares h tid own make sids) :
    ∀ f ∈ LayerFrame.linked make none sids, f.spatial ∈ sids ∧ f.temporal = tid ∧
      f.buffers.length ≤ 3 ∧ ∀ b ∈ f.updates, b = e.controller.targets.buffer f.spatial tid := by
  intro f hf
  obtain ⟨below, s, hs, rfl⟩ := LayerFrame.mem_linked hf
  rw [hp.makes.spatial, hp.makes.temporal]
  exact ⟨hs, rfl, hp.makes.short below s, hp.makes.updates below s⟩

theorem Prepares.buffer_lt (hp : e.Prepares h tid own make sids) {s t : Nat}
    (hs : s < e.controller.targets.spatial) : e.controller.targets.buffer s t < 8 :=
  hp.sound.buffer_lt (hp.sound.spatial ▸ hs)

theorem Prepares.sources (hp : e.Prepares h tid own make sids)
    (hadj : e.links = true → Neighbours sids) :
    EachAfter (LayerFrame.Sources e.links own) [] (LayerFrame.linked make none sids) :=
  LayerFrame.linked_sources hp.makes
    { lt := fun s hs => (hp.lt s hs).1
      sorted := hp.sorted
      adjacent := hadj
      lower := by simp
      latest := by simp
      first := by simp }

/-- What each reference of a prepared frame is. -/
theorem Prepares.check (hp : e.Prepares h tid own make sids) {earlier : List LayerFrame}
    {f : LayerFrame} (hf : f ∈ LayerFrame.linked make none sids)
    (hsrc : LayerFrame.Sources e.links own earlier f) {b : Nat} (hb : b ∈ f.references) :
    ReferenceBuffers.Passes
      (e.tracker.checkReference earlier f e.nextPicture e.mode.prediction b) ∧
    (e.tracker.checkReference earlier f e.nextPicture e.mode.prediction b = .ok () →
      e.Usable h earlier f b) ∧
    (e.keyForced = true →
      e.tracker.checkReference earlier f e.nextPicture e.mode.prediction b = .ok ()) := by
  obtain ⟨hin, htid, -, -⟩ := hp.frame f hf
  rcases hsrc.1 b hb with ⟨ho, hnot⟩ | ⟨hl, hsome, hbelow⟩
  · obtain ⟨hk, hfresh⟩ := hp.own _ hin b ho
    obtain ⟨t, hbuf⟩ := hp.makes.own _ b ho
    have hlt : b < 8 := hbuf ▸ hp.buffer_lt (hp.lt _ hin).1
    obtain ⟨d, g, hd, hle, hg, ht, hcheck⟩ :=
      hp.sound.check_own hlt hnot hk (htid ▸ hfresh)
    rw [hcheck]
    by_cases hfar : d + 1 ≤ ReferenceBuffers.maxDistance
    · rw [if_pos hfar]
      exact ⟨.inl rfl, fun _ => .inl ⟨hlt, hnot, hk, d, g, hd, hle, hfar, hg, ht⟩, fun _ => rfl⟩
    · rw [if_neg hfar]
      exact ⟨.inr ⟨_, rfl⟩, by simp, by simp [hk]⟩
  · have hcheck := check_below (e := e) (f := f) hsome hbelow
    exact ⟨.inl hcheck, fun _ => .inr ⟨hl, hsome, hbelow⟩, fun _ => hcheck⟩

/-- The sent layers of the lowest temporal layer have no gap between them. -/
theorem Prepares.neighbours_base (hp : e.Prepares h 0 own make sids) : Neighbours sids := by
  refine neighbours_of_gapless hp.sorted fun a m b ha hb ham hmb => ?_
  have hra := (hp.sound.range a).mp ((hp.mem a).mp ha).1
  have hrb := (hp.sound.range b).mp ((hp.mem b).mp hb).1
  exact (hp.mem m).mpr ⟨(hp.sound.range m).mpr (by omega), fun _ h => absurd rfl h⟩

structure Plans (e : Encoder) (h : List Picture) (tid : Nat) (own : Nat → List Nat)
    (make : Option Nat → Nat → LayerFrame) (sids : List Nat) (p : PicturePlan) : Prop where
  prepares : e.Prepares h tid own make sids
  frames : p.frames = LayerFrame.linked make none sids
  picture : p.picture = e.nextPicture
  serves : ∀ f ∈ p.frames, p.config.Serves f
  usable : EachAfter (fun earlier f => ∀ b ∈ f.references, e.Usable h earlier f b) [] p.frames
  fromBelow : EachAfter (fun earlier f => e.links = true → earlier ≠ [] →
    ∃ b ∈ f.references, ∃ l ∈ earlier, b ∈ l.updates) [] p.frames

theorem Prepares.planOf_cases (hp : e.Prepares h tid own make sids)
    (hadj : e.links = true → Neighbours sids) (first : LayerFrame) :
    (∃ p, e.planOf first (LayerFrame.linked make none sids) = (.ok p, e) ∧
      e.Plans h tid own make sids p) ∨
    (e.keyForced = false ∧ ∃ n, e.planOf first (LayerFrame.linked make none sids) =
      (.error (.refusal (.referenceTooOld n)), e)) := by
  have hsrc := hp.sources hadj
  have hlt : ∀ f ∈ LayerFrame.linked make none sids, f.spatial < 3 := fun f hf =>
    (hp.lt _ (hp.frame f hf).1).2
  have hchecked : EachAfter (e.tracker.Checked e.nextPicture e.mode.prediction) []
      (LayerFrame.linked make none sids) :=
    hsrc.imp fun earlier f hf hs => ⟨hlt f hf, fun b hb => (hp.check hf hs hb).1⟩
  rcases ReferenceBuffers.configureFrom_cases {} hchecked with ⟨config, hc, hok⟩ | ⟨n, hn⟩
  · refine .inl ⟨⟨first, _, config, e.nextPicture⟩, ?_, hp, rfl, rfl, ?_, ?_, ?_⟩
    · simp only [planOf, ReferenceBuffers.configure, hc]
      rfl
    · refine ReferenceBuffers.configureFrom_serves hc ?_ (fun f hf => ?_) (fun f _ => ?_)
      · rw [← List.pairwise_map (f := fun f : LayerFrame => f.spatial) (R := (· < ·)),
          LayerFrame.linked_spatials hp.makes.spatial]
        exact hp.sorted
      · exact ⟨hlt f hf, (hp.frame f hf).2.2.1⟩
      · exact BufferPlan.blank_empty f.spatial
    · refine (hsrc.and hok).imp fun earlier f hf hs b hb => ?_
      exact (hp.check hf hs.1 hb).2.1 (hs.2 b hb)
    · exact hsrc.imp fun earlier f hf hs => hs.2
  · cases hk : e.keyForced with
    | false =>
      refine .inr ⟨rfl, n, ?_⟩
      simp only [planOf, ReferenceBuffers.configure, hn]
      rfl
    | true =>
      have hall : EachAfter (fun before f => ∀ b ∈ f.references,
          e.tracker.checkReference before f e.nextPicture e.mode.prediction b = .ok ()) []
          (LayerFrame.linked make none sids) :=
        hsrc.imp fun earlier f hf hs b hb => (hp.check hf hs hb).2.2 hk
      obtain ⟨c, hc⟩ := ReferenceBuffers.configureFrom_ok {} hlt hall
      rw [hn] at hc
      cases hc

/-- A key picture can always be planned. -/
theorem Sound.planOnce_forced {e : Encoder} {h : List Picture} (hs : e.Sound h)
    (hk : e.keyForced = true) :
    (∃ next, e.planOnce = (.error (.refusal .noLayers), next) ∧ next.Sound h ∧ e.Keeps next) ∨
    ∃ next tid own make sids p, e.planOnce = (.ok p, next) ∧ e.Precedes next ∧
      next.Plans h tid own make sids p := by
  rcases hs.planOnce_cases with ⟨-, hnone⟩ | ⟨next, tid, own, make, sids, first, hp, hpre, -, heq⟩
  · exact .inl hnone
  · right
    have hforced := hpre.forced hk
    obtain rfl := hp.lowest hforced
    rcases hp.planOf_cases (fun _ => hp.neighbours_base) first with ⟨p, hok, hplans⟩ | hold
    · exact ⟨next, 0, own, make, sids, p, heq.trans hok, hpre, hplans⟩
    · rw [hforced] at hold
      exact absurd hold.1 (by simp)

/-- A reference that is too old makes the next picture a key picture. -/
theorem Sound.plan_retry {e next : Encoder} {h : List Picture} {n : Nat} (hs : next.Sound h)
    (hpre : e.Precedes next) (hk : next.keyForced = false)
    (hold : e.planOnce = (.error (.refusal (.referenceTooOld n)), next)) :
    (∃ next, e.plan = (.error (.refusal .noLayers), next) ∧ next.Sound h ∧ e.Keeps next) ∨
    ∃ next tid own make sids p, e.plan = (.ok p, next) ∧ e.Precedes next ∧
      next.Plans h tid own make sids p := by
  have hunforced : e.keyForced = false := by
    cases hf : e.keyForced with
    | false => rfl
    | true =>
      rw [hpre.forced hf] at hk
      cases hk
  have hplan : e.plan = next.requestKey.planOnce := by simp [plan, hold, hunforced]
  have hreq : e.Keeps next.requestKey := ⟨hpre.mode, hpre.targets⟩
  rw [hplan]
  rcases hs.requestKey.planOnce_forced rfl with
    ⟨last, hnone, hsound, hkeeps⟩ | ⟨last, tid, own, make, sids, p, hok, hl, hp⟩
  · exact .inl ⟨last, hnone, hsound, hreq.trans hkeeps⟩
  · exact .inr ⟨last, tid, own, make, sids, p, hok,
      ⟨hreq.trans hl.toKeeps, fun hf => by simp [hunforced] at hf⟩, hp⟩

/-- Planning never fails unless it would skip a spatial layer. -/
theorem Sound.plan_cases {e : Encoder} {h : List Picture} (hs : e.Sound h)
    (hadj : e.mode.keyOnly = true ∨
      Neighbours ((e.controller.next e.keyForced).1.map (·.spatial))) :
    (∃ next, e.plan = (.error (.refusal .noLayers), next) ∧ next.Sound h ∧ e.Keeps next) ∨
    ∃ next tid own make sids p, e.plan = (.ok p, next) ∧ e.Precedes next ∧
      next.Plans h tid own make sids p := by
  rcases hs.planOnce_cases with
    ⟨-, next, heq, hsound⟩ | ⟨next, tid, own, make, sids, first, hp, hpre, hframes, heq⟩
  · exact .inl ⟨next, by simp [plan, heq], hsound⟩
  · have hjoined : next.links = true → Neighbours sids := by
      intro hl
      cases hk : next.keyForced with
      | true =>
        obtain rfl := hp.lowest hk
        exact hp.neighbours_base
      | false =>
        rw [links_unforced hk, hpre.mode, Bool.not_eq_true'] at hl
        rw [hframes, LayerFrame.linked_spatials hp.makes.spatial] at hadj
        exact hadj.resolve_left (by simp [hl])
    rcases hp.planOf_cases hjoined first with ⟨p, hok, hplans⟩ | ⟨hk, n, hold⟩
    · exact .inr ⟨next, tid, own, make, sids, p, by simp [plan, heq.trans hok], hpre, hplans⟩
    · exact hp.sound.plan_retry hpre hk (heq.trans hold)

end Encoder
end LayeredRtp
