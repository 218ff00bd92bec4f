import LayeredRtp.Proofs.StagedRuns

/-! What coded layers become. Taken as planned, each of them is one frame, and the encoder remembers
whether a key frame and a structure are still to come. Only the first frame of a picture can be a
key frame or carry a structure. -/
namespace LayeredRtp
namespace Encoder

variable {start e mid next : Encoder} {h : List Picture} {tid : Nat} {own : Nat → List Nat}
  {make : Option Nat → Nat → LayerFrame} {sids : List Nat} {p : PicturePlan}
  {layer : CodedLayer} {rest layers : List CodedLayer} {f : LayerFrame} {g : EncodedFrame}
  {gs : Picture} {first endOfPicture : Bool} {timestamp : UInt32}

structure SameStream (e next : Encoder) : Prop where
  mode : next.mode = e.mode
  width : next.width = e.width
  height : next.height = e.height
  range : next.range = e.range

theorem SameStream.refl (e : Encoder) : e.SameStream e := ⟨rfl, rfl, rfl, rfl⟩

theorem SameStream.trans (h : e.SameStream mid) (h' : mid.SameStream next) : e.SameStream next :=
  ⟨h'.mode.trans h.mode, h'.width.trans h.width, h'.height.trans h.height,
    h'.range.trans h.range⟩

theorem sameStream_entered (e : Encoder) (layer : CodedLayer) (first : Bool) :
    e.SameStream (e.entered layer first) := by
  cases first <;> exact ⟨rfl, rfl, rfl, rfl⟩

structure Becomes (e : Encoder) (p : PicturePlan) (layer : CodedLayer) (f : LayerFrame)
    (first endOfPicture : Bool) (g : EncodedFrame) (next : Encoder) : Prop where
  same : e.SameStream next
  descriptor : ∃ info, g.descriptor =
    (e.entered layer first).descriptor layer f p.picture first endOfPicture info
  isKey : g.isKey = (layer.isKey && !g.descriptor.fromBelow)
  report : ∃ c c' : Controller, c.done f = .ok (g.report, c')
  needed : next.structureNeeded = (e.structureNeeded && !g.descriptor.hasStructure)

/-- A layer that is taken was as planned, and it is accepted. -/
theorem accept_of_takeLayer
    (h : e.takeLayer layer f p first endOfPicture timestamp = .ok (.ok g, next)) :
    (e.entered layer first).acceptLayer layer f p first endOfPicture timestamp = .ok (g, next) := by
  rcases takeLayer_ends h with ⟨⟨why, hno⟩, -⟩ | ⟨_, hg, -, haccept⟩
  · cases hno
  · cases hg
    exact haccept

theorem becomes_of_takeLayer
    (h : e.takeLayer layer f p first endOfPicture timestamp = .ok (.ok g, next)) :
    e.Becomes p layer f first endOfPicture g next := by
  have hneeded : (e.entered layer first).structureNeeded = e.structureNeeded := by
    cases first <;> rfl
  obtain ⟨info, tracker, controller, hreport, hdescriptor, hkey, hnext⟩ :=
    acceptLayer_cases (accept_of_takeLayer h)
  have hkept : (e.entered layer first).SameStream next := by
    rw [hnext]
    exact ⟨rfl, rfl, rfl, rfl⟩
  refine ⟨(e.sameStream_entered layer first).trans hkept, ⟨info, hdescriptor⟩, hkey,
    ⟨_, _, hreport⟩, ?_⟩
  rw [← hneeded]
  exact (congrArg Encoder.structureNeeded hnext :)

/-- The first frame of a picture is not predicted from below. -/
theorem Becomes.isKey_first (h : e.Becomes p layer f true endOfPicture g next) :
    g.isKey = layer.isKey := by
  obtain ⟨info, hd⟩ := h.descriptor
  rw [h.isKey, hd]
  simp [Encoder.descriptor]

theorem Becomes.place (h : e.Becomes p layer f first endOfPicture g next) (hf : f.spatial < 3) :
    g.report.spatial = f.spatial ∧ g.report.temporal = f.temporal := by
  obtain ⟨c, c', hdone⟩ := h.report
  obtain ⟨r, _, hok, hspatial, htemporal, -⟩ := c.done_ok hf
  rw [hdone] at hok
  cases hok
  exact ⟨hspatial, htemporal⟩

/-- A structure is carried by key frames, and where one is needed. -/
theorem Becomes.hasStructure (h : e.Becomes p layer f first endOfPicture g next) :
    g.descriptor.hasStructure = (g.isKey ||
      (e.structureNeeded && layer.temporal == 0 && layer.spatial == e.range.first)) := by
  obtain ⟨info, hd⟩ := h.descriptor
  rw [h.isKey, hd]
  cases first <;> rfl

structure Tells (e : Encoder) (d : PayloadDescriptor) : Prop where
  resolutions : d.hasResolutions = true
  spatialLayers : d.spatialLayers = e.stopLayer
  firstActive : d.firstActive = if 1 < e.stopLayer then e.range.first else 0
  widths : d.widths = e.layerSizes e.width
  heights : d.heights = e.layerSizes e.height

theorem SameStream.tells (h : e.SameStream next) {d : PayloadDescriptor} (ht : next.Tells d) :
    e.Tells d := by
  have hstop : next.stopLayer = e.stopLayer := by simp only [stopLayer, h.range]
  have hsizes (full : Nat) : next.layerSizes full = e.layerSizes full := by
    simp only [layerSizes, scaled, h.range, hstop, h.mode]
  constructor
  case resolutions => exact ht.resolutions
  case spatialLayers => exact hstop ▸ ht.spatialLayers
  case firstActive => exact h.range ▸ hstop ▸ ht.firstActive
  case widths => rw [ht.widths, hsizes, h.width]
  case heights => rw [ht.heights, hsizes, h.height]

theorem Becomes.tells (h : e.Becomes p layer f first endOfPicture g next)
    (hs : g.descriptor.hasStructure = true) : e.Tells g.descriptor := by
  obtain ⟨info, hd⟩ := h.descriptor
  rw [hd] at hs ⊢
  exact (e.sameStream_entered layer first).tells ⟨hs, rfl, rfl, if_pos hs, if_pos hs⟩

/-- Layers that are all taken are taken one after the other. -/
theorem take_of_takeLayers
    (h : e.takeLayers p timestamp first (layer :: rest) = .ok (.ok gs, next)) :
    ∃ f g mid more, (p.frames.find? fun f => f.spatial == layer.spatial) = some f ∧
      e.takeLayer layer f p first rest.isEmpty timestamp = .ok (.ok g, mid) ∧
      mid.takeLayers p timestamp false rest = .ok (.ok more, next) ∧ gs = g :: more := by
  rcases takeLayers_ends h with
    ⟨⟨why, hno⟩, -⟩ | ⟨f, hfind, ⟨why, hno, -⟩ | ⟨g, mid, more, htake, hrest, hgs⟩⟩
  · cases hno
  · cases hno
  · cases more with
    | error why => cases hgs
    | ok more =>
      cases hgs
      exact ⟨f, g, mid, more, hfind, htake, hrest, rfl⟩

theorem takeLayers_cons (h : e.takeLayers p timestamp first (layer :: rest) = .ok (.ok gs, next)) :
    ∃ f g mid more, (p.frames.find? fun f => f.spatial == layer.spatial) = some f ∧
      e.Becomes p layer f first rest.isEmpty g mid ∧
      mid.takeLayers p timestamp false rest = .ok (.ok more, next) ∧ gs = g :: more := by
  obtain ⟨f, g, mid, more, hfind, htake, hrest⟩ := take_of_takeLayers h
  exact ⟨f, g, mid, more, hfind, becomes_of_takeLayer htake, hrest⟩

/-- The first frame of a picture is a key frame if one was asked for. -/
theorem isKey_takeLayers {key : Bool} (ha : CodedLayer.Answers key p.frames layers)
    (h : e.takeLayers p timestamp true layers = .ok (.ok (g :: gs), next)) : g.isKey = key := by
  cases layers with
  | nil => cases h
  | cons layer rest =>
    obtain ⟨f, x, mid, more, -, hbecomes, -, heq⟩ := takeLayers_cons h
    obtain ⟨rfl, -⟩ := List.cons.inj heq
    rw [hbecomes.isKey_first]
    cases hframes : p.frames with
    | nil => simp [hframes, CodedLayer.Answers] at ha
    | cons l frames =>
      rw [hframes] at ha
      exact ha.2.2.1

/-- An emitted picture was planned, and it was made of the layers that the codec answered. -/
theorem Sound.emitted (hs : e.Sound h) {codec : CodecRequest → CodecAnswer}
    (hcodec : e.AnsweredBy codec)
    (henc : e.encode timestamp codec = .ok (.ok gs, next)) :
    ∃ p start tid own make sids layers, e.plan = (.ok p, start) ∧
      start.Plans h tid own make sids p ∧
      CodedLayer.Answers start.keyForced p.frames layers ∧
      start.takeLayers p timestamp true layers = .ok (.ok gs, next) := by
  obtain ⟨p, start, layers, hplan, hlayers, htake⟩ := encode_ok henc
  obtain ⟨-, tid, own, make, sids, hp⟩ := hs.plans hplan
  rcases hcodec p start hplan with ⟨why, hwhy⟩ | ⟨_, hcoded, hanswers, -⟩
  · rw [hlayers] at hwhy
    cases hwhy
  · cases hlayers.symm.trans hcoded
    exact ⟨p, start, tid, own, make, sids, layers, hplan, hp, hanswers, htake⟩

/-- Frames above the lowest layer that is on are no key frames and carry no structure. -/
theorem takeLayers_above {todo : List LayerFrame} (ha : CodedLayer.Answers false todo layers)
    (hsort : p.frames.Pairwise fun f g => f.spatial < g.spatial) (hmem : ∀ f ∈ todo, f ∈ p.frames)
    (habove : ∀ f ∈ todo, f.spatial < 3 ∧ e.range.first < f.spatial)
    (h : e.takeLayers p timestamp false layers = .ok (.ok gs, next)) :
    e.SameStream next ∧ next.structureNeeded = e.structureNeeded ∧ ∀ g ∈ gs,
      g.isKey = false ∧ g.descriptor.hasStructure = false ∧
        e.range.first < g.report.spatial := by
  induction layers generalizing e todo gs with
  | nil =>
    cases h
    exact ⟨.refl _, rfl, by simp⟩
  | cons layer rest ih =>
    cases todo with
    | nil => exact absurd ha (by simp [CodedLayer.Answers])
    | cons f todo =>
      obtain ⟨hspatial, -, hkey, hrest⟩ := ha
      obtain ⟨f', g, mid, more, hfind, hbecomes, hmore, rfl⟩ := takeLayers_cons h
      rw [hspatial, find_spatial hsort (hmem f List.mem_cons_self)] at hfind
      cases hfind
      obtain ⟨hthree, hlt⟩ := habove f List.mem_cons_self
      have hnokey : g.isKey = false := by rw [hbecomes.isKey, hkey, Bool.false_and]
      have hnone : g.descriptor.hasStructure = false := by
        have hne : f.spatial ≠ e.range.first := Nat.ne_of_gt hlt
        simp [hbecomes.hasStructure, hnokey, hspatial, hne]
      have hkept : mid.structureNeeded = e.structureNeeded := by simp [hbecomes.needed, hnone]
      have hrange := hbecomes.same.range
      obtain ⟨hsame, hneeded, hall⟩ := ih hrest (fun x hx => hmem x (List.mem_cons_of_mem f hx))
        (fun x hx => hrange ▸ habove x (List.mem_cons_of_mem f hx)) hmore
      refine ⟨hbecomes.same.trans hsame, hneeded.trans hkept, List.forall_mem_cons.mpr ⟨?_, ?_⟩⟩
      · exact ⟨hnokey, hnone, (hbecomes.place hthree).1 ▸ hlt⟩
      · exact hrange ▸ hall

structure Opens (start : Encoder) (g : EncodedFrame) (above : Picture) (next : Encoder) :
    Prop where
  same : start.SameStream next
  isKey : g.isKey = start.keyForced
  on : start.range.first ≤ g.report.spatial ∧ g.report.spatial < start.range.stop
  hasStructure : g.descriptor.hasStructure = (g.isKey ||
    (start.structureNeeded && g.report.temporal == 0 && g.report.spatial == start.range.first))
  tells : g.descriptor.hasStructure = true → start.Tells g.descriptor
  needed : next.structureNeeded = (start.structureNeeded && !g.descriptor.hasStructure)
  above : ∀ x ∈ above, x.isKey = false ∧ x.descriptor.hasStructure = false ∧
    start.range.first < x.report.spatial

theorem Plans.opens (hp : start.Plans h tid own make sids p) {above : Picture}
    (ha : CodedLayer.Answers start.keyForced p.frames layers)
    (htake : start.takeLayers p timestamp true layers = .ok (.ok (g :: above), next)) :
    start.Opens g above next := by
  have hkey := isKey_takeLayers ha htake
  cases layers with
  | nil => cases htake
  | cons layer rest =>
    have hsort := hp.sorted
    cases hframes : p.frames with
    | nil => simp [hframes, CodedLayer.Answers] at ha
    | cons f todo =>
      rw [hframes] at ha
      obtain ⟨hspatial, htemporal, -, hrest⟩ := ha
      obtain ⟨f', g', mid, more, hfind, hbecomes, hmore, heq⟩ := takeLayers_cons htake
      obtain ⟨rfl, rfl⟩ := List.cons.inj heq
      have hf : f ∈ p.frames := hframes ▸ List.mem_cons_self
      rw [hspatial, find_spatial hsort hf] at hfind
      cases hfind
      obtain ⟨hplace, hlayer⟩ := hbecomes.place (hp.frame hf).2.1
      have hactive := ((hp.prepares.mem _).mp (hp.prepares.frame f (hp.frames ▸ hf)).1).1
      have hon := (hp.prepares.sound.range _).mp (hp.prepares.sound.layered _ _ hactive)
      have habove : ∀ x ∈ todo, x.spatial < 3 ∧ mid.range.first < x.spatial := fun x hx => by
        have hmem : x ∈ p.frames := hframes ▸ List.mem_cons_of_mem f hx
        have hlt := (List.pairwise_cons.mp (hframes ▸ hsort)).1 x hx
        rw [hbecomes.same.range]
        exact ⟨(hp.frame hmem).2.1, by omega⟩
      obtain ⟨hsame, hneeded, hall⟩ := takeLayers_above hrest hsort
        (fun x hx => hframes ▸ List.mem_cons_of_mem f hx) habove hmore
      rw [hbecomes.same.range] at hall
      exact {
        same := hbecomes.same.trans hsame
        isKey := hkey
        on := hplace ▸ hon
        hasStructure := by rw [hbecomes.hasStructure, hspatial, htemporal, hplace, hlayer]
        tells := hbecomes.tells
        needed := hneeded.trans hbecomes.needed
        above := hall }

end Encoder
end LayeredRtp
