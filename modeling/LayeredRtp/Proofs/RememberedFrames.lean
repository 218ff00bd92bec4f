import LayeredRtp.Proofs.ReportedFrames

/-! What a controller remembers to be there for prediction was indeed coded since the last key
picture. Rates may change at any time. A controller that predicts from below only on key pictures
needs every key picture to be coded as a whole. -/
namespace LayeredRtp

open CodedFrame (Stored KeyFirst)

/-- A frame of layers that there are. It is stored in the buffer of its own layers if at all, and
always where other frames may count on it. -/
structure LayerFrame.Fits (f : LayerFrame) (g : LayerGrid) : Prop where
  spatial : f.spatial < g.spatial
  temporal : f.temporal ≤ 2
  updates : ∀ b ∈ f.updates, b = g.buffer f.spatial f.temporal
  base : f.temporal = 0 → g.buffer f.spatial 0 ∈ f.updates
  middle : f.temporal = 1 → g.temporal = 3 → g.buffer f.spatial 1 ∈ f.updates

namespace LayerFrame.Fits

variable {f : LayerFrame} {g : LayerGrid} {s : Nat}

/-- The base buffer of a layer holds base frames of it, and the other buffer the rest. -/
theorem of_base (h : f.Fits g) (hs : s < g.spatial) (hb : g.buffer s 0 ∈ f.updates) :
    f.spatial = s ∧ f.temporal = 0 := by
  have he := h.updates _ hb
  have hspatial := g.buffer_inj hs h.spatial he
  refine ⟨hspatial.symm, ?_⟩
  by_cases h0 : f.temporal = 0
  · exact h0
  · simp only [LayerGrid.buffer, if_true, if_neg h0] at he
    omega

theorem of_upper (h : f.Fits g) (hs : s < g.spatial) (hb : g.buffer s 1 ∈ f.updates) :
    f.spatial = s :=
  (g.buffer_inj hs h.spatial (h.updates _ hb)).symm

end LayerFrame.Fits

theorem Makes.fits {g : LayerGrid} {tid : Nat} {links : Bool} {own : Nat → List Nat}
    {make : Option Nat → Nat → LayerFrame} (hm : Makes g tid links own make) (hlow : tid ≤ 2)
    {s : Nat} (hs : s < g.spatial) (below : Option Nat) : (make below s).Fits g := by
  constructor
  case spatial => rw [hm.spatial]; exact hs
  case temporal => rw [hm.temporal]; exact hlow
  case updates => rw [hm.spatial, hm.temporal]; exact hm.updates below s
  case base =>
    rw [hm.spatial, hm.temporal]
    exact fun h0 => hm.storesBase h0 below s
  case middle =>
    rw [hm.spatial, hm.temporal]
    exact fun h1 hthree => hm.storesMiddle h1 hthree below s

/-- The layer below is stored in the same picture. -/
theorem LayerFrame.Placed.stored_below {g : LayerGrid} {tid : Nat} {links : Bool}
    {own : Nat → List Nat} {make : Option Nat → Nat → LayerFrame} {sids : List Nat}
    {lower : List LayerFrame} {f : LayerFrame} {k : Nat} (h : Placed make sids lower f (some k))
    (hm : Makes g tid links own make) (hlinks : links = true) (hf : f.spatial < g.spatial) :
    k < f.spatial ∧ ∃ j rest, lower = rest ++ [make j k] ∧
      g.buffer k tid ∈ (make j k).updates := by
  obtain ⟨hlt, j, rest, hlast⟩ := h.next k rfl
  exact ⟨hlt, j, rest, hlast, hm.storesBelow hlinks j k (by omega)⟩

namespace Controller

structure Formed (c : Controller) : Prop where
  layered : c.targets.Layered
  spatial : c.targets.spatial ≤ 3
  temporal : c.targets.temporal ≤ 3

def Remembers (c : Controller) (s : Nat) : Prop :=
  if c.isFull = true then c.baseReady s = true else c.last ≠ .idle ∧ c.enabled s = true

structure Backed (c : Controller) (log : List CodedFrame) : Prop where
  base : ∀ s < c.targets.spatial, c.Remembers s → Stored (c.targets.buffer s 0) log
  middle : c.targets.temporal = 3 → ∀ s < c.targets.spatial, c.middleReady s = true →
    Stored (c.targets.buffer s 1) log
  enabled : c.isFull = false → c.last ≠ .idle → ∀ s, c.targets.isActive s 0 = true →
    c.enabled s = true

def Logs (c : Controller) (log : List CodedFrame) : Prop :=
  ∀ x ∈ log, x.frame.Fits c.targets ∧
    x.report.inChain = c.targets.spatialIds.map (c.inChain x.frame)

section
variable {c mid next : Controller} {restart : Bool} {frames taken : List LayerFrame}
  {coded log : List CodedFrame} {tid : Nat} {own : Nat → List Nat}
  {make : Option Nat → Nat → LayerFrame} {sids : List Nat}

theorem Formed.follows (hf : c.Formed) (h : next.Follows c) : next.Formed :=
  ⟨h.targets ▸ hf.layered, h.targets ▸ hf.spatial, h.targets ▸ hf.temporal⟩

theorem Formed.setRates (hf : c.Formed) (r : LayerRates) : (c.setRates r).Formed := by
  constructor
  case layered =>
    rw [targets_setRates]
    exact LayerGrid.layered_setRates hf.spatial hf.temporal r
  case spatial => simpa using hf.spatial
  case temporal => simpa using hf.temporal

theorem Took.follows (ht : mid.Took taken coded next) (h : mid.Follows c) : next.Follows c :=
  ⟨ht.kept.isFull.trans h.isFull, ht.kept.targets.trans h.targets⟩

/-- Exactly the frames that were coded are reported. -/
theorem Took.mem (ht : mid.Took taken coded next) {f : LayerFrame} :
    f ∈ taken ↔ ∃ x ∈ coded, x.frame = f := by
  rw [← ht.frames, List.mem_map]

theorem KeyPlan.fits (hp : c.KeyPlan make mid) {f : LayerFrame}
    (hmem : f ∈ LayerFrame.linked make none (c.targets.activeAt 0)) : f.Fits c.targets := by
  obtain ⟨below, s, hs, rfl⟩ := LayerFrame.mem_linked hmem
  exact hp.makes.fits (by omega)
    (LayerGrid.lt_of_isActive (LayerGrid.mem_activeAt.mp hs)).1 below

theorem DeltaPlan.fits (hp : c.DeltaPlan tid own make sids mid) {f : LayerFrame}
    (hmem : f ∈ LayerFrame.linked make none sids) : f.Fits c.targets := by
  obtain ⟨below, s, hs, rfl⟩ := LayerFrame.mem_linked hmem
  exact hp.makes.fits hp.low (LayerGrid.lt_of_isActive ((hp.mem s).mp hs).1).1 below

theorem DeltaPlan.not_key (hp : c.DeltaPlan tid own make sids mid) {f : LayerFrame}
    (hmem : f ∈ LayerFrame.linked make none sids) : f.isKey = false := by
  obtain ⟨below, s, -, rfl⟩ := LayerFrame.mem_linked hmem
  exact hp.isKey below s

theorem Planned.fits (hp : c.Planned restart frames mid) {f : LayerFrame} (hmem : f ∈ frames) :
    f.Fits c.targets := by
  cases hp with
  | nothing => simp at hmem
  | key hp => exact hp.fits hmem
  | delta _ hp => exact hp.fits hmem

theorem KeyPlan.lowest_key (hp : c.KeyPlan make mid) : ∃ first rest,
    LayerFrame.linked make none (c.targets.activeAt 0) = first :: rest ∧ first.isKey = true := by
  obtain ⟨s, rest, hsids⟩ := List.exists_cons_of_ne_nil hp.chosen
  rw [hsids]
  exact ⟨make none s, _, rfl, hp.isKey none s⟩

theorem KeyPlan.isKey_asked (hp : c.KeyPlan make mid) (coded : List CodedFrame) :
    AskedPicture.isKey ⟨LayerFrame.linked make none (c.targets.activeAt 0), coded⟩ = true := by
  obtain ⟨first, rest, hfirst, hkey⟩ := hp.lowest_key
  exact List.any_eq_true.mpr ⟨first, by simp [hfirst], hkey⟩

theorem DeltaPlan.isKey_asked (hp : c.DeltaPlan tid own make sids mid) (coded : List CodedFrame) :
    AskedPicture.isKey ⟨LayerFrame.linked make none sids, coded⟩ = false := by
  rw [AskedPicture.isKey, List.any_eq_false]
  intro f hf
  simp [hp.not_key hf]

/-- A frame of a key picture that is not the lowest is no key frame. -/
theorem KeyPlan.not_key (hp : c.KeyPlan make mid) {k : Nat} {f : LayerFrame}
    (hmem : f ∈ LayerFrame.linked make (some k) sids) : f.isKey = false := by
  induction sids generalizing k with
  | nil => simp [LayerFrame.linked] at hmem
  | cons s rest ih =>
    cases List.mem_cons.mp hmem with
    | inl he => simp [he, hp.isKey]
    | inr hr => exact ih hr

/-- A step of a run: a picture is asked for, and some of its frames are coded. -/
theorem Formed.took (hf : c.Formed) (htaken : taken <+: (c.next restart).1)
    (hreport : (c.next restart).2.reportAll taken = .ok (coded, next)) :
    c.Planned restart (c.next restart).1 (c.next restart).2 ∧
      (c.next restart).2.Took taken coded next := by
  have hp := c.next_planned restart hf.layered
  exact ⟨hp, reportAll_took (fun f hmem =>
    Nat.lt_of_lt_of_le (hp.fits (htaken.subset hmem)).spatial hf.spatial) hreport⟩

/-- A controller can be told of the whole picture that it asked for. -/
theorem Formed.reportAll_next (hf : c.Formed) (restart : Bool) : ∃ coded next,
    (c.next restart).2.reportAll (c.next restart).1 = .ok (coded, next) :=
  reportAll_ok (fun _ hmem => Nat.lt_of_lt_of_le
    ((c.next_planned restart hf.layered).fits hmem).spatial hf.spatial) _

theorem Planned.keyFirst (hp : c.Planned restart frames mid) :
    ∀ f ∈ frames.tail, f.isKey = false := by
  intro f hf
  cases hp with
  | nothing => simp at hf
  | key hp =>
    cases hsids : c.targets.activeAt 0 with
    | nil => simp [hsids, LayerFrame.linked] at hf
    | cons s rest =>
      rw [hsids] at hf
      exact hp.not_key hf
  | delta _ hp => exact hp.not_key (List.mem_of_mem_tail hf)

theorem Took.keyFirst (ht : mid.Took taken coded next) (htaken : taken <+: frames)
    (h : ∀ f ∈ frames.tail, f.isKey = false) : KeyFirst coded := by
  intro x hx
  obtain ⟨rest, rfl⟩ := htaken
  have hframe : x.frame ∈ taken.tail := by
    rw [← ht.frames, ← List.map_tail]
    exact List.mem_map_of_mem hx
  apply h
  cases taken with
  | nil => simp at hframe
  | cons f taken => exact List.mem_append_left rest hframe

theorem Logs.follows (hl : c.Logs log) (h : next.Follows c) : next.Logs log := by
  unfold Logs
  rwa [h.targets, inChain_follows h]

/-- A controller is told of frames of its own layers only. -/
theorem Took.logs (ht : mid.Took taken coded next) (hmid : mid.Follows c) (hl : c.Logs log)
    (hfits : ∀ f ∈ taken, f.Fits c.targets) : c.Logs (coded.reverse ++ log) := by
  intro x hx
  cases List.mem_append.mp hx with
  | inl hx =>
    have hx := List.mem_reverse.mp hx
    refine ⟨hfits _ (ht.mem.mpr ⟨x, hx, rfl⟩), ?_⟩
    rw [ht.chains x hx, hmid.targets, inChain_follows hmid]
  | inr hx => exact hl x hx

/-- Frames that were just coded are stored where others count on them. -/
theorem Took.stored_base (ht : mid.Took taken coded next) (hfirst : KeyFirst coded)
    (hfits : ∀ f ∈ taken, f.Fits c.targets) (log : List CodedFrame) {s : Nat}
    (h : ∃ f ∈ taken, f.temporal = 0 ∧ f.spatial = s) :
    Stored (c.targets.buffer s 0) (coded.reverse ++ log) := by
  obtain ⟨f, hf, h0, rfl⟩ := h
  obtain ⟨x, hx, rfl⟩ := ht.mem.mp hf
  exact hfirst.stored log hx ((hfits _ hf).base h0)

theorem Took.stored_middle (ht : mid.Took taken coded next) (hfirst : KeyFirst coded)
    (hfits : ∀ f ∈ taken, f.Fits c.targets) (log : List CodedFrame)
    (hthree : c.targets.temporal = 3) {s : Nat}
    (h : ∃ f ∈ taken, f.temporal = 1 ∧ f.spatial = s) :
    Stored (c.targets.buffer s 1) (coded.reverse ++ log) := by
  obtain ⟨f, hf, h1, rfl⟩ := h
  obtain ⟨x, hx, rfl⟩ := ht.mem.mp hf
  exact hfirst.stored log hx ((hfits _ hf).middle h1 hthree)

theorem Took.last_idle (ht : mid.Took [] coded next) : next.last = mid.last := by
  simp [ht.last]

/-- After a key picture nothing from before it is remembered. -/
theorem KeyPlan.backed (hf : c.Formed) (hp : c.KeyPlan make mid)
    (ht : mid.Took taken coded next)
    (htaken : taken <+: LayerFrame.linked make none (c.targets.activeAt 0))
    (hwhole : c.isFull = true ∨ taken = [] ∨
      taken = LayerFrame.linked make none (c.targets.activeAt 0)) (log : List CodedFrame) :
    next.Backed (coded.reverse ++ log) := by
  have hkept := ht.follows hp.kept
  have hfits : ∀ f ∈ taken, f.Fits c.targets := fun f hmem => hp.fits (htaken.subset hmem)
  have hplanned : c.Planned true _ mid := .key hp
  have hfirst := ht.keyFirst htaken hplanned.keyFirst
  have hspatial := hf.spatial
  constructor
  case base =>
    rw [hkept.targets]
    intro s hs hr
    apply ht.stored_base hfirst hfits log
    simp only [Remembers, hkept.isFull] at hr
    cases hfull : c.isFull with
    | true =>
      rw [hfull, if_pos rfl, ht.base s (by omega), hp.base s (by omega)] at hr
      exact (hr.resolve_left (by simp)).2
    | false =>
      -- The enabled layers are those of the key picture, and it was coded as a whole.
      simp only [hfull, Bool.false_eq_true, if_false, false_or] at hr hwhole
      rcases hwhole with rfl | rfl
      · rw [ht.last_idle, hp.last] at hr
        exact absurd rfl hr.1
      · rw [ht.enabled, hp.enabled hfull s (by omega)] at hr
        obtain ⟨k, hk⟩ := LayerFrame.mem_linked_of_mem make none (LayerGrid.mem_activeAt.mpr hr.2)
        exact ⟨_, hk, hp.makes.temporal k s, hp.makes.spatial k s⟩
  case middle =>
    rw [hkept.targets]
    intro hthree s hs hm
    rcases ht.middle s (by omega) hm with hm | hm
    · rw [hp.middle s (by omega)] at hm
      cases hm
    · exact ht.stored_middle hfirst hfits log hthree hm
  case enabled =>
    rw [hkept.targets, hkept.isFull, ht.enabled]
    intro hkind _ s ha
    have hs := (LayerGrid.lt_of_isActive ha).1
    rw [hp.enabled hkind s (by omega)]
    exact ha

/-- Any other picture adds to what there was. -/
theorem DeltaPlan.backed (hf : c.Formed) (hb : c.Backed log)
    (hp : c.DeltaPlan tid own make sids mid) (ht : mid.Took taken coded next)
    (htaken : taken <+: LayerFrame.linked make none sids) :
    next.Backed (coded.reverse ++ log) := by
  have hkept := ht.follows hp.kept
  have hfits : ∀ f ∈ taken, f.Fits c.targets := fun f hmem => hp.fits (htaken.subset hmem)
  have hcoded : ∀ x ∈ coded, x.frame.isKey = false := fun x hx =>
    hp.not_key (htaken.subset (ht.mem.mpr ⟨x, hx, rfl⟩))
  have hfirst : KeyFirst coded := fun x hx => hcoded x (List.mem_of_mem_tail hx)
  have hspatial := hf.spatial
  constructor
  case base =>
    rw [hkept.targets]
    intro s hs hr
    simp only [Remembers, hkept.isFull] at hr
    have hold := hb.base s hs
    simp only [Remembers] at hold
    cases hfull : c.isFull with
    | true =>
      rw [hfull, if_pos rfl] at hr hold
      rcases (ht.base s (by omega)).mp hr with hr | ⟨-, hr⟩
      · exact (hold ((hp.base s (by omega)).mp hr).1).append hcoded
      · exact ht.stored_base hfirst hfits log hr
    | false =>
      simp only [hfull, Bool.false_eq_true, if_false] at hr hold
      rw [ht.enabled, hp.enabled s (by omega)] at hr
      exact (hold ⟨hp.going, hr.2.1⟩).append hcoded
  case middle =>
    rw [hkept.targets]
    intro hthree s hs hm
    rcases ht.middle s (by omega) hm with hm | hm
    · exact (hb.middle hthree s hs (hp.middle s (by omega) hm)).append hcoded
    · exact ht.stored_middle hfirst hfits log hthree hm
  case enabled =>
    rw [hkept.targets, hkept.isFull, ht.enabled]
    intro hkind _ s ha
    have hs := (LayerGrid.lt_of_isActive ha).1
    exact (hp.enabled s (by omega)).mpr
      ⟨hb.enabled hkind hp.going s ha, fun _ _ => ha⟩

/-- What a layer is predicted from is remembered, and so it is there. -/
theorem DeltaPlan.stored (hf : c.Formed) (hb : c.Backed log)
    (hp : c.DeltaPlan tid own make sids mid) {s b : Nat} (hs : s ∈ sids) (hown : b ∈ own s) :
    Stored b log ∧ (b = c.targets.buffer s 0 ∨ b = c.targets.buffer s 1 ∧ tid = 2) := by
  have ha := ((hp.mem s).mp hs).1
  obtain ⟨hlt, htid⟩ := LayerGrid.lt_of_isActive ha
  rcases hp.own s hs b hown with ⟨hbs, hready⟩ | ⟨hbs, hready, rfl⟩
  · refine ⟨hbs ▸ hb.base s hlt ?_, .inl hbs⟩
    unfold Remembers
    split
    case isTrue hkind => exact hready hkind
    case isFalse hkind =>
      exact ⟨hp.going, hb.enabled (Bool.eq_false_iff.mpr hkind) hp.going s (hf.layered s tid ha)⟩
  · have := hf.temporal
    exact ⟨hbs ▸ hb.middle (by omega) s hlt hready, .inr ⟨hbs, rfl⟩⟩

/-- Whatever was asked for, what is remembered after it is there. -/
theorem Planned.backed (hf : c.Formed) (hb : c.Backed log) (hp : c.Planned restart frames mid)
    (ht : mid.Took taken coded next) (htaken : taken <+: frames)
    (hwhole : c.isFull = true ∨ taken = [] ∨ taken = frames) :
    next.Backed (coded.reverse ++ log) := by
  cases hp with
  | nothing _ hbase hmiddle hkept hlast =>
    obtain rfl := List.prefix_nil.mp htaken
    obtain rfl := List.map_eq_nil_iff.mp ht.frames
    have hsame := ht.follows hkept
    have hgoing : next.last = .idle := ht.last_idle.trans hlast
    have hspatial := hf.spatial
    constructor
    case base =>
      rw [hsame.targets]
      intro s hs hr
      simp only [Remembers, hsame.isFull, hgoing, ne_eq, not_true_eq_false, false_and] at hr
      split at hr
      case isTrue hkind =>
        apply hb.base s hs
        rw [Remembers, if_pos hkind, ← hbase]
        simpa using (ht.base s (by omega)).mp hr
      case isFalse => exact hr.elim
    case middle =>
      rw [hsame.targets]
      intro hthree s hs hm
      apply hb.middle hthree s hs
      rw [← hmiddle]
      simpa using ht.middle s (by omega) hm
    case enabled => exact fun _ hrun => absurd hgoing hrun
  | key hp => exact hp.backed hf ht htaken hwhole log
  | delta _ hp => exact hp.backed hf hb ht htaken

theorem Backed.setRates (hf : c.Formed) (hb : c.Backed log) (r : LayerRates) :
    (c.setRates r).Backed log := by
  constructor
  case base =>
    intro s hs hr
    simp only [targets_setRates, LayerGrid.spatial_setRates, LayerGrid.buffer_setRates] at hs ⊢
    apply hb.base s hs
    cases c with
    | full c => exact hr
    | key c =>
      simp only [Remembers, isFull, Bool.false_eq_true, if_false, Controller.setRates, last,
        KeyController.setRates] at hr ⊢
      refine ⟨fun hlast => hr.1 ?_, hr.2⟩
      rw [hlast, ite_self]
  case middle => simpa using hb.middle
  case enabled =>
    intro hkind hlast s ha
    rw [isFull_setRates] at hkind
    rw [targets_setRates, LayerGrid.isActive_setRates hf.spatial hf.temporal] at ha
    simp only [Bool.and_eq_true, decide_eq_true_eq, LayerRates.reaches_zero] at ha
    cases c with
    | full c => simp [isFull] at hkind
    | key c =>
      -- A layer that is not enabled and comes on would have made the structure start over.
      cases hon : c.enabled.get s with
      | true => exact hon
      | false =>
        have hcomes : (c.targets.spatialIds.any fun s => !c.enabled.get s && r.isOn s) = true :=
          List.any_eq_true.mpr ⟨s, List.mem_range.mpr ha.1.1, by simp [hon, ha.2]⟩
        simp [Controller.setRates, KeyController.setRates, last, hcomes] at hlast

theorem Logs.setRates (hl : c.Logs log) (r : LayerRates) : (c.setRates r).Logs log := by
  intro x hx
  obtain ⟨hfits, hchain⟩ := hl x hx
  have hkind : (c.setRates r).inChain = c.inChain := by cases c <;> rfl
  rw [targets_setRates, hkind]
  exact ⟨⟨hfits.spatial, hfits.temporal, hfits.updates, hfits.base, hfits.middle⟩, hchain⟩

end

/-- The controllers that nothing was asked of yet. -/
theorem new_eq {keyOnly : Bool} {spatial temporal : Nat} {c : Controller}
    (h : Controller.new keyOnly spatial temporal = .ok c) :
    spatial ≤ 3 ∧ temporal ≤ 3 ∧ c.targets = { spatial, temporal } ∧ c.isFull = !keyOnly ∧
      c.last = .idle ∧ (∀ s, c.baseReady s = false) ∧ ∀ s, c.middleReady s = false := by
  by_cases hs : 1 ≤ spatial ∧ spatial ≤ 3
  · by_cases ht : 1 ≤ temporal ∧ temporal ≤ 3
    · cases keyOnly <;>
        simp only [Controller.new, FullController.new, KeyController.new, LayerGrid.new, hs, ht,
          Except.map, bind, Except.bind, pure, Except.pure, Bool.false_eq_true, and_self,
          if_true, if_false, Except.ok.injEq] at h <;>
        subst h <;>
        exact ⟨hs.2, ht.2, rfl, rfl, rfl, by simp [baseReady], by simp [middleReady]⟩
    · cases keyOnly <;>
        simp [Controller.new, FullController.new, KeyController.new, LayerGrid.new, hs, ht,
          Except.map, bind, Except.bind] at h
  · cases keyOnly <;>
      simp [Controller.new, FullController.new, KeyController.new, LayerGrid.new, hs,
        Except.map, bind, Except.bind] at h

theorem formed_new {keyOnly : Bool} {spatial temporal : Nat} {c : Controller}
    (h : Controller.new keyOnly spatial temporal = .ok c) : c.Formed := by
  obtain ⟨hs, ht, htargets, -⟩ := new_eq h
  constructor
  case layered => exact htargets ▸ LayerGrid.layered_new _ _
  case spatial => rw [htargets]; exact hs
  case temporal => rw [htargets]; exact ht

theorem backed_new {keyOnly : Bool} {spatial temporal : Nat} {c : Controller}
    (h : Controller.new keyOnly spatial temporal = .ok c) : c.Backed [] := by
  obtain ⟨-, -, -, -, hlast, hbase, hmiddle⟩ := new_eq h
  constructor
  case base =>
    intro s _ hr
    simp only [Remembers, hbase s, hlast] at hr
    split at hr <;> simp at hr
  case middle =>
    intro _ s _ hm
    rw [hmiddle s] at hm
    cases hm
  case enabled => exact fun _ hgoing => absurd hlast hgoing

end Controller
end LayeredRtp
