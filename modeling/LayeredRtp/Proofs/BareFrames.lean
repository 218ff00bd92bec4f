import LayeredRtp.Encoder
import LayeredRtp.Proofs.RememberedFrames

/-! Frames that are coded without references. A frame that says so is one. Where layers are
predicted from below on every picture, there are others: the lowest frame of a base picture, if its
layer has no base frame to be predicted from. -/
namespace LayeredRtp

namespace AskedPicture

def isBase (p : AskedPicture) : Bool := p.frames.any (·.temporal == 0)

/-- A spatial layer has a base frame to be predicted from. It was coded since the last key picture
was asked for, and no base picture was asked for without the layer since then. -/
def Based (s : Nat) : List AskedPicture → Prop
  | [] => False
  | p :: older =>
    (∃ x ∈ p.coded, x.frame.temporal = 0 ∧ x.frame.spatial = s) ∨
      p.isKey = false ∧ (p.isBase = true → ∃ f ∈ p.frames, f.spatial = s) ∧ Based s older

end AskedPicture

namespace Controller

open AskedPicture

variable {c mid next : Controller} {restart : Bool} {frames taken : List LayerFrame}
  {coded : List CodedFrame} {tid : Nat} {own : Nat → List Nat}
  {make : Option Nat → Nat → LayerFrame} {sids : List Nat} {asked : List AskedPicture}

theorem DeltaPlan.isBase_asked (hp : c.DeltaPlan tid own make sids mid)
    (coded : List CodedFrame) :
    AskedPicture.isBase ⟨LayerFrame.linked make none sids, coded⟩ = true ↔ tid = 0 := by
  simp only [AskedPicture.isBase, List.any_eq_true, beq_iff_eq]
  constructor
  · rintro ⟨f, hf, h0⟩
    obtain ⟨below, s, -, rfl⟩ := LayerFrame.mem_linked hf
    rwa [hp.makes.temporal] at h0
  · intro h0
    obtain ⟨s, rest, hsids⟩ := List.exists_cons_of_ne_nil hp.chosen
    have hs : s ∈ sids := by simp [hsids]
    obtain ⟨k, hk⟩ := LayerFrame.mem_linked_of_mem make none hs
    exact ⟨_, hk, by rw [hp.makes.temporal, h0]⟩

/-- A controller remembers the layers that have a base frame, whatever part of a picture is coded
and also if none of it is. -/
theorem Planned.based (hf : c.Formed) (hfull : c.isFull = true)
    (hp : c.Planned restart frames mid) (ht : mid.Took taken coded next) {s : Nat}
    (hs : s < c.targets.spatial) (hold : c.baseReady s = true ↔ Based s asked) :
    next.baseReady s = true ↔ Based s (⟨frames, coded⟩ :: asked) := by
  have hlt : s < 3 := Nat.lt_of_lt_of_le hs hf.spatial
  have hcoded : (∃ f ∈ taken, f.temporal = 0 ∧ f.spatial = s) ↔
      ∃ x ∈ coded, x.frame.temporal = 0 ∧ x.frame.spatial = s := by
    constructor
    · rintro ⟨f, hmem, hplace⟩
      obtain ⟨x, hx, rfl⟩ := ht.mem.mp hmem
      exact ⟨x, hx, hplace⟩
    · rintro ⟨x, hx, hplace⟩
      exact ⟨x.frame, ht.mem.mpr ⟨x, hx, rfl⟩, hplace⟩
  rw [ht.base s hlt, hp.follows.isFull, hcoded, or_comm, Based]
  simp only [hfull, true_and]
  refine or_congr_right ?_
  cases hp with
  | nothing _ hbase =>
    simp [hbase, hold, AskedPicture.isKey, AskedPicture.isBase]
  | key hp =>
    simp [hp.base s hlt, hp.isKey_asked]
  | @delta tid own make sids _ _ hp =>
    have hmem : (∃ f ∈ LayerFrame.linked make none sids, f.spatial = s) ↔ s ∈ sids := by
      rw [← List.mem_map, LayerFrame.linked_spatials hp.makes.spatial]
    rw [hp.base s hlt, hp.isKey_asked, hp.isBase_asked, hmem, hp.mem, hold]
    simp only [true_and, hs, true_imp_iff]
    constructor
    · rintro ⟨hbased, hactive⟩
      exact ⟨fun h0 => ⟨h0 ▸ hactive h0, fun _ hne => absurd h0 hne⟩, hbased⟩
    · rintro ⟨hactive, hbased⟩
      exact ⟨hbased, fun h0 => h0 ▸ (hactive h0).1⟩

/-- Along a run, the layers that are remembered are those with a base frame. -/
theorem Run.based {keyOnly : Bool} {spatial temporal : Nat} {start : Controller}
    {admits : LayerRates → Prop} (hnew : Controller.new keyOnly spatial temporal = .ok start)
    (hrun : start.Run admits (fun frames taken => taken <+: frames) c asked) :
    c.Formed ∧ c.isFull = !keyOnly ∧ (c.isFull = true →
      ∀ s < c.targets.spatial, c.baseReady s = true ↔ Based s asked) := by
  induction hrun with
  | start =>
    obtain ⟨-, -, -, hkind, -, hbase, -⟩ := new_eq hnew
    exact ⟨formed_new hnew, hkind, fun _ s _ => by simp [hbase s, Based]⟩
  | setRates r _ _ ih =>
    obtain ⟨hf, hkind, hbased⟩ := ih
    exact ⟨hf.setRates r, by rwa [isFull_setRates], by simpa using hbased⟩
  | @picture c next asked taken coded restart _ htaken hreport ih =>
    obtain ⟨hf, hkind, hbased⟩ := ih
    obtain ⟨hp, ht⟩ := hf.took htaken hreport
    have hkept := ht.follows hp.follows
    refine ⟨hf.follows hkept, hkept.isFull.trans hkind, fun hfull s hs => ?_⟩
    rw [hkept.isFull] at hfull
    rw [hkept.targets] at hs
    exact hp.based hf hfull ht hs (hbased hfull s hs)

/-- Only the lowest frame of a base picture may have no references at all. -/
theorem DeltaPlan.references_nil (hp : c.DeltaPlan tid own make sids mid)
    {lower upper : List LayerFrame} {f : LayerFrame}
    (hsplit : LayerFrame.linked make none sids = lower ++ f :: upper) :
    f.references = [] ↔
      c.isFull = true ∧ tid = 0 ∧ lower = [] ∧ c.baseReady f.spatial = false := by
  obtain ⟨k, hplaced⟩ := LayerFrame.linked_placed hp.makes hp.sorted hsplit
  have href (b : Nat) : b ∈ f.references ↔ b ∈ own f.spatial ∨
      c.isFull = true ∧ ∃ l, k = some l ∧ b = c.targets.buffer l tid := by
    rw [← hp.makes.references k f.spatial b, ← hplaced.made]
  constructor
  · intro hnil
    rw [hnil] at href
    have hown : own f.spatial = [] :=
      List.eq_nil_iff_forall_not_mem.mpr fun b hb => by simpa using (href b).mpr (.inl hb)
    obtain ⟨hfull, h0, hready⟩ := (hp.bare f.spatial).mp hown
    refine ⟨hfull, h0, hplaced.lowest.mp ?_, hready⟩
    cases k with
    | none => rfl
    | some l => simpa using (href _).mpr (.inr ⟨hfull, l, rfl, rfl⟩)
  · rintro ⟨hfull, h0, hlower, hready⟩
    have hown := (hp.bare f.spatial).mpr ⟨hfull, h0, hready⟩
    have hk := hplaced.lowest.mpr hlower
    refine List.eq_nil_iff_forall_not_mem.mpr fun b hb => ?_
    simpa [hown, hk] using (href b).mp hb

theorem KeyPlan.references_nil (hp : c.KeyPlan make mid) {f : LayerFrame}
    (hmem : f ∈ LayerFrame.linked make none (c.targets.activeAt 0)) :
    f.isKey = true ↔ f.references = [] := by
  obtain ⟨k, s, -, rfl⟩ := LayerFrame.mem_linked hmem
  rw [hp.isKey]
  constructor
  · intro hk
    obtain rfl := Option.isNone_iff_eq_none.mp hk
    refine List.eq_nil_iff_forall_not_mem.mpr fun b hb => ?_
    simpa using (hp.makes.references none s b).mp hb
  · intro hnil
    cases k with
    | none => rfl
    | some l => simpa [hnil] using hp.makes.readsBelow rfl l s

/-- With any rates at any time, and any part of each picture coded from the lowest layer up, the
frames that are called key frames are exactly those without references, unless layers are predicted
from below on every picture and the lowest frame of a base picture is of a layer that has no base
frame to be predicted from. -/
theorem Run.key_iff_bare {keyOnly : Bool} {spatial temporal : Nat} {start : Controller}
    {admits : LayerRates → Prop} (hnew : Controller.new keyOnly spatial temporal = .ok start)
    (hrun : start.Run admits (fun frames taken => taken <+: frames) c asked) (restart : Bool) :
    (∀ f ∈ (c.next restart).1, f.isKey = true ↔ f.references = []) ↔
      (keyOnly = false → ∀ f rest, (c.next restart).1 = f :: rest → f.isKey = false →
        f.temporal = 0 → Based f.spatial asked) := by
  obtain ⟨hf, hkind, hbased⟩ := hrun.based hnew
  have hp := c.next_planned restart hf.layered
  generalize hnext : c.next restart = planned at hp
  obtain ⟨frames, mid⟩ := planned
  simp only at hp ⊢
  cases hp with
  | nothing => simp
  | key hp =>
    obtain ⟨first, after, hfirst, hkey⟩ := hp.lowest_key
    refine ⟨fun _ _ f rest hf hdelta => ?_, fun _ f hmem => hp.references_nil hmem⟩
    obtain ⟨rfl, -⟩ := List.cons.inj (hfirst.symm.trans hf)
    rw [hkey] at hdelta
    cases hdelta
  | @delta tid own make sids _ _ hp =>
    constructor
    · intro hall hkeyOnly f rest hsplit hdelta h0
      have hfull : c.isFull = true := by rw [hkind, hkeyOnly]; rfl
      have hfits := hp.fits (f := f) (by simp [hsplit])
      cases hready : c.baseReady f.spatial with
      | true => exact (hbased hfull f.spatial hfits.spatial).mp hready
      | false =>
        have htid : tid = 0 := by
          obtain ⟨k, s, -, rfl⟩ := LayerFrame.mem_linked (hsplit ▸ List.mem_cons_self)
          rwa [hp.makes.temporal] at h0
        have hlowest : LayerFrame.linked make none sids = [] ++ f :: rest := hsplit
        have hnil := (hp.references_nil hlowest).mpr ⟨hfull, htid, rfl, hready⟩
        have hkey := (hall f (by simp [hsplit])).mpr hnil
        rw [hdelta] at hkey
        cases hkey
    · intro hbase f hmem
      obtain ⟨lower, upper, hsplit⟩ := List.append_of_mem hmem
      rw [hp.not_key hmem, hp.references_nil hsplit]
      simp only [Bool.false_eq_true, false_iff, not_and, Bool.not_eq_false]
      rintro hfull h0 rfl
      have hkeyOnly : keyOnly = false := by simpa [hkind] using hfull
      have htemporal : f.temporal = 0 := by
        obtain ⟨k, s, -, rfl⟩ := LayerFrame.mem_linked hmem
        rw [hp.makes.temporal, h0]
      exact (hbased hfull f.spatial (hp.fits hmem).spatial).mpr
        (hbase hkeyOnly f upper hsplit (hp.not_key hmem) htemporal)

/-- Two layers after their key picture. -/
theorem key_iff_bare_second : ∃ (start c : Controller) (asked : List AskedPicture),
    Controller.new false 2 1 = .ok start ∧
    start.Run (fun _ => True) (fun frames taken => taken <+: frames) c asked ∧
    (c.next false).1.map (·.references) = [[0], [0, 1]] ∧
    ((∀ f ∈ (c.next false).1, f.isKey = true ↔ f.references = []) ↔
      (false = false → ∀ f rest, (c.next false).1 = f :: rest → f.isKey = false →
        f.temporal = 0 → Based f.spatial asked)) := by
  obtain ⟨start, c, asked, hnew, hrun, hrefs⟩ : ∃ start c asked,
      Controller.new false 2 1 = .ok start ∧
      start.Run (fun _ => True) (fun frames taken => taken <+: frames) c asked ∧
      (c.next false).1.map (·.references) = [[0], [0, 1]] :=
    ⟨_, _, _, rfl, .picture false .start List.prefix_rfl rfl, by decide⟩
  exact ⟨start, c, asked, hnew, hrun, hrefs, hrun.key_iff_bare hnew false⟩

/-- The lower of two layers is sent alone, and then the upper one. Both allocations are without a
gap. The first frame of the upper layer has no references, but it is not called a key frame. -/
theorem bare_after_switch_up : ∃ (start c : Controller) (asked : List AskedPicture)
    (f : LayerFrame), Controller.new false 2 1 = .ok start ∧
    start.Run (fun r => ∃ range, LayerRange.ofRates r 2 = .ok range) AllOrNone c asked ∧
    (c.next false).1 = [f] ∧ f.isKey = false ∧ f.references = [] := by
  refine ⟨_, _, _, _, rfl, .setRates (LayerRates.set {} 1 0 ⟨1000⟩) (.picture false
    (.setRates (LayerRates.set {} 0 0 ⟨1000⟩) .start ⟨_, rfl⟩) (.inr rfl) rfl) ⟨_, rfl⟩,
    rfl, rfl, rfl⟩

end Controller
end LayeredRtp
