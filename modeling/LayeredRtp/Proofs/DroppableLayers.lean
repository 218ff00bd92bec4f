import LayeredRtp.Proofs.RememberedFrames

/-! Layers can be dropped from the top, and chains are closed. A frame is predicted from frames
that are not above it, neither in space nor in time, and from members of its own chains. -/
namespace LayeredRtp

open CodedFrame (Stored)

namespace CodedFrame

def latest (b : Nat) (log : List CodedFrame) : Option CodedFrame :=
  (sinceKey log).find? fun x => b ∈ x.frame.updates

theorem Stored.latest {b : Nat} {log : List CodedFrame} (h : Stored b log) :
    ∃ y ∈ log, CodedFrame.latest b log = some y ∧ b ∈ y.frame.updates := by
  obtain ⟨x, hx, hb⟩ := h
  cases hfind : CodedFrame.latest b log with
  | none =>
    have hnone := List.find?_eq_none.mp hfind x hx
    simp [hb] at hnone
  | some y =>
    refine ⟨y, sinceKey_subset log (List.mem_of_find?_eq_some hfind), rfl, ?_⟩
    simpa using List.find?_some hfind

/-- What was stored last is found. -/
theorem latest_last {b : Nat} {y : CodedFrame} (hb : b ∈ y.frame.updates)
    (rest log : List CodedFrame) : latest b ((rest ++ [y]).reverse ++ log) = some y := by
  obtain ⟨older, hy⟩ := sinceKey_cons y (rest.reverse ++ log)
  rw [List.reverse_append, List.reverse_singleton, List.singleton_append, List.cons_append,
    latest, hy]
  simp [hb]

/-- Whoever receives `x`, as it is of a low enough layer or of a chain, receives `y` as well. -/
structure RestsOn (x y : CodedFrame) : Prop where
  spatial : y.frame.spatial ≤ x.frame.spatial
  temporal : y.frame.temporal ≤ x.frame.temporal
  chains : ∀ k : Nat, x.report.inChain[k]? = some true → y.report.inChain[k]? = some true

end CodedFrame

namespace Controller

variable {c mid next : Controller} {restart : Bool} {frames : List LayerFrame}
  {coded log : List CodedFrame} {tid : Nat} {own : Nat → List Nat}
  {make : Option Nat → Nat → LayerFrame} {sids : List Nat}

def InKey (f : LayerFrame) : Prop := f.isKey = true ∨ TemporalPhase.ofTag f.tag = .key

/-- Chains are closed under the references that there are: those of linked pictures, those to
frames of a key picture, and those within a spatial layer. -/
theorem inChain_closed {f g : LayerFrame} (hs : g.spatial ≤ f.spatial)
    (ht : g.temporal ≤ f.temporal)
    (h : c.isFull = true ∨ InKey g ∨ ¬InKey f ∧ g.spatial = f.spatial) {k : Nat}
    (hf : c.inChain f k = true) : c.inChain g k = true := by
  cases c with
  | full c =>
    simp only [inChain, Bool.and_eq_true, beq_iff_eq, decide_eq_true_eq] at hf ⊢
    omega
  | key c =>
    simp only [inChain, Bool.or_eq_true, beq_iff_eq] at hf ⊢
    have hle : f.spatial ≤ k := by
      split at hf
      · exact of_decide_eq_true hf
      · simp only [Bool.and_eq_true, beq_iff_eq] at hf
        omega
    unfold InKey at h
    rcases h with h | h | ⟨h, he⟩
    · cases h
    · rw [if_pos h]
      exact decide_eq_true (by omega)
    · rw [if_neg h] at hf
      split
      · exact decide_eq_true (by omega)
      · simp only [Bool.and_eq_true, beq_iff_eq] at hf ⊢
        omega

theorem restsOn_of_inChain {x y : CodedFrame} (hs : y.frame.spatial ≤ x.frame.spatial)
    (ht : y.frame.temporal ≤ x.frame.temporal)
    (hx : x.report.inChain = c.targets.spatialIds.map (c.inChain x.frame))
    (hy : y.report.inChain = c.targets.spatialIds.map (c.inChain y.frame))
    (h : c.isFull = true ∨ InKey y.frame ∨
      ¬InKey x.frame ∧ y.frame.spatial = x.frame.spatial) : x.RestsOn y := by
  refine ⟨hs, ht, fun k hk => ?_⟩
  rw [hx, List.getElem?_map, Option.map_eq_some_iff] at hk
  obtain ⟨l, hl, hchain⟩ := hk
  rw [hy, List.getElem?_map, hl, Option.map_some, inChain_closed hs ht h hchain]

/-- A reference to the layer below finds the frame of it in the same picture. -/
theorem restsOn_below {links : Bool} (hm : Makes c.targets tid links own make)
    (hlinks : links = true) {below above : List CodedFrame} {x : CodedFrame} {k : Nat}
    (hl : c.Logs (below ++ x :: above))
    (hplaced : LayerFrame.Placed make sids (below.map (·.frame)) x.frame (some k))
    (hchain : c.isFull = true ∨ ∀ j, InKey (make j k)) (log : List CodedFrame) :
    ∃ y, CodedFrame.latest (c.targets.buffer k tid) (below.reverse ++ log) = some y ∧
      x.RestsOn y := by
  obtain ⟨hfits, hx⟩ := hl x (by simp)
  obtain ⟨hlt, j, rest, hlast, hb⟩ := hplaced.stored_below hm hlinks hfits.spatial
  obtain ⟨before, last, rfl, -, hlast⟩ := List.map_eq_append_iff.mp hlast
  obtain ⟨y, after, rfl, hy, hafter⟩ := List.map_eq_cons_iff.mp hlast
  obtain rfl := List.map_eq_nil_iff.mp hafter
  have hys : y.frame.spatial = k := hy ▸ hm.spatial j k
  have hyt : y.frame.temporal = x.frame.temporal := by
    rw [hy, hplaced.made, hm.temporal, hm.temporal]
  refine ⟨y, CodedFrame.latest_last (hy ▸ hb) before log, restsOn_of_inChain (by omega)
    (by omega) hx (hl y (by simp)).2 ?_⟩
  exact hchain.imp_right fun hkey => .inl (hy ▸ hkey j)

/-- On a key picture, a frame is predicted from the layer below or from nothing. -/
theorem KeyPlan.restsOn (hp : c.KeyPlan make mid)
    (ht : mid.Took (LayerFrame.linked make none (c.targets.activeAt 0)) coded next)
    (hl : c.Logs coded) {below above : List CodedFrame} {x : CodedFrame}
    (hsplit : coded = below ++ x :: above) {b : Nat} (hb : b ∈ x.frame.references) :
    ∃ y, CodedFrame.latest b (below.reverse ++ log) = some y ∧ x.RestsOn y := by
  subst hsplit
  obtain ⟨k, hplaced⟩ := LayerFrame.linked_placed hp.makes (c.targets.sorted_activeAt 0)
    (by simpa using ht.frames.symm)
  rw [hplaced.made, hp.makes.references] at hb
  rcases hb with hb | ⟨-, l, rfl, hbl⟩
  · simp at hb
  · rw [hbl]
    exact restsOn_below hp.makes rfl hl hplaced (.inr fun j => .inr (hp.tag j l)) log

/-- A frame that is predicted from what is remembered of its own layer finds a frame of it. -/
theorem DeltaPlan.restsOn_own (hf : c.Formed) (hb : c.Backed log)
    (hp : c.DeltaPlan tid own make sids mid) {below above : List CodedFrame} {x : CodedFrame}
    {k : Option Nat} (hl : c.Logs (below ++ x :: above ++ log))
    (hbelow : ∀ z ∈ below, z.frame.isKey = false)
    (hplaced : LayerFrame.Placed make sids (below.map (·.frame)) x.frame k) {b : Nat}
    (hown : b ∈ own x.frame.spatial) :
    ∃ y, CodedFrame.latest b (below.reverse ++ log) = some y ∧ x.RestsOn y ∧
      y.frame.spatial = x.frame.spatial := by
  obtain ⟨hfits, hx⟩ := hl x (by simp)
  obtain ⟨hstored, hbuffer⟩ := hp.stored hf hb hplaced.mem hown
  obtain ⟨y, hmem, hlatest, hu⟩ := (hstored.append hbelow).latest
  have hmem : y ∈ below ∨ y ∈ log := by simpa using hmem
  obtain ⟨hyfits, hy⟩ := hl y (by simp only [List.mem_append]; exact hmem.imp .inl id)
  have htid : x.frame.temporal = tid := by rw [hplaced.made, hp.makes.temporal]
  have hplace : y.frame.spatial = x.frame.spatial ∧ y.frame.temporal ≤ x.frame.temporal := by
    rcases hbuffer with rfl | ⟨rfl, rfl⟩
    · obtain ⟨hs, h0⟩ := hyfits.of_base hfits.spatial hu
      exact ⟨hs, by omega⟩
    · exact ⟨hyfits.of_upper hfits.spatial hu, htid ▸ hyfits.temporal⟩
  have hdelta : ¬InKey x.frame := by
    rw [hplaced.made]
    simp [InKey, hp.isKey, hp.tag]
  exact ⟨y, hlatest, restsOn_of_inChain (by omega) hplace.2 hx hy
    (.inr (.inr ⟨hdelta, hplace.1⟩)), hplace.1⟩

/-- On any other picture, a frame is predicted from what is remembered of its own layer and, if
pictures are linked, from the layer below. -/
theorem DeltaPlan.restsOn (hf : c.Formed) (hb : c.Backed log) (hl : c.Logs (coded.reverse ++ log))
    (hp : c.DeltaPlan tid own make sids mid)
    (ht : mid.Took (LayerFrame.linked make none sids) coded next)
    {below above : List CodedFrame} {x : CodedFrame} (hsplit : coded = below ++ x :: above)
    {b : Nat} (href : b ∈ x.frame.references) :
    ∃ y, CodedFrame.latest b (below.reverse ++ log) = some y ∧ x.RestsOn y ∧
      (c.isFull = false → y.frame.spatial = x.frame.spatial) := by
  subst hsplit
  obtain ⟨k, hplaced⟩ := LayerFrame.linked_placed hp.makes hp.sorted
    (by simpa using ht.frames.symm)
  have hlogs (z : CodedFrame) (hz : z ∈ below ++ x :: above ++ log) := hl z (by
    simp only [List.mem_append, List.mem_reverse] at hz ⊢
    exact hz)
  have hbelow : ∀ z ∈ below, z.frame.isKey = false := fun z hz =>
    hp.not_key (ht.mem.mpr ⟨z, by simp [hz], rfl⟩)
  rw [hplaced.made, hp.makes.references] at href
  rcases href with hown | ⟨hfull, l, rfl, rfl⟩
  · obtain ⟨y, hlatest, hrests, hsame⟩ := hp.restsOn_own hf hb hlogs hbelow hplaced hown
    exact ⟨y, hlatest, hrests, fun _ => hsame⟩
  · obtain ⟨y, hlatest, hrests⟩ := restsOn_below hp.makes hfull
      (fun z hz => hlogs z (List.mem_append_left _ hz)) hplaced (.inl hfull) log
    refine ⟨y, hlatest, hrests, fun hkind => ?_⟩
    rw [hfull] at hkind
    cases hkind

/-- Along a run, everything that a controller remembers is there. -/
theorem Run.backed {keyOnly : Bool} {spatial temporal : Nat} {start : Controller}
    {admits : LayerRates → Prop} {asked : List AskedPicture}
    (hnew : Controller.new keyOnly spatial temporal = .ok start)
    (hrun : start.Run admits AllOrNone c asked) :
    c.Formed ∧ c.isFull = !keyOnly ∧ c.Backed (AskedPicture.reported asked) ∧
      c.Logs (AskedPicture.reported asked) := by
  induction hrun with
  | start =>
    exact ⟨formed_new hnew, (new_eq hnew).2.2.2.1, backed_new hnew, by
      simp [Logs, AskedPicture.reported]⟩
  | setRates r _ _ ih =>
    obtain ⟨hf, hkind, hb, hl⟩ := ih
    exact ⟨hf.setRates r, by rwa [isFull_setRates], hb.setRates hf r, hl.setRates r⟩
  | @picture c next asked taken coded restart _ hwhole hreport ih =>
    obtain ⟨hf, hkind, hb, hl⟩ := ih
    have htaken := hwhole.isPrefix
    obtain ⟨hp, ht⟩ := hf.took htaken hreport
    have hfits : ∀ f ∈ taken, f.Fits c.targets := fun f hmem => hp.fits (htaken.subset hmem)
    have hkept := ht.follows hp.follows
    exact ⟨hf.follows hkept, hkept.isFull.trans hkind, hp.backed hf hb ht htaken (.inr hwhole),
      (ht.logs hp.follows hl hfits).follows hkept⟩

/-- Layers can be dropped from the top, and chains are closed. With any rates at any time, and
pictures that are coded as a whole or not at all, every buffer that a frame is predicted from holds
a frame that was coded since the last key frame, of layers that are not above its own and of all
the chains that it is in itself. Where layers are predicted from below on key pictures only, it is
of the same spatial layer on all others. -/
theorem Run.droppable_chained {keyOnly : Bool} {spatial temporal : Nat} {start : Controller}
    {asked : List AskedPicture} (hnew : Controller.new keyOnly spatial temporal = .ok start)
    (hrun : start.Run (fun _ => True) AllOrNone c asked) (restart : Bool) :
    ∃ coded next, (c.next restart).2.reportAll (c.next restart).1 = .ok (coded, next) ∧
      coded.map (·.frame) = (c.next restart).1 ∧
      ∀ below x above, coded = below ++ x :: above → ∀ b ∈ x.frame.references,
        ∃ y, CodedFrame.latest b (below.reverse ++ AskedPicture.reported asked) = some y ∧
          x.RestsOn y ∧ (keyOnly = true → (∀ f ∈ (c.next restart).1, f.isKey = false) →
            y.frame.spatial = x.frame.spatial) := by
  obtain ⟨hf, hkind, hb, hl⟩ := hrun.backed hnew
  obtain ⟨coded, next, hreport⟩ := hf.reportAll_next restart
  obtain ⟨hp, ht⟩ := hf.took List.prefix_rfl hreport
  generalize c.next restart = planned at hp ht hreport
  obtain ⟨frames, mid⟩ := planned
  have hfits : ∀ f ∈ frames, f.Fits c.targets := fun f => hp.fits
  have hlogs := ht.logs hp.follows hl hfits
  refine ⟨coded, next, hreport, ht.frames, fun below x above hsplit b href => ?_⟩
  cases hp with
  | nothing =>
    have hnil := List.map_eq_nil_iff.mp ht.frames
    simp [hsplit] at hnil
  | @key make _ hp =>
    obtain ⟨y, hlatest, hrests⟩ := hp.restsOn ht (fun z hz => hlogs z (by simp [hz])) hsplit href
    refine ⟨y, hlatest, hrests, fun _ hdelta => ?_⟩
    obtain ⟨first, rest, hfirst, hkey⟩ := hp.lowest_key
    rw [hdelta first (by simp [hfirst])] at hkey
    cases hkey
  | delta _ hp =>
    obtain ⟨y, hlatest, hrests, hsame⟩ := hp.restsOn hf hb hlogs ht hsplit href
    exact ⟨y, hlatest, hrests, fun hkey _ => hsame (by rw [hkind, hkey]; rfl)⟩

/-- The first picture with the middle temporal layer, after a key picture of two layers. -/
theorem droppable_chained_second : ∃ (start c : Controller) (asked : List AskedPicture),
    Controller.new true 2 2 = .ok start ∧ start.Run (fun _ => True) AllOrNone c asked ∧
    (c.next false).1.map (·.references) = [[0], [1]] ∧
    ∃ coded next, (c.next false).2.reportAll (c.next false).1 = .ok (coded, next) ∧
      coded.map (·.frame) = (c.next false).1 ∧
      ∀ below x above, coded = below ++ x :: above → ∀ b ∈ x.frame.references,
        ∃ y, CodedFrame.latest b (below.reverse ++ AskedPicture.reported asked) = some y ∧
          x.RestsOn y ∧ (true = true → (∀ f ∈ (c.next false).1, f.isKey = false) →
            y.frame.spatial = x.frame.spatial) := by
  obtain ⟨start, c, asked, hnew, hrun, hrefs⟩ : ∃ start c asked,
      Controller.new true 2 2 = .ok start ∧ start.Run (fun _ => True) AllOrNone c asked ∧
      (c.next false).1.map (·.references) = [[0], [1]] :=
    ⟨_, _, _, rfl, .picture false .start (.inr rfl) rfl, by decide⟩
  exact ⟨start, c, asked, hnew, hrun, hrefs, hrun.droppable_chained hnew false⟩

end Controller
end LayeredRtp
