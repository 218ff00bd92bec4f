import LayeredRtp.Proofs.PreparedPictures

/-! Pictures that would skip a spatial layer. Rates may leave a gap between the spatial layers of
an upper temporal layer, and then the frame above the gap is refused by the tracker for good. -/
namespace LayeredRtp

/-- With three layers, the only way to skip one is to leave out the middle one. -/
theorem skips_middle {sids : List Nat} (hsort : sids.Pairwise (· < ·)) (hlt : ∀ s ∈ sids, s < 3)
    (hgap : ¬Neighbours sids) : sids = [0, 2] := by
  match sids, hsort, hlt, hgap with
  | [], _, _, hgap => exact absurd trivial hgap
  | [_], _, _, hgap => exact absurd trivial hgap
  | [a, b], hsort, hlt, hgap =>
    have hab : a < b := (List.pairwise_cons.mp hsort).1 b (by simp)
    have hb := hlt b (by simp)
    have hne : a + 1 ≠ b := fun h => hgap ⟨h, trivial⟩
    obtain rfl : a = 0 := by omega
    obtain rfl : b = 2 := by omega
    rfl
  | a :: b :: c :: rest, hsort, hlt, hgap =>
    obtain ⟨ha, hsort⟩ := List.pairwise_cons.mp hsort
    obtain ⟨hb, hsort⟩ := List.pairwise_cons.mp hsort
    have hab := ha b (by simp)
    have hbc := hb c (by simp)
    have hc := hlt c (by simp)
    cases rest with
    | nil => exact absurd ⟨by omega, by omega, trivial⟩ hgap
    | cons d rest =>
      have := (List.pairwise_cons.mp hsort).1 d (by simp)
      have := hlt d (by simp)
      omega

namespace ReferenceBuffers

theorem checkAll_append (check : Nat → Except Stop Unit) (xs ys : List Nat) :
    checkAll check (xs ++ ys) =
      match checkAll check xs with
      | .error e => .error e
      | .ok () => checkAll check ys := by
  induction xs with
  | nil => rfl
  | cons b rest ih => cases h : check b <;> simp [checkAll, h, ih]

/-- When checks can only find that a reference is too old, they find it if there is one. -/
theorem checkAll_decides {check : Nat → Except Stop Unit} {P : Nat → Prop} {bs : List Nat}
    (h : ∀ b ∈ bs, (P b → check b = .ok ()) ∧
      (¬P b → ∃ n, check b = .error (.refusal (.referenceTooOld n)))) :
    ((∀ b ∈ bs, P b) → checkAll check bs = .ok ()) ∧
    ((¬∀ b ∈ bs, P b) → ∃ n, checkAll check bs = .error (.refusal (.referenceTooOld n))) := by
  induction bs with
  | nil => simp [checkAll]
  | cons b rest ih =>
    obtain ⟨hok, hold⟩ := h b (by simp)
    have ih := ih fun c hc => h c (by simp [hc])
    by_cases hb : P b
    · simpa [checkAll, hok hb, hb] using ih
    · obtain ⟨n, hn⟩ := hold hb
      exact ⟨fun hall => absurd (hall b (by simp)) hb, fun _ => ⟨n, by simp [checkAll, hn]⟩⟩

end ReferenceBuffers

def Picture.Recent (h : List Picture) (b : Nat) : Prop :=
  ∀ d g, Picture.holder b h = some (d, g) → d + 1 ≤ ReferenceBuffers.maxDistance

def LayerFrame.AllRecent (h : List Picture) (frames : List LayerFrame) : Prop :=
  ∀ f ∈ frames, ∀ b ∈ f.references,
    (∀ l ∈ frames, l.spatial < f.spatial → b ∉ l.updates) → Picture.Recent h b

namespace Encoder

/-- The next picture would skip a spatial layer: layers are predicted from below on every picture,
the chosen ones are not neighbours, and nothing calls for a key picture instead. -/
def Skips (e : Encoder) (h : List Picture) : Prop :=
  e.mode.keyOnly = false ∧
    ¬Neighbours ((e.controller.next e.keyForced).1.map (·.spatial)) ∧
    LayerFrame.AllRecent h (e.controller.next e.keyForced).1

variable {e : Encoder} {h : List Picture} {tid : Nat} {own : Nat → List Nat}
  {make : Option Nat → Nat → LayerFrame} {sids : List Nat}

theorem Prepares.check_own (hp : e.Prepares h tid own make sids) {s : Nat} (hs : s ∈ sids)
    {earlier : List LayerFrame} {f : LayerFrame} (hspatial : f.spatial = s)
    (htemporal : f.temporal = tid) {b : Nat} (hb : b ∈ own s)
    (hnot : ∀ l ∈ earlier, b ∉ l.updates) :
    (Picture.Recent h b →
      e.tracker.checkReference earlier f e.nextPicture e.mode.prediction b = .ok ()) ∧
    (¬Picture.Recent h b → ∃ n,
      e.tracker.checkReference earlier f e.nextPicture e.mode.prediction b =
        .error (.refusal (.referenceTooOld n))) := by
  obtain ⟨hk, hfresh⟩ := hp.own s hs b hb
  obtain ⟨t, hbuf⟩ := hp.makes.own s b hb
  obtain ⟨d, g, hd, -, -, -, hcheck⟩ := hp.sound.check_own (hbuf ▸ hp.buffer_lt (hp.lt s hs).1)
    hnot hk (hspatial ▸ htemporal ▸ hfresh)
  rw [hcheck]
  refine ⟨fun hr => if_pos (hr d g hd), fun hr => ⟨d + 1, if_neg fun hle => hr ?_⟩⟩
  intro d' g' hd'
  rw [hd, Option.some.injEq, Prod.mk.injEq] at hd'
  exact hd'.1 ▸ hle

/-- What the frames of a picture without the middle layer are predicted from. -/
theorem Prepares.skipping (hp : e.Prepares h tid own make [0, 2]) (hl : e.links = true)
    (hne : tid ≠ 0) :
    (make none 0).references = own 0 ∧
    (make (some 0) 2).references = own 2 ++ [e.controller.targets.buffer 0 tid] ∧
    e.controller.targets.buffer 0 tid ∈ (make none 0).updates ∧
    ∀ b ∈ own 2, b ∉ (make none 0).updates := by
  refine ⟨by simpa using hp.makes.ordered hne hl none 0,
    by simpa using hp.makes.ordered hne hl (some 0) 2, ?_, fun b hb hu => ?_⟩
  · have := (hp.lt 2 (by simp)).1
    exact hp.makes.storesBelow hl none 0 (by omega)
  · obtain ⟨t, ht⟩ := hp.makes.own 2 b hb
    have he := hp.makes.updates none 0 b hu
    have := LayerGrid.buffer_inj (hp.lt 2 (by simp)).1 (hp.lt 0 (by simp)).1 (ht ▸ he)
    omega

theorem Prepares.allRecent_iff (hp : e.Prepares h tid own make [0, 2]) (hl : e.links = true)
    (hne : tid ≠ 0) : LayerFrame.AllRecent h (LayerFrame.linked make none [0, 2]) ↔
      (∀ b ∈ own 0, Picture.Recent h b) ∧ ∀ b ∈ own 2, Picture.Recent h b := by
  obtain ⟨href0, href2, hst, hfree⟩ := hp.skipping hl hne
  have hs0 := hp.makes.spatial none 0
  have hs2 := hp.makes.spatial (some 0) 2
  simp only [LayerFrame.AllRecent, LayerFrame.linked, List.mem_cons, List.not_mem_nil, or_false,
    forall_eq_or_imp, forall_eq, href0, href2, hs0, hs2]
  constructor
  · rintro ⟨h0, h2⟩
    exact ⟨fun b hb => h0 b hb (by simp), fun b hb => h2 b (by simp [hb]) (by simp [hfree b hb])⟩
  · rintro ⟨h0, h2⟩
    refine ⟨fun b hb _ => h0 b hb, fun b hb hnot => ?_⟩
    rcases List.mem_append.mp hb with hb | hb
    · exact h2 b hb
    · obtain rfl := List.mem_singleton.mp hb
      exact absurd hst (hnot.1 (by omega))

/-- The frame above the gap is refused for good, unless something is too old before that. -/
theorem Prepares.planOf_skip (hp : e.Prepares h tid own make sids) (hl : e.links = true)
    (hgap : ¬Neighbours sids) (first : LayerFrame) :
    (LayerFrame.AllRecent h (LayerFrame.linked make none sids) →
      e.planOf first (LayerFrame.linked make none sids) = (.error (.breach .notLayerBelow), e)) ∧
    (¬LayerFrame.AllRecent h (LayerFrame.linked make none sids) → ∃ n,
      e.planOf first (LayerFrame.linked make none sids) =
        (.error (.refusal (.referenceTooOld n)), e)) := by
  obtain rfl := skips_middle hp.sorted (fun s hs => (hp.lt s hs).2) hgap
  have hne : tid ≠ 0 := by
    rintro rfl
    exact hgap hp.neighbours_base
  obtain ⟨href0, href2, hst, hfree⟩ := hp.skipping hl hne
  rw [hp.allRecent_iff hl hne]
  have hfree0 : ∀ b ∈ own 0, ∀ l ∈ ([] : List LayerFrame), b ∉ l.updates := by simp
  have hfree2 : ∀ b ∈ own 2, ∀ l ∈ [make none 0], b ∉ l.updates := by simpa using hfree
  have hcheck0 := ReferenceBuffers.checkAll_decides fun b hb =>
    hp.check_own (by simp) (hp.makes.spatial none 0) (hp.makes.temporal none 0) hb (hfree0 b hb)
  have hcheck2 := ReferenceBuffers.checkAll_decides fun b hb =>
    hp.check_own (by simp) (hp.makes.spatial (some 0) 2) (hp.makes.temporal (some 0) 2) hb
      (hfree2 b hb)
  have hgapped : e.tracker.checkReference [make none 0] (make (some 0) 2) e.nextPicture
      e.mode.prediction (e.controller.targets.buffer 0 tid) = .error (.breach .notLayerBelow) := by
    simp [ReferenceBuffers.checkReference, hst, prediction_ne_off, hp.makes.spatial]
  have hf0 : (make none 0).spatial < PerLayer.count := by
    rw [hp.makes.spatial]
    decide
  have hf2 : (make (some 0) 2).spatial < PerLayer.count := by
    rw [hp.makes.spatial]
    decide
  simp only [planOf, ReferenceBuffers.configure, LayerFrame.linked,
    ReferenceBuffers.configureFrom, hf0, hf2, if_true, href0, href2, List.nil_append,
    ReferenceBuffers.checkAll_append]
  by_cases h0 : ∀ b ∈ own 0, Picture.Recent h b
  · by_cases h2 : ∀ b ∈ own 2, Picture.Recent h b
    · refine ⟨fun _ => ?_, fun hnot => absurd ⟨h0, h2⟩ hnot⟩
      simp [hcheck0.1 h0, hcheck2.1 h2, ReferenceBuffers.checkAll, hgapped, Except.map]
    · obtain ⟨n, hn⟩ := hcheck2.2 h2
      exact ⟨fun hall => absurd hall.2 h2, fun _ => ⟨n, by simp [hcheck0.1 h0, hn, Except.map]⟩⟩
  · obtain ⟨n, hn⟩ := hcheck0.2 h0
    exact ⟨fun hall => absurd hall.1 h0, fun _ => ⟨n, by simp [hn, Except.map]⟩⟩

theorem links_full {e : Encoder} (h : e.mode.keyOnly = false) : e.links = true := by
  cases hk : e.keyForced with
  | false => rw [links_unforced hk, h, Bool.not_false]
  | true => exact links_forced hk

/-- Planning a picture that would skip a layer fails for good. -/
theorem Sound.plan_skips {e : Encoder} (hs : e.Sound h) (hskip : e.Skips h) :
    ∃ next, e.plan = (.error (.breach .notLayerBelow), next) := by
  obtain ⟨hmode, hgap, hrecent⟩ := hskip
  rcases hs.planOnce_cases with
    ⟨hnone, -⟩ | ⟨next, tid, own, make, sids, first, hp, hpre, hframes, heq⟩
  · rw [hnone] at hgap
    exact absurd trivial hgap
  · rw [hframes, LayerFrame.linked_spatials hp.makes.spatial] at hgap
    rw [hframes] at hrecent
    have hl := links_full (hpre.mode ▸ hmode)
    have hplan := (hp.planOf_skip hl hgap first).1 hrecent
    exact ⟨next, by simp [plan, heq.trans hplan]⟩

/-- Any other picture can be planned, unless nothing is sent. -/
theorem Sound.plan_unless {e : Encoder} (hs : e.Sound h) (hskip : ¬e.Skips h) :
    (∃ next, e.plan = (.error (.refusal .noLayers), next) ∧ next.Sound h ∧ e.Keeps next) ∨
    ∃ next tid own make sids p, e.plan = (.ok p, next) ∧ e.Precedes next ∧
      next.Plans h tid own make sids p := by
  by_cases hadj : e.mode.keyOnly = true ∨
      Neighbours ((e.controller.next e.keyForced).1.map (·.spatial))
  · exact hs.plan_cases hadj
  · simp only [not_or, Bool.not_eq_true] at hadj
    obtain ⟨hmode, hgap⟩ := hadj
    rcases hs.planOnce_cases with
      ⟨hnone, -⟩ | ⟨next, tid, own, make, sids, first, hp, hpre, hframes, heq⟩
    · rw [hnone] at hgap
      exact absurd trivial hgap
    · have hold : ¬LayerFrame.AllRecent h (LayerFrame.linked make none sids) := fun hr =>
        hskip ⟨hmode, hgap, hframes ▸ hr⟩
      rw [hframes, LayerFrame.linked_spatials hp.makes.spatial] at hgap
      have hl := links_full (hpre.mode ▸ hmode)
      obtain ⟨n, hn⟩ := (hp.planOf_skip hl hgap first).2 hold
      cases hk : next.keyForced with
      | false => exact hp.sound.plan_retry hpre hk (heq.trans hn)
      | true =>
        obtain rfl := hp.lowest hk
        exact absurd hp.neighbours_base hgap

/-- A sound encoder has a sound plan whenever it has one. -/
theorem Sound.plans {e next : Encoder} {p : PicturePlan} (hs : e.Sound h)
    (hplan : e.plan = (.ok p, next)) :
    e.Precedes next ∧ ∃ tid own make sids, next.Plans h tid own make sids p := by
  by_cases hskip : e.Skips h
  · obtain ⟨last, hbreach⟩ := hs.plan_skips hskip
    rw [hplan] at hbreach
    cases hbreach
  · rcases hs.plan_unless hskip with
      ⟨last, hnone, -⟩ | ⟨last, tid, own, make, sids, p', hok, hpre, hp⟩
    · rw [hplan] at hnone
      cases hnone
    · rw [hplan] at hok
      cases hok
      exact ⟨hpre, tid, own, make, sids, hp⟩

end Encoder
end LayeredRtp
