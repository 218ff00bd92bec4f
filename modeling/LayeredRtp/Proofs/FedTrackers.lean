import LayeredRtp.Proofs.PartialPictures

/-! A tracker that is fed with the pictures of a run and with the frames of them that were coded.
Once the pictures are grounded, it finds something older in every buffer that a frame refers to. -/
namespace LayeredRtp

open CodedFrame (Stored)

namespace ReferenceBuffers

def recordAll (t : ReferenceBuffers) (plan : BufferPlan) (picture : Nat) :
    List LayerFrame → Except Breach ReferenceBuffers
  | [] => .ok t
  | f :: rest =>
    match t.record f plan picture with
    | .error b => .error b
    | .ok t => t.recordAll plan picture rest

theorem recordAll_ok {plan : BufferPlan} {taken : List LayerFrame} (picture : Nat)
    (h : ∀ f ∈ taken, f.spatial < 3 ∧ plan.Serves f) (t : ReferenceBuffers) :
    ∃ next, t.recordAll plan picture taken = .ok next ∧ ∀ b < 8,
      ((∃ f ∈ taken, b ∈ f.updates) ∧ ∃ o, next.slot b = some o ∧ o.picture = picture) ∨
      (∀ f ∈ taken, b ∉ f.updates) ∧ next.slot b = t.slot b := by
  induction taken generalizing t with
  | nil => exact ⟨t, rfl, fun b _ => .inr ⟨by simp, rfl⟩⟩
  | cons f rest ih =>
    obtain ⟨hf, hserves⟩ := h f (by simp)
    obtain ⟨mid, hrecord, hmid⟩ := record_ok (t := t) picture hf hserves
    obtain ⟨next, hrest, hnext⟩ := ih (fun g hg => h g (by simp [hg])) mid
    refine ⟨next, by simp only [recordAll, hrecord, hrest], fun b hb => ?_⟩
    rcases hnext b hb with ⟨⟨g, hg, hu⟩, hslot⟩ | ⟨hnone, hslot⟩
    · exact .inl ⟨⟨g, by simp [hg], hu⟩, hslot⟩
    · rw [hmid b hb] at hslot
      by_cases hu : b ∈ f.updates
      · rw [if_pos hu] at hslot
        exact .inl ⟨⟨f, by simp, hu⟩, _, hslot, rfl⟩
      · rw [if_neg hu] at hslot
        exact .inr ⟨by simpa [hu] using hnone, hslot⟩

def Misses : Stop → Prop
  | .breach (.emptyBuffer _ _) => True
  | .breach (.notOlder _ _ _ _) => True
  | _ => False

theorem checkReference_misses {t : ReferenceBuffers} {earlier : List LayerFrame} {f : LayerFrame}
    {picture : Nat} {mode : LayerPrediction} {b : Nat} {stop : Stop}
    (h : t.checkReference earlier f picture mode b = .error stop) (hm : Misses stop) :
    (∀ l ∈ earlier, b ∉ l.updates) ∧ ∀ o, t.slot b = some o → picture ≤ o.picture := by
  unfold checkReference at h
  split at h
  · split at h
    · cases Except.error.inj h
      exact hm.elim
    · split at h
      · cases Except.error.inj h
        exact hm.elim
      · cases h
  · rename_i hfind
    refine ⟨by simpa [List.find?_eq_none] using hfind, fun o ho => ?_⟩
    rw [ho] at h
    simp only at h
    split at h
    · assumption
    · split at h
      · rename_i why hwhy
        cases Except.error.inj h
        unfold checkOlder at hwhy
        split at hwhy
        · cases hwhy
          exact hm.elim
        · split at hwhy
          · cases hwhy
            exact hm.elim
          · split at hwhy <;> cases hwhy
            exact hm.elim
      · split at h
        · cases Except.error.inj h
          exact hm.elim
        · cases h

end ReferenceBuffers

namespace AskedPicture

def number (p : AskedPicture) (latest : Nat) : Nat := if p.isKey then 0 else latest + 1

/-- The tracker after the pictures of a run, and the number of the latest one that was coded. A
picture that the tracker does not accept is one of those that are not coded. -/
inductive Fed (mode : LayerPrediction) : List AskedPicture → ReferenceBuffers → Nat → Prop
  | start : Fed mode [] {} 0
  | dropped {p : AskedPicture} {older : List AskedPicture} {t : ReferenceBuffers} {n : Nat} :
      Fed mode older t n → p.coded = [] → Fed mode (p :: older) t n
  | coded {p : AskedPicture} {older : List AskedPicture} {t next : ReferenceBuffers} {n : Nat}
      {plan : BufferPlan} : Fed mode older t n → p.coded ≠ [] →
      t.configure p.frames (p.number n) mode = .ok plan →
      t.recordAll plan (p.number n) (p.coded.map (·.frame)) = .ok next →
      Fed mode (p :: older) next (p.number n)

structure Proper (p : AskedPicture) (g : LayerGrid) : Prop where
  fits : ∀ f ∈ p.frames, f.Fits g
  short : ∀ f ∈ p.frames, f.buffers.length ≤ 3
  sorted : p.frames.Pairwise fun f f' => f.spatial < f'.spatial
  coded : p.coded.map (·.frame) <+: p.frames
  linked : p.isKey = true → ∀ lower f upper, p.frames = lower ++ f :: upper →
    ∀ b ∈ f.references, ∃ l ∈ lower, b ∈ l.updates
  lowest : p.isKey = true → p.coded ≠ [] → ∃ x ∈ p.coded, x.frame.isKey = true

section
variable {g : LayerGrid} {mode : LayerPrediction} {p : AskedPicture} {older : List AskedPicture}
  {t : ReferenceBuffers} {n : Nat} {plan : BufferPlan} {asked : List AskedPicture}

theorem Proper.serves (hp : p.Proper g) (hg : g.spatial ≤ 3) {picture : Nat}
    (h : t.configure p.frames picture mode = .ok plan) {f : LayerFrame} (hf : f ∈ p.frames) :
    f.spatial < 3 ∧ plan.Serves f := by
  have hlt (f : LayerFrame) (hf : f ∈ p.frames) : f.spatial < 3 :=
    Nat.lt_of_lt_of_le (hp.fits f hf).spatial hg
  exact ⟨hlt f hf, ReferenceBuffers.configureFrom_serves h hp.sorted
    (fun f hf => ⟨hlt f hf, hp.short f hf⟩) (fun f _ => BufferPlan.blank_empty f.spatial) f hf⟩

/-- What was stored since the last key frame is in one of the first eight buffers. -/
theorem lt_of_stored {b : Nat} (hg : g.spatial ≤ 3) (hproper : ∀ p ∈ asked, p.Proper g)
    (h : Stored b (reported asked)) : b < 8 := by
  obtain ⟨x, hx, hb⟩ := h
  have hx := CodedFrame.sinceKey_subset _ hx
  simp only [reported, List.mem_flatMap, List.mem_reverse] at hx
  obtain ⟨p, hp, hx⟩ := hx
  have hproper := hproper p hp
  have hfits := hproper.fits x.frame (hproper.coded.subset (List.mem_map_of_mem hx))
  have hspatial := hfits.spatial
  rw [hfits.updates b hb]
  unfold LayerGrid.buffer
  split <;> omega

/-- Along a run, a buffer holds a picture since the last key picture if a frame was stored there
since the last key frame. -/
theorem Fed.covers (h : Fed mode asked t n) (hg : g.spatial ≤ 3)
    (hproper : ∀ p ∈ asked, p.Proper g) {b : Nat} (hb : Stored b (reported asked)) :
    ∃ o, t.slot b = some o ∧ o.picture ≤ n := by
  induction h with
  | start =>
    obtain ⟨x, hx, -⟩ := hb
    simp [reported, CodedFrame.sinceKey] at hx
  | dropped _ hnone ih =>
    refine ih (fun q hq => hproper q (by simp [hq])) ?_
    simpa [reported, hnone] using hb
  | @coded p older t next n plan _ hsome hplan hrecord ih =>
    have hp := hproper p (by simp)
    have hlt := lt_of_stored hg hproper hb
    obtain ⟨last, hlast, hslots⟩ := ReferenceBuffers.recordAll_ok (p.number n)
      (fun f hf => hp.serves hg hplan (hp.coded.subset hf)) t
    obtain rfl := Except.ok.inj (hrecord.symm.trans hlast)
    rcases hslots b hlt with ⟨-, o, ho, hnumber⟩ | ⟨hnone, hslot⟩
    · exact ⟨o, ho, Nat.le_of_eq hnumber⟩
    · rcases hb.cases with ⟨x, hx, hu⟩ | ⟨hdelta, hold⟩
      · exact absurd hu (hnone x.frame (List.mem_map_of_mem hx))
      · obtain ⟨o, ho, hle⟩ := ih (fun q hq => hproper q (by simp [hq])) hold
        refine ⟨o, hslot.trans ho, ?_⟩
        -- Without a key frame among those that were coded, the count goes on.
        cases hkey : p.isKey with
        | true =>
          obtain ⟨x, hx, hxkey⟩ := hp.lowest hkey hsome
          rw [hdelta x hx] at hxkey
          cases hxkey
        | false =>
          simp only [number, hkey, Bool.false_eq_true, if_false]
          omega

theorem AllGrounded.of_append {newer : List AskedPicture}
    (h : AllGrounded (newer ++ p :: older)) : p.Grounded older := by
  induction newer with
  | nil => exact h.1
  | cons q newer ih => exact ih h.2

/-- A grounded picture does not miss anything in the tracker. -/
theorem Fed.not_misses (h : Fed mode older t n) (hg : g.spatial ≤ 3)
    (hproper : ∀ q ∈ p :: older, q.Proper g) (hground : p.Grounded older) {stop : Stop}
    (hstop : t.configure p.frames (p.number n) mode = .error stop) :
    ¬ReferenceBuffers.Misses stop := by
  intro hm
  rcases ReferenceBuffers.configureFrom_culprit hstop with
    ⟨s, rfl⟩ | ⟨lower, f, upper, hsplit, b, hb, hcheck⟩
  · exact hm
  · obtain ⟨hnew, hslot⟩ := ReferenceBuffers.checkReference_misses hcheck hm
    obtain ⟨o, ho, hle⟩ := h.covers hg (fun q hq => hproper q (by simp [hq]))
      (hground lower f upper hsplit b hb hnew)
    have hnumber := hslot o ho
    cases hkey : p.isKey with
    | true =>
      obtain ⟨l, hl, hu⟩ := (hproper p (by simp)).linked hkey lower f upper hsplit b hb
      exact hnew l hl hu
    | false =>
      simp only [number, hkey, Bool.false_eq_true, if_false] at hnumber
      omega

end

end AskedPicture

namespace Controller

open AskedPicture

variable {c mid next : Controller} {restart : Bool} {frames taken : List LayerFrame}
  {coded : List CodedFrame} {asked : List AskedPicture}

theorem Planned.proper (hp : c.Planned restart frames mid) (ht : mid.Took taken coded next)
    (htaken : taken <+: frames) : AskedPicture.Proper ⟨frames, coded⟩ c.targets := by
  have hcoded : coded.map (·.frame) <+: frames := ht.frames ▸ htaken
  cases hp with
  | nothing =>
    constructor <;> simp [AskedPicture.isKey]
    simpa using hcoded
  | @key make _ hp =>
    constructor
    case fits => exact fun f => hp.fits
    case short =>
      intro f hf
      obtain ⟨below, s, -, rfl⟩ := LayerFrame.mem_linked hf
      exact hp.makes.short below s
    case sorted => exact LayerFrame.sorted_linked hp.makes.spatial (c.targets.sorted_activeAt 0) none
    case coded => exact hcoded
    case linked => exact fun _ lower f upper hsplit b => hp.linked_below hsplit
    case lowest =>
      intro _ hsome
      obtain ⟨first, after, hfirst, hkey⟩ := hp.lowest_key
      obtain ⟨x, rest, rfl⟩ := List.exists_cons_of_ne_nil hsome
      rw [hfirst, List.map_cons, List.cons_prefix_cons] at hcoded
      exact ⟨x, by simp, by rw [hcoded.1, hkey]⟩
  | @delta tid own make sids _ _ hp =>
    have hdelta := hp.isKey_asked coded
    constructor
    case fits => exact fun f => hp.fits
    case short =>
      intro f hf
      obtain ⟨below, s, -, rfl⟩ := LayerFrame.mem_linked hf
      exact hp.makes.short below s
    case sorted => exact LayerFrame.sorted_linked hp.makes.spatial hp.sorted none
    case coded => exact hcoded
    case linked => simp [hdelta]
    case lowest => simp [hdelta]

/-- Along a run with all layers on, of which parts of pictures are coded. -/
theorem Run.standing {m : ScalabilityMode}
    (hrun : (ofMode m).Run (fun _ => False) (fun frames taken => taken <+: frames) c asked) :
    c.Formed ∧ c.Follows (ofMode m) ∧ c.Standing asked ∧
      ∀ p ∈ asked, p.Proper (ofMode m).targets := by
  induction hrun with
  | start =>
    have hnew := new_of_mode m
    exact ⟨formed_new hnew, ⟨rfl, rfl⟩,
      .backed (backed_new hnew) (by simp) trivial fun _ => trivial, by simp⟩
  | setRates r _ hr => exact hr.elim
  | @picture c next asked taken coded restart _ htaken hreport ih =>
    obtain ⟨hf, hkept, hst, hproper⟩ := ih
    obtain ⟨hp, ht⟩ := hf.took htaken hreport
    generalize c.next restart = planned at hp ht htaken
    obtain ⟨frames, mid⟩ := planned
    have hnow := ht.follows hp.follows
    have hwhole : c.targets.Whole := by
      rw [hkept.targets, targets_ofMode]
      intro s hs t ht
      simp_all [LayerGrid.isActive]
    refine ⟨hf.follows hnow, ⟨hnow.isFull.trans hkept.isFull, hnow.targets.trans hkept.targets⟩,
      ?_, List.forall_mem_cons.mpr ⟨hkept.targets ▸ hp.proper ht htaken, hproper⟩⟩
    cases hp with
    | nothing hnone =>
      have hany : c.targets.any = true := by
        apply hwhole.any <;> rw [hkept.targets, targets_ofMode]
        · exact m.spatial_bounds.1
        · exact m.temporal_bounds.1
      rw [hany] at hnone
      cases hnone
    | key hp => exact hst.key hf hp ht htaken
    | delta _ hp => exact hst.delta hf hwhole hp ht htaken

/-- With all layers on and any part of each picture coded from the lowest layer up, the pictures
of a controller are all grounded unless, where layers are predicted from below on key pictures only,
another picture follows a key picture of which only a part was coded. As long as they are grounded,
no reference leads the tracker to an empty buffer or to a picture that is not older, and it records
whatever is coded of a picture that it accepts. -/
theorem Run.grounded_iff {m : ScalabilityMode}
    (hrun : (ofMode m).Run (fun _ => False) (fun frames taken => taken <+: frames) c asked) :
    (AllGrounded asked ↔ (m.keyOnly = true → KeysComplete asked)) ∧
    (AllGrounded asked → ∀ newer p older, asked = newer ++ p :: older →
      ∀ t n, Fed m.prediction older t n →
        (∀ stop, t.configure p.frames (p.number n) m.prediction = .error stop →
          ¬ReferenceBuffers.Misses stop) ∧
        ∀ plan, t.configure p.frames (p.number n) m.prediction = .ok plan →
          ∀ taken, taken <+: p.frames →
            ∃ next, t.recordAll plan (p.number n) taken = .ok next) := by
  obtain ⟨hf, hkept, hst, hproper⟩ := hrun.standing
  have hg : (ofMode m).targets.spatial ≤ 3 := hkept.targets ▸ hf.spatial
  have hkind : c.isFull = !m.keyOnly :=
    hkept.isFull.trans (new_eq (new_of_mode m)).2.2.2.1
  constructor
  · cases hst with
    | backed _ _ hgrounded hcomplete =>
      exact ⟨fun _ hkey => hcomplete (by simp [hkind, hkey]), fun _ => hgrounded⟩
    | torn _ _ _ _ _ hgrounded hcomplete => exact ⟨fun _ _ => hcomplete, fun _ => hgrounded⟩
    | lost hdelta hgrounded hcomplete =>
      rw [hkind, Bool.not_eq_false'] at hdelta
      exact ⟨fun h => absurd h hgrounded, fun h => absurd (h hdelta) hcomplete⟩
  · rintro hgrounded newer p older rfl t n hfed
    have hp := hproper p (by simp)
    constructor
    · exact fun stop => hfed.not_misses hg (fun q hq => hproper q (List.mem_append_right _ hq))
        hgrounded.of_append
    · intro plan hplan taken htaken
      obtain ⟨next, hnext, -⟩ := ReferenceBuffers.recordAll_ok (p.number n)
        (fun f hf => hp.serves hg hplan (htaken.subset hf)) t
      exact ⟨next, hnext⟩

/-- A key picture that was coded as a whole, and a picture of which the upper layer was dropped. -/
theorem grounded_iff_third : ∃ (m : ScalabilityMode) (c : Controller) (asked : List AskedPicture),
    (ofMode m).Run (fun _ => False) (fun frames taken => taken <+: frames) c asked ∧
    asked.map (·.coded.length) = [1, 1, 2] ∧ m.keyOnly = true ∧
    (AllGrounded asked ↔ (m.keyOnly = true → KeysComplete asked)) ∧
    (AllGrounded asked → ∀ newer p older, asked = newer ++ p :: older →
      ∀ t n, Fed m.prediction older t n →
        (∀ stop, t.configure p.frames (p.number n) m.prediction = .error stop →
          ¬ReferenceBuffers.Misses stop) ∧
        ∀ plan, t.configure p.frames (p.number n) m.prediction = .ok plan →
          ∀ taken, taken <+: p.frames →
            ∃ next, t.recordAll plan (p.number n) taken = .ok next) := by
  let m : ScalabilityMode := { spatial := 2, temporal := 1, keyOnly := true }
  obtain ⟨c, asked, hrun, hcoded⟩ : ∃ c asked,
      (ofMode m).Run (fun _ => False) (fun frames taken => taken <+: frames) c asked ∧
      asked.map (·.coded.length) = [1, 1, 2] :=
    ⟨_, _, .picture false (.picture false (.picture false .start List.prefix_rfl rfl)
      (List.take_prefix 1 _) rfl) (List.take_prefix 1 _) rfl, rfl⟩
  exact ⟨m, c, asked, hrun, hcoded, rfl, hrun.grounded_iff⟩

/-- Of the first key picture only the lower layer is coded. The next picture predicts the upper
layer from a buffer where nothing was ever stored, and the tracker stops. -/
theorem misses_after_partial_key : ∃ (c : Controller) (p q : AskedPicture) (t : ReferenceBuffers)
    (n : Nat), (ofMode { spatial := 2, temporal := 1, keyOnly := true }).Run (fun _ => False)
      (fun frames taken => taken <+: frames) c [q, p] ∧
    ¬AllGrounded [q, p] ∧ Fed .keyPictures [p] t n ∧
    t.configure q.frames (q.number n) .keyPictures = .error (.breach (.emptyBuffer 1 1)) := by
  refine ⟨_, _, _, _, _, .picture false (.picture false .start (List.take_prefix 1 _) rfl)
    List.nil_prefix rfl, ?_, .coded .start (by simp) rfl rfl, rfl⟩
  rintro ⟨hgrounded, -⟩
  obtain ⟨x, hx, hb⟩ := hgrounded [_] _ [] rfl 1 (by decide) (by decide)
  revert x
  decide

end Controller
end LayeredRtp
