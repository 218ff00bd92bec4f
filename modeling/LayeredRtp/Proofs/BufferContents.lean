import LayeredRtp.ReferenceBuffers

/-! Lemmas about the tracker: what a plan of buffers says of each frame, which pictures can be
planned, what receivers are told of a frame's sources, and what storing a frame changes. -/
namespace LayeredRtp

def EachAfter {α : Type} (P : List α → α → Prop) : List α → List α → Prop
  | _, [] => True
  | before, x :: rest => P before x ∧ EachAfter P (before ++ [x]) rest

theorem EachAfter.imp {α : Type} {P Q : List α → α → Prop} {before xs : List α}
    (hpq : ∀ before x, x ∈ xs → P before x → Q before x) (h : EachAfter P before xs) :
    EachAfter Q before xs := by
  induction xs generalizing before with
  | nil => trivial
  | cons x rest ih =>
    exact ⟨hpq before x (by simp) h.1, ih (fun b y hy => hpq b y (by simp [hy])) h.2⟩

theorem EachAfter.and {α : Type} {P Q : List α → α → Prop} {before xs : List α}
    (hp : EachAfter P before xs) (hq : EachAfter Q before xs) :
    EachAfter (fun before x => P before x ∧ Q before x) before xs := by
  induction xs generalizing before with
  | nil => trivial
  | cons x rest ih => exact ⟨⟨hp.1, hq.1⟩, ih hp.2 hq.2⟩

theorem EachAfter.split {α : Type} {P : List α → α → Prop} {before xs ys : List α} {y : α}
    (h : EachAfter P before (xs ++ y :: ys)) : P (before ++ xs) y := by
  induction xs generalizing before with
  | nil => simpa using h.1
  | cons x rest ih => simpa using ih h.2

namespace BufferPlan

structure Blank (c : BufferPlan) (sid : Nat) : Prop where
  last : c.usesLast.get sid = false
  golden : c.usesGolden.get sid = false
  alternate : c.usesAlternate.get sid = false
  updates : c.updates.get sid = []

structure Serves (c : BufferPlan) (f : LayerFrame) : Prop where
  references : ∀ b, b ∈ c.references f.spatial ↔ b ∈ f.references
  updates : c.updates.get f.spatial = f.updates

theorem blank_empty (sid : Nat) : Blank {} sid := by constructor <;> simp

theorem length_references (c : BufferPlan) (sid : Nat) : (c.references sid).length ≤ 3 := by
  unfold references
  split <;> split <;> split <;> simp

theorem serves_enter {c : BufferPlan} {f : LayerFrame} (hs : f.spatial < 3)
    (hl : f.buffers.length ≤ 3) (hb : c.Blank f.spatial) : (c.enter f).Serves f := by
  obtain ⟨h1, h2, h3, h4⟩ := hb
  obtain ⟨tag, sid, tid, isKey, buffers⟩ := f
  match buffers, hl with
  | [], _ => constructor <;> simp_all [enter, references, LayerFrame.references, LayerFrame.updates]
  | [u], _ =>
    constructor
    · intro b
      cases hu : u.referenced <;>
        simp_all [enter, references, LayerFrame.references]
    · simp_all [enter, LayerFrame.updates]
  | [u, v], _ =>
    constructor
    · intro b
      cases hu : u.referenced <;> cases hv : v.referenced <;>
        simp_all [enter, references, LayerFrame.references]
    · simp_all [enter, LayerFrame.updates]
  | [u, v, w], _ =>
    constructor
    · intro b
      cases hu : u.referenced <;> cases hv : v.referenced <;> cases hw : w.referenced <;>
        simp_all [enter, references, LayerFrame.references, or_comm]
    · simp_all [enter, LayerFrame.updates]

theorem Blank.enter {c : BufferPlan} {f : LayerFrame} {sid : Nat} (hf : f.spatial < 3)
    (hs : sid < 3) (hne : sid ≠ f.spatial) (h : c.Blank sid) : (c.enter f).Blank sid := by
  obtain ⟨h1, h2, h3, h4⟩ := h
  constructor <;> unfold BufferPlan.enter <;> split <;> split <;> split <;> simp_all

theorem references_enter {c : BufferPlan} {f : LayerFrame} {sid : Nat} (hf : f.spatial < 3)
    (hs : sid < 3) (hne : sid ≠ f.spatial) : (c.enter f).references sid = c.references sid := by
  unfold enter references
  split <;> split <;> split <;> simp_all

theorem Serves.enter {c : BufferPlan} {f g : LayerFrame} (hf : f.spatial < 3)
    (hg : g.spatial < 3) (hne : g.spatial ≠ f.spatial) (h : c.Serves g) :
    (c.enter f).Serves g := by
  constructor
  · intro b
    rw [references_enter hf hg hne]
    exact h.references b
  · have hu := h.updates
    unfold BufferPlan.enter
    split <;> split <;> split <;> simp_all

end BufferPlan

namespace ReferenceBuffers

def Passes (r : Except Stop Unit) : Prop :=
  r = .ok () ∨ ∃ n, r = .error (.refusal (.referenceTooOld n))

theorem checkAll_eq_ok {check : Nat → Except Stop Unit} {bs : List Nat} :
    checkAll check bs = .ok () ↔ ∀ b ∈ bs, check b = .ok () := by
  induction bs with
  | nil => simp [checkAll]
  | cons b rest ih => cases h : check b <;> simp [checkAll, h, ih]

theorem checkAll_passes {check : Nat → Except Stop Unit} {bs : List Nat}
    (h : ∀ b ∈ bs, Passes (check b)) : Passes (checkAll check bs) := by
  induction bs with
  | nil => exact .inl rfl
  | cons b rest ih =>
    cases h b (by simp) with
    | inl hb =>
      simp only [checkAll, hb]
      exact ih fun c hc => h c (by simp [hc])
    | inr hb =>
      obtain ⟨n, hn⟩ := hb
      exact .inr ⟨n, by simp [checkAll, hn]⟩

def Checked (t : ReferenceBuffers) (picture : Nat) (mode : LayerPrediction)
    (earlier : List LayerFrame) (f : LayerFrame) : Prop :=
  f.spatial < 3 ∧ ∀ b ∈ f.references, Passes (t.checkReference earlier f picture mode b)

theorem configureFrom_cases {t : ReferenceBuffers} {picture : Nat} {mode : LayerPrediction}
    {earlier frames : List LayerFrame} (c : BufferPlan)
    (h : EachAfter (t.Checked picture mode) earlier frames) :
    (∃ c', t.configureFrom picture mode earlier c frames = .ok c' ∧
      EachAfter (fun before f => ∀ b ∈ f.references,
        t.checkReference before f picture mode b = .ok ()) earlier frames) ∨
    ∃ n, t.configureFrom picture mode earlier c frames =
      .error (.refusal (.referenceTooOld n)) := by
  induction frames generalizing earlier c with
  | nil => exact .inl ⟨c, rfl, trivial⟩
  | cons f rest ih =>
    obtain ⟨⟨hs, hp⟩, hrest⟩ := h
    simp only [configureFrom, PerLayer.count, hs, if_true]
    cases checkAll_passes hp with
    | inl hok =>
      simp only [hok]
      cases ih (c.enter f) hrest with
      | inl hc =>
        obtain ⟨c', hc, hr⟩ := hc
        exact .inl ⟨c', hc, checkAll_eq_ok.mp hok, hr⟩
      | inr hn => exact .inr hn
    | inr hold =>
      obtain ⟨n, hn⟩ := hold
      exact .inr ⟨n, by simp only [hn]⟩

theorem configureFrom_ok {t : ReferenceBuffers} {picture : Nat} {mode : LayerPrediction}
    {earlier frames : List LayerFrame} (c : BufferPlan) (hs : ∀ f ∈ frames, f.spatial < 3)
    (h : EachAfter (fun before f => ∀ b ∈ f.references,
      t.checkReference before f picture mode b = .ok ()) earlier frames) :
    ∃ c', t.configureFrom picture mode earlier c frames = .ok c' := by
  induction frames generalizing earlier c with
  | nil => exact ⟨c, rfl⟩
  | cons f rest ih =>
    simp only [configureFrom, PerLayer.count, hs f (by simp), if_true, checkAll_eq_ok.mpr h.1]
    exact ih (c.enter f) (fun x hx => hs x (by simp [hx])) h.2

theorem configureFrom_cons_ok {t : ReferenceBuffers} {picture : Nat} {mode : LayerPrediction}
    {earlier rest : List LayerFrame} {f : LayerFrame} {c c' : BufferPlan}
    (h : t.configureFrom picture mode earlier c (f :: rest) = .ok c') :
    f.spatial < 3 ∧ t.configureFrom picture mode (earlier ++ [f]) (c.enter f) rest = .ok c' := by
  by_cases hf : f.spatial < 3
  · refine ⟨hf, ?_⟩
    simp only [configureFrom, PerLayer.count, hf, if_true] at h
    split at h
    · simp at h
    · exact h
  · simp [configureFrom, PerLayer.count, hf] at h

def Refuses (picture : Nat) (stop : Stop) : Prop :=
  (∃ b, stop = .breach b) ∨ ∃ n, stop = .refusal (.referenceTooOld n) ∧ maxDistance < picture

theorem checkAll_error {check : Nat → Except Stop Unit} {bs : List Nat} {stop : Stop}
    (h : checkAll check bs = .error stop) : ∃ b ∈ bs, check b = .error stop := by
  induction bs with
  | nil => simp [checkAll] at h
  | cons b rest ih =>
    cases hb : check b with
    | error why =>
      simp only [checkAll, hb, Except.error.injEq] at h
      exact ⟨b, by simp, h ▸ hb⟩
    | ok _ =>
      simp only [checkAll, hb] at h
      obtain ⟨c, hc, hstop⟩ := ih h
      exact ⟨c, by simp [hc], hstop⟩

theorem checkReference_error {t : ReferenceBuffers} {earlier : List LayerFrame} {f : LayerFrame}
    {picture : Nat} {mode : LayerPrediction} {b : Nat} {stop : Stop}
    (h : t.checkReference earlier f picture mode b = .error stop) : Refuses picture stop := by
  unfold checkReference at h
  split at h
  · split at h
    · exact .inl ⟨_, (Except.error.inj h).symm⟩
    · split at h
      · exact .inl ⟨_, (Except.error.inj h).symm⟩
      · cases h
  · split at h
    · exact .inl ⟨_, (Except.error.inj h).symm⟩
    · split at h
      · exact .inl ⟨_, (Except.error.inj h).symm⟩
      · split at h
        · exact .inl ⟨_, (Except.error.inj h).symm⟩
        · split at h
          · exact .inr ⟨_, (Except.error.inj h).symm, by omega⟩
          · cases h

/-- A picture is refused for one of its references, or for a layer that there cannot be. -/
theorem configureFrom_culprit {t : ReferenceBuffers} {picture : Nat} {mode : LayerPrediction}
    {earlier frames : List LayerFrame} {c : BufferPlan} {stop : Stop}
    (h : t.configureFrom picture mode earlier c frames = .error stop) :
    (∃ s, stop = .breach (.spatialId s)) ∨
      ∃ lower f upper, frames = lower ++ f :: upper ∧ ∃ b ∈ f.references,
        t.checkReference (earlier ++ lower) f picture mode b = .error stop := by
  induction frames generalizing earlier c with
  | nil => simp [configureFrom] at h
  | cons f rest ih =>
    by_cases hf : f.spatial < 3
    · simp only [configureFrom, PerLayer.count, hf, if_true] at h
      split at h
      · rename_i why hall
        obtain ⟨b, hb, hcheck⟩ := checkAll_error hall
        exact .inr ⟨[], f, rest, rfl, b, hb, by simpa using Except.error.inj h ▸ hcheck⟩
      · rcases ih h with hs | ⟨lower, g, upper, rfl, b, hb, hcheck⟩
        · exact .inl hs
        · exact .inr ⟨f :: lower, g, upper, rfl, b, hb, by simpa using hcheck⟩
    · simp only [configureFrom, PerLayer.count, hf, if_false, Except.error.injEq] at h
      exact .inl ⟨_, h.symm⟩

theorem configureFrom_error {t : ReferenceBuffers} {picture : Nat} {mode : LayerPrediction}
    {earlier frames : List LayerFrame} {c : BufferPlan} {stop : Stop}
    (h : t.configureFrom picture mode earlier c frames = .error stop) : Refuses picture stop := by
  rcases configureFrom_culprit h with ⟨s, rfl⟩ | ⟨lower, f, upper, -, b, -, hcheck⟩
  · exact .inl ⟨_, rfl⟩
  · exact checkReference_error hcheck

/-- A picture is accepted only with all its references. -/
theorem configureFrom_checked {t : ReferenceBuffers} {picture : Nat} {mode : LayerPrediction}
    {earlier frames : List LayerFrame} {c c' : BufferPlan}
    (h : t.configureFrom picture mode earlier c frames = .ok c') :
    EachAfter (fun before f => ∀ b ∈ f.references,
      t.checkReference before f picture mode b = .ok ()) earlier frames := by
  induction frames generalizing earlier c with
  | nil => trivial
  | cons f rest ih =>
    obtain ⟨hf, hrest⟩ := configureFrom_cons_ok h
    refine ⟨checkAll_eq_ok.mp ?_, ih hrest⟩
    simp only [configureFrom, PerLayer.count, hf, if_true] at h
    split at h
    · cases h
    · assumption

theorem configureFrom_keeps {t : ReferenceBuffers} {picture : Nat} {mode : LayerPrediction}
    {earlier frames : List LayerFrame} {c c' : BufferPlan} {g : LayerFrame}
    (h : t.configureFrom picture mode earlier c frames = .ok c')
    (hg : g.spatial < 3) (hc : c.Serves g) (hne : ∀ f ∈ frames, g.spatial ≠ f.spatial) :
    c'.Serves g := by
  induction frames generalizing earlier c with
  | nil =>
    simp only [configureFrom, Except.ok.injEq] at h
    exact h ▸ hc
  | cons f rest ih =>
    obtain ⟨hf, h⟩ := configureFrom_cons_ok h
    exact ih h (hc.enter hf hg (hne f (by simp))) fun x hx => hne x (by simp [hx])

/-- A plan serves every frame it was made for. -/
theorem configureFrom_serves {t : ReferenceBuffers} {picture : Nat} {mode : LayerPrediction}
    {earlier frames : List LayerFrame} {c c' : BufferPlan}
    (h : t.configureFrom picture mode earlier c frames = .ok c')
    (hsort : frames.Pairwise fun f g => f.spatial < g.spatial)
    (hframe : ∀ f ∈ frames, f.spatial < 3 ∧ f.buffers.length ≤ 3)
    (hblank : ∀ f ∈ frames, c.Blank f.spatial) : ∀ f ∈ frames, c'.Serves f := by
  induction frames generalizing earlier c with
  | nil => simp
  | cons f rest ih =>
    have hf := hframe f (by simp)
    obtain ⟨hlt, hsort⟩ := List.pairwise_cons.mp hsort
    have h := (configureFrom_cons_ok h).2
    intro g hg
    cases List.mem_cons.mp hg with
    | inl he =>
      subst he
      exact configureFrom_keeps h hf.1 (BufferPlan.serves_enter hf.1 hf.2 (hblank g (by simp)))
        fun x hx => Nat.ne_of_lt (hlt x hx)
    | inr hg =>
      refine ih h hsort (fun x hx => hframe x (by simp [hx])) (fun x hx => ?_) g hg
      exact (hblank x (by simp [hx])).enter hf.1 (hframe x (by simp [hx])).1
        (Nat.ne_of_gt (hlt x hx))

theorem heldFrames_ok {t : ReferenceBuffers} (sid : Nat) (seen : List (Nat × FrameOrigin))
    {bs : List Nat} (h : ∀ b ∈ bs, ∃ s, t.slot b = some s) :
    ∃ held, t.heldFrames sid seen bs = .ok held ∧ held.length ≤ seen.length + bs.length ∧
      ∀ s, s ∈ held.map (·.2) ↔ s ∈ seen.map (·.2) ∨ ∃ b ∈ bs, t.slot b = some s := by
  induction bs generalizing seen with
  | nil => exact ⟨seen, rfl, by simp, by simp⟩
  | cons b rest ih =>
    obtain ⟨s, hs⟩ := h b (by simp)
    have hrest : ∀ c ∈ rest, ∃ s, t.slot c = some s := fun c hc => h c (by simp [hc])
    by_cases hseen : seen.any fun x => x.2 == s
    · obtain ⟨held, he, hl, hm⟩ := ih seen hrest
      have hin : s ∈ seen.map (·.2) := by simpa [List.any_eq_true] using hseen
      refine ⟨held, by simp only [heldFrames, hs, hseen, if_true, he], ?_, fun x => ?_⟩
      · simp only [List.length_cons]
        omega
      · rw [hm x]
        simp only [List.mem_cons, exists_eq_or_imp, hs, Option.some.injEq]
        constructor
        · exact fun hx => hx.imp id .inr
        · rintro (hx | rfl | hx)
          · exact .inl hx
          · exact .inl hin
          · exact .inr hx
    · obtain ⟨held, he, hl, hm⟩ := ih (seen ++ [(b, s)]) hrest
      refine ⟨held, by simp only [heldFrames, hs, hseen]; exact he, ?_, fun x => ?_⟩
      · simp only [List.length_append, List.length_cons, List.length_nil] at hl ⊢
        omega
      · rw [hm x]
        simp [hs, or_assoc, eq_comm]

structure Tellable (f : LayerFrame) (picture : Nat) (fromBelow : Bool) (mode : LayerPrediction)
    (s : FrameOrigin) : Prop where
  notNewer : s.picture ≤ picture
  below : s.picture = picture → fromBelow = true ∧ s.spatial + 1 = f.spatial
  older : s.picture < picture → checkOlder s f mode = .ok () ∧ picture - s.picture ≤ maxDistance

theorem distancesFrom_ok {f : LayerFrame} {picture : Nat} {fromBelow : Bool}
    {mode : LayerPrediction} (seen : List Nat) {origins : List FrameOrigin}
    (h : ∀ s ∈ origins, Tellable f picture fromBelow mode s) :
    ∃ ds, distancesFrom f picture fromBelow mode seen origins = .ok ds ∧
      ds.length ≤ origins.length ∧ ds.Nodup ∧
      ∀ d, d ∈ ds ↔ ∃ s ∈ origins, s.picture < picture ∧ s.picture ∉ seen ∧
        d = picture - s.picture := by
  induction origins generalizing seen with
  | nil => exact ⟨[], rfl, by simp, by simp, by simp⟩
  | cons s rest ih =>
    obtain ⟨hle, hbelow, holder⟩ := h s (by simp)
    have hrest : ∀ x ∈ rest, Tellable f picture fromBelow mode x := fun x hx => h x (by simp [hx])
    have hnot : ¬picture < s.picture := Nat.not_lt.mpr hle
    by_cases heq : s.picture = picture
    · obtain ⟨rfl, hsid⟩ := hbelow heq
      obtain ⟨ds, hd, hl, hn, hm⟩ := ih seen hrest
      refine ⟨ds, by simp [distancesFrom, heq, hsid, hd], Nat.le_succ_of_le hl, hn, fun d => ?_⟩
      simp [hm d, heq]
    · have hlt : s.picture < picture := Nat.lt_of_le_of_ne hle heq
      obtain ⟨hcheck, hfar⟩ := holder hlt
      by_cases hseen : s.picture ∈ seen
      · obtain ⟨ds, hd, hl, hn, hm⟩ := ih seen hrest
        refine ⟨ds, by simp [distancesFrom, hnot, heq, hcheck, hseen, hd], Nat.le_succ_of_le hl,
          hn, fun d => ?_⟩
        simp [hm d, hseen]
      · obtain ⟨ds, hd, hl, hn, hm⟩ := ih (s.picture :: seen) hrest
        refine ⟨(picture - s.picture) :: ds, ?_, Nat.succ_le_succ hl, ?_, fun d => ?_⟩
        · simp [distancesFrom, hnot, heq, hcheck, hseen, hd, Nat.not_lt.mpr hfar]
        · refine List.nodup_cons.mpr ⟨fun hmem => ?_, hn⟩
          obtain ⟨x, _, hx, hxs, hxd⟩ := (hm _).mp hmem
          simp only [List.mem_cons, not_or] at hxs
          omega
        · -- A later source in the same picture has its distance told already.
          rw [List.mem_cons, hm d]
          simp only [List.mem_cons, exists_eq_or_imp, not_or]
          constructor
          · rintro (hd | ⟨x, hx, hxlt, hxs, hxd⟩)
            · exact .inl ⟨hlt, hseen, hd⟩
            · exact .inr ⟨x, hx, hxlt, hxs.2, hxd⟩
          · rintro (⟨_, _, hd⟩ | ⟨x, hx, hxlt, hxs, hxd⟩)
            · exact .inl hd
            · by_cases hsame : x.picture = s.picture
              · exact .inl (by rw [hxd, hsame])
              · exact .inr ⟨x, hx, hxlt, ⟨hsame, hxs⟩, hxd⟩

/-- What receivers are told of a frame whose sources are all in the buffers. -/
theorem info_ok {t : ReferenceBuffers} {f : LayerFrame} {c : BufferPlan} {picture : Nat}
    {fromBelow : Bool} {mode : LayerPrediction} (hs : f.spatial < 3) (hc : c.Serves f)
    (h : ∀ b ∈ f.references, ∃ s, t.slot b = some s ∧ Tellable f picture fromBelow mode s) :
    ∃ i, t.info f c picture fromBelow mode = .ok i ∧ i.distances.length ≤ 3 ∧
      i.distances.Nodup ∧
      ∀ d, d ∈ i.distances ↔ ∃ b ∈ f.references, ∃ s, t.slot b = some s ∧
        s.picture < picture ∧ d = picture - s.picture := by
  have hslot : ∀ b ∈ c.references f.spatial, ∃ s, t.slot b = some s := fun b hb =>
    (h b ((hc.references b).mp hb)).imp fun _ hs => hs.1
  obtain ⟨held, hh, hl, hm⟩ := heldFrames_ok f.spatial [] hslot
  have htell : ∀ s ∈ held.map (·.2), Tellable f picture fromBelow mode s := by
    intro s hin
    obtain ⟨b, hb, hbs⟩ := ((hm s).mp hin).resolve_left (by simp)
    obtain ⟨s', hs', ht⟩ := h b ((hc.references b).mp hb)
    rw [hbs, Option.some.injEq] at hs'
    exact hs' ▸ ht
  obtain ⟨ds, hd, hdl, hdn, hdm⟩ := distancesFrom_ok [] htell
  have hinfo : t.info f c picture fromBelow mode =
      .ok ⟨ds, BufferPlan.bitmap (held.map (·.1))⟩ := by
    simp only [info, PerLayer.count, hs, if_true, hh, bind, Except.bind, hd, pure, Except.pure]
  refine ⟨_, hinfo, ?_, hdn, fun d => ?_⟩
  · have := c.length_references f.spatial
    simp only [List.length_map, List.length_nil] at hdl hl
    exact Nat.le_trans hdl (by omega)
  · rw [hdm d]
    constructor
    · rintro ⟨s, hin, hlt, -, hd⟩
      obtain ⟨b, hb, hbs⟩ := ((hm s).mp hin).resolve_left (by simp)
      exact ⟨b, (hc.references b).mp hb, s, hbs, hlt, hd⟩
    · rintro ⟨b, hb, s, hbs, hlt, hd⟩
      exact ⟨s, (hm s).mpr (.inr ⟨b, (hc.references b).mpr hb, hbs⟩), hlt, by simp, hd⟩

/-- A frame is stored in the buffers entered for it, and the others keep what they hold. -/
theorem record_ok {t : ReferenceBuffers} {f : LayerFrame} {c : BufferPlan} (picture : Nat)
    (hs : f.spatial < 3) (hc : c.Serves f) :
    ∃ t', t.record f c picture = .ok t' ∧ ∀ b < 8, t'.slot b =
      if b ∈ f.updates then some ⟨picture, f.spatial, f.temporal⟩ else t.slot b := by
  refine ⟨_, if_pos hs, fun b hb => ?_⟩
  simp only [slot, BufferUse.bufferCount, hc.updates, List.getElem?_map, List.getElem?_range hb]
  split <;> simp_all

end ReferenceBuffers
end LayeredRtp
