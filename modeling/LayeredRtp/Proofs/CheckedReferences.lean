import LayeredRtp.Proofs.BufferContents
import Mathlib.Data.List.Forall2
import Mathlib.Data.List.Induction

/-! Pictures that the tracker has accepted. Nothing is found wrong when receivers are told of the
frames one by one, although the lower layers have been stored by then, and the distances they are
told are those from before the picture. -/
namespace LayeredRtp

inductive LayerFrame.Built : LayerFrame → Prop
  | bare {f : LayerFrame} (unused : f.buffers = []) : Built f
  | used {f g : LayerFrame} {u : BufferUse} (built : Built f) (added : f.withUse u = .ok g) :
      Built g

theorem LayerFrame.Built.limits {f : LayerFrame} (h : f.Built) :
    f.buffers.length ≤ 3 ∧ ∀ u ∈ f.buffers, u.buffer < 8 := by
  induction h with
  | bare unused => simp [unused]
  | @used f g u built added ih =>
    obtain ⟨hlength, hbuffers⟩ := ih
    unfold withUse at added
    split at added
    · rename_i hbuffer
      split at added
      · rename_i hroom
        cases added
        refine ⟨?_, fun v hv => ?_⟩
        · simpa [BufferUse.maxPerFrame] using Nat.succ_le_of_lt hroom
        · rcases List.mem_append.mp hv with hv | hv
          · exact hbuffers v hv
          · exact List.mem_singleton.mp hv ▸ hbuffer
      · cases added
    · cases added

/-- Three uses at most, of eight buffers, and every such frame can be built. -/
theorem LayerFrame.built_iff {f : LayerFrame} :
    f.Built ↔ f.buffers.length ≤ 3 ∧ ∀ u ∈ f.buffers, u.buffer < 8 := by
  refine ⟨Built.limits, ?_⟩
  generalize hbuffers : f.buffers = buffers
  induction buffers using List.reverseRecOn generalizing f with
  | nil => exact fun _ => .bare hbuffers
  | append_singleton front u ih =>
    rintro ⟨hlength, hlt⟩
    simp only [List.length_append, List.length_singleton] at hlength
    have hfront : Built { f with buffers := front } :=
      ih rfl ⟨Nat.le_of_succ_le hlength, fun v hv => hlt v (by simp [hv])⟩
    have hadded :
        { f with buffers := front }.withUse u = .ok { f with buffers := front ++ [u] } := by
      have hu : u.buffer < BufferUse.bufferCount := hlt u (by simp)
      have hroom : front.length < BufferUse.maxPerFrame := hlength
      simp only [withUse, hu, hroom, if_true]
    rw [← hbuffers] at hadded
    exact .used hfront hadded

theorem LayerFrame.Built.reference_lt {f : LayerFrame} (h : f.Built) {b : Nat}
    (hb : b ∈ f.references) : b < 8 := by
  obtain ⟨u, hu, rfl⟩ := List.mem_map.mp hb
  exact h.limits.2 u (List.mem_filter.mp hu).1

/-- What receivers are told of a frame: once each, the distances to the older pictures in the
buffers that the frame refers to and that no lower layer of its picture was stored in. -/
structure ReferenceSummary.Exact (i : ReferenceSummary) (t : ReferenceBuffers)
    (frames : List LayerFrame) (picture : Nat) (f : LayerFrame) : Prop where
  few : i.distances.length ≤ 3
  distinct : i.distances.Nodup
  range : ∀ d ∈ i.distances, 1 ≤ d ∧ d ≤ 127
  told : ∀ d, d ∈ i.distances ↔ ∃ b ∈ f.references,
    (∀ l ∈ frames, l.spatial < f.spatial → b ∉ l.updates) ∧
      ∃ s, t.slot b = some s ∧ s.picture + d = picture

namespace ReferenceBuffers

def infoAll (t : ReferenceBuffers) (c : BufferPlan) (picture : Nat) (mode : LayerPrediction) :
    List LayerFrame → Except Breach (List ReferenceSummary)
  | [] => .ok []
  | f :: rest => do
    let told ← t.info f c picture true mode
    let t ← t.record f c picture
    return told :: (← t.infoAll c picture mode rest)

structure Holds (t u : ReferenceBuffers) (picture : Nat) (lower : List LayerFrame) : Prop where
  kept : ∀ b < 8, (∀ l ∈ lower, b ∉ l.updates) → u.slot b = t.slot b
  stored : ∀ b < 8, ∀ x ∈ lower, b ∈ x.updates →
    ∃ l ∈ lower, x.spatial ≤ l.spatial ∧ u.slot b = some ⟨picture, l.spatial, l.temporal⟩

variable {t u : ReferenceBuffers} {c : BufferPlan} {picture : Nat} {mode : LayerPrediction}
  {lower rest : List LayerFrame} {f : LayerFrame} {b : Nat}

theorem Holds.nil (t : ReferenceBuffers) (picture : Nat) : Holds t t picture [] :=
  ⟨fun _ _ _ => rfl, by simp⟩

/-- One more layer is stored, above all those before it. -/
theorem Holds.record (h : Holds t u picture lower) (hf : f.spatial < 3) (hc : c.Serves f)
    (above : ∀ l ∈ lower, l.spatial < f.spatial) :
    ∃ next, u.record f c picture = .ok next ∧ Holds t next picture (lower ++ [f]) := by
  obtain ⟨next, hrecord, hslot⟩ := record_ok picture hf hc (t := u)
  refine ⟨next, hrecord, fun b hb hnone => ?_, fun b hb x hx hu => ?_⟩
  · have hnew : b ∉ f.updates := hnone f (by simp)
    rw [hslot b hb, if_neg hnew]
    exact h.kept b hb fun l hl => hnone l (by simp [hl])
  · rw [hslot b hb]
    by_cases hnew : b ∈ f.updates
    · refine ⟨f, by simp, ?_, if_pos hnew⟩
      rcases List.mem_append.mp hx with hx | hx
      · exact Nat.le_of_lt (above x hx)
      · exact List.mem_singleton.mp hx ▸ Nat.le_refl _
    · have hold : x ∈ lower := by
        refine (List.mem_append.mp hx).resolve_right fun hx => hnew ?_
        exact List.mem_singleton.mp hx ▸ hu
      obtain ⟨l, hl, hle, hheld⟩ := h.stored b hb x hold hu
      exact ⟨l, by simp [hl], hle, by rw [if_neg hnew, hheld]⟩

/-- A reference that was accepted: to the layer below, or to something older that is in the buffer
already. -/
theorem checkReference_ok (h : t.checkReference lower f picture mode b = .ok ()) :
    (∃ l ∈ lower, b ∈ l.updates ∧ l.spatial + 1 = f.spatial) ∨
    (∀ l ∈ lower, b ∉ l.updates) ∧ ∃ s, t.slot b = some s ∧ s.picture < picture ∧
      checkOlder s f mode = .ok () ∧ picture - s.picture ≤ maxDistance := by
  unfold checkReference at h
  split at h
  · rename_i l hfind
    refine .inl ⟨l, List.mem_of_find?_eq_some hfind, by simpa using List.find?_some hfind, ?_⟩
    split at h
    · cases h
    · split at h
      · cases h
      · rename_i hbelow
        exact Decidable.not_not.mp hbelow
  · rename_i hnone
    refine .inr ⟨by simpa [List.find?_eq_none] using hnone, ?_⟩
    split at h
    · cases h
    · rename_i s hs
      split at h
      · cases h
      · rename_i holder
        split at h
        · cases h
        · rename_i hcheck
          split at h
          · cases h
          · rename_i hnear
            exact ⟨s, hs, Nat.lt_of_not_le holder, hcheck, Nat.le_of_not_lt hnear⟩

/-- Once the lower layers are stored, receivers can be told of a reference that was accepted. It
gives a distance exactly if it is to something from before the picture. -/
theorem Holds.tellable (h : Holds t u picture lower) (hb : b < 8)
    (above : ∀ l ∈ lower, l.spatial < f.spatial)
    (accepted : t.checkReference lower f picture mode b = .ok ()) :
    ∃ s, u.slot b = some s ∧ Tellable f picture true mode s ∧
      (s.picture < picture ↔ ∀ l ∈ lower, b ∉ l.updates) := by
  obtain ⟨x, hx, hu, hbelow⟩ | ⟨hnone, s, hs, hlt, hcheck, hnear⟩ := checkReference_ok accepted
  · obtain ⟨l, hl, hle, hheld⟩ := h.stored b hb x hx hu
    have hlt := above l hl
    refine ⟨_, hheld, ⟨Nat.le_refl _, fun _ => ⟨rfl, ?_⟩, fun hlt => ?_⟩, fun hlt => ?_, ?_⟩
    · simp only
      omega
    · exact absurd hlt (Nat.lt_irrefl _)
    · exact absurd hlt (Nat.lt_irrefl _)
    · exact fun hnone => absurd hu (hnone x hx)
  · refine ⟨s, by rw [h.kept b hb hnone, hs], ⟨Nat.le_of_lt hlt, fun heq => ?_, fun _ => ?_⟩, ?_⟩
    · exact absurd heq (Nat.ne_of_lt hlt)
    · exact ⟨hcheck, hnear⟩
    · exact ⟨fun _ => hnone, fun _ => hlt⟩

/-- The layers below a frame are those before it. -/
theorem untouched_below_iff (above : ∀ l ∈ lower, l.spatial < f.spatial)
    (ahead : ∀ l ∈ rest, f.spatial < l.spatial) :
    (∀ l ∈ lower ++ f :: rest, l.spatial < f.spatial → b ∉ l.updates) ↔
      ∀ l ∈ lower, b ∉ l.updates := by
  constructor
  · exact fun hall l hl => hall l (by simp [hl]) (above l hl)
  · intro hall l hl hlt
    rcases List.mem_append.mp hl with hl | hl
    · exact hall l hl
    · rcases List.mem_cons.mp hl with rfl | hl
      · exact absurd hlt (Nat.lt_irrefl _)
      · exact absurd hlt (Nat.lt_asymm (ahead l hl))

/-- The frame whose turn it is. -/
theorem Holds.info_exact (h : Holds t u picture lower) (built : f.Built) (hf : f.spatial < 3)
    (hc : c.Serves f) (above : ∀ l ∈ lower, l.spatial < f.spatial)
    (ahead : ∀ l ∈ rest, f.spatial < l.spatial)
    (accepted : ∀ b ∈ f.references, t.checkReference lower f picture mode b = .ok ()) :
    ∃ i, u.info f c picture true mode = .ok i ∧ i.Exact t (lower ++ f :: rest) picture f := by
  have htell (b : Nat) (hb : b ∈ f.references) :=
    h.tellable (built.reference_lt hb) above (accepted b hb)
  have hheld {b : Nat} {s : FrameOrigin} (hb : b ∈ f.references) (hs : u.slot b = some s) :
      Tellable f picture true mode s ∧ (s.picture < picture ↔ ∀ l ∈ lower, b ∉ l.updates) := by
    obtain ⟨s', hs', htold⟩ := htell b hb
    exact Option.some.inj (hs'.symm.trans hs) ▸ htold
  obtain ⟨i, hinfo, hfew, hdistinct, hmem⟩ := info_ok hf hc fun b hb => by
    obtain ⟨s, hs, htellable, -⟩ := htell b hb
    exact ⟨s, hs, htellable⟩
  refine ⟨i, hinfo, hfew, hdistinct, fun d hd => ?_, fun d => ?_⟩
  · obtain ⟨b, hb, s, hs, hlt, rfl⟩ := (hmem d).mp hd
    have hnear := ((hheld hb hs).1.older hlt).2
    simp only [maxDistance] at hnear
    omega
  · rw [hmem d]
    simp only [untouched_below_iff above ahead]
    constructor
    · rintro ⟨b, hb, s, hs, hlt, rfl⟩
      have hnone := (hheld hb hs).2.mp hlt
      exact ⟨b, hb, hnone, s, by rw [← hs, h.kept b (built.reference_lt hb) hnone], by omega⟩
    · rintro ⟨b, hb, hnone, s, hs, hsum⟩
      rw [← h.kept b (built.reference_lt hb) hnone] at hs
      exact ⟨b, hb, s, hs, (hheld hb hs).2.mpr hnone, by omega⟩

/-- The frames that are left, when those before them are stored. -/
theorem Holds.infoAll_exact (h : Holds t u picture lower)
    (built : ∀ f ∈ rest, f.Built) (serves : ∀ f ∈ rest, f.spatial < 3 ∧ c.Serves f)
    (ascending : (lower ++ rest).Pairwise fun f g => f.spatial < g.spatial)
    (accepted : EachAfter (fun before f => ∀ b ∈ f.references,
      t.checkReference before f picture mode b = .ok ()) lower rest) :
    ∃ told, u.infoAll c picture mode rest = .ok told ∧
      List.Forall₂ (fun f i => i.Exact t (lower ++ rest) picture f) rest told := by
  induction rest generalizing lower u with
  | nil => exact ⟨[], rfl, .nil⟩
  | cons f rest ih =>
    obtain ⟨hf, hc⟩ := serves f (by simp)
    obtain ⟨hhere, haccepted⟩ := accepted
    obtain ⟨-, hrest, habove⟩ := List.pairwise_append.mp ascending
    have above : ∀ l ∈ lower, l.spatial < f.spatial := fun l hl => habove l hl f (by simp)
    obtain ⟨i, hinfo, hexact⟩ := h.info_exact (built f (by simp)) hf hc above
      (List.pairwise_cons.mp hrest).1 hhere
    obtain ⟨next, hrecord, hholds⟩ := h.record hf hc above
    have hsplit : lower ++ f :: rest = (lower ++ [f]) ++ rest := by simp
    rw [hsplit] at ascending hexact ⊢
    obtain ⟨told, htold, hall⟩ := ih hholds (fun g hg => built g (by simp [hg]))
      (fun g hg => serves g (by simp [hg])) ascending haccepted
    refine ⟨i :: told, ?_, .cons hexact hall⟩
    simp only [infoAll, hinfo, hrecord, htold, bind, Except.bind, pure, Except.pure]

theorem configureFrom_spatial {earlier frames : List LayerFrame} {c c' : BufferPlan}
    (h : t.configureFrom picture mode earlier c frames = .ok c') :
    ∀ f ∈ frames, f.spatial < 3 := by
  induction frames generalizing earlier c with
  | nil => simp
  | cons f rest ih =>
    obtain ⟨hf, hrest⟩ := configureFrom_cons_ok h
    exact List.forall_mem_cons.mpr ⟨hf, ih hrest⟩

/-- Once a picture is accepted, its frames can be told of and stored one after another without
anything found wrong. What is told of each are the distances, from 1 to 127 and at most three, to
what was in its buffers before the picture. -/
theorem accepted_told {frames : List LayerFrame} (built : ∀ f ∈ frames, f.Built)
    (ascending : frames.Pairwise fun f g => f.spatial < g.spatial)
    (accepted : t.configure frames picture mode = .ok c) :
    ∃ told, t.infoAll c picture mode frames = .ok told ∧
      List.Forall₂ (fun f i => i.Exact t frames picture f) frames told := by
  have hspatial := configureFrom_spatial accepted
  have hserves := configureFrom_serves accepted ascending
    (fun f hf => ⟨hspatial f hf, (built f hf).limits.1⟩) fun f _ => BufferPlan.blank_empty f.spatial
  exact (Holds.nil t picture).infoAll_exact built (fun f hf => ⟨hspatial f hf, hserves f hf⟩)
    ascending (configureFrom_checked accepted)

/-- Two buffers with one frame give one distance, and a buffer that the layer below was stored in
gives none, whatever it held before. -/
theorem accepted_told_three : ∃ (t : ReferenceBuffers) (frames : List LayerFrame)
    (c : BufferPlan) (told : List ReferenceSummary), (∀ f ∈ frames, f.Built) ∧
      (frames.Pairwise fun f g => f.spatial < g.spatial) ∧ t.configure frames 6 .on = .ok c ∧
      t.infoAll c 6 .on frames = .ok told ∧ told.map (·.distances) = [[3], [5], [4]] ∧
      List.Forall₂ (fun f i => i.Exact t frames 6 f) frames told := by
  let t : ReferenceBuffers :=
    ⟨[some ⟨3, 0, 0⟩, some ⟨1, 1, 0⟩, some ⟨1, 1, 0⟩, some ⟨2, 0, 0⟩, none, none, none, none]⟩
  let frames : List LayerFrame := [
    { spatial := 0, buffers := [.readsAndWrites 0] },
    { spatial := 1, buffers := [.reads 1, .reads 0, .readsAndWrites 2] },
    { spatial := 2, buffers := [.reads 2, .reads 3, .writes 4] }]
  have hbuilt : ∀ f ∈ frames, f.Built := fun f hf => LayerFrame.built_iff.mpr (by
    revert f
    decide)
  have hascending : frames.Pairwise fun f g => f.spatial < g.spatial := by decide
  obtain ⟨c, haccepted⟩ : ∃ c, t.configure frames 6 .on = .ok c := ⟨_, rfl⟩
  obtain ⟨told, htold, hexact⟩ := accepted_told hbuilt hascending haccepted
  refine ⟨t, frames, c, told, hbuilt, hascending, haccepted, htold, ?_, hexact⟩
  cases haccepted
  cases htold
  rfl

end ReferenceBuffers
end LayeredRtp
