import LayeredRtp.Proofs.Pictures
import LayeredRtp.Proofs.PlannedLayers

/-! The tracker follows the pictures that were emitted. It counts them from the last key picture
and never clears a buffer, so what it says of pictures before that one means nothing. -/
namespace LayeredRtp

/-- A slot describes the frame that was stored `x.1` pictures ago, when the latest picture has
the number `n`. Its own number counts only if no key picture came after it. -/
structure FrameOrigin.Describes (s : FrameOrigin) (n : Nat) (x : Nat × EncodedFrame) : Prop where
  spatial : x.2.report.spatial = s.spatial
  temporal : x.2.report.temporal = s.temporal
  picture : x.1 ≤ n → s.picture + x.1 = n

namespace ReferenceBuffers

def Tracks (t : ReferenceBuffers) (n : Nat) (h : List Picture) : Prop :=
  ∀ b < 8, ∀ x, Picture.holder b h = some x → ∃ s, t.slot b = some s ∧ s.Describes n x

theorem Tracks.empty (t : ReferenceBuffers) (n : Nat) : t.Tracks n [] := by
  intro b _ x hx
  simp [Picture.holder] at hx

/-- A picture that begins is one more after the last key picture, or a key picture itself. -/
theorem Tracks.begin {t : ReferenceBuffers} {n p : Nat} {h : List Picture}
    (ht : t.Tracks n h) (hp : p = n + 1 ∨ p = 0) : t.Tracks p ([] :: h) := by
  intro b hb x hx
  rw [Picture.holder_begin, Option.map_eq_some_iff] at hx
  obtain ⟨y, hy, rfl⟩ := hx
  obtain ⟨s, hs, hd⟩ := ht b hb y hy
  refine ⟨s, hs, hd.spatial, hd.temporal, fun hle => ?_⟩
  have := hd.picture
  simp only at hle ⊢
  omega

theorem Tracks.record {t : ReferenceBuffers} {n : Nat} {lower : Picture} {h : List Picture}
    {f : LayerFrame} {c : BufferPlan} {g : EncodedFrame} (ht : t.Tracks n (lower :: h))
    (hf : f.spatial < 3) (hc : c.Serves f) (hs : g.report.spatial = f.spatial)
    (ht' : g.report.temporal = f.temporal) (hw : g.writes = f.updates) :
    ∃ t', t.record f c n = .ok t' ∧ t'.Tracks n ((lower ++ [g]) :: h) := by
  obtain ⟨t', hr, hslot⟩ := record_ok n hf hc (t := t)
  refine ⟨t', hr, fun b hb x hx => ?_⟩
  rw [Picture.holder_append, hw] at hx
  rw [hslot b hb]
  by_cases hu : b ∈ f.updates
  · rw [if_pos hu, Option.some.injEq] at hx
    subst hx
    exact ⟨_, if_pos hu, hs, ht', fun _ => rfl⟩
  · rw [if_neg hu] at hx ⊢
    exact ht b hb x hx

end ReferenceBuffers

namespace Picture

def Fresh (h : List Picture) (n b s t : Nat) : Prop :=
  ∃ d g, holder b h = some (d, g) ∧ d ≤ n ∧ g.report.spatial = s ∧ g.report.temporal ≤ t

theorem Fresh.begin {h : List Picture} {n b s t : Nat} (hf : Fresh h n b s t) :
    Fresh ([] :: h) (n + 1) b s t := by
  obtain ⟨d, g, hd, hle, hs, ht⟩ := hf
  exact ⟨d + 1, g, by rw [holder_begin, hd]; rfl, Nat.succ_le_succ hle, hs, ht⟩

theorem holder_of_not_stored {b : Nat} {p : Picture} (h : List Picture)
    (hp : ∀ f ∈ p, b ∉ f.writes) : holder b (p :: h) = holder b ([] :: h) := by
  have : (p.reverse.find? fun f => decide (b ∈ f.writes)) = none := by
    simpa [List.find?_eq_none] using hp
  simp [holder, this]

theorem holder_of_stored {b : Nat} {p : Picture} (h : List Picture)
    (hp : ∃ f ∈ p, b ∈ f.writes) : ∃ f ∈ p, b ∈ f.writes ∧ holder b (p :: h) = some (0, f) := by
  cases hfind : p.reverse.find? fun f => decide (b ∈ f.writes) with
  | none =>
    obtain ⟨f, hf, hb⟩ := hp
    have := List.find?_eq_none.mp hfind f (by simpa using hf)
    simp [hb] at this
  | some f =>
    have hmem := List.mem_of_find?_eq_some hfind
    have hb := List.find?_some hfind
    exact ⟨f, by simpa using hmem, by simpa using hb, by simp [holder, hfind]⟩

/-- What was stored last is fresh if it is of the right layers. -/
theorem Fresh.of_stored {p : Picture} {h : List Picture} {n b s t : Nat}
    (hp : ∃ f ∈ p, b ∈ f.writes)
    (hown : ∀ f ∈ p, b ∈ f.writes → f.report.spatial = s ∧ f.report.temporal ≤ t) :
    Fresh (p :: h) n b s t := by
  obtain ⟨f, hf, hb, hh⟩ := holder_of_stored h hp
  exact ⟨0, f, hh, Nat.zero_le n, hown f hf hb⟩

/-- A buffer stays fresh while only frames of its own layer are stored in it. -/
theorem Fresh.keep {p : Picture} {h : List Picture} {n b s t : Nat} (hf : Fresh ([] :: h) n b s t)
    (hown : ∀ f ∈ p, b ∈ f.writes → f.report.spatial = s ∧ f.report.temporal ≤ t) :
    Fresh (p :: h) n b s t := by
  by_cases hp : ∃ f ∈ p, b ∈ f.writes
  · exact .of_stored hp hown
  · simp only [not_exists, not_and] at hp
    obtain ⟨d, g, hd, hrest⟩ := hf
    exact ⟨d, g, by rw [holder_of_not_stored h hp, hd], hrest⟩

def Tidy (g : LayerGrid) (p : Picture) : Prop :=
  ∀ f ∈ p, f.report.spatial < g.spatial ∧ f.report.temporal < 3 ∧
    ∀ b ∈ f.writes, b = g.buffer f.report.spatial f.report.temporal

theorem Tidy.base {g : LayerGrid} {p : Picture} {s : Nat} (hp : Tidy g p) (hs : s < g.spatial) :
    ∀ f ∈ p, g.buffer s 0 ∈ f.writes → f.report.spatial = s ∧ f.report.temporal ≤ 0 := by
  intro f hf hb
  obtain ⟨hlt, -, hw⟩ := hp f hf
  have he := hw _ hb
  refine ⟨(g.buffer_inj hs hlt he).symm, ?_⟩
  by_cases h0 : f.report.temporal = 0
  · exact Nat.le_of_eq h0
  · simp only [LayerGrid.buffer, if_true, if_neg h0] at he
    omega

theorem Tidy.upper {g : LayerGrid} {p : Picture} {s : Nat} (hp : Tidy g p) (hs : s < g.spatial) :
    ∀ f ∈ p, g.buffer s 1 ∈ f.writes → f.report.spatial = s ∧ f.report.temporal ≤ 2 := by
  intro f hf hb
  obtain ⟨hlt, ht, hw⟩ := hp f hf
  exact ⟨(g.buffer_inj hs hlt (hw _ hb)).symm, by omega⟩

end Picture
end LayeredRtp
