import LayeredRtp.Proofs.EmittedPictures

/-! Counting pictures anew. An encoder that starts to count again in the middle of a stream is as
sound as one that has just emitted a key picture, if all that it will use was stored by the last
key picture. Made-up frames then stand for what the buffers hold. -/
namespace LayeredRtp

namespace ReferenceBuffers

def standIn (t : ReferenceBuffers) (id b : Nat) : EncodedFrame :=
  let origin := (t.slot b).getD ⟨0, 0, 0⟩
  { timestamp := 0
    isKey := false
    descriptor := { pictureId := id }
    report :=
      { spatial := origin.spatial
        temporal := origin.temporal
        buffers := if (t.slot b).any (·.picture == 0) then [.writes b] else []
        inChain := []
        targets := 0 }
    data := [] }

def standIns (t : ReferenceBuffers) (id : Nat) : Picture :=
  (List.range BufferUse.bufferCount).map (t.standIn id)

variable {t : ReferenceBuffers} {id b : Nat}

theorem mem_writes_standIn {c : Nat} : c ∈ (t.standIn id b).writes ↔
    c = b ∧ ∃ o, t.slot b = some o ∧ o.picture = 0 := by
  cases hslot : t.slot b with
  | none => simp [standIn, EncodedFrame.writes, hslot]
  | some o =>
    by_cases h0 : o.picture = 0 <;>
      simp [standIn, EncodedFrame.writes, BufferUse.writes, hslot, h0]

theorem mem_standIns {g : EncodedFrame} :
    g ∈ t.standIns id ↔ ∃ b < 8, t.standIn id b = g := by
  simp [standIns, BufferUse.bufferCount]

/-- The stand-ins are stored where the buffers hold a frame of the last key picture. -/
theorem holder_standIns {x : Nat × EncodedFrame} (hb : b < 8) :
    Picture.holder b [t.standIns id] = some x ↔
      x = (0, t.standIn id b) ∧ ∃ o, t.slot b = some o ∧ o.picture = 0 := by
  by_cases hstored : ∃ f ∈ t.standIns id, b ∈ f.writes
  · obtain ⟨f, hf, hbf, hholder⟩ := Picture.holder_of_stored [] hstored
    obtain ⟨c, -, rfl⟩ := mem_standIns.mp hf
    obtain ⟨rfl, ho⟩ := mem_writes_standIn.mp hbf
    rw [hholder, Option.some.injEq]
    exact ⟨fun hx => ⟨hx.symm, ho⟩, fun hx => hx.1.symm⟩
  · have hnone : Picture.holder b [t.standIns id] = none := by
      rw [Picture.holder_of_not_stored [] (by simpa using hstored)]
      rfl
    rw [hnone]
    constructor
    · simp
    · rintro ⟨-, ho⟩
      exact absurd ⟨_, mem_standIns.mpr ⟨b, hb, rfl⟩, mem_writes_standIn.mpr ⟨rfl, ho⟩⟩ hstored

theorem tracks_standIns (t : ReferenceBuffers) (id : Nat) : t.Tracks 0 [t.standIns id] := by
  intro b hb x hx
  obtain ⟨rfl, o, ho, h0⟩ := (holder_standIns hb).mp hx
  exact ⟨o, ho, by simp [standIn, ho], by simp [standIn, ho], fun _ => h0⟩

/-- What a buffer was known to hold is known of its stand-in too. -/
theorem Tracks.fresh_standIns {h : List Picture} {n s tid : Nat} (ht : t.Tracks n h) (hb : b < 8)
    (hf : Picture.Fresh h n b s tid) (hzero : ∀ o, t.slot b = some o → o.picture = 0) :
    Picture.Fresh [t.standIns id] 0 b s tid := by
  obtain ⟨d, g, hd, -, hs, htid⟩ := hf
  obtain ⟨o, ho, hspatial, htemporal, -⟩ := ht b hb _ hd
  refine ⟨0, t.standIn id b, (holder_standIns hb).mpr ⟨rfl, o, ho, hzero o ho⟩, Nat.le_refl 0,
    ?_, ?_⟩
  · rw [← hs, hspatial]
    simp [standIn, ho]
  · rw [htemporal] at htid
    simpa [standIn, ho] using htid

end ReferenceBuffers

namespace Encoder

variable {e : Encoder} {h : List Picture}

/-- The id of the latest picture, once there is one. -/
theorem Sound.current_id (hs : e.Sound h) (hk : e.keyForced = false) :
    ∃ cur, e.pictureId = some cur ∧ cur < pictureIds := by
  obtain ⟨q, older, rfl⟩ := List.exists_cons_of_ne_nil (hs.opened hk)
  obtain ⟨-, cur, hcur, -⟩ := hs.ids 0 q rfl
  exact ⟨cur, hcur, hs.id cur hcur⟩

/-- The count may start again if all that will be used is from the last key picture. -/
theorem Sound.recount (hs : e.Sound h) (hk : e.keyForced = false)
    (hmiddle : ∀ s < 3, e.controller.middleReady s = false)
    (hzero : ∀ s < e.mode.spatial,
      (e.controller.isFull = true → e.controller.baseReady s = true) →
      ∀ o, e.tracker.slot (e.controller.targets.buffer s 0) = some o → o.picture = 0) :
    ∃ q, { e with picturesSinceKey := 0 }.Sound [q] := by
  obtain ⟨cur, hcur, hlt⟩ := hs.current_id hk
  have hbound := e.mode.spatial_bounds
  have hfresh (s : Nat) (hlt : s < e.mode.spatial) (hf : e.BaseFresh h s)
      (hr : e.controller.isFull = true → e.controller.baseReady s = true) :
      Picture.Fresh [e.tracker.standIns cur] 0 (e.controller.targets.buffer s 0) s 0 :=
    hs.tracks.fresh_standIns (hs.buffer_lt hlt) hf (hzero s hlt hr)
  refine ⟨e.tracker.standIns cur, ?_⟩
  constructor
  case spatial => exact hs.spatial
  case temporal => exact hs.temporal
  case kind => exact hs.kind
  case layered => exact hs.layered
  case range => exact hs.range
  case tracks => exact e.tracker.tracks_standIns cur
  case base =>
    intro s hthree hr
    obtain ⟨hlt, hf⟩ := hs.base s hthree hr
    exact ⟨hlt, hfresh s hlt hf fun _ => hr⟩
  case middle =>
    intro _ s hlt hm
    simp only at hlt
    rw [hmiddle s (by omega)] at hm
    cases hm
  case closed => exact hs.closed
  case keyed =>
    intro hmode _ s ha
    refine hfresh s (hs.spatial ▸ (LayerGrid.lt_of_isActive ha).1) (hs.keyed hmode hk s ha) ?_
    simp only at hmode
    simp [hs.kind, hmode]
  case opened => simp
  case epoch => simp
  case noKey => simp
  case firstId => exact hs.firstId
  case id => exact hs.id
  case ids =>
    intro i q hq
    obtain ⟨rfl, rfl⟩ : i = 0 ∧ e.tracker.standIns cur = q := by
      cases i with
      | zero => simpa using hq
      | succ i => simp at hq
    refine ⟨by simp [ReferenceBuffers.standIns, BufferUse.bufferCount], cur, hcur, ?_⟩
    intro g hg
    obtain ⟨b, -, rfl⟩ := ReferenceBuffers.mem_standIns.mp hg
    exact ⟨hlt, Nat.mod_eq_of_lt hlt⟩

/-- With a key picture to come and nothing remembered, earlier pictures do not matter. -/
theorem Sound.restart (hs : e.Sound h) (hk : e.keyForced = true)
    (hready : ∀ s < 3, e.controller.baseReady s = false ∧ e.controller.middleReady s = false)
    (n : Nat) : { e with picturesSinceKey := n }.Sound [] := by
  have hbound := e.mode.spatial_bounds
  constructor
  case spatial => exact hs.spatial
  case temporal => exact hs.temporal
  case kind => exact hs.kind
  case layered => exact hs.layered
  case range => exact hs.range
  case tracks => exact .empty _ _
  case base => exact fun s hlt hr => by simp [(hready s hlt).1] at hr
  case middle =>
    intro _ s hlt hm
    simp only at hlt
    simp [(hready s (by omega)).2] at hm
  case closed => simp [hk]
  case keyed => simp [hk]
  case opened => simp [hk]
  case epoch => simp
  case noKey => simp
  case firstId => exact hs.firstId
  case id => exact hs.id
  case ids => simp

end Encoder
end LayeredRtp
