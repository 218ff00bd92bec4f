import LayeredRtp.Proofs.RegisteredIds

/-! Ids and extensions stand for each other. Whatever is registered, removed and allowed in whatever
order, what an id stands for and the id of an extension are found in the same pairs, and a call that
is refused changes none of them. -/
namespace LayeredRtp

inductive IdChange where
  | register (id : UInt8) (e : HeaderExtension)
  | registerUri (id : UInt8) (uri : String)
  | deregister (uri : String)
  | setMixed (on : Bool)

theorem HeaderExtension.uri_injective {e e' : HeaderExtension} (h : e.uri = e'.uri) : e = e' := by
  revert h
  cases e <;> cases e' <;> simp [HeaderExtension.uri]

/-- An extension is found by its name and by no other. -/
theorem HeaderExtension.ofUri?_eq_some_iff {uri : String} {e : HeaderExtension} :
    ofUri? uri = some e ↔ e.uri = uri := by
  constructor
  · intro h
    simpa using List.find?_some h
  · rintro rfl
    cases hfind : ofUri? e.uri with
    | none =>
      have hnone := List.find?_eq_none.mp hfind e (mem_all e)
      simp at hnone
    | some other =>
      have hsame : other.uri = e.uri := by simpa using List.find?_some hfind
      rw [uri_injective hsame]

namespace ExtensionIds

variable {m next : ExtensionIds} {id : UInt8} {e : HeaderExtension}
  {bindings : List (UInt8 × HeaderExtension)}

def changed? (m : ExtensionIds) : IdChange → Option ExtensionIds
  | .register id e => m.insert? id e
  | .registerUri id uri => m.insertUri? id uri
  | .deregister uri => some (m.eraseUri uri)
  | .setMixed on => some (m.setMixed on)

def change (m : ExtensionIds) (c : IdChange) : ExtensionIds := (m.changed? c).getD m

structure Ordered (m : ExtensionIds) : Prop where
  ascending : m.bindings.Pairwise fun b c => b.1 < c.1
  distinct : (m.bindings.map (·.2)).Nodup

theorem place_ascending (h : bindings.Pairwise fun b c => b.1 < c.1)
    (hnew : id ∉ bindings.map (·.1)) : (place id e bindings).Pairwise fun b c => b.1 < c.1 := by
  induction bindings with
  | nil => exact List.pairwise_singleton _ _
  | cons b rest ih =>
    obtain ⟨hb, hrest⟩ := List.pairwise_cons.mp h
    simp only [List.map_cons, List.mem_cons, not_or] at hnew
    by_cases hlt : id < b.1
    · rw [place, if_pos hlt]
      refine List.pairwise_cons.mpr ⟨fun c hc => ?_, h⟩
      cases List.mem_cons.mp hc with
      | inl heq => exact heq ▸ hlt
      | inr hc => exact UInt8.lt_trans hlt (hb c hc)
    · rw [place, if_neg hlt]
      refine List.pairwise_cons.mpr ⟨fun c hc => ?_, ih hrest hnew.2⟩
      cases List.mem_cons.mp ((place_perm id e rest).mem_iff.mp hc) with
      | inl heq => exact heq ▸ UInt8.lt_of_le_of_ne (UInt8.not_lt.mp hlt) (Ne.symm hnew.1)
      | inr hc => exact hb c hc

theorem not_mem_of_id? (h : m.id? e = none) : e ∉ m.bindings.map (·.2) := by
  intro hmem
  obtain ⟨b, hb, rfl⟩ := List.mem_map.mp hmem
  have hnone := List.find?_eq_none.mp (Option.map_eq_none_iff.mp h) b hb
  simp at hnone

/-- Registering succeeds if the pair is there already, or if the id is free and the extension has no
other one. -/
theorem insert?_cases (h : m.insert? id e = some next) :
    (1 ≤ id.toNat ∧ id.toNat ≤ m.maxId) ∧
      (m.extension? id = some e ∧ next = m ∨
        m.extension? id = none ∧ m.id? e = none ∧
          next = { m with bindings := place id e m.bindings }) := by
  unfold insert? at h
  by_cases hrange : id.toNat < 1 ∨ m.maxId < id.toNat
  · rw [if_pos hrange] at h
    cases h
  · rw [if_neg hrange] at h
    refine ⟨by omega, ?_⟩
    cases hid : m.extension? id with
    | some other =>
      simp only [hid, Option.ite_none_right_eq_some, Option.some.injEq] at h
      exact .inl ⟨congrArg some h.1, h.2.symm⟩
    | none =>
      simp only [hid, contains, Option.isSome_iff_ne_none, Option.ite_none_left_eq_some,
        Option.some.injEq, ne_eq, Decidable.not_not] at h
      exact .inr ⟨rfl, h.1, h.2.symm⟩

def Admits (m : ExtensionIds) (id : UInt8) (e : HeaderExtension) : Prop :=
  (1 ≤ id.toNat ∧ id.toNat ≤ if m.mixed then 255 else 14) ∧
    (m.extension? id = some e ∨ m.extension? id = none ∧ m.id? e = none)

instance : Decidable (m.Admits id e) := inferInstanceAs (Decidable (_ ∧ _))

theorem exists_insert?_iff : (∃ next, m.insert? id e = some next) ↔ m.Admits id e := by
  constructor
  · rintro ⟨next, hnext⟩
    obtain ⟨hrange, hold | hnew⟩ := insert?_cases hnext
    · exact ⟨hrange, .inl hold.1⟩
    · exact ⟨hrange, .inr ⟨hnew.1, hnew.2.1⟩⟩
  · rintro ⟨hrange, hpair⟩
    have hin : ¬(id.toNat < 1 ∨ m.maxId < id.toNat) := by
      simp only [maxId]
      omega
    rw [insert?, if_neg hin]
    rcases hpair with hold | ⟨hfree, hnew⟩
    · exact ⟨m, by simp [hold]⟩
    · exact ⟨{ m with bindings := place id e m.bindings }, by simp [hfree, contains, hnew]⟩

theorem Ordered.insert (hm : m.Ordered) (h : m.insert? id e = some next) : next.Ordered := by
  obtain ⟨-, ⟨-, rfl⟩ | ⟨hfree, hnew, rfl⟩⟩ := insert?_cases h
  · exact hm
  · refine ⟨place_ascending hm.ascending (not_mem_of_extension? hfree), ?_⟩
    rw [((place_perm id e m.bindings).map _).nodup_iff, List.map_cons]
    exact List.nodup_cons.mpr ⟨not_mem_of_id? hnew, hm.distinct⟩

theorem eraseUri_eq (m : ExtensionIds) (uri : String) :
    m.eraseUri uri = { m with bindings := m.bindings.filter fun b => b.2.uri != uri } := by
  unfold eraseUri
  cases hfind : HeaderExtension.ofUri? uri with
  | none =>
    have hall : m.bindings.filter (fun b => b.2.uri != uri) = m.bindings := by
      refine List.filter_eq_self.mpr fun b _ => bne_iff_ne.mpr fun heq => ?_
      rw [HeaderExtension.ofUri?_eq_some_iff.mpr heq] at hfind
      cases hfind
    rw [hall]
  | some e =>
    obtain rfl := HeaderExtension.ofUri?_eq_some_iff.mp hfind
    have hsame (b : UInt8 × HeaderExtension) : (b.2 != e) = (b.2.uri != e.uri) := by
      rw [Bool.eq_iff_iff, bne_iff_ne, bne_iff_ne, not_iff_not]
      exact ⟨congrArg _, HeaderExtension.uri_injective⟩
    simp only [hsame]

theorem Ordered.erase (hm : m.Ordered) (uri : String) : (m.eraseUri uri).Ordered := by
  rw [eraseUri_eq]
  exact ⟨hm.ascending.filter _, hm.distinct.sublist (List.filter_sublist.map _)⟩

theorem Registered.ordered (h : m.Registered) : m.Ordered := by
  induction h with
  | empty => exact ⟨List.Pairwise.nil, List.nodup_nil⟩
  | insert id e _ hi ih => exact ih.insert hi
  | erase uri _ ih => exact ih.erase uri
  | mixed on _ ih => exact ⟨ih.ascending, ih.distinct⟩

theorem insertUri?_of_uri (m : ExtensionIds) (id : UInt8) (e : HeaderExtension) :
    m.insertUri? id e.uri = m.insert? id e := by
  simp [insertUri?, HeaderExtension.ofUri?_eq_some_iff.mpr rfl]

theorem insertUri?_of_unknown {uri : String} (h : ∀ e : HeaderExtension, e.uri ≠ uri)
    (m : ExtensionIds) (id : UInt8) : m.insertUri? id uri = none := by
  cases hfind : HeaderExtension.ofUri? uri with
  | none => simp [insertUri?, hfind]
  | some e => exact absurd (HeaderExtension.ofUri?_eq_some_iff.mp hfind) (h e)

/-- Every call keeps to what can be registered. -/
theorem Registered.change (hm : m.Registered) (c : IdChange) : (m.change c).Registered := by
  have hinsert (id : UInt8) (e : HeaderExtension) : ((m.insert? id e).getD m).Registered := by
    cases h : m.insert? id e with
    | none => exact hm
    | some next => exact hm.insert id e h
  cases c with
  | register id e => exact hinsert id e
  | registerUri id uri =>
    change ((m.insertUri? id uri).getD m).Registered
    cases hfind : HeaderExtension.ofUri? uri with
    | none => simpa [insertUri?, hfind] using hm
    | some e => simpa [insertUri?, hfind] using hinsert id e
  | deregister uri => exact hm.erase uri
  | setMixed on => exact hm.mixed on

theorem Registered.foldl_change (hm : m.Registered) (changes : List IdChange) :
    (changes.foldl ExtensionIds.change m).Registered := by
  induction changes generalizing m with
  | nil => exact hm
  | cons c rest ih => exact ih (hm.change c)

theorem registered_standard : standard.Registered := by
  have h := standard_eq_insert
  simp only [bind, eq_comm (a := some standard), Option.bind_eq_some_iff] at h
  obtain ⟨m₁, h₁, m₂, h₂, m₃, h₃, m₄, h₄, m₅, h₅, m₆, h₆, h₇⟩ := h
  exact ((((((Registered.empty.insert _ _ h₁).insert _ _ h₂).insert _ _ h₃).insert _ _ h₄).insert
    _ _ h₅).insert _ _ h₆).insert _ _ h₇

theorem Registered.id?_eq_some_iff (hm : m.Registered) :
    m.id? e = some id ↔ (id, e) ∈ m.bindings := by
  simp only [id?, Option.map_eq_some_iff, find?_eq_some_iff_of_nodup hm.ordered.distinct]
  constructor
  · rintro ⟨b, ⟨hb, rfl⟩, rfl⟩
    exact hb
  · exact fun h => ⟨_, ⟨h, rfl⟩, rfl⟩

/-- An accepted pair is there afterwards, with those that were there before. -/
theorem mem_of_insert? (hm : m.Registered) (h : m.insert? id e = some next)
    (b : UInt8 × HeaderExtension) : b ∈ next.bindings ↔ b = (id, e) ∨ b ∈ m.bindings := by
  obtain ⟨-, ⟨hold, rfl⟩ | ⟨-, -, rfl⟩⟩ := insert?_cases h
  · have hmem := hm.extension?_eq_some_iff.mp hold
    exact ⟨.inr, fun hb => hb.elim (fun heq => heq ▸ hmem) fun hb => hb⟩
  · exact (place_perm id e m.bindings).mem_iff.trans List.mem_cons

theorem mixed_of_insert? (h : m.insert? id e = some next) : next.mixed = m.mixed := by
  obtain ⟨-, ⟨-, rfl⟩ | ⟨-, -, rfl⟩⟩ := insert?_cases h <;> rfl

/-- Each id stands for at most one extension, and each extension has at most one id. Both are read
off the same list of pairs, which ascends by id. -/
structure Paired (m : ExtensionIds) : Prop where
  inverse : ∀ id e, m.extension? id = some e ↔ m.id? e = some id
  listed : ∀ id e, (id, e) ∈ m.bindings ↔ m.extension? id = some e
  ascending : m.bindings.Pairwise fun b c => b.1 < c.1
  bounds : ∀ b ∈ m.bindings, 1 ≤ b.1.toNat ∧ b.1.toNat ≤ 255

theorem Registered.paired (hm : m.Registered) : m.Paired where
  inverse _ _ := hm.extension?_eq_some_iff.trans hm.id?_eq_some_iff.symm
  listed _ _ := hm.extension?_eq_some_iff.symm
  ascending := hm.ordered.ascending
  bounds b hb := ⟨hm.consistent.positive b hb, Nat.le_of_lt_succ b.1.toNat_lt⟩

structure Gains (m : ExtensionIds) (id : UInt8) (e : HeaderExtension) (next : ExtensionIds) :
    Prop where
  found : next.extension? id = some e
  mixed : next.mixed = m.mixed
  pairs : ∀ b, b ∈ next.bindings ↔ b = (id, e) ∨ b ∈ m.bindings

structure Loses (m : ExtensionIds) (uri : String) (next : ExtensionIds) : Prop where
  mixed : next.mixed = m.mixed
  pairs : ∀ b, b ∈ next.bindings ↔ b ∈ m.bindings ∧ b.2.uri ≠ uri

theorem gains_of_insert? (hm : m.Registered) (h : m.insert? id e = some next) :
    m.Gains id e next := by
  have hmem := mem_of_insert? hm h
  refine ⟨?_, mixed_of_insert? h, hmem⟩
  exact (hm.insert id e h).extension?_eq_some_iff.mpr ((hmem (id, e)).mpr (.inl rfl))

theorem loses_eraseUri (m : ExtensionIds) (uri : String) : m.Loses uri (m.eraseUri uri) := by
  rw [eraseUri_eq]
  exact ⟨rfl, fun b => by simp⟩

/-- After any calls, ids and extensions are paired. A pair is registered next exactly if it is
admitted, under the name of its extension just as well, and else nothing changes. -/
theorem changes_paired {start : ExtensionIds} (hstart : start = empty ∨ start = standard)
    (changes : List IdChange) :
    let m := changes.foldl change start
    m.Paired ∧
      (∀ id e, (m.Admits id e → ∃ next, m.changed? (.register id e) = some next ∧
          m.change (.register id e) = next ∧ m.Gains id e next) ∧
        (¬m.Admits id e → m.changed? (.register id e) = none ∧ m.change (.register id e) = m)) ∧
      (∀ id e, m.changed? (.registerUri id e.uri) = m.changed? (.register id e)) ∧
      (∀ id uri, (∀ e : HeaderExtension, e.uri ≠ uri) → m.changed? (.registerUri id uri) = none) ∧
      ∀ uri, m.Loses uri (m.change (.deregister uri)) := by
  intro m
  have hm : m.Registered := by
    have hbegun : start.Registered := by
      cases hstart with
      | inl hempty => exact hempty ▸ .empty
      | inr hstandard => exact hstandard ▸ registered_standard
    exact hbegun.foldl_change changes
  refine ⟨hm.paired, fun id e => ⟨fun hadmits => ?_, fun hrefused => ?_⟩, insertUri?_of_uri m,
    fun id uri h => insertUri?_of_unknown h m id, m.loses_eraseUri⟩
  · obtain ⟨next, hnext⟩ := exists_insert?_iff.mpr hadmits
    refine ⟨next, hnext, ?_, gains_of_insert? hm hnext⟩
    exact congrArg (Option.getD · m) hnext
  · have hnone : m.insert? id e = none := by
      refine Option.eq_none_iff_forall_ne_some.mpr fun next hnext => hrefused ?_
      exact exists_insert?_iff.mp ⟨next, hnext⟩
    exact ⟨hnone, congrArg (Option.getD · m) hnone⟩

/-- An id above 14 stays when mixing is no longer allowed, but no other one can be given out. -/
theorem changes_paired_unmixed :
    let changes : List IdChange := [.setMixed true, .register 200 .colorSpace, .setMixed false,
      .register 1 .rtpMid, .register 9 .rtpMid, .deregister "urn:ietf:params:rtp-hdrext:sdes:mid",
      .registerUri 9 "urn:ietf:params:rtp-hdrext:sdes:mid"]
    let m := changes.foldl change standard
    m.bindings = [(1, .audioLevel), (2, .absoluteSendTime), (3, .transportSequenceNumber),
      (9, .rtpMid), (10, .rtpStreamId), (11, .repairedRtpStreamId), (13, .videoOrientation),
      (200, .colorSpace)] ∧ m.Paired ∧ m.change (.register 201 .videoTiming) = m ∧
      m.Gains 4 .videoTiming (m.change (.register 4 .videoTiming)) := by
  intro changes m
  have hbindings : m.bindings = [(1, .audioLevel), (2, .absoluteSendTime),
      (3, .transportSequenceNumber), (9, .rtpMid), (10, .rtpStreamId), (11, .repairedRtpStreamId),
      (13, .videoOrientation), (200, .colorSpace)] := by decide +kernel
  obtain ⟨hpaired, hregister, -⟩ := changes_paired (.inr rfl) changes
  have hout : ¬m.Admits 201 .videoTiming := by decide +kernel
  have hin : m.Admits 4 .videoTiming := by decide +kernel
  obtain ⟨next, -, hnext, hgains⟩ := (hregister 4 .videoTiming).1 hin
  exact ⟨hbindings, hpaired, ((hregister 201 .videoTiming).2 hout).2, hnext ▸ hgains⟩

end ExtensionIds
end LayeredRtp
