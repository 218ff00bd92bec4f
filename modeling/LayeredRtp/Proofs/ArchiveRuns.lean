import LayeredRtp.Archive

/-! What may be done with an archive, and what every use of it but storing leaves as it was.
Entries leave and have their counts changed, but the number, the packet and the place in the order
of arrival stay with the entry. -/
namespace LayeredRtp

structure Deposit where
  number : Nat
  packet : Packet
deriving DecidableEq, Repr

namespace ArchiveEntry

def deposit (e : ArchiveEntry) : Deposit := ⟨e.number, e.packet⟩

def origin (e : ArchiveEntry) : Deposit × Nat := (e.deposit, e.arrival)

theorem number_of_origin {e x : ArchiveEntry} (h : e.origin = x.origin) : e.number = x.number :=
  congrArg (·.1.number) h

theorem map_origin_modify (number : Nat) {f : ArchiveEntry → ArchiveEntry}
    (hf : ∀ e, (f e).origin = e.origin) (entries : List ArchiveEntry) :
    (modify number f entries).map origin = entries.map origin := by
  simp only [modify, List.map_map]
  apply List.map_congr_left
  intro e _
  by_cases h : e.number = number <;> simp [h, hf]

end ArchiveEntry

namespace Archive

def Sorted (a : Archive) : Prop := a.entries.Pairwise fun e x => e.number < x.number

structure Keeps (a b : Archive) : Prop where
  enabled : b.enabled = a.enabled
  newest : b.newest = a.newest
  arrivals : b.arrivals = a.arrivals
  origins : (b.entries.map ArchiveEntry.origin).Sublist (a.entries.map ArchiveEntry.origin)

namespace Keeps

variable {a b c : Archive}

theorem refl (a : Archive) : a.Keeps a := ⟨rfl, rfl, rfl, .refl _⟩

theorem trans (h : a.Keeps b) (h' : b.Keeps c) : a.Keeps c where
  enabled := h'.enabled.trans h.enabled
  newest := h'.newest.trans h.newest
  arrivals := h'.arrivals.trans h.arrivals
  origins := h'.origins.trans h.origins

theorem of_modify {number : Nat} {f : ArchiveEntry → ArchiveEntry}
    (entries : b.entries = ArchiveEntry.modify number f a.entries)
    (hf : ∀ e, (f e).origin = e.origin) (enabled : b.enabled = a.enabled)
    (newest : b.newest = a.newest) (arrivals : b.arrivals = a.arrivals) : a.Keeps b := by
  have origins : b.entries.map ArchiveEntry.origin = a.entries.map ArchiveEntry.origin := by
    rw [entries, ArchiveEntry.map_origin_modify number hf]
  exact ⟨enabled, newest, arrivals, origins ▸ .refl _⟩

/-- An entry of the later archive was there before, perhaps with other counts. -/
theorem exists_origin (h : a.Keeps b) {e : ArchiveEntry} (he : e ∈ b.entries) :
    ∃ x ∈ a.entries, x.origin = e.origin :=
  List.mem_map.mp (h.origins.subset (List.mem_map_of_mem he))

theorem sorted (h : a.Keeps b) (ha : a.Sorted) : b.Sorted := by
  have horigins : (a.entries.map ArchiveEntry.origin).Pairwise
      fun x y => x.1.number < y.1.number := List.pairwise_map.mpr ha
  exact (List.pairwise_map.mp (horigins.sublist h.origins) :)

end Keeps

theorem entries_erase (a : Archive) (number : Nat) :
    (a.erase number).entries = a.entries.filter fun e => e.number != number := by
  unfold erase
  cases hfind : a.find? number with
  | none =>
    have hall : ∀ e ∈ a.entries, (e.number != number) = true := by
      simpa [find?] using hfind
    exact (List.filter_eq_self.mpr hall).symm
  | some e => rfl

theorem erase_eq (a : Archive) (number : Nat) :
    ∃ ranking, a.erase number =
      { a with entries := a.entries.filter fun e => e.number != number, ranking } := by
  have hentries := a.entries_erase number
  unfold erase at hentries ⊢
  split at hentries
  · exact ⟨a.ranking, by rw [← hentries]⟩
  · exact ⟨_, rfl⟩

theorem keeps_erase (a : Archive) (number : Nat) : a.Keeps (a.erase number) := by
  obtain ⟨ranking, heq⟩ := a.erase_eq number
  rw [heq]
  exact ⟨rfl, rfl, rfl, List.filter_sublist.map _⟩

theorem ne_of_mem_erase {a : Archive} {number : Nat} :
    ∀ e ∈ (a.erase number).entries, e.number ≠ number := by
  simp [entries_erase]

theorem keeps_trim (a : Archive) : a.Keeps a.trim :=
  ⟨rfl, rfl, rfl, (List.drop_sublist _ _).map _⟩

theorem noteSend_eq (a : Archive) (t : Time) :
    ∃ latest, a.noteSend t = { a with latestSend := some latest } := by
  unfold noteSend
  cases hlatest : a.latestSend with
  | none => exact ⟨t, rfl⟩
  | some latest =>
    by_cases hlater : latest < t
    · exact ⟨t, if_pos hlater⟩
    · exact ⟨latest, (if_neg hlater).trans (by rw [← hlatest])⟩

theorem entries_noteSend (a : Archive) (t : Time) : (a.noteSend t).entries = a.entries := by
  obtain ⟨latest, heq⟩ := a.noteSend_eq t
  rw [heq]

theorem keeps_noteSend (a : Archive) (t : Time) : a.Keeps (a.noteSend t) := by
  obtain ⟨latest, heq⟩ := a.noteSend_eq t
  rw [heq]
  exact ⟨rfl, rfl, rfl, .refl _⟩

theorem keeps_setRtt (a : Archive) (rtt : Time) : a.Keeps (a.setRtt rtt) := by
  have hset : a.Keeps { a with rtt } := ⟨rfl, rfl, rfl, .refl _⟩
  exact hset.trans (keeps_trim _)

theorem keeps_markPending (a : Archive) (number : Nat) : a.Keeps (a.markPending number) :=
  .of_modify rfl (fun _ => rfl) rfl rfl rfl

theorem keeps_countResend (a : Archive) (e : ArchiveEntry) (now : Time) :
    a.Keeps (a.countResend e now) :=
  .of_modify rfl (fun _ => rfl) rfl rfl rfl

theorem keeps_markSent (a : Archive) (low : UInt16) (now : Time) : a.Keeps (a.markSent low now) := by
  unfold markSent
  split
  · split
    · exact .refl a
    · rename_i e _
      refine (keeps_countResend a e now).trans (.trans ?_ (keeps_noteSend _ now))
      exact .of_modify rfl (fun _ => rfl) rfl rfl rfl
  · exact .refl a

def noteSent (a : Archive) : Option Time → Archive
  | some t => a.noteSend t
  | none => a

theorem entries_noteSent (a : Archive) (sendTime : Option Time) :
    (a.noteSent sendTime).entries = a.entries := by
  cases sendTime with
  | none => rfl
  | some t => exact entries_noteSend a t

theorem keeps_noteSent (a : Archive) (sendTime : Option Time) : a.Keeps (a.noteSent sendTime) := by
  cases sendTime with
  | none => exact .refl a
  | some t => exact keeps_noteSend a t

/-- A packet takes the place of the one with its number, and then the archive is trimmed. -/
theorem store_eq {a : Archive} (henabled : a.enabled = true) (packet : Packet)
    (sendTime : Option Time) :
    a.store packet sendTime =
      (((a.erase (a.numberOf packet.sequenceNumber)).insert
        (a.numberOf packet.sequenceNumber) packet sendTime).noteSent sendTime).trim := by
  rw [store, if_pos henabled]
  cases sendTime <;> rfl

inductive Operation
  | store (packet : Packet) (sendTime : Option Time)
  | fetch (low : UInt16) (now : Time) (wrap : Packet → Option Packet)
  | markSent (low : UInt16) (now : Time)
  | fetchPadding (now : Time) (wrap : Packet → Option Packet)
  | setRtt (rtt : Time)
  | setStorage (enabled : Bool) (limit : Nat)
  | clear

def perform (a : Archive) : Operation → Archive
  | .store packet sendTime => a.store packet sendTime
  | .fetch low now wrap => ((a.fetch low now wrap).map (·.2)).getD a
  | .markSent low now => a.markSent low now
  | .fetchPadding now wrap => ((a.fetchPadding now wrap).map (·.2)).getD a
  | .setRtt rtt => a.setRtt rtt
  | .setStorage enabled limit => a.setStorage enabled limit
  | .clear => a.clear

def Operation.retains : Operation → Bool
  | .store .. => false
  | .setStorage enabled _ => enabled
  | .clear => false
  | _ => true

/-- Fetching gives a copy of an entry that may be sent again, which is pending from then on, or it
changes nothing. -/
theorem perform_fetch (a : Archive) (low : UInt16) (now : Time) (wrap : Packet → Option Packet) :
    a.fetch low now wrap = none ∧ a.perform (.fetch low now wrap) = a ∨
      ∃ e copy, a.resendable? low now = some e ∧
        a.fetch low now wrap = some (copy, a.markPending e.number) ∧
        a.perform (.fetch low now wrap) = a.markPending e.number := by
  simp only [perform, fetch]
  cases a.resendable? low now with
  | none => exact .inl ⟨rfl, rfl⟩
  | some e =>
    cases hwrap : wrap e.packet with
    | none => exact .inl ⟨by simp [hwrap], by simp [hwrap]⟩
    | some copy => exact .inr ⟨e, copy, rfl, by simp [hwrap], by simp [hwrap]⟩

/-- Padding counts one more resend of the best entry for it, or it changes nothing. -/
theorem perform_fetchPadding (a : Archive) (now : Time) (wrap : Packet → Option Packet) :
    a.fetchPadding now wrap = none ∧ a.perform (.fetchPadding now wrap) = a ∨
      ∃ e copy, a.paddingCandidate? = some e ∧
        a.fetchPadding now wrap = some (copy, a.countResend e now) ∧
        a.perform (.fetchPadding now wrap) = a.countResend e now := by
  simp only [perform, fetchPadding]
  cases a.paddingCandidate? with
  | none => exact .inl ⟨rfl, rfl⟩
  | some e =>
    cases hwrap : wrap e.packet with
    | none => exact .inl ⟨by simp [hwrap], by simp [hwrap]⟩
    | some copy => exact .inr ⟨e, copy, rfl, by simp [hwrap], by simp [hwrap]⟩

theorem keeps_setStorage {a : Archive} (henabled : a.enabled = true) (limit : Nat) :
    a.Keeps (a.setStorage true limit) :=
  ⟨by simp [setStorage, henabled], rfl, rfl, .refl _⟩

/-- One step of a run: an operation that retains the packets changes at most their counts, and
lets some go. -/
theorem Operation.keeps {a : Archive} {op : Operation} (henabled : a.enabled = true)
    (hretains : op.retains = true) : a.Keeps (a.perform op) := by
  cases op with
  | store => cases hretains
  | clear => cases hretains
  | setStorage enabled limit =>
    cases (show enabled = true from hretains)
    exact keeps_setStorage henabled limit
  | setRtt rtt => exact keeps_setRtt a rtt
  | markSent low now => exact keeps_markSent a low now
  | fetch low now wrap =>
    obtain ⟨-, heq⟩ | ⟨e, _, -, -, heq⟩ := a.perform_fetch low now wrap
    · rw [heq]
      exact .refl a
    · rw [heq]
      exact keeps_markPending a e.number
  | fetchPadding now wrap =>
    obtain ⟨-, heq⟩ | ⟨e, _, -, -, heq⟩ := a.perform_fetchPadding now wrap
    · rw [heq]
      exact .refl a
    · rw [heq]
      exact keeps_countResend a e now

end Archive
end LayeredRtp
