import LayeredRtp.Proofs.SoundArchive
import Mathlib.Order.Bounds.Basic

/-! Which packets leave an archive. They leave from the oldest on, one after another, for as long as
there are too many of them or the oldest was sent too long ago; so it is the least number of them
after which neither holds. -/
namespace LayeredRtp.Archive

variable {a b : Archive} {e : ArchiveEntry}

def Outlived (a : Archive) (e : ArchiveEntry) : Prop :=
  e.pending = false ∧ ∃ sent latest, e.sendTime = some sent ∧ a.latestSend = some latest ∧
    sent + max 1000000 (3 * a.rtt) ≤ latest

theorem isTooOld_iff : a.isTooOld e = true ↔ a.Outlived e := by
  have hduration : a.duration = max 1000000 (3 * a.rtt) := by
    rw [duration, Nat.max_comm, Nat.mul_comm]
    rfl
  -- A second at least, so a send that is not the later one is not long ago either.
  have hlong (d sent latest : Nat) (hd : 1000000 ≤ d) : d ≤ latest - sent ↔ sent + d ≤ latest := by
    omega
  unfold isTooOld Outlived
  cases e.sendTime with
  | none => simp
  | some sent =>
    cases a.latestSend with
    | none => simp
    | some latest =>
      have hiff := hlong (max 1000000 (3 * a.rtt)) sent latest (Nat.le_max_left _ _)
      simp [hduration, hiff]

def withoutOldest (a : Archive) (e : ArchiveEntry) (rest : List ArchiveEntry) : Archive :=
  { a with entries := rest, ranking := a.ranking.erase e.rank }

inductive Sheds : Archive → Archive → Prop
  | done {a : Archive} (few : a.size ≤ a.limit) (young : ∀ e ∈ a.entries.head?, ¬a.Outlived e) :
      Sheds a a
  | oldest {a b : Archive} {e : ArchiveEntry} {rest : List ArchiveEntry}
      (entries : a.entries = e :: rest) (goes : a.limit < a.size ∨ a.Outlived e)
      (more : Sheds (a.withoutOldest e rest) b) : Sheds a b

theorem surplus_of_goes {rest : List ArchiveEntry} (entries : a.entries = e :: rest)
    (goes : a.limit < a.size ∨ a.Outlived e) :
    a.surplus = (a.withoutOldest e rest).surplus + 1 := by
  have hsurplus : (a.withoutOldest e rest).surplus = rest.length - a.limit +
      ((rest.drop (rest.length - a.limit)).takeWhile a.isTooOld).length := rfl
  rw [hsurplus]
  simp only [surplus, entries]
  simp only [size, entries, ← isTooOld_iff, List.length_cons] at goes
  by_cases hmany : a.limit < rest.length + 1
  · have habove : rest.length + 1 - a.limit = (rest.length - a.limit) + 1 := by omega
    rw [List.length_cons, habove, List.drop_succ_cons]
    omega
  · have hold : a.isTooOld e = true := goes.resolve_left hmany
    have habove : rest.length + 1 - a.limit = 0 := by omega
    have hrest : rest.length - a.limit = 0 := by omega
    simp [habove, hrest, hold]

theorem surplus_of_stays (few : a.size ≤ a.limit) (young : ∀ e ∈ a.entries.head?, ¬a.Outlived e) :
    a.surplus = 0 := by
  have habove : a.entries.length - a.limit = 0 := Nat.sub_eq_zero_of_le few
  simp only [surplus, habove, List.drop_zero, Nat.zero_add]
  cases hentries : a.entries with
  | nil => rfl
  | cons e rest =>
    have hyoung : ¬a.isTooOld e = true := isTooOld_iff.not.mpr (young e (by simp [hentries]))
    simp [hyoung]

theorem trim_of_stays (few : a.size ≤ a.limit) (young : ∀ e ∈ a.entries.head?, ¬a.Outlived e) :
    a.trim = a := by
  simp [trim, surplus_of_stays few young]

/-- Counting first how many have to leave comes to the same as letting them leave in turn. -/
theorem sheds_trim (a : Archive) : a.Sheds a.trim := by
  generalize hentries : a.entries = entries
  induction entries generalizing a with
  | nil =>
    have few : a.size ≤ a.limit := by simp [size, hentries]
    have young : ∀ e ∈ a.entries.head?, ¬a.Outlived e := by simp [hentries]
    rw [trim_of_stays few young]
    exact .done few young
  | cons e rest ih =>
    by_cases goes : a.limit < a.size ∨ a.Outlived e
    · have htrim : a.trim = (a.withoutOldest e rest).trim := by
        simp [trim, surplus_of_goes hentries goes, hentries, withoutOldest]
      rw [htrim]
      exact .oldest hentries goes (ih _ rfl)
    · obtain ⟨hmany, hyoung⟩ := not_or.mp goes
      have few : a.size ≤ a.limit := Nat.le_of_not_lt hmany
      have young : ∀ e ∈ a.entries.head?, ¬a.Outlived e := by simpa [hentries] using hyoung
      rw [trim_of_stays few young]
      exact .done few young

def Suffices (a : Archive) (k : Nat) : Prop :=
  a.size ≤ a.limit + k ∧ ∀ e, a.entries[k]? = some e → ¬a.Outlived e

/-- The least number of oldest entries that suffices has left, and nothing else has changed but the
ranking. -/
def Loses (a b : Archive) : Prop :=
  ∃ k, IsLeast { k | a.Suffices k } k ∧
    b = { a with entries := a.entries.drop k, ranking := b.ranking }

theorem suffices_succ {rest : List ArchiveEntry} (entries : a.entries = e :: rest) (k : Nat) :
    a.Suffices (k + 1) ↔ (a.withoutOldest e rest).Suffices k := by
  have hsuffices : (a.withoutOldest e rest).Suffices k ↔
      rest.length ≤ a.limit + k ∧ ∀ x, rest[k]? = some x → ¬a.Outlived x := Iff.rfl
  rw [hsuffices]
  simp only [Suffices, size, entries, List.length_cons, List.getElem?_cons_succ]
  exact and_congr_left fun _ => by omega

theorem Sheds.loses (h : a.Sheds b) : a.Loses b := by
  induction h with
  | @done a few young =>
    refine ⟨0, ⟨⟨few, fun e he => young e ?_⟩, fun _ _ => Nat.zero_le _⟩, rfl⟩
    rw [List.head?_eq_getElem?, he]
    rfl
  | @oldest a b e rest entries goes _ ih =>
    obtain ⟨k, ⟨hmem, hleast⟩, hb⟩ := ih
    refine ⟨k + 1, ⟨(suffices_succ entries k).mpr hmem, fun j hj => ?_⟩, ?_⟩
    · cases j with
      | zero =>
        -- Keeping the oldest entry does not do, as it is too many or too old.
        obtain ⟨few, young⟩ := hj
        have hyoung : ¬a.Outlived e := young e (by simp [entries])
        exact absurd (goes.resolve_right hyoung) (Nat.not_lt.mpr few)
      | succ j => exact Nat.succ_le_succ (hleast ((suffices_succ entries j).mp hj))
    · rw [hb]
      simp [withoutOldest, entries]

/-- With a longer round trip time less leaves. -/
theorem suffix_setRtt (a : Archive) {rtt longer : Time} (hle : rtt ≤ longer) :
    (a.setRtt rtt).entries <:+ (a.setRtt longer).entries := by
  obtain ⟨k, ⟨hmem, -⟩, hk⟩ := (sheds_trim { a with rtt }).loses
  obtain ⟨j, ⟨-, hleast⟩, hj⟩ := (sheds_trim { a with rtt := longer }).loses
  have hsuffices : { a with rtt := longer }.Suffices k := by
    refine ⟨hmem.1, fun e he hold => hmem.2 e he ?_⟩
    obtain ⟨hpending, sent, latest, hsent, hlatest, hlong⟩ := hold
    have hdurations (r s : Nat) (hrs : r ≤ s) : max 1000000 (3 * r) ≤ max 1000000 (3 * s) := by
      omega
    exact ⟨hpending, sent, latest, hsent, hlatest,
      Nat.le_trans (Nat.add_le_add_left (hdurations rtt longer hle) sent) hlong⟩
  have hjk : j ≤ k := hleast hsuffices
  have hshort : (a.setRtt rtt).entries = a.entries.drop k := congrArg (·.entries) hk
  have hlonger : (a.setRtt longer).entries = a.entries.drop j := congrArg (·.entries) hj
  rw [hshort, hlonger, ← Nat.add_sub_cancel' hjk, ← List.drop_drop]
  exact List.drop_suffix _ _

structure Receives (a : Archive) (packet : Packet) (sendTime : Option Time) (b : Archive) :
    Prop where
  entries : b.entries.Perm
    ({ number := a.numberOf packet.sequenceNumber, packet, sendTime, arrival := a.arrivals + 1 } ::
      a.entries.filter fun e => e.number != a.numberOf packet.sequenceNumber)
  sorted : b.Sorted
  latestSend : b.latestSend = max a.latestSend sendTime
  limit : b.limit = a.limit
  rtt : b.rtt = a.rtt

theorem noteSent_eq (a : Archive) (sendTime : Option Time) :
    a.noteSent sendTime = { a with latestSend := max a.latestSend sendTime } := by
  obtain ⟨enabled, limit, rtt, entries, ranking, newest, latestSend, arrivals⟩ := a
  cases sendTime with
  | none => cases latestSend <;> rfl
  | some t =>
    cases latestSend with
    | none => rfl
    | some latest =>
      by_cases hlater : latest < t
      · have hmax : max (some latest) (some t) = some t := by
          simp [Nat.max_eq_right (Nat.le_of_lt hlater)]
        simp [noteSent, noteSend, hlater, hmax]
      · have hmax : max (some latest) (some t) = some latest := by
          simp [Nat.max_eq_left (Nat.le_of_not_lt hlater)]
        simp [noteSent, noteSend, hlater, hmax]

/-- Storing a packet takes it in first and lets entries go after that. -/
theorem Sound.store_loses (h : a.Sound) (henabled : a.enabled = true) (packet : Packet)
    (sendTime : Option Time) :
    ∃ b, a.Receives packet sendTime b ∧ b.Loses (a.store packet sendTime) := by
  rw [store_eq henabled]
  generalize hnumber : a.numberOf packet.sequenceNumber = number
  obtain ⟨ranking, herase⟩ := a.erase_eq number
  have hon : (a.erase number).enabled = true := (keeps_erase a number).enabled.trans henabled
  have hlow : SequenceNumber.wire number = packet.sequenceNumber := by
    rw [← hnumber, numberOf, SequenceNumber.wire_recover]
  have hstored := (h.erase number).insert hon ne_of_mem_erase hlow sendTime
  refine ⟨_, ?_, (sheds_trim _).loses⟩
  rw [herase] at hstored ⊢
  rw [noteSent_eq]
  exact ⟨hnumber ▸ ArchiveEntry.insert_perm _ _, hstored.sorted, rfl, rfl, rfl⟩

/-- After any run, packets leave when one is stored or the round trip time is set. Those that leave
are the oldest, by number, and they are as few as will do: the archive is then within its limit, and
the oldest that is left has not outlived its use. A longer round trip time never makes more
leave. -/
theorem trim_exact (enabled : Bool) (limit : Nat) (ops : List Operation) :
    let a := (new enabled limit).performAll ops
    a.Sorted ∧ (∀ rtt, { a with rtt }.Loses (a.setRtt rtt)) ∧
      (a.enabled = true → ∀ packet sendTime, ∃ b, a.Receives packet sendTime b ∧
        b.Loses (a.store packet sendTime)) ∧
      ∀ rtt longer, rtt ≤ longer → (a.setRtt rtt).entries <:+ (a.setRtt longer).entries := by
  intro a
  have ha : a.Sound := (Sound.new enabled limit).performAll ops
  exact ⟨ha.sorted, fun rtt => (sheds_trim _).loses, ha.store_loses, fun _ _ => a.suffix_setRtt⟩

/-- A copy on its way keeps an old entry, and with it all that came later. -/
example :
    let packet (low : UInt16) : Packet :=
      { extensions := .empty, capacity := 12, sequenceNumber := low }
    let kept (asked : UInt16) :=
      ((new true 10).performAll [.store (packet 1) (some 0), .store (packet 2) (some 0),
        .fetch asked 0 some, .store (packet 3) (some 5000000)]).entries.map (·.number)
    kept 1 = [1, 2, 3] ∧ kept 2 = [2, 3] ∧ kept 3 = [3] := by decide

end LayeredRtp.Archive
