import LayeredRtp.Proofs.SoundArchive
import Mathlib.Data.List.Nodup

/-! What keeps a stored packet from being sent again. An entry has a flag, a count and a time for
that, which four operations write. Here all three are read off from what has happened to the
entry: it is pending from the moment a copy is made until a copy is sent, and after each repetition
it rests for a round trip. -/
namespace LayeredRtp

/-- Something in the list has `p`, and nothing that follows it has `q`. -/
def Since {α : Type} (p q : α → Prop) (log : List α) : Prop :=
  ∃ earlier x later, log = earlier ++ x :: later ∧ p x ∧ ∀ y ∈ later, ¬q y

namespace Since

variable {α : Type} {p q : α → Prop} {log : List α}

theorem exists_mem (h : Since p q log) : ∃ x ∈ log, p x := by
  obtain ⟨earlier, x, later, rfl, hx, -⟩ := h
  exact ⟨x, by simp, hx⟩

theorem append_one {y : α} : Since p q (log ++ [y]) ↔ p y ∨ Since p q log ∧ ¬q y := by
  constructor
  · rintro ⟨earlier, x, later, hlog, hx, hlater⟩
    cases List.eq_nil_or_concat later with
    | inl hlast =>
      rw [hlast] at hlog
      obtain ⟨-, hxy⟩ := List.append_inj' hlog rfl
      exact .inl (List.singleton_inj.mp hxy ▸ hx)
    | inr hmore =>
      obtain ⟨before, z, rfl⟩ := hmore
      rw [List.concat_eq_append, ← List.cons_append, ← List.append_assoc] at hlog
      obtain ⟨hbefore, hyz⟩ := List.append_inj' hlog rfl
      have hz : ¬q z := hlater z (by simp)
      refine .inr ⟨⟨earlier, x, before, hbefore, hx, fun y hy => hlater y (by simp [hy])⟩, ?_⟩
      rwa [List.singleton_inj.mp hyz]
  · rintro (hy | ⟨⟨earlier, x, later, rfl, hx, hlater⟩, hy⟩)
    · exact ⟨log, y, [], rfl, hy, by simp⟩
    · refine ⟨earlier, x, later ++ [y], by simp, hx, fun z hz => ?_⟩
      cases List.mem_append.mp hz with
      | inl hold => exact hlater z hold
      | inr hnew => exact List.mem_singleton.mp hnew ▸ hy

end Since

inductive Handling where
  | fetched
  | sent (now : Time)
  | padded (now : Time)
deriving DecidableEq, Repr

namespace Handling

def time? : Handling → Option Time
  | fetched => none
  | sent now => some now
  | padded now => some now

def apply : Handling → ArchiveEntry → ArchiveEntry
  | fetched, e => { e with pending := true }
  | sent now, e => { e.resent now with pending := false }
  | padded now, e => e.resent now

theorem arrival_apply (handling : Handling) (e : ArchiveEntry) :
    (handling.apply e).arrival = e.arrival := by
  cases handling <;> rfl

end Handling

structure ResendEvent where
  arrival : Nat
  handling : Handling
deriving DecidableEq, Repr

namespace ResendEvent

def change (event : ResendEvent) (e : ArchiveEntry) : ArchiveEntry :=
  if e.arrival = event.arrival then event.handling.apply e else e

def InFlight (log : List ResendEvent) (arrival : Nat) : Prop :=
  Since (· = ⟨arrival, .fetched⟩) (fun event => ∃ now, event = ⟨arrival, .sent now⟩) log

def LastRepeated (log : List ResendEvent) (arrival : Nat) (t : Time) : Prop :=
  Since (fun event => event.arrival = arrival ∧ event.handling.time? = some t)
    (fun event => event.arrival = arrival ∧ event.handling.time? ≠ none) log

def Blocked (log : List ResendEvent) (arrival : Nat) (rtt now : Time) : Prop :=
  InFlight log arrival ∨ ∃ t, LastRepeated log arrival t ∧ now < t + rtt

end ResendEvent

open ResendEvent

namespace Archive

variable {a b : Archive} {e x : ArchiveEntry} {log : List ResendEvent} {event : ResendEvent}

def event? (a : Archive) : Operation → Option ResendEvent
  | .fetch low now wrap =>
    if (a.fetch low now wrap).isSome then
      (a.find? (a.numberOf low)).map (⟨·.arrival, .fetched⟩)
    else none
  | .markSent low now => (a.find? (a.numberOf low)).map (⟨·.arrival, .sent now⟩)
  | .fetchPadding now wrap =>
    if (a.fetchPadding now wrap).isSome then
      a.paddingCandidate?.map (⟨·.arrival, .padded now⟩)
    else none
  | _ => none

def eventsOfAll (a : Archive) : List Operation → List ResendEvent
  | [] => []
  | op :: rest => (a.event? op).toList ++ eventsOfAll (a.perform op) rest

namespace Stored

/-- The place in the order of arrival tells the entries apart just as the number does. -/
theorem number_eq_iff (h : a.Stored) (he : e ∈ a.entries) (hx : x ∈ a.entries) :
    x.number = e.number ↔ x.arrival = e.arrival := by
  constructor
  · intro hnumber
    have hfind : a.find? e.number = some e := h.sorted.find?_eq_some.mpr ⟨he, rfl⟩
    exact congrArg (·.arrival) (h.sorted.eq_of_number hfind hx hnumber)
  · intro harrival
    exact congrArg (·.number) (List.inj_on_of_nodup_map h.arrivals hx he harrival)

theorem modify_eq (h : a.Stored) (he : e ∈ a.entries) (handling : Handling) :
    ArchiveEntry.modify e.number handling.apply a.entries =
      a.entries.map (ResendEvent.change ⟨e.arrival, handling⟩) := by
  apply List.map_congr_left
  intro x hx
  simp only [ResendEvent.change, h.number_eq_iff he hx]

end Stored

inductive Follows (a b : Archive) : Option ResendEvent → Prop
  | resent {event : ResendEvent} (known : ∃ e ∈ a.entries, e.arrival = event.arrival)
      (entries : b.entries = a.entries.map event.change) : Follows a b (some event)
  | stored (entries : ∀ e ∈ b.entries, e ∈ a.entries ∨
      a.arrivals < e.arrival ∧ e.pending = false ∧ e.resends = 0) : Follows a b none

namespace Follows

theorem of_subset (h : b.entries ⊆ a.entries) : Follows a b none :=
  .stored fun _ he => .inl (h he)

theorem of_modify (h : a.Stored) (he : e ∈ a.entries) {handling : Handling}
    (entries : b.entries = ArchiveEntry.modify e.number handling.apply a.entries) :
    Follows a b (some ⟨e.arrival, handling⟩) :=
  .resent ⟨e, he, rfl⟩ (entries.trans (h.modify_eq he handling))

end Follows

theorem follows_store (a : Archive) (packet : Packet) (sendTime : Option Time) :
    Follows a (a.store packet sendTime) none := by
  cases henabled : a.enabled with
  | false => exact .of_subset (by simp [store, henabled])
  | true =>
    rw [store_eq henabled]
    generalize a.numberOf packet.sequenceNumber = number
    refine .stored fun e he => ?_
    have hinsert : e ∈ ((a.erase number).insert number packet sendTime).entries := by
      have hkept := List.mem_of_mem_drop he
      rwa [entries_noteSent] at hkept
    cases ArchiveEntry.mem_insert.mp hinsert with
    | inl hnew =>
      have harrival : e.arrival = a.arrivals + 1 := by rw [hnew, (keeps_erase a number).arrivals]
      exact .inr ⟨by omega, by rw [hnew], by rw [hnew]⟩
    | inr hold =>
      rw [entries_erase] at hold
      exact .inl (List.mem_of_mem_filter hold)

theorem follows_markSent (h : a.Sound) (low : UInt16) (now : Time) :
    Follows a (a.markSent low now) (a.event? (.markSent low now)) := by
  obtain ⟨heq, hnone⟩ | ⟨e, henabled, hfind, heq⟩ := a.markSent_cases low now
  · have hmissed : a.find? (a.numberOf low) = none := by
      cases henabled : a.enabled with
      | true => exact hnone henabled
      | false => simp [find?, h.idle henabled]
    rw [event?, hmissed, heq]
    exact .of_subset (List.Subset.refl _)
  · rw [event?, hfind]
    apply Follows.of_modify h.toStored (h.sorted.find?_eq_some.mp hfind).1
    rw [heq, entries_noteSend]
    -- The count changes first, then the flag; neither changes the number.
    simp only [clearPending, countResend, ArchiveEntry.modify, List.map_map]
    apply List.map_congr_left
    intro x _
    by_cases hnumber : x.number = e.number
    · simp [hnumber, ArchiveEntry.resent, Handling.apply]
    · simp [hnumber]

theorem follows_fetch (h : a.Sound) (low : UInt16) (now : Time) (wrap : Packet → Option Packet) :
    Follows a (a.perform (.fetch low now wrap)) (a.event? (.fetch low now wrap)) := by
  obtain ⟨hnone, heq⟩ | ⟨e, copy, he, hsome, heq⟩ := a.perform_fetch low now wrap
  · rw [heq, event?, hnone]
    exact .of_subset (List.Subset.refl _)
  · have hfind := (find?_of_resendable he).1
    rw [heq, event?, hsome, hfind]
    exact .of_modify h.toStored (h.sorted.find?_eq_some.mp hfind).1 rfl

theorem follows_fetchPadding (h : a.Sound) (now : Time) (wrap : Packet → Option Packet) :
    Follows a (a.perform (.fetchPadding now wrap)) (a.event? (.fetchPadding now wrap)) := by
  obtain ⟨hnone, heq⟩ | ⟨e, copy, he, hsome, heq⟩ := a.perform_fetchPadding now wrap
  · rw [heq, event?, hnone]
    exact .of_subset (List.Subset.refl _)
  · rw [heq, event?, hsome, he]
    exact .of_modify h.toStored (mem_of_paddingCandidate he).1 rfl

/-- One step: what happened tells how the entries have changed. -/
theorem follows_perform (h : a.Sound) (op : Operation) :
    Follows a (a.perform op) (a.event? op) := by
  cases op with
  | store packet sendTime => exact follows_store a packet sendTime
  | clear => exact .of_subset (List.nil_subset _)
  | setStorage enabled limit =>
    cases enabled with
    | false => exact .of_subset (List.nil_subset _)
    | true => exact .of_subset (List.Subset.refl _)
  | setRtt rtt => exact .of_subset (List.drop_subset _ _)
  | markSent low now => exact follows_markSent h low now
  | fetch low now wrap => exact follows_fetch h low now wrap
  | fetchPadding now wrap => exact follows_fetchPadding h now wrap

theorem arrivals_le_perform (a : Archive) (op : Operation) :
    a.arrivals ≤ (a.perform op).arrivals := by
  cases op with
  | store packet sendTime =>
    cases henabled : a.enabled with
    | false => simp [perform, store, henabled]
    | true =>
      rw [perform, store_eq henabled, (keeps_trim _).arrivals, (keeps_noteSent _ _).arrivals]
      exact Nat.le_trans (Nat.le_of_eq (keeps_erase a _).arrivals.symm) (Nat.le_succ _)
  | clear => exact Nat.le_refl _
  | setStorage enabled limit => cases enabled <;> exact Nat.le_refl _
  | setRtt rtt => exact Nat.le_of_eq (keeps_setRtt a rtt).arrivals.symm
  | markSent low now => exact Nat.le_of_eq (keeps_markSent a low now).arrivals.symm
  | fetch low now wrap =>
    obtain ⟨-, heq⟩ | ⟨e, _, -, -, heq⟩ := a.perform_fetch low now wrap
    · exact Nat.le_of_eq (congrArg (·.arrivals) heq).symm
    · exact Nat.le_of_eq (congrArg (·.arrivals) heq).symm
  | fetchPadding now wrap =>
    obtain ⟨-, heq⟩ | ⟨e, _, -, -, heq⟩ := a.perform_fetchPadding now wrap
    · exact Nat.le_of_eq (congrArg (·.arrivals) heq).symm
    · exact Nat.le_of_eq (congrArg (·.arrivals) heq).symm

structure Agrees (log : List ResendEvent) (e : ArchiveEntry) : Prop where
  pending : e.pending = true ↔ InFlight log e.arrival
  repeated : ∀ t, 0 < e.resends ∧ e.sendTime = some t ↔ LastRepeated log e.arrival t

namespace Agrees

/-- A new entry has no past. -/
theorem of_new (hknown : ∀ event ∈ log, event.arrival ≠ e.arrival)
    (hpending : e.pending = false) (hresends : e.resends = 0) : Agrees log e where
  pending := by
    simp only [hpending, Bool.false_eq_true, false_iff]
    intro hflight
    obtain ⟨event, hevent, rfl⟩ := hflight.exists_mem
    exact hknown _ hevent rfl
  repeated t := by
    simp only [hresends, Nat.lt_irrefl, false_and, false_iff]
    intro hlast
    obtain ⟨event, hevent, harrival, -⟩ := hlast.exists_mem
    exact hknown event hevent harrival

/-- The entry that something happens to. -/
theorem apply (h : Agrees log e) (handling : Handling) :
    Agrees (log ++ [⟨e.arrival, handling⟩]) (handling.apply e) where
  pending := by
    rw [handling.arrival_apply, InFlight, Since.append_one, ← InFlight, ← h.pending]
    cases handling <;> simp [Handling.apply, ArchiveEntry.resent]
  repeated t := by
    rw [handling.arrival_apply, LastRepeated, Since.append_one, ← LastRepeated, ← h.repeated]
    cases handling <;> simp [Handling.apply, Handling.time?, ArchiveEntry.resent]

/-- The other entries. -/
theorem append (h : Agrees log e) (hne : event.arrival ≠ e.arrival) :
    Agrees (log ++ [event]) e where
  pending := by
    have hother (handling : Handling) : event ≠ ⟨e.arrival, handling⟩ :=
      fun heq => hne (congrArg (·.arrival) heq)
    rw [InFlight, Since.append_one, ← InFlight, ← h.pending]
    simp [hother]
  repeated t := by
    rw [LastRepeated, Since.append_one, ← LastRepeated, ← h.repeated]
    simp [hne]

theorem change (h : Agrees log e) (event : ResendEvent) :
    Agrees (log ++ [event]) (event.change e) := by
  unfold ResendEvent.change
  split
  · rename_i harrival
    obtain ⟨arrival, handling⟩ := event
    cases harrival
    exact h.apply handling
  · rename_i hne
    exact h.append (Ne.symm hne)

theorem isThrottled_iff (h : Agrees log e) (rtt now : Time) :
    e.isThrottled rtt now = true ↔ ∃ t, LastRepeated log e.arrival t ∧ now < t + rtt := by
  simp only [← h.repeated, ArchiveEntry.isThrottled]
  cases e.sendTime <;> simp

theorem blocked_iff (h : Agrees log e) (rtt now : Time) :
    Blocked log e.arrival rtt now ↔ (!e.pending && !e.isThrottled rtt now) = false := by
  rw [Blocked, ← h.isThrottled_iff, ← h.pending]
  cases e.pending <;> simp

end Agrees

structure Logged (a : Archive) (log : List ResendEvent) : Prop where
  sound : a.Sound
  known : ∀ event ∈ log, event.arrival ≤ a.arrivals
  agrees : ∀ e ∈ a.entries, Agrees log e

theorem Logged.new (enabled : Bool) (limit : Nat) : (Archive.new enabled limit).Logged [] :=
  ⟨.new enabled limit, by simp, fun _ he => by cases he⟩

theorem Logged.perform (h : a.Logged log) (op : Operation) :
    (a.perform op).Logged (log ++ (a.event? op).toList) := by
  have hsound := h.sound.perform op
  have harrivals := a.arrivals_le_perform op
  have hfollows := follows_perform h.sound op
  generalize a.event? op = event? at hfollows ⊢
  cases hfollows with
  | @resent event known entries =>
    refine ⟨hsound, fun x hx => ?_, fun e he => ?_⟩
    · refine Nat.le_trans ?_ harrivals
      cases List.mem_append.mp hx with
      | inl hold => exact h.known x hold
      | inr hnew =>
        obtain ⟨e, he, harrival⟩ := known
        rw [List.mem_singleton.mp hnew, ← harrival]
        exact h.sound.arrived e he
    · rw [entries] at he
      obtain ⟨x, hx, rfl⟩ := List.mem_map.mp he
      exact (h.agrees x hx).change event
  | stored entries =>
    rw [Option.toList_none, List.append_nil]
    refine ⟨hsound, fun x hx => Nat.le_trans (h.known x hx) harrivals, fun e he => ?_⟩
    obtain hold | ⟨hlater, hpending, hresends⟩ := entries e he
    · exact h.agrees e hold
    · exact .of_new (fun x hx => Nat.ne_of_lt (Nat.lt_of_le_of_lt (h.known x hx) hlater)) hpending
        hresends

theorem Logged.performAll (h : a.Logged log) (ops : List Operation) :
    (a.performAll ops).Logged (log ++ a.eventsOfAll ops) := by
  induction ops generalizing a log with
  | nil => simpa [Archive.performAll, eventsOfAll] using h
  | cons op rest ih =>
    rw [eventsOfAll, ← List.append_assoc]
    exact ih (h.perform op)

theorem Logged.resendable (h : a.Logged log) {low : UInt16}
    (hfind : a.find? (a.numberOf low) = some e) (now : Time) :
    (Blocked log e.arrival a.rtt now → a.resendable? low now = none) ∧
      (¬Blocked log e.arrival a.rtt now → a.resendable? low now = some e) := by
  have he := (h.sound.sorted.find?_eq_some.mp hfind).1
  have henabled : a.enabled = true := by
    cases hon : a.enabled with
    | true => rfl
    | false => simp [h.sound.idle hon] at he
  rw [resendable?, if_pos henabled, hfind, (h.agrees e he).blocked_iff]
  cases hfree : !e.pending && !e.isThrottled a.rtt now <;> simp [Option.filter, hfree]

/-- After any run, a packet that is asked for is handed out exactly if no copy of it is on its way
and its last repetition is a round trip ago, whoever made that repetition. Padding is never made of
a packet with a copy on its way, and a request that gives nothing changes nothing. -/
theorem resend_exact (enabled : Bool) (limit : Nat) (ops : List Operation) :
    let a := (Archive.new enabled limit).performAll ops
    let log := (Archive.new enabled limit).eventsOfAll ops
    (∀ low now e, a.find? (a.numberOf low) = some e →
      (Blocked log e.arrival a.rtt now →
        a.resendable? low now = none ∧ ∀ wrap, a.fetch low now wrap = none) ∧
      (¬Blocked log e.arrival a.rtt now → a.resendable? low now = some e)) ∧
    (∀ e, a.paddingCandidate? = some e →
      e ∈ a.entries ∧ e.pending = false ∧ ¬InFlight log e.arrival) ∧
    (∀ low now wrap, a.fetch low now wrap = none → a.perform (.fetch low now wrap) = a) ∧
    ∀ now wrap, a.fetchPadding now wrap = none → a.perform (.fetchPadding now wrap) = a := by
  intro a log
  have h : a.Logged log := (Logged.new enabled limit).performAll ops
  refine ⟨fun low now e hfind => ?_, fun e hcandidate => ?_, ?_, ?_⟩
  · obtain ⟨hblocked, hfree⟩ := h.resendable hfind now
    refine ⟨fun hwaits => ⟨hblocked hwaits, fun wrap => ?_⟩, hfree⟩
    simp [fetch, hblocked hwaits]
  · obtain ⟨he, -, hpending⟩ := mem_of_paddingCandidate hcandidate
    refine ⟨he, hpending, fun hflight => ?_⟩
    rw [(h.agrees e he).pending.mpr hflight] at hpending
    cases hpending
  · intro low now wrap hnone
    simp [Archive.perform, hnone]
  · intro now wrap hnone
    simp [Archive.perform, hnone]

end Archive
end LayeredRtp
