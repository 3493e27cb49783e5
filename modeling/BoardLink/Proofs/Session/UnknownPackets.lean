import BoardLink.Capability.Known
import BoardLink.Proofs.Session.Steps
import BoardLink.Proofs.Wire.RoundTrip
import BoardLink.Transport.Scripted

/-!
# Packets that a client does not know

Positive rcodes that the protocol gives no meaning are left to later versions of it. A client counts
the packets that they lead and is otherwise not disturbed by them, wherever they stand in what
arrives (`Session.dispatchAll_unknown`).

An rcode is kept as a signed word, though, and the wire carries integers above those. One of these
makes no packet with an unknown rcode: it is no rcode at all, and ends the session.

What an integer in front of the fields of a message makes of them is `Packet.ofValue_int`;
`Session.deliver_by_rcode` adds what that is to a client.
-/

namespace BoardLink

open BoardLink.MessagePack BoardLink.Wire

namespace Session

variable {τ κ : Type}

/-- A session that has counted one more packet with an unknown rcode. -/
def countUnknown (s : Session τ κ) : Session τ κ := { s with unknownRcodes := s.unknownRcodes + 1 }

theorem wake_countUnknown (s : Session τ κ) : s.countUnknown.wake = s.wake.countUnknown := by
  unfold wake
  rw [apply_ite countUnknown]
  rfl

variable [Capability κ]

theorem foldl_dispatch_countUnknown (s : Session τ κ) (packets : List Packet) :
    packets.foldl dispatch s.countUnknown = (packets.foldl dispatch s).countUnknown := by
  induction packets generalizing s with
  | nil => rfl
  | cons p packets ih =>
    -- no packet reads the counter, so it does not matter whether it is raised before or behind
    have hstep : s.countUnknown.dispatch p = (s.dispatch p).countUnknown := by
      cases p <;> rfl
    rw [List.foldl_cons, List.foldl_cons, hstep, ih]

/-- **A packet with an unknown rcode is counted**, and the packets around it are taken over as if it
were not there. -/
theorem dispatchAll_unknown (s : Session τ κ) (before later : List Packet) (rcode : Int64)
    (fields : List Value) : s.dispatchAll (before ++ .unknown rcode fields :: later) =
      (s.dispatchAll (before ++ later)).countUnknown := by
  -- the unknown packet is moved to the front, where it only counts
  have hall : (before ++ .unknown rcode fields :: later).foldl dispatch s =
      ((before ++ later).foldl dispatch s).countUnknown := by
    rw [List.foldl_append, List.foldl_append, ← foldl_dispatch_countUnknown]
    rfl
  unfold dispatchAll
  rw [hall]
  -- whether anything was queued is not affected by the counter, so both wake in the same cases
  simp only
  rw [wake_countUnknown, apply_ite countUnknown]
  rfl

theorem dispatchAll_nil (s : Session τ κ) : s.dispatchAll [] = s := if_neg (Nat.lt_irrefl s.queued)

/-- **The integers of the wire as rcodes.** In front of fields,

* one that a signed word can hold makes them an answer, an event or a packet with an unknown rcode,
  as its sign and value say; only if it asks for an event whose fields are not there, it makes none;
* and a packet with an unknown rcode is no error to a client, wherever it stands among others that
  arrive with it: it is counted, and all else is as if it were not there;
* one that no signed word can hold is no rcode. The message that it leads is no packet, and ends the
  session behind the packets in front of it.

Other messages that are no packets are those that are no arrays, the empty array, and the arrays
that begin with something else than an integer. -/
theorem deliver_by_rcode (n : Integer) (fields : List Value) :
    let received := Packet.ofValue (.array (.int n :: fields))
    (n.val < 0x8000000000000000 → ∃ rcode : Int64, rcode.toInt = n.val ∧
      (n.val ≤ 0 → received = .ok (.answer ⟨rcode, fields⟩)) ∧
      (0 < n.val → n.val ≤ 3 →
        (∃ e : Event, e.rcode = rcode ∧ e.FieldsIn fields ∧ received = .ok (.event e)) ∨
        (∀ e : Event, e.rcode = rcode → ¬ e.FieldsIn fields) ∧
          ∃ why, received = .error (.invalidFormat why)) ∧
      (3 < n.val → received = .ok (.unknown rcode fields) ∧
        ∀ (s : Session τ κ) (data : Bytes) (before later : List Packet) (inbox : Inbox),
          (s.inbox.feed data).drain = (⟨before ++ .unknown rcode fields :: later, none⟩, inbox) →
            deliver data s =
              (.ok (), ({ s with inbox }.dispatchAll (before ++ later)).countUnknown))) ∧
    (0x8000000000000000 ≤ n.val →
      received = .error (.invalidPacket (.rcodeNotInteger (.int n))) ∧
        ∀ (s : Session τ κ) (data : Bytes) (before : List Packet) (inbox : Inbox),
          (s.inbox.feed data).drain =
              (⟨before, some (.invalidPacket (.rcodeNotInteger (.int n)))⟩, inbox) →
            deliver data s = (.error (.protocol (.invalidPacket (.rcodeNotInteger (.int n)))),
              ({ s with inbox }.dispatchAll before).close)) ∧
    ∀ v, (∃ why, Packet.ofValue v = .error (.invalidPacket why)) ↔
      (∀ items, v ≠ .array items) ∨ v = .array [] ∨
        ∃ first more, v = .array (first :: more) ∧
          ∀ m, first = .int m → 0x8000000000000000 ≤ m.val := by
  intro received
  refine ⟨fun hword => ?_, fun hlarge => ⟨Packet.ofValue_of_large hlarge, ?_⟩,
    fun v => Packet.ofValue_eq_invalidPacket_iff⟩
  -- a signed word holds the integer; only an rcode that is not known says anything of a session
  · obtain ⟨rcode, hrcode, hanswer, hevent, hunknown⟩ := Packet.ofValue_int hword fields
    refine ⟨rcode, hrcode, hanswer, hevent, fun h => ⟨hunknown h, ?_⟩⟩
    intro s data before later inbox hdrain
    rw [deliver_eq, hear, hdrain]
    exact Prod.ext rfl (dispatchAll_unknown _ before later rcode fields)
  -- otherwise the inbox ends in a fault, so that the packets in front of it are taken over first
  · intro s data before inbox hdrain
    rw [deliver_eq, hear, hdrain]
    rfl

/-- The integer behind the largest signed word ends a session. The rcode 7 is counted. -/
theorem deliver_by_rcode_top :
    let top : Integer := ⟨0x8000000000000000, by decide, by decide⟩
    let why : Fault := .invalidPacket (.rcodeNotInteger (.int top))
    let s : Session SendOnly Known := create {} {} none {}
    Packet.ofValue (.array [.int top]) = .error why ∧
      (deliver [0x91, 0xcf, 0x80, 0, 0, 0, 0, 0, 0, 0] s).1 = .error (.protocol why) ∧
      deliver [0x91, 0x07] s = (.ok (), { s with unknownRcodes := 1 }) := by
  intro top why s
  obtain ⟨-, hlarge, -⟩ := deliver_by_rcode (τ := SendOnly) (κ := Known) top []
  obtain ⟨hnone, hends⟩ := hlarge (by decide)
  have hpasses : ∀ v : Value, v.encode.length ≤ 16 → v.Passes defaultMessageLimit :=
    fun v h => ⟨v.sized_of_length (by omega), h.trans (by decide)⟩
  have htop : (Value.array [.int top]).Passes defaultMessageLimit := hpasses _ (by decide)
  have hseven : (Value.array [.int (.ofInt64 7)]).Passes defaultMessageLimit :=
    hpasses _ (by decide)
  -- the message is read back whole and refused, which leaves the inbox with its fault
  have hrefused : (s.inbox.feed [0x91, 0xcf, 0x80, 0, 0, 0, 0, 0, 0, 0]).drain =
      (⟨[], some why⟩, { s.inbox with failure := some why }) := by
    have hbytes : (Value.array [.int top]).encode = [0x91, 0xcf, 0x80, 0, 0, 0, 0, 0, 0, 0] := by
      decide
    have hnext := Inbox.next_encode htop (by decide) (by decide) []
    have hread : Packet.ofValue (Value.array [.int top]).received = .error why := hnone
    rw [hbytes, hread, List.append_nil] at hnext
    have hfailed : (s.inbox.feed [0x91, 0xcf, 0x80, 0, 0, 0, 0, 0, 0, 0]).next =
        (.error why, { s.inbox with failure := some why }) := hnext
    rw [Inbox.drain_eq, hfailed]
  -- the rcode 7 is taken and then nothing is left
  have hcounted : (s.inbox.feed [0x91, 0x07]).drain = (⟨[.unknown 7 []], none⟩, s.inbox) := by
    have hnext : (s.inbox.feed [0x91, 0x07]).next = (.ok (some (.unknown 7 [])), s.inbox) :=
      Inbox.next_encode hseven (by decide) (by decide) []
    have hempty : s.inbox.next = (.ok none, s.inbox) := rfl
    rw [Inbox.drain_eq, hnext]
    simp only [Inbox.drain_eq s.inbox, hempty]
  obtain ⟨hsmall, -⟩ := deliver_by_rcode (τ := SendOnly) (κ := Known) (.ofInt64 7) []
  obtain ⟨rcode, hrcode, -, -, hunknown⟩ := hsmall (by decide)
  obtain rfl : rcode = 7 := Int64.toInt_inj.1 hrcode
  obtain ⟨-, hcounts⟩ := hunknown (by decide)
  have hall := hcounts s [0x91, 0x07] [] [] s.inbox hcounted
  rw [List.append_nil, dispatchAll_nil] at hall
  exact ⟨hnone, congrArg Prod.fst (hends s _ [] _ hrefused), hall⟩

end Session

end BoardLink
