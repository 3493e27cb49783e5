import BoardLink.Proofs.Session.Closing
import Mathlib.Data.List.Permutation

/-!
# Feeding in pieces

Bytes are fed to a session as they come, and where one piece ends and the next one begins is a
matter of chance. So it must not show: to feed two pieces one after the other is to feed both at
once, be they well-formed or not. What differs is only how often the application is woken, and what
is left in the inbox of a session that has ended.

* `Session.contents` — a session without these two, and how each step acts on it;
* `Session.contents_hear` — the crux: what a session takes over of a piece, it takes over packet by
  packet;
* `Session.feed_append` — so feeding is a homomorphism, up to and including the fault that ends the
  session.
-/

namespace BoardLink

open BoardLink.Wire

namespace Session

variable {τ κ : Type}

/-! ### The contents of a session -/

/-- **What a session holds**, but for the bytes that it has not decoded and for its hook, which may
have been run at other times. -/
def contents (s : Session τ κ) : Session τ κ :=
  { s with inbox := {}, hook := {} }

theorem contents_wake (s : Session τ κ) : s.wake.contents = s.contents := by
  obtain ⟨hook, hwake⟩ := wake_eq s
  rw [hwake]
  rfl

/-- Without a hook there is nobody to wake. -/
theorem wake_contents (s : Session τ κ) : s.contents.wake = s.contents :=
  if_neg Bool.false_ne_true

theorem contents_adopt (s : Session τ κ) (r : Registry κ) :
    (s.adopt r).contents = s.contents.adopt r := by
  -- both sides are the session with the registry, and then woken or not; neither shows in the
  -- contents
  let grown := { s with registry := r, queued := s.queued + (r.pending - s.registry.pending) }
  calc (s.adopt r).contents
      = grown.contents := by
        unfold adopt
        simp only
        split
        · exact contents_wake grown
        · rfl
    _ = s.contents.adopt r := by
        unfold adopt
        simp only
        split
        · exact (wake_contents grown).symm
        · rfl

theorem contents_close (s : Session τ κ) : s.close.contents = s.contents.close := by
  unfold close shutDown
  rw [apply_ite contents, contents_adopt]
  rfl

variable [Capability κ]

theorem contents_foldl_dispatch (s : Session τ κ) (packets : List Packet) :
    (packets.foldl dispatch s).contents = packets.foldl dispatch s.contents := by
  induction packets generalizing s with
  | nil => rfl
  | cons p packets ih =>
    -- no packet reads the inbox or the hook
    have hstep : (s.dispatch p).contents = s.contents.dispatch p := by
      cases p <;> rfl
    rw [List.foldl_cons, List.foldl_cons, ih, hstep]

/-- **What a session takes over of a piece**, it takes over packet by packet. -/
theorem contents_hear (data : Bytes) (s : Session τ κ) :
    (s.hear data).contents = (s.inbox.feed data).drain.1.packets.foldl dispatch s.contents := by
  obtain ⟨hook, hall⟩ := dispatchAll_eq ({ s with inbox := (s.inbox.feed data).drain.2 })
    (s.inbox.feed data).drain.1.packets
  -- the hook is run behind the packets, and the contents leave it out
  rw [hear, hall]
  exact contents_foldl_dispatch { s with inbox := (s.inbox.feed data).drain.2 } _

theorem inbox_hear (data : Bytes) (s : Session τ κ) :
    (s.hear data).inbox = (s.inbox.feed data).drain.2 :=
  (hear_parts data s).1

theorem closed_hear (data : Bytes) (s : Session τ κ) : (s.hear data).closed = s.closed :=
  (Takes.of_hear s data).closed

omit [Capability κ] in
theorem closed_close (s : Session τ κ) : s.close.closed = true := by
  cases hclosed : s.closed with
  | true =>
    -- closing what is closed does nothing
    have hsame : s.close = s := if_pos hclosed
    rw [hsame, hclosed]
  | false => exact (close_of_open hclosed).1

/-! ### Two pieces -/

/-- **Two outcomes that differ in nothing but when the application was woken**: the results are the
same, and what the sessions hold; and if they go on, they decode what comes in the same way. -/
structure Coincide (x y : Except SessionError Unit × Session τ κ) : Prop where
  result : x.1 = y.1
  contents : x.2.contents = y.2.contents
  inbox : x.2.closed = false → x.2.inbox = y.2.inbox

omit [Capability κ] in
/-- A fault of the stream ends both sessions. -/
theorem Coincide.of_fault {s s' : Session τ κ} (fault : Fault) (h : s.contents = s'.contents) :
    Coincide (fail (.ofFault fault) s) (fail (.ofFault fault) s') := by
  have hends : ∀ s : Session τ κ, (fail (.ofFault fault) s : Except SessionError Unit × _) =
      (.error (.ofFault fault), s.close) := by
    intro s
    rw [fail, if_pos (isFatal_ofFault fault)]
  rw [hends, hends]
  -- the contents are the same by assumption, and there is no open session to compare inboxes of
  refine ⟨rfl, ?_, fun hopen => ?_⟩
  · rw [contents_close, contents_close, h]
  · exact absurd ((closed_close s).symm.trans hopen) Bool.false_ne_true.symm

/-- A piece that brings no fault is taken over as if it had come together with what follows. -/
theorem coincide_deliver {s : Session τ κ} {a : Bytes}
    (hok : (s.inbox.feed a).drain.1.fault = none)
    (hx : MessagePack.Walk.Exact s.inbox.framer.limit (s.inbox.feed a).drain.2.buffered)
    (b : Bytes) : Coincide (deliver (a ++ b) s) (deliver b (s.hear a)) := by
  -- what both pieces yield at once is what the first one yields, followed by the second
  have hdrain := Inbox.drain_feed b hok hx
  rw [Inbox.feed_feed] at hdrain
  -- one behind the other, the packets of the two pieces are those of both
  have hcontents : (s.hear (a ++ b)).contents = ((s.hear a).hear b).contents := by
    rw [contents_hear, contents_hear, contents_hear, inbox_hear, hdrain, List.foldl_append]
  have hinbox : (s.hear (a ++ b)).inbox = ((s.hear a).hear b).inbox := by
    rw [inbox_hear, inbox_hear, inbox_hear, hdrain]
  rw [deliver_eq, deliver_eq, inbox_hear, hdrain]
  -- without a fault in the second piece both sides go on, else both end with its fault
  cases ((s.inbox.feed a).drain.2.feed b).drain.1.fault with
  | none => exact ⟨rfl, hcontents, fun _ => hinbox⟩
  | some fault => exact .of_fault fault hcontents

/-- A fault in the first piece is there whatever follows. -/
theorem coincide_of_fault {s : Session τ κ} {a : Bytes} {fault : Fault}
    (hfault : (s.inbox.feed a).drain.1.fault = some fault)
    (hx : MessagePack.Walk.Exact s.inbox.framer.limit (s.inbox.feed a).drain.2.buffered)
    (b : Bytes) : Coincide (deliver (a ++ b) s) (deliver a s) := by
  have hsome : (s.inbox.feed a).drain.1.fault ≠ none := by
    rw [hfault]
    exact Option.some_ne_none fault
  -- the first fault hides all that follows, so the second piece adds no packets
  have hdrain := Inbox.drain_feed_of_fault b hsome hx
  rw [Inbox.feed_feed] at hdrain
  have hcontents : (s.hear (a ++ b)).contents = (s.hear a).contents := by
    rw [contents_hear, contents_hear, hdrain]
  rw [deliver_eq, deliver_eq, hdrain, hfault]
  exact .of_fault fault hcontents

/-- **Feeding is a homomorphism.** To feed two pieces to an open session is to feed both at once:

* if the first piece ends the session, then both at once end it with the same error, and the second
  piece is refused;
* if it does not, the second piece has the result that both at once have;
* either way the sessions hold the same: answers, registry with the states of its capabilities and
  its notifications, counters, and whether they have ended; and if they have not, they have the
  same inbox.

This holds for streams with a fault anywhere in them. What is buffered fits into a memory, or the
limit is one that can be exceeded. -/
theorem feed_append {s : Session τ κ} {a : Bytes} (hopen : s.closed = false)
    (hx : MessagePack.Walk.Exact s.inbox.framer.limit (s.inbox.feed a).buffered) (b : Bytes) :
    let first := feed a s
    let second := feed b first.2
    let whole := feed (a ++ b) s
    (∀ e, first.1 = .error e → whole.1 = .error e ∧ second.1 = .error .closed) ∧
      (first.1 = .ok () → whole.1 = second.1) ∧
      whole.2.contents = second.2.contents ∧
      (whole.2.closed = false → whole.2.inbox = second.2.inbox) := by
  have hx' := hx.mono (s.inbox.feed a).buffered_drain_le
  have hwhole : feed (a ++ b) s = deliver (a ++ b) s := feed_of_open hopen (a ++ b)
  intro first second whole
  cases hfault : (s.inbox.feed a).drain.1.fault with
  | none =>
    -- the first piece leaves the session open, so the second one is delivered
    have hfirst : first = (.ok (), s.hear a) := by
      show feed a s = _
      rw [feed_of_open hopen, deliver_eq, hfault]
    have hopen' : (s.hear a).closed = false := (closed_hear a s).trans hopen
    have hsecond : second = deliver b (s.hear a) := by
      show feed b first.2 = _
      rw [hfirst]
      exact feed_of_open hopen' b
    have hsame : Coincide whole second := by
      rw [hsecond, show whole = _ from hwhole]
      exact coincide_deliver hfault hx' b
    refine ⟨fun e he => ?_, fun _ => hsame.result, hsame.contents, hsame.inbox⟩
    rw [hfirst] at he
    cases he
  | some fault =>
    -- the first piece ends the session, so the second one is refused
    have hfirst : first = deliver a s := feed_of_open hopen a
    have hends : first = (.error (.ofFault fault), (s.hear a).close) := by
      rw [hfirst, deliver_eq, hfault]
      exact Prod.ext rfl (if_pos (isFatal_ofFault fault))
    have hclosed : first.2.closed = true := by
      rw [hends]
      exact closed_close _
    have hsecond : second = (.error .closed, first.2) := feed_of_closed hclosed b
    have hsame : Coincide whole first := by
      rw [hfirst, show whole = _ from hwhole]
      exact coincide_of_fault hfault hx' b
    rw [hsecond]
    refine ⟨fun e he => ⟨hsame.result.trans he, rfl⟩, fun hok => ?_, hsame.contents, hsame.inbox⟩
    rw [hends] at hok
    cases hok

/-- A packet, and behind it a marker that begins no value. The cut is inside of the packet. -/
theorem feed_append_reserved :
    let s : Session SendOnly Known := create {} {} none {}
    let first := feed [0x91] s
    let second := feed [0x05, 0xc1] first.2
    let whole := feed [0x91, 0x05, 0xc1] s
    s.closed = false ∧
      MessagePack.Walk.Exact s.inbox.framer.limit (s.inbox.feed [0x91]).buffered ∧
      first.1 = .ok () ∧ whole.1 = second.1 ∧ whole.2.contents = second.2.contents := by
  intro s first second whole
  have hopen : s.closed = false := rfl
  have hx : MessagePack.Walk.Exact s.inbox.framer.limit (s.inbox.feed [0x91]).buffered :=
    .inl (by decide)
  -- one byte of an array is no packet yet
  have hfirst : first.1 = .ok () := by
    show (feed [0x91] s).1 = _
    rw [feed_of_open hopen, deliver_eq]
    cbv
  obtain ⟨-, hsame, hcontents, -⟩ := feed_append hopen hx [0x05, 0xc1]
  exact ⟨hopen, hx, hfirst, hsame hfirst, hcontents⟩

end Session

end BoardLink
