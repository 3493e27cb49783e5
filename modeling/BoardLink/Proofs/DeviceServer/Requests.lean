import BoardLink.DeviceServer.Connection
import BoardLink.Proofs.Wire.Requests

/-!
# Requests that arrive in pieces

A device server cuts requests off what has arrived, like a client cuts packets. Where a piece ends
does not show in what it does (`Connection.accept_accept`), so a request that has arrived as a whole
is handled as if it had come at once (`Connection.accept_request`), and until then nothing happens
(`Connection.accept_partial`).
-/

namespace BoardLink

open BoardLink.MessagePack BoardLink.Wire

namespace Connection

/-! ### Handling leaves the reader alone -/

/-- A connection with other bytes in front of it. -/
def withReader (c : Connection) (reader : ServerEnd) (undecoded : Bytes) : Connection :=
  { c with reader, undecoded }

theorem act_withReader (c : Connection) (reader : ServerEnd) (undecoded : Bytes) (action : Action) :
    (c.withReader reader undecoded).act action = (c.act action).withReader reader undecoded := by
  -- no action reads the bytes that came in or writes them
  obtain ⟨server, reader', undecoded', received, output, ending⟩ := c
  cases ending with
  | some ending => rfl
  | none => cases action <;> rfl

theorem foldl_act_withReader (c : Connection) (reader : ServerEnd) (undecoded : Bytes)
    (actions : List Action) : actions.foldl act (c.withReader reader undecoded) =
      (actions.foldl act c).withReader reader undecoded := by
  induction actions generalizing c with
  | nil => rfl
  | cons action actions ih => rw [List.foldl_cons, List.foldl_cons, act_withReader, ih]

theorem reply_withReader (c : Connection) (reader : ServerEnd) (undecoded : Bytes) (r : Request) :
    (c.withReader reader undecoded).reply r = (c.reply r).withReader reader undecoded := by
  obtain ⟨server, reader', undecoded', received, output, ending⟩ := c
  cases ending <;> rfl

/-- What is undecoded does not matter to the requests in front of it. -/
theorem handle_withReader (c : Connection) (reader : ServerEnd) (undecoded : Bytes) (r : Request) :
    (c.withReader reader undecoded).handle r = (c.handle r).withReader reader undecoded := by
  obtain ⟨server, reader', undecoded', received, output, ending⟩ := c
  cases ending with
  | some ending => rfl
  | none =>
    -- the actions that are due come first and the answer behind them, and neither reads the bytes
    let c : Connection := ⟨server, reader', undecoded', received ++ [r], output, none⟩
    show ((server.actionsAt received.length).foldl act (c.withReader reader undecoded)).reply r =
      (((server.actionsAt received.length).foldl act c).reply r).withReader reader undecoded
    rw [foldl_act_withReader, reply_withReader]

theorem foldl_handle_withReader (c : Connection) (reader : ServerEnd) (undecoded : Bytes)
    (requests : List Request) : requests.foldl handle (c.withReader reader undecoded) =
      (requests.foldl handle c).withReader reader undecoded := by
  induction requests generalizing c with
  | nil => rfl
  | cons r requests ih => rw [List.foldl_cons, List.foldl_cons, handle_withReader, ih]

/-! ### Accepting in pieces -/

theorem accept_of_ended {c : Connection} {ending : Except Fault Unit} (h : c.ending = some ending)
    (data : Bytes) : c.accept data = c := by
  unfold accept
  rw [h]

theorem ending_finish (c : Connection) (ending : Except Fault Unit) :
    (c.finish ending).ending ≠ none := by
  unfold finish
  -- the first ending stays
  split
  next earlier hended => rw [hended]; exact Option.some_ne_none earlier
  · exact Option.some_ne_none ending

/-- A live connection decodes behind what is left undecoded, and handles the requests. -/
theorem accept_of_live {c : Connection} (hlive : c.ending = none) (data : Bytes) :
    let cut := c.reader.drain (c.undecoded ++ data)
    let handled := (cut.requests.foldl handle c).withReader cut.last cut.rest
    c.accept data = match cut.fault with
      | none => handled
      | some fault => handled.finish (.error fault) := by
  -- handling does not read the bytes, so it does not matter that they are set only behind it
  obtain ⟨server, reader, undecoded, received, output, ending⟩ := c
  obtain rfl : ending = none := hlive
  intro cut handled
  have hhandled := foldl_handle_withReader ⟨server, reader, undecoded, received, output, none⟩
    cut.last cut.rest cut.requests
  simp only [handled]
  rw [← hhandled]
  rfl

/-- What a live connection does with bytes is what its framer takes off them. -/
theorem accept_eq {c : Connection} (hlive : c.ending = none) (data : Bytes) :
    let t := c.reader.framer.takeAll readRequests (c.undecoded ++ data)
    let handled := (t.items.foldl handle c).withReader ⟨t.framer⟩ t.rest
    c.accept data = match t.fault with
      | none => handled
      | some fault => handled.finish (.error fault) := by
  have haccept := accept_of_live hlive data
  rwa [ServerEnd.drain_eq_takeAll] at haccept

/-- **Where a piece ends does not show.** As long as the connection lives, it does with two pieces
what it does with both at once. -/
theorem accept_accept {c : Connection} {data : Bytes} (hlimit : c.reader.framer.limit < maxSize)
    (hlive : (c.accept data).ending = none) (more : Bytes) :
    (c.accept data).accept more = c.accept (data ++ more) := by
  have hbefore : c.ending = none := by
    -- a connection that has ended takes no bytes, and it would have ended behind them, too
    cases hended : c.ending with
    | none => rfl
    | some ending =>
      rw [accept_of_ended hended, hended] at hlive
      cases hlive
  -- the two pieces are taken one after the other, or at once
  have hx : Walk.Exact c.reader.framer.limit
      (c.reader.framer.takeAll readRequests (c.undecoded ++ data)).rest.length := .inl hlimit
  have htaken := Framer.takeAll_append more hx
  have hfirst := accept_eq hbefore data
  have hboth := accept_eq hbefore (data ++ more)
  rw [← List.append_assoc, htaken] at hboth
  generalize c.reader.framer.takeAll readRequests (c.undecoded ++ data) = t at hfirst hboth
  -- a fault in the first piece would have ended the connection
  cases hfault : t.fault with
  | some fault =>
    simp only [hfault] at hfirst
    rw [hfirst] at hlive
    exact absurd hlive (ending_finish _ _)
  | none =>
    -- else the requests of both pieces are those of one and then of the other
    simp only [hfault] at hfirst
    rw [Framer.Taken.extend, hfault] at hboth
    rw [hfirst] at hlive
    rw [hfirst, hboth, accept_eq hlive]
    simp only [List.foldl_append, foldl_handle_withReader]
    rfl

/-- A connection between two requests: nothing is undecoded, and it has not ended. -/
structure Between (c : Connection) : Prop where
  reader : c.reader = {}
  undecoded : c.undecoded = []
  live : c.ending = none

theorem Between.withReader_eq {c : Connection} (h : c.Between) : c.withReader {} [] = c := by
  rw [← h.reader, ← h.undecoded]
  rfl

theorem Between.accept_nil {c : Connection} (h : c.Between) : c.accept [] = c := by
  have haccept := accept_eq h.live []
  rw [h.reader, h.undecoded, List.append_nil, Framer.takeAll_nil] at haccept
  exact haccept.trans h.withReader_eq

/-- Until a request has arrived as a whole nothing happens. -/
theorem Between.accept_partial {c : Connection} {r : Request} {front : Bytes} (h : c.Between)
    (hlength : r.encode.length ≤ defaultMessageLimit) (hfront : front <+: r.encode)
    (hproper : front ≠ r.encode) : ∃ reader, c.accept front = c.withReader reader front := by
  have hpasses : r.toValue.Passes defaultMessageLimit := (Request.gets (by decide) hlength).passes
  -- a proper front of a request is no request, so the framer waits and keeps it
  obtain ⟨w, hwait⟩ := Framer.next_of_prefix hpasses (by decide) hfront hproper
  have htaken := Framer.takeAll_of_wait (r := readRequests) hwait
  have haccept := accept_eq h.live front
  rw [h.reader, h.undecoded, List.nil_append, htaken] at haccept
  exact ⟨_, haccept⟩

/-- **A request that has arrived is handled**, and then the connection stands between two requests
again, unless it has ended. -/
theorem Between.accept_request {c : Connection} {r : Request} (h : c.Between)
    (hlength : r.encode.length ≤ defaultMessageLimit) : c.accept r.encode = c.handle r := by
  -- the request is short enough to be got, and behind it nothing is left
  have hgets : ∀ r' ∈ [r], readRequests.Gets defaultMessageLimit r'.toValue r' := by
    intro r' hr'
    obtain rfl := List.mem_singleton.1 hr'
    exact Request.gets (by decide) hlength
  have hwait : Framer.next { limit := defaultMessageLimit } [] =
    (.ok none, { limit := defaultMessageLimit }, []) := rfl
  have htaken := Framer.takeAll_encodeSent (by decide) hgets hwait
  have hencode : Framer.encodeSent Request.toValue [r] ++ [] = r.encode := by
    rw [List.append_nil]
    exact List.append_nil _
  rw [hencode, List.map_id'] at htaken
  have haccept := accept_eq h.live r.encode
  -- the reader was fresh in front of the request, and is so behind it
  rw [h.reader, h.undecoded, List.nil_append, htaken] at haccept
  have hhandle := handle_withReader c {} [] r
  rw [h.withReader_eq] at hhandle
  rw [haccept, hhandle]
  rfl

end Connection

end BoardLink
