import BoardLink.Proofs.DeviceServer.Requests

/-!
# A line to a device server

A `Connection` used as a transport takes what it is offered at once and delivers as much as is asked
for. A `Line` lies between a client and a connection and does neither: it takes a part of what is
offered, the bytes travel and arrive at the server in pieces, and the client is given a part of what
the server has written. How much of it and in which pieces is left open: the cuts of a line are any
function of how often it was used. It keeps the order of the bytes, and it does not stop: it takes
and delivers at least one byte, and what the client has sent has arrived when the client waits.

* `Line.accepts` — the crux: whatever the cuts are, the server has heard a front part of what was
  sent, and the rest of it is on its way;
* `Line.delivers` — all that the server writes is delivered, in the pieces that the cuts tell.
-/

namespace BoardLink

open BoardLink.MessagePack BoardLink.Wire

/-! ### What a transport carries -/

section Carrying

variable {τ : Type} [Transport τ]

/-- **A transport accepts bytes**, in as many sends as it takes. -/
inductive Accepts : τ → Bytes → τ → Prop
  | all (t : τ) : Accepts t [] t
  | some {t t₁ t' : τ} {b : UInt8} {rest : Bytes} {n : Nat}
    (hsend : Transport.send t (b :: rest) = (.ok (n + 1), t₁)) (later : Accepts t₁ (rest.drop n) t') :
    Accepts t (b :: rest) t'

/-- **A transport delivers bytes**, in as many receives of a size as it takes. -/
inductive Delivers (size : Nat) : τ → Bytes → τ → Prop
  | all (t : τ) : Delivers size t [] t
  | some {t t₁ t' : τ} {b : UInt8} {piece later : Bytes} (hcan : Transport.canReceive t = true)
    (hreceive : Transport.receive t size = (.ok (b :: piece), t₁)) (hlater : Delivers size t₁ later t') :
    Delivers size t (b :: piece ++ later) t'

end Carrying

/-! ### The line -/

/-- How a line cuts what it carries in one use. -/
structure Cut where
  /-- How many bytes are taken at most; one more than this number. -/
  taken : Nat
  /-- The sizes of the pieces that arrive at the server, each one more than the number. -/
  pieces : List Nat
  /-- How many bytes are delivered at most; one more than this number. -/
  delivered : Nat

/-- A line between a client and the server's side of a connection. -/
structure Line where
  connection : Connection
  /-- What the client has sent and what has not arrived yet. -/
  inFlight : Bytes := []
  cuts : Nat → Cut
  /-- How often the line was used. -/
  uses : Nat := 0

namespace Line

/-- Lets pieces of some sizes arrive, as far as there are bytes. The others stay on their way. -/
def carry (c : Connection) (bytes : Bytes) (sizes : List Nat) : Connection × Bytes :=
  match bytes, sizes with
  | [], _ | _, [] => (c, bytes)
  | b :: rest, n :: sizes => carry (c.accept (b :: rest.take n)) (rest.drop n) sizes

/-- Lets all bytes arrive, in pieces of some sizes and the rest in one. -/
def settle (c : Connection) (bytes : Bytes) (sizes : List Nat) : Connection :=
  match carry c bytes sizes with
  | (c, []) => c
  | (c, b :: rest) => c.accept (b :: rest)

/-- How the line cuts now. -/
def cut (l : Line) : Cut := l.cuts l.uses

/-- The connection once all has arrived. -/
def settled (l : Line) : Connection := settle l.connection l.inFlight l.cut.pieces

/-- Takes some bytes, at least one, from the front of what is offered, and lets some arrive. -/
def send (l : Line) (offered : Bytes) : Except IoFault Nat × Line :=
  let taken := offered.take (l.cut.taken + 1)
  let (connection, inFlight) := carry l.connection (l.inFlight ++ taken) l.cut.pieces
  (.ok taken.length, { l with connection, inFlight, uses := l.uses + 1 })

/-- Waits until all has arrived, and then delivers some of what the server has written. -/
def receive (l : Line) (size : Nat) : Except IoFault Bytes × Line :=
  let (result, connection) := l.settled.receive (min size (l.cut.delivered + 1))
  (result, { l with connection, inFlight := [], uses := l.uses + 1 })

theorem settle_nil (c : Connection) (sizes : List Nat) : settle c [] sizes = c := by
  unfold settle
  cases sizes <;> rw [carry]

/-- What a receive leaves behind has arrived. -/
theorem receive_eq {l l' : Line} {size : Nat} {result : Except IoFault Bytes}
    (h : l.receive size = (result, l')) :
    l.settled.receive (min size (l.cut.delivered + 1)) = (result, l'.settled) ∧ l'.inFlight = [] := by
  unfold receive at h
  generalize l.settled.receive (min size (l.cut.delivered + 1)) = outcome at h ⊢
  obtain ⟨result, c⟩ := outcome
  obtain ⟨rfl, rfl⟩ := Prod.mk.inj h
  -- nothing is on its way any more, so settling again does nothing
  refine ⟨?_, rfl⟩
  show (result, c) = (result, settle c [] _)
  rw [settle_nil]

instance : Transport Line where
  send := send
  receive := receive
  canReceive _ := true
  sendPatience _ := 0
  receivePatience l := l.settled.output.length
  sendPatience_lt h _ := by cases (Prod.mk.inj h).1
  receivePatience_lt_of_data {l _ _ _} h hne :=
    Transport.receivePatience_lt_of_data (t := l.settled) (receive_eq h).1 hne
  receivePatience_lt_of_fault {l _ _ _} h hk :=
    Transport.receivePatience_lt_of_fault (t := l.settled) (receive_eq h).1 hk

/-! ### What arrives at the server -/

end Line

/-- A connection that lives on while a stream arrives, wherever the stream is cut. -/
structure Connection.Tolerates (c : Connection) (stream : Bytes) : Prop where
  limit_lt : c.reader.framer.limit < maxSize
  live : ∀ front, front <+: stream → (c.accept front).ending = none

namespace Line

variable {c : Connection} {stream front bytes : Bytes}

/-- Whatever the sizes are, a front part of the stream has arrived, and the rest is on its way. -/
theorem carry_eq (h : c.Tolerates stream) (sizes : List Nat) (hstream : front ++ bytes <+: stream) :
    ∃ arrived rest, arrived ++ rest = bytes ∧
      carry (c.accept front) bytes sizes = (c.accept (front ++ arrived), rest) := by
  induction sizes generalizing front bytes with
  | nil =>
    -- no more pieces: what is left is on its way
    refine ⟨[], bytes, rfl, ?_⟩
    rw [List.append_nil]
    cases bytes with
    | nil => rw [carry]
    | cons b rest => rw [carry]; exact List.cons_ne_nil b rest
  | cons n sizes ih =>
    cases bytes with
    | nil =>
      refine ⟨[], [], rfl, ?_⟩
      rw [List.append_nil, carry]
    | cons b rest =>
      -- the first piece arrives behind what has arrived before
      have hpiece : (c.accept front).accept (b :: rest.take n) = c.accept (front ++ b :: rest.take n) :=
        Connection.accept_accept h.limit_lt
          (h.live front ((List.prefix_append front _).trans hstream)) _
      have hcut : b :: rest = b :: rest.take n ++ rest.drop n :=
        congrArg (b :: ·) (List.take_append_drop n rest).symm
      rw [hcut, ← List.append_assoc] at hstream
      obtain ⟨arrived, later, hlater, hcarry⟩ := ih hstream
      refine ⟨b :: rest.take n ++ arrived, later, ?_, ?_⟩
      · rw [hcut, ← hlater, List.append_assoc]
      · rw [carry, hpiece, hcarry, List.append_assoc]

/-- Once all has arrived, it has arrived as if at once. -/
theorem settle_eq (h : c.Tolerates stream) (sizes : List Nat) (hstream : front ++ bytes <+: stream) :
    settle (c.accept front) bytes sizes = c.accept (front ++ bytes) := by
  obtain ⟨arrived, rest, hbytes, hcarry⟩ := carry_eq h sizes hstream
  rw [settle, hcarry, ← hbytes]
  cases rest with
  -- all has arrived in pieces, or the last of it arrives now
  | nil => rw [List.append_nil]
  | cons b rest =>
    rw [← hbytes, ← List.append_assoc] at hstream
    rw [← List.append_assoc]
    exact Connection.accept_accept h.limit_lt
      (h.live _ ((List.prefix_append _ _).trans hstream)) _

/-- **The line carries bytes to a connection**: a front part of them has arrived, and the rest is on
its way. -/
def Carries (l : Line) (c : Connection) (bytes : Bytes) : Prop :=
  ∃ front, l.connection = c.accept front ∧ front ++ l.inFlight = bytes

theorem Carries.settled {l : Line} (h : l.Carries c bytes) (htolerates : c.Tolerates stream)
    (hstream : bytes <+: stream) : l.settled = c.accept bytes := by
  obtain ⟨front, hconnection, rfl⟩ := h
  rw [Line.settled, hconnection]
  exact settle_eq htolerates _ hstream

/-- A send takes some bytes, and the line carries them behind the others. -/
theorem Carries.send {l : Line} {b : UInt8} {rest : Bytes} (h : l.Carries c bytes)
    (htolerates : c.Tolerates stream) (hstream : bytes ++ b :: rest <+: stream) :
    ∃ n l', Transport.send l (b :: rest) = (.ok (n + 1), l') ∧
      l'.Carries c (bytes ++ b :: rest.take n) := by
  obtain ⟨front, hconnection, rfl⟩ := h
  -- one byte at least is taken
  have htaken : (b :: rest).take (l.cut.taken + 1) = b :: rest.take l.cut.taken := rfl
  -- what is on its way and what is taken belong to the stream, so the connection tolerates it
  have hfront : front ++ (l.inFlight ++ b :: rest.take l.cut.taken) <+: stream := by
    have hless : b :: rest.take l.cut.taken <+: b :: rest :=
      (List.prefix_cons_inj b).2 (List.take_prefix _ _)
    rw [← List.append_assoc]
    exact ((List.prefix_append_right_inj _).2 hless).trans hstream
  obtain ⟨arrived, later, hlater, hcarry⟩ := carry_eq htolerates l.cut.pieces hfront
  let l' : Line :=
    { l with connection := c.accept (front ++ arrived), inFlight := later, uses := l.uses + 1 }
  refine ⟨(rest.take l.cut.taken).length, l', ?_, ?_⟩
  · show Line.send l (b :: rest) = _
    simp only [Line.send, htaken, hconnection, hcarry]
    rfl
  -- the rest of the offer is what a sender offers next
  · refine ⟨front ++ arrived, rfl, ?_⟩
    have hlength : rest.take (rest.take l.cut.taken).length = rest.take l.cut.taken := by
      rw [List.length_take]
      exact List.take_eq_take_min.symm
    rw [List.append_assoc, hlater, List.append_assoc, hlength]

/-- **A line accepts all that a tolerant connection is to hear.** -/
theorem accepts {l : Line} (h : l.Carries c front) (htolerates : c.Tolerates stream)
    (hstream : front ++ bytes <+: stream) :
    ∃ l', Accepts l bytes l' ∧ l'.Carries c (front ++ bytes) := by
  induction hn : bytes.length using Nat.strongRecOn generalizing l front bytes with
  | _ n ih =>
  cases bytes with
  | nil =>
    rw [List.append_nil]
    exact ⟨l, .all l, h⟩
  | cons b rest =>
    obtain ⟨taken, l₁, hsend, hcarries⟩ := h.send htolerates hstream
    have hcut : front ++ b :: rest = front ++ b :: rest.take taken ++ rest.drop taken := by
      rw [List.append_assoc, List.cons_append, List.take_append_drop]
    rw [hcut] at hstream ⊢
    -- what is not taken is offered again, and is shorter
    have hshorter : (rest.drop taken).length < n := by
      rw [← hn, List.length_drop, List.length_cons]
      omega
    obtain ⟨l', hlater, hl'⟩ := ih _ hshorter hcarries hstream rfl
    exact ⟨l', .some hsend hlater, hl'⟩

/-! ### What the client is given -/

/-- A receive gives a front part of what the server has written, which is not empty. -/
theorem receive_of_output {l : Line} {b : UInt8} {rest : Bytes} (size : Nat)
    (hout : l.settled.output = b :: rest) :
    ∃ n l', Transport.receive l (size + 1) = (.ok (b :: rest.take n), l') ∧
      l'.connection = { l.settled with output := rest.drop n } ∧ l'.inFlight = [] := by
  -- the smaller of the two sizes is not zero, so a byte is delivered
  have hmin : min (size + 1) (l.cut.delivered + 1) = min size l.cut.delivered + 1 := by omega
  have hreceive : l.settled.receive (min (size + 1) (l.cut.delivered + 1)) =
      (.ok (b :: rest.take (min size l.cut.delivered)),
        { l.settled with output := rest.drop (min size l.cut.delivered) }) := by
    rw [hmin, Connection.receive, hout]
    rfl
  refine ⟨min size l.cut.delivered, (l.receive (size + 1)).2, ?_, ?_, rfl⟩
  · show l.receive (size + 1) = _
    simp only [Line.receive, hreceive]
  · simp only [Line.receive, hreceive]

/-- **A line delivers all that the server has written**, and then nothing is left on its way. -/
theorem delivers {l : Line} {size : Nat} (hsize : 0 < size) (hout : l.settled.output ≠ []) :
    ∃ l', Delivers size l l.settled.output l' ∧
      l'.connection = { l.settled with output := [] } ∧ l'.inFlight = [] := by
  obtain ⟨size, rfl⟩ := Nat.exists_eq_add_one.2 hsize
  induction hn : l.settled.output.length using Nat.strongRecOn generalizing l with
  | _ n ih =>
  obtain ⟨b, rest, houtput⟩ := List.exists_cons_of_ne_nil hout
  obtain ⟨taken, l₁, hreceive, hconnection, hinFlight⟩ := receive_of_output size houtput
  -- the line has nothing to wait for, and the server only loses what it has delivered
  have hsettled : l₁.settled = { l.settled with output := rest.drop taken } := by
    rw [Line.settled, hinFlight, settle_nil, hconnection]
  have hcut : l.settled.output = b :: rest.take taken ++ rest.drop taken := by
    rw [houtput, List.cons_append, List.take_append_drop]
  rw [hcut]
  cases hleft : rest.drop taken with
  | nil =>
    rw [hleft] at hconnection
    exact ⟨l₁, .some rfl hreceive (.all l₁), hconnection, hinFlight⟩
  | cons b' later =>
    -- what is left is shorter, and the line is as before but for it
    have hmore : l₁.settled.output = b' :: later := by rw [hsettled, hleft]
    have hshorter : l₁.settled.output.length < n := by
      rw [← hn, houtput, hsettled, List.length_drop, List.length_cons]
      omega
    have hleftover : l₁.settled.output ≠ [] := by
      rw [hmore]
      exact List.cons_ne_nil b' later
    obtain ⟨l', hdelivers, hl', hnone⟩ := ih _ hshorter hleftover rfl
    rw [hmore] at hdelivers
    refine ⟨l', .some rfl hreceive hdelivers, ?_, hnone⟩
    rw [hl', hsettled]

/-! ### Exchanges -/

/-- Nothing is on its way, in either direction, and the connection stands between two requests. -/
structure Idle (l : Line) : Prop where
  between : l.connection.Between
  inFlight : l.inFlight = []
  output : l.connection.output = []

end Line

/-- A connection that handles a request lives on wherever the request is cut. -/
theorem Connection.Between.tolerates {c : Connection} {r : Request} (h : c.Between)
    (hlength : r.encode.length ≤ defaultMessageLimit) (hlive : (c.handle r).ending = none) :
    c.Tolerates r.encode where
  limit_lt := by
    rw [h.reader]
    decide
  live := by
    intro front hfront
    by_cases hwhole : front = r.encode
    · rw [hwhole, h.accept_request hlength]
      exact hlive
    -- less than the request: nothing is handled yet
    · obtain ⟨reader, hpartial⟩ := h.accept_partial hlength hfront hwhole
      rw [hpartial]
      exact h.live

namespace Line

/-- **An exchange over an idle line**: a request is accepted, and what the server writes because of
it is delivered. -/
theorem Idle.exchange {l : Line} {r : Request} {size : Nat} (h : l.Idle) (hsize : 0 < size)
    (hlength : r.encode.length ≤ defaultMessageLimit)
    (hlive : (l.connection.handle r).ending = none)
    (hreply : (l.connection.handle r).output ≠ []) :
    ∃ l₁ l', Accepts l r.encode l₁ ∧ Delivers size l₁ (l.connection.handle r).output l' ∧
      l'.connection = { l.connection.handle r with output := [] } ∧ l'.inFlight = [] := by
  have htolerates := h.between.tolerates hlength hlive
  -- as nothing is on its way, the request begins a stream
  have hnothing : l.Carries l.connection [] := by
    refine ⟨[], h.between.accept_nil.symm, ?_⟩
    rw [h.inFlight]
    rfl
  obtain ⟨l₁, haccepts, hcarries⟩ := accepts hnothing htolerates (List.prefix_refl r.encode)
  -- all that was sent is the request, so it is handled once it has arrived
  have hsettled : l₁.settled = l.connection.handle r := by
    rw [hcarries.settled htolerates (List.prefix_refl r.encode)]
    exact h.between.accept_request hlength
  rw [← hsettled] at hreply ⊢
  obtain ⟨l', hdelivers, hconnection, hinFlight⟩ := delivers hsize hreply
  exact ⟨l₁, l', haccepts, hdelivers, hconnection, hinFlight⟩

end Line

end BoardLink
