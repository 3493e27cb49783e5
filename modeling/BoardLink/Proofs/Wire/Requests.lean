import BoardLink.Proofs.Wire.RoundTrip
import BoardLink.Wire.Endpoint

/-!
# Requests on the wire

A client appends its requests to the outgoing bytes, one behind the other, with nothing between
them. The server's end takes them off what has arrived so far, each time that a piece arrives. It
takes what its framer takes (`ServerEnd.drainPieces_eq_takePieces`), so the pieces do not show, and
what a client has sent is what the server gets.

* `foldl_send` — the bytes that a client sends;
* `ServerEnd.drainPieces_sent` — requests of every kind survive the wire, however it cuts them.
-/

namespace BoardLink.Wire

open BoardLink.MessagePack

/-! ### The server's end -/

theorem receiveWith_eq_nextAs {α : Type} (read : Value → Except Fault α) (f : Framer)
    (buffer : Bytes) : receiveWith read f buffer = f.nextAs ⟨read, .ofFrame⟩ buffer := by
  unfold receiveWith Framer.nextAs
  rcases f.next buffer with ⟨why | _ | v, f', rest⟩ <;> rfl

/-- **The server's end yields what its framer yields.** -/
theorem ServerEnd.drain_eq_takeAll (e : ServerEnd) (buffer : Bytes) : e.drain buffer =
    ⟨(e.framer.takeAll readRequests buffer).items, (e.framer.takeAll readRequests buffer).fault,
      ⟨(e.framer.takeAll readRequests buffer).framer⟩,
      (e.framer.takeAll readRequests buffer).rest⟩ := by
  fun_induction ServerEnd.drain e buffer with
  | case1 e buffer framer rest hnext | case2 e buffer fault framer rest hnext =>
    -- nothing more is there, or a fault: both ends stop and keep what is left
    rw [receiveWith_eq_nextAs] at hnext
    rw [Framer.takeAll_eq, readRequests, hnext]
  | case3 e buffer r framer rest hnext hlt more ih =>
    -- a request is taken off and the buffer is shorter, which carries the induction
    rw [receiveWith_eq_nextAs] at hnext
    rw [Framer.takeAll_eq, readRequests, hnext]
    simp only [more, ih]
    rfl

/-- Goes on taking requests when a piece arrives, unless there was a fault. -/
def Requests.extend (cut : Requests) (piece : Bytes) : Requests :=
  match cut.fault with
  | some _ => { cut with rest := cut.rest ++ piece }
  | none =>
    let later := cut.last.drain (cut.rest ++ piece)
    { later with requests := cut.requests ++ later.requests }

/-- Takes the requests after each piece of what arrives. -/
def ServerEnd.drainPieces (e : ServerEnd) (pieces : List Bytes) : Requests :=
  pieces.foldl Requests.extend ⟨[], none, e, []⟩

/-- What the server's end has yielded, from what its framer has taken. -/
def Requests.ofTaken (t : Framer.Taken Fault Request) : Requests :=
  ⟨t.items, t.fault, ⟨t.framer⟩, t.rest⟩

theorem Requests.ofTaken_extend (t : Framer.Taken Fault Request) (piece : Bytes) :
    (ofTaken t).extend piece = ofTaken (t.extend readRequests piece) := by
  have hfault : (ofTaken t).fault = t.fault := rfl
  unfold extend Framer.Taken.extend
  rw [hfault]
  cases t.fault with
  | some fault => rfl
  | none =>
    -- no fault yet: both go on with the piece behind what is left
    simp only [ServerEnd.drain_eq_takeAll]
    rfl

/-- **In any fragmentation the server's end yields what its framer yields.** -/
theorem ServerEnd.drainPieces_eq_takePieces (e : ServerEnd) (pieces : List Bytes) :
    e.drainPieces pieces = .ofTaken (Framer.takePieces readRequests e.framer pieces) := by
  -- cuts begin with nothing taken, and from there on every piece extends both in the same way
  show pieces.foldl Requests.extend (.ofTaken ⟨[], none, e.framer, []⟩) = _
  exact List.foldl_hom Requests.ofTaken Requests.ofTaken_extend

/-! ### From the client to the server -/

/-- A client sends its requests one behind the other. -/
theorem foldl_send (client : ClientEnd) (requests : List Request) (out : Bytes) :
    requests.foldl (fun out r => client.send r out) out =
      out ++ Framer.encodeSent Request.toValue requests := by
  induction requests generalizing out with
  | nil => exact (List.append_nil out).symm
  | cons r requests ih =>
    rw [List.foldl_cons, ih, ClientEnd.send, List.append_assoc]
    rfl

/-- **Requests survive the wire.** A client has sent any requests whose strings and byte blocks can
be written and whose messages are within the limit of the server. Whatever the pieces are in which
the bytes arrive, the server gets these requests, in their order and without a fault; no bytes are
left, and the server's end is as it was before. And each request is read back from the value that it
is written as. -/
theorem ServerEnd.drainPieces_sent {limit : Nat} {requests : List Request} {pieces : List Bytes}
    (client : ClientEnd) (hlimit : limit ≤ maxSize)
    (hpasses : ∀ r ∈ requests, r.toValue.Passes limit)
    (hpieces : pieces.flatten = requests.foldl (fun out r => client.send r out) []) :
    drainPieces ⟨{ limit := limit }⟩ pieces = ⟨requests, none, ⟨{ limit := limit }⟩, []⟩ ∧
      ∀ r : Request, Request.ofValue r.toValue = .ok r := by
  refine ⟨?_, Request.ofValue_toValue⟩
  -- what passes the limit is taken, so for the framer the requests are as good as their values
  have hgets : ∀ r ∈ requests, readRequests.Gets limit r.toValue r :=
    fun r hr => Request.gets_of_passes (hpasses r hr)
  rw [foldl_send, List.nil_append] at hpieces
  rw [drainPieces_eq_takePieces, Framer.takePieces_encodeSent_whole hlimit hgets hpieces,
    List.map_id']
  rfl

/-- A block for a register and a read of more bytes than a word can count, cut between the marker of
the block and its length, and right in front of the second request. -/
theorem ServerEnd.drainPieces_sent_two :
    let requests : List Request := [.writeRegN "FAOUT-01" 1 2 [0xff, 0x00], .readRaw "" 70000]
    let sent := requests.foldl (fun out r => ClientEnd.send {} r out) []
    let pieces := [sent.take 23, [], (sent.drop 23).take 3, sent.drop 26]
    (∀ r ∈ requests, r.toValue.Passes 64) ∧ pieces.flatten = sent ∧
      drainPieces ⟨{ limit := 64 }⟩ pieces = ⟨requests, none, ⟨{ limit := 64 }⟩, []⟩ := by
  intro requests sent pieces
  -- the encodings are shorter than the limit, which stands for all that `Passes` asks for
  have hpasses : ∀ r ∈ requests, r.toValue.Passes 64 := by
    intro r hr
    have hlength : r.encode.length ≤ 64 := by
      revert r
      decide
    exact (Request.gets (by decide) hlength).passes
  have hpieces : pieces.flatten = sent := by decide
  exact ⟨hpasses, hpieces, (drainPieces_sent {} (by decide) hpasses hpieces).1⟩

end BoardLink.Wire
