import BoardLink.RegisterAccess
import BoardLink.Session.Operations

/-!
# Operations that succeed

What a success of an operation says about its steps. An operation of a session is a sequence of
steps of which the first failure is the failure of the whole (`SessionM.bind_ok`), so each success
comes apart into the successes of its steps, and a request leaves everything but the transport as it
was (`Session.sendAll_ok`). The two loops, sending and waiting, are told turn by turn
(`Session.sendAll_cons`, `Session.awaitAnswer_of_none`).
-/

namespace BoardLink

open BoardLink.Wire

variable {τ κ : Type}

namespace SessionM

variable {α β : Type}

theorem bind_apply (x : SessionM τ κ α) (f : α → SessionM τ κ β) (s : Session τ κ) :
    (x >>= f) s = match x s with
      | (.ok a, s') => f a s'
      | (.error e, s') => (.error e, s') := by
  show ExceptT.bindCont f (x s).1 (x s).2 = _
  rcases x s with ⟨e | a, s'⟩ <;> rfl

/-- **A success is one of all steps.** -/
theorem bind_ok {x : SessionM τ κ α} {f : α → SessionM τ κ β} {s s'' : Session τ κ} {b : β}
    (h : (x >>= f) s = (.ok b, s'')) : ∃ a s', x s = (.ok a, s') ∧ f a s' = (.ok b, s'') :=
  Access.bind_ok h

end SessionM

namespace Session

theorem ensureOpen_ok {s s' : Session τ κ} {u : Unit} (h : ensureOpen s = (.ok u, s')) :
    s.closed = false ∧ s' = s := by
  obtain ⟨s₁, s₂, hget, hcheck⟩ := SessionM.bind_ok h
  obtain ⟨rfl, rfl⟩ : s = s₁ ∧ s = s₂ := by
    cases hget
    exact ⟨rfl, rfl⟩
  -- asking changes nothing, and fails on a session that has ended
  cases hclosed : s.closed with
  | true =>
    rw [hclosed] at hcheck
    cases hcheck
  | false =>
    rw [hclosed] at hcheck
    cases hcheck
    exact ⟨rfl, rfl⟩

theorem ensureOpen_of_open {s : Session τ κ} (h : s.closed = false) :
    ensureOpen s = (.ok (), s) := by
  show (if s.closed = true then _ else _ : SessionM τ κ Unit) s = _
  rw [if_neg (ne_true_of_eq_false h)]
  rfl

theorem ensureOpen_of_closed {s : Session τ κ} (h : s.closed = true) :
    ensureOpen s = (.error .closed, s) := by
  show (if s.closed = true then _ else _ : SessionM τ κ Unit) s = _
  rw [if_pos h]
  rfl

/-- What begins by asking whether the session is open goes on if it is, -/
theorem ensureOpen_bind_of_open {α : Type} {s : Session τ κ} (h : s.closed = false)
    (f : Unit → SessionM τ κ α) : (ensureOpen >>= f) s = f () s := by
  rw [SessionM.bind_apply, ensureOpen_of_open h]

/-- and is refused if the session has ended. -/
theorem ensureOpen_bind_of_closed {α : Type} {s : Session τ κ} (h : s.closed = true)
    (f : Unit → SessionM τ κ α) : (ensureOpen >>= f) s = (.error .closed, s) := by
  rw [SessionM.bind_apply, ensureOpen_of_closed h]

variable [Transport τ]

theorem sendRequest_of_open {s : Session τ κ} (h : s.closed = false) (r : Request) :
    sendRequest r s = sendAll r.encode s :=
  ensureOpen_bind_of_open h _

theorem sendRequest_of_closed {s : Session τ κ} (h : s.closed = true) (r : Request) :
    sendRequest r s = (.error .closed, s) :=
  ensureOpen_bind_of_closed h _

/-- One turn of sending. -/
theorem sendAll_cons (b : UInt8) (rest : Bytes) (s : Session τ κ) : sendAll (b :: rest) s =
    match Transport.send s.transport (b :: rest) with
    | (.ok 0, transport) => fail .connectionClosed { s with transport }
    | (.ok (n + 1), transport) => sendAll (rest.drop n) { s with transport }
    | (.error fault, transport) =>
      if fault.kind = .interrupted then sendAll (b :: rest) { s with transport }
      else fail (.io fault) { s with transport } := by
  rw [sendAll]
  split <;> rename_i hsend <;> simp only [hsend]
  split <;> rfl

/-- A message is sent at once if the transport takes all of it. -/
theorem sendAll_of_taken {s : Session τ κ} {b : UInt8} {rest : Bytes} {transport : τ}
    (h : Transport.send s.transport (b :: rest) = (.ok (rest.length + 1), transport)) :
    sendAll (b :: rest) s = (.ok (), { s with transport }) := by
  -- the loop goes on with what is left, and that is nothing
  have hnone : rest.drop rest.length = [] := List.drop_length
  rw [sendAll_cons, h]
  simp only [hnone, sendAll]

/-- Sending concerns the transport alone. -/
theorem sendAll_ok {s s' : Session τ κ} {bytes : Bytes} (h : sendAll bytes s = (.ok (), s')) :
    ∃ transport, s' = { s with transport } := by
  fun_induction sendAll bytes s with
  | case1 s =>
    obtain ⟨-, rfl⟩ := Prod.mk.inj h
    exact ⟨s.transport, rfl⟩
  -- the transport has gone, which is no success
  | case2 s b rest transport hsend => simp [fail] at h
  | case3 s b rest n transport hsend ih =>
    -- a part was taken, or the offer was interrupted: sending goes on, and has succeeded
    obtain ⟨last, rfl⟩ := ih h
    exact ⟨last, rfl⟩
  | case4 s b rest fault transport hsend hinterrupted hpatience ih =>
    obtain ⟨last, rfl⟩ := ih h
    exact ⟨last, rfl⟩
  | case5 s b rest fault transport hsend hfatal => simp [fail] at h

/-- A request is sent by an open session, and concerns the transport alone. -/
theorem sendRequest_ok {s s' : Session τ κ} {r : Request} {u : Unit}
    (h : sendRequest r s = (.ok u, s')) :
    s.closed = false ∧ ∃ transport, s' = { s with transport } := by
  obtain ⟨u', s₁, hopen, hall⟩ := SessionM.bind_ok h
  obtain ⟨hclosed, rfl⟩ := ensureOpen_ok hopen
  exact ⟨hclosed, sendAll_ok hall⟩

variable [Capability κ]

theorem waitForAnswer_of_open {s : Session τ κ} (h : s.closed = false) :
    waitForAnswer s = awaitAnswer s :=
  ensureOpen_bind_of_open h _

omit [Transport τ] in
theorem feed_of_open {s : Session τ κ} (h : s.closed = false) (data : Bytes) :
    feed data s = deliver data s :=
  ensureOpen_bind_of_open h _

omit [Transport τ] in
theorem feed_of_closed {s : Session τ κ} (h : s.closed = true) (data : Bytes) :
    feed data s = (.error .closed, s) :=
  ensureOpen_bind_of_closed h _

/-- Waiting ends with the oldest answer. -/
theorem awaitAnswer_of_answers {s : Session τ κ} {a : Answer} {answers : List Answer}
    (h : s.answers = a :: answers) : awaitAnswer s = (answerOutcome a, { s with answers }) := by
  rw [awaitAnswer]
  split
  next hsome =>
    -- of the two branches only the one with an answer in front is possible
    rw [h] at hsome
    cases hsome
    rfl
  next hnone => rw [h] at hnone; cases hnone

/-- One turn of waiting. -/
theorem awaitAnswer_of_none {s : Session τ κ} (hnone : s.answers = []) : awaitAnswer s =
    if Transport.canReceive s.transport then
      match receiveMore false s with
      | (.error e, s') => (.error e, s')
      | (.ok _, s') => awaitAnswer s'
    else (.error .noDataSource, s) := by
  rw [awaitAnswer]
  split
  next hsome => rw [hnone] at hsome; cases hsome
  · congr 1
    split <;> rename_i hmore <;> simp only [hmore]

/-- A call whose request has been sent waits for the answer. -/
theorem call_of_sent {s s' : Session τ κ} {r : Request} (hsend : sendRequest r s = (.ok (), s'))
    (hopen : s'.closed = false) : call r s = awaitAnswer s' := by
  rw [call, SessionM.bind_apply, hsend]
  exact waitForAnswer_of_open hopen

/-- A call is a request, sent by an open session, and the wait for its answer. -/
theorem call_ok {s s' : Session τ κ} {r : Request} {a : Answer} (h : call r s = (.ok a, s')) :
    s.closed = false ∧ ∃ transport, sendRequest r s = (.ok (), { s with transport }) ∧
      awaitAnswer { s with transport } = (.ok a, s') := by
  -- the request is sent, which leaves the session open, and then the answer is waited for
  -- the request leaves the session open, so the second check passes
  obtain ⟨u, s₁, hsend, hwait⟩ := SessionM.bind_ok h
  obtain ⟨hclosed, transport, rfl⟩ := sendRequest_ok hsend
  obtain ⟨u'', s₃, hopen', hanswer⟩ := SessionM.bind_ok hwait
  obtain ⟨-, rfl⟩ := ensureOpen_ok hopen'
  exact ⟨hclosed, transport, hsend, hanswer⟩

/-- A device list is the answer to a call, and the registry was made to match it. -/
theorem getDeviceList_ok {s s' : Session τ κ} {serials : List String}
    (h : getDeviceList s = (.ok serials, s')) :
    ∃ a s'', call .deviceList s = (.ok a, s'') ∧ a.serials = .ok serials ∧
      s' = s''.adopt (s''.registry.reconcile serials) := by
  obtain ⟨a, s₁, hcall, h⟩ := SessionM.bind_ok h
  -- the serials are read off the answer, whatever the session is
  obtain ⟨listed, s₂, hserials, h⟩ := SessionM.bind_ok h
  obtain ⟨hlisted, rfl⟩ : a.serials = .ok listed ∧ s₁ = s₂ := Prod.mk.inj hserials
  obtain ⟨u, s₃, hmodify, h⟩ := SessionM.bind_ok h
  cases hmodify
  cases h
  exact ⟨a, s₁, hcall, hlisted, rfl⟩

theorem getDeviceList_of_call {s s' : Session τ κ} {a : Answer} {serials : List String}
    (hcall : call .deviceList s = (.ok a, s')) (hserials : a.serials = .ok serials) :
    getDeviceList s = (.ok serials, s'.adopt (s'.registry.reconcile serials)) := by
  rw [getDeviceList, SessionM.bind_apply, hcall]
  show ((liftM a.serials : SessionM τ κ (List String)) >>= _) s' = _
  rw [hserials]
  rfl

end Session

end BoardLink
