import BoardLink.Proofs.Failures
import BoardLink.Proofs.Session.Calls

/-!
# Runs of a session

What an application does with a session is a sequence of operations. Most of them are calls: a call
on a device sends one request and reads its result off the answer. The calls differ in the request
that they send and in what they make of the answer, and in nothing else (`Call.run_eq`), so what is
true of one call is true of all of them.

`Session.after` is the session behind a sequence of operations, and `Session.gather` puts together
what each of them contributes to some record of the run: the requests sent, the notifications handed
out.
-/

namespace BoardLink

open BoardLink.Wire

/-- What an operation returns. -/
inductive Reply where
  /-- Nothing but that it succeeded. -/
  | done
  | serials (serials : List String)
  | flag (b : Bool)
  | word (w : UInt16)
  | words (words : List UInt16)
  | bytes (bytes : Bytes)
  | answer (a : Answer)
  | notifications (notifications : List Notification)

/-- Whether an outcome is an error that ends the session. -/
def isFatal {α : Type} : Except SessionError α → Bool
  | .ok _ => false
  | .error e => e.isFatal

@[simp] theorem isFatal_map {α β : Type} (f : α → β) (x : Except SessionError α) :
    isFatal (f <$> x) = isFatal x := by
  cases x <;> rfl

/-! ### What an answer can be blamed for -/

/-- An error that an answer can bring: the server's own, or that the answer is not what was asked
for. -/
def SessionError.IsOfAnswer : SessionError → Prop
  | .server _ _ | .unexpectedPayload _ | .lengthMismatch _ _ => True
  | _ => False

theorem isFatal_of_failsOnly {α : Type} {x : Except SessionError α}
    (h : FailsOnly SessionError.IsOfAnswer x) : isFatal x = false := by
  cases x with
  | ok a => rfl
  | error e =>
    have he := h e rfl
    cases e with
    | server | unexpectedPayload | lengthMismatch => rfl
    -- the errors of the transport and of the session itself are not an answer's
    | _ => exact he.elim

theorem failsOnly_answerOutcome (a : Answer) :
    FailsOnly SessionError.IsOfAnswer (Session.answerOutcome a) := by
  unfold Session.answerOutcome
  split
  · exact .error trivial
  · exact .ok a

theorem failsOnly_serials (a : Answer) : FailsOnly SessionError.IsOfAnswer a.serials := by
  unfold Answer.serials
  split
  next items hitems =>
    -- the items may be any list here, whether they are those of this answer does not matter
    clear hitems
    induction items with
    | nil => exact .ok []
    | cons item items ih =>
      rw [List.mapM_cons]
      refine FailsOnly.bind ?_ fun serial => ih.bind fun serials => .ok _
      split
      · exact .ok _
      · exact .error trivial
  · exact .error trivial

theorem failsOnly_flag (a : Answer) : FailsOnly SessionError.IsOfAnswer a.flag := by
  unfold Answer.flag
  split
  · exact .ok _
  · exact .error trivial

theorem failsOnly_word (a : Answer) : FailsOnly SessionError.IsOfAnswer a.word := by
  unfold Answer.word
  split
  · split
    · exact .ok _
    · exact .error trivial
  · exact .error trivial

theorem failsOnly_block (a : Answer) : FailsOnly SessionError.IsOfAnswer a.block := by
  unfold Answer.block
  split
  · exact .ok _
  · exact .error trivial

theorem failsOnly_wordsOfBlock (bytes : Bytes) (count : Nat) :
    FailsOnly SessionError.IsOfAnswer (wordsOfBlock bytes count) := by
  unfold wordsOfBlock
  split
  · exact .ok _
  · exact .error trivial

theorem failsOnly_bytesOfBlock (bytes : Bytes) (count : Nat) :
    FailsOnly SessionError.IsOfAnswer (bytesOfBlock bytes count) := by
  unfold bytesOfBlock
  split
  · exact .ok _
  · exact .error trivial

/-! ### Calls -/

/-- A call on devices, with its arguments. -/
inductive Call where
  | deviceList
  | reprogram (serial : String)
  | readReg (serial : String) (addr port : UInt8)
  | writeReg (serial : String) (addr port : UInt8) (value : UInt16)
  | readRegN (serial : String) (addr port : UInt8) (count : Nat)
  | writeRegN (serial : String) (addr port : UInt8) (values : List UInt16)
  | writeRaw (serial : String) (data : Bytes)
  | readRaw (serial : String) (count : Nat)
  deriving DecidableEq, Repr

namespace Call

/-- The request that a call sends, unless it refuses its arguments. -/
def request : Call → Except SessionError Request
  | .deviceList => .ok .deviceList
  | .reprogram serial => .ok (.reprogram serial)
  | .readReg serial addr port => .ok (.readReg serial addr port)
  | .writeReg serial addr port value => .ok (.writeReg serial addr port value)
  | .readRegN serial addr port count => .readRegN serial addr port <$> wireCount count
  | .writeRegN serial addr port values => .ok (.writeRegN serial addr port (wordsToBytes values))
  | .writeRaw serial data => .ok (.writeRaw serial data)
  | .readRaw serial count => .readRaw serial <$> wireCount count

/-- What a call reads off an answer that reports success. -/
def read : Call → Answer → Except SessionError Reply
  | .deviceList, a => .serials <$> a.serials
  | .reprogram _, a => .flag <$> a.flag
  | .readReg .., a => .word <$> a.word
  | .writeReg .., _ | .writeRegN .., _ | .writeRaw .., _ => .ok .done
  | .readRegN _ _ _ count, a => .words <$> (a.block >>= (wordsOfBlock · count))
  | .readRaw _ count, a => .bytes <$> (a.block >>= (bytesOfBlock · count))

/-- What an answer means to a call: the server's error if its rcode is negative, else what is read
off it. -/
def outcome (c : Call) (a : Answer) : Except SessionError Reply :=
  Session.answerOutcome a >>= c.read

/-- A call refuses a count that does not fit the wire, and nothing else. -/
theorem request_error {c : Call} {e : SessionError} (h : c.request = .error e) :
    ∃ count, 0x100000000 ≤ count ∧ e = .invalidArgument (.countTooLarge count) ∧
      ((∃ serial addr port, c = .readRegN serial addr port count) ∨
        ∃ serial, c = .readRaw serial count) := by
  -- only the two reads with a count can be refused, and for the same reason
  have hcount : ∀ {count : Nat} {make : UInt32 → Request}, make <$> wireCount count = .error e →
      0x100000000 ≤ count ∧ e = .invalidArgument (.countTooLarge count) := by
    intro count make hrefused
    unfold wireCount at hrefused
    split at hrefused
    · cases hrefused
    next hlarge =>
      cases hrefused
      exact ⟨Nat.le_of_not_lt hlarge, rfl⟩
  cases c with
  | readRegN serial addr port count =>
    obtain ⟨hlarge, rfl⟩ := hcount h
    exact ⟨count, hlarge, rfl, .inl ⟨serial, addr, port, rfl⟩⟩
  | readRaw serial count =>
    obtain ⟨hlarge, rfl⟩ := hcount h
    exact ⟨count, hlarge, rfl, .inr ⟨serial, rfl⟩⟩
  | _ => cases h

/-- **What an answer means to a call is its result, or an error that the answer brings.** -/
theorem failsOnly_outcome (c : Call) (a : Answer) :
    FailsOnly SessionError.IsOfAnswer (c.outcome a) := by
  refine (failsOnly_answerOutcome a).bind fun b => ?_
  -- `b` is `a` again, and what each call reads off it is blamed on it alone
  cases c with
  | deviceList => exact (failsOnly_serials b).map _
  | reprogram serial => exact (failsOnly_flag b).map _
  | readReg serial addr port => exact (failsOnly_word b).map _
  | readRegN serial addr port count =>
    exact FailsOnly.map _ ((failsOnly_block b).bind (failsOnly_wordsOfBlock · count))
  | readRaw serial count =>
    exact FailsOnly.map _ ((failsOnly_block b).bind (failsOnly_bytesOfBlock · count))
  | writeReg serial addr port value | writeRegN serial addr port values | writeRaw serial data =>
    exact .ok _

/-- It is never fatal: neither the server's error nor an answer that cannot be read says that the
connection is gone. -/
theorem isFatal_outcome (c : Call) (a : Answer) : isFatal (c.outcome a) = false :=
  isFatal_of_failsOnly (c.failsOnly_outcome a)

/-- A negative rcode is the server's error, whatever the call is. -/
theorem outcome_of_negative (c : Call) {a : Answer} (h : a.rcode < 0) :
    c.outcome a = .error (.server a.rcode a.errorMessage) := by
  rw [outcome, Session.answerOutcome, if_pos h]
  rfl

/-- Without one, the call reads its result off the answer. -/
theorem outcome_of_not_negative (c : Call) {a : Answer} (h : ¬ a.rcode < 0) :
    c.outcome a = c.read a := by
  rw [outcome, Session.answerOutcome, if_neg h]
  rfl

variable {τ κ : Type} [Transport τ] [Capability κ]

/-- Makes a call. -/
def run : Call → SessionM τ κ Reply
  | .deviceList => .serials <$> Session.getDeviceList
  | .reprogram serial => .flag <$> Session.reprogram serial
  | .readReg serial addr port => .word <$> Session.readReg serial addr port
  | .writeReg serial addr port value => (fun _ => .done) <$> Session.writeReg serial addr port value
  | .readRegN serial addr port count => .words <$> Session.readRegN serial addr port count
  | .writeRegN serial addr port values =>
    (fun _ => .done) <$> Session.writeRegN serial addr port values
  | .writeRaw serial data => (fun _ => .done) <$> Session.writeRaw serial data
  | .readRaw serial count => .bytes <$> Session.readRaw serial count

end Call

namespace SessionM

variable {τ κ α β : Type}

theorem map_apply (f : α → β) (x : SessionM τ κ α) (s : Session τ κ) :
    (f <$> x) s = (f <$> (x s).1, (x s).2) := by
  rw [map_eq_pure_bind, bind_apply]
  rcases x s with ⟨e | a, s'⟩ <;> rfl

theorem lift_bind (x : Except SessionError α) (f : α → Except SessionError β) :
    (liftM (x >>= f) : SessionM τ κ β) = (liftM x >>= fun a => liftM (f a)) := by
  cases x with
  | error e => rfl
  | ok a => rfl

end SessionM

namespace Session

variable {τ κ : Type} [Capability κ]

/-- What becomes of a session by the result of a call: a device list is adopted, and any other
result leaves the session alone. -/
def settle (result : Except SessionError Reply) (s : Session τ κ) : Session τ κ :=
  match result with
  | .ok (.serials serials) => s.adopt (s.registry.reconcile serials)
  | _ => s

end Session

namespace Call

variable {τ κ : Type} [Transport τ] [Capability κ]

/-- A call whose result is not a device list leaves the session as it is behind the answer. -/
private theorem exchange_apply {α : Type} (reply : α → Reply)
    (hreply : ∀ a serials, reply a ≠ .serials serials) (r : Request)
    (f : Answer → Except SessionError α) (s : Session τ κ) :
    (reply <$> (Session.call r >>= fun a => liftM (f a))) s =
      match Session.call r s with
      | (.error e, s') => (.error e, s')
      | (.ok a, s') => (reply <$> f a, s'.settle (reply <$> f a)) := by
  rw [SessionM.map_apply, SessionM.bind_apply]
  rcases Session.call r s with ⟨e | a, s'⟩
  · rfl
  · have hlift : (liftM (f a) : SessionM τ κ α) s' = (f a, s') := rfl
    simp only [hlift]
    cases f a with
    | error e => rfl
    | ok b =>
      have hsettle : s'.settle (.ok (reply b)) = s' := by
        unfold Session.settle
        split
        next serials hserials => exact absurd (Except.ok.inj hserials) (hreply b serials)
        · -- only a list of devices settles, and `reply` makes none
          rfl
      exact Prod.ext rfl hsettle.symm

/-- **All calls are alike.** A call that does not refuse its arguments sends its request, reads its
result off the answer and settles it. -/
theorem run_eq (c : Call) (s : Session τ κ) : c.run s =
    match c.request with
    | .error e => (.error e, s)
    | .ok r =>
      match Session.call r s with
      | (.error e, s') => (.error e, s')
      | (.ok a, s') => (c.read a, s'.settle (c.read a)) := by
  cases c with
  | deviceList =>
    -- the one call that changes the session behind the answer
    show (Reply.serials <$> Session.getDeviceList) s = _
    rw [SessionM.map_apply, Session.getDeviceList, SessionM.bind_apply]
    simp only [request]
    rcases Session.call .deviceList s with ⟨e | a, s'⟩
    · rfl
    · have hlift : (liftM a.serials : SessionM τ κ (List String)) s' = (a.serials, s') := rfl
      simp only [SessionM.bind_apply, hlift, read]
      cases a.serials with
      | error e => rfl
      | ok serials => rfl
  -- the calls without a count fit `exchange_apply` as they are
  | reprogram serial => exact exchange_apply Reply.flag (by simp) (.reprogram serial) Answer.flag s
  | readReg serial addr port => exact exchange_apply Reply.word (by simp) (.readReg serial addr port) _ s
  | writeReg serial addr port value =>
    exact exchange_apply (fun _ => .done) (by simp) (.writeReg serial addr port value) (fun _ => .ok ()) s
  | readRegN serial addr port count =>
    show (Reply.words <$> Session.readRegN serial addr port count) s = _
    -- the count is put on the wire before anything is sent, so it splits the cases here as in
    -- `request`
    rw [request, Session.readRegN]
    cases wireCount count with
    | error e => rfl
    | ok wire =>
      have h := exchange_apply Reply.words (by simp) (.readRegN serial addr port wire)
        (fun a => a.block >>= (wordsOfBlock · count)) s
      simp only [SessionM.lift_bind] at h
      exact h
  | writeRegN serial addr port values =>
    exact exchange_apply (fun _ => .done) (by simp) (.writeRegN serial addr port (wordsToBytes values))
      (fun _ => .ok ()) s
  | writeRaw serial data =>
    exact exchange_apply (fun _ => .done) (by simp) (.writeRaw serial data) (fun _ => .ok ()) s
  | readRaw serial count =>
    show (Reply.bytes <$> Session.readRaw serial count) s = _
    rw [request, Session.readRaw]
    cases wireCount count with
    | error e => rfl
    | ok wire =>
      have h := exchange_apply Reply.bytes (by simp) (.readRaw serial wire)
        (fun a => a.block >>= (bytesOfBlock · count)) s
      -- `lift_bind` puts the two readings of the answer together into one
      simp only [SessionM.lift_bind] at h
      exact h

/-- A call whose exchange brings an answer returns what the answer means to it. -/
theorem run_of_call {c : Call} {r : Request} {a : Answer} {s s' : Session τ κ}
    (hr : c.request = .ok r) (hcall : Session.call r s = (Session.answerOutcome a, s')) :
    c.run s = (c.outcome a, s'.settle (c.outcome a)) := by
  rw [run_eq, hr]
  simp only [hcall, outcome]
  cases Session.answerOutcome a with
  | error e => rfl
  | ok b => rfl

theorem run_of_answer {c : Call} {r : Request} {a : Answer} {s s' : Session τ κ}
    (hr : c.request = .ok r) (hcall : Session.call r s = (.ok a, s')) :
    c.run s = (c.read a, s'.settle (c.read a)) := by
  rw [run_eq, hr]
  simp only [hcall]

end Call

/-! ### Operations and runs -/

/-- What an application does with a session. -/
inductive Operation where
  | call (c : Call)
  /-- Sends a request and waits for its answer. -/
  | exchange (r : Request)
  /-- Sends a request without waiting. -/
  | send (r : Request)
  /-- Waits for an answer without sending. -/
  | await
  | poll
  | feed (data : Bytes)
  /-- Takes the notifications queued so far. -/
  | take
  | close
  | setHook
  deriving DecidableEq, Repr

variable {τ κ : Type} [Transport τ] [Capability κ]

/-- Does an operation. -/
def Operation.run : Operation → SessionM τ κ Reply
  | .call c => c.run
  | .exchange r => .answer <$> Session.call r
  | .send r => (fun _ => .done) <$> Session.sendRequest r
  | .await => .answer <$> Session.waitForAnswer
  | .poll => .notifications <$> Session.pollEvents
  | .feed data => (fun _ => .done) <$> Session.feed data
  | .take => fun s => (.ok (.notifications s.takeNotifications.1), s.takeNotifications.2)
  | .close => fun s => (.ok .done, s.close)
  | .setHook => fun s => (.ok .done, s.setHook)

namespace Session

/-- The session behind operations in their order. -/
def after (operations : List Operation) (s : Session τ κ) : Session τ κ :=
  operations.foldl (fun s op => (op.run s).2) s

/-- What operations contribute to a record of the run, one after the other. -/
def gather {α : Type} (record : Operation → Session τ κ → List α) :
    List Operation → Session τ κ → List α
  | [], _ => []
  | op :: operations, s => record op s ++ gather record operations (op.run s).2

theorem after_append (operations later : List Operation) (s : Session τ κ) :
    after (operations ++ later) s = after later (after operations s) :=
  List.foldl_append

theorem gather_append {α : Type} (record : Operation → Session τ κ → List α)
    (operations later : List Operation) (s : Session τ κ) :
    gather record (operations ++ later) s =
      gather record operations s ++ gather record later (after operations s) := by
  induction operations generalizing s with
  | nil => rfl
  | cons op operations ih =>
    -- the later operations find the session that the first one has left
    rw [List.cons_append, gather, gather, ih, List.append_assoc]
    rfl

/-- What the last operation contributes comes last. -/
theorem gather_concat {α : Type} (record : Operation → Session τ κ → List α)
    (operations : List Operation) (op : Operation) (s : Session τ κ) :
    gather record (operations ++ [op]) s =
      gather record operations s ++ record op (after operations s) := by
  rw [gather_append]
  exact congrArg (gather record operations s ++ ·) (List.append_nil _)

/-- A connection that is made has asked for the devices. -/
theorem connect_ok {transport : τ} {config : Config} {own : Option (CapabilityTable κ)}
    {shared : CapabilityTable κ} {serials : List String} {s : Session τ κ}
    (h : connect transport config own shared = (.ok serials, s)) :
    s = after [.call .deviceList] (create transport config own shared) := by
  unfold connect at h
  simp only at h
  -- a connection whose list could not be got is not handed out
  split at h
  · cases h
  · show s = ((Reply.serials <$> getDeviceList) (create transport config own shared)).2
    rw [SessionM.map_apply, h]

end Session

end BoardLink
