import BoardLink.Faout.MemoryBoard
import BoardLink.Proofs.Failures

/-!
# What passes between an operation and a board

An operation that reaches a board through its registers alone knows of the board what the accesses
gave. So it is a `Plan`: it ends, or makes an access and goes on with the words that it got, and
which access comes next depends on nothing but these words.

Two boards tell what a plan does. One is a board of any kind with a record of what passes
(`Recorded`). The other one fulfils every access with prescribed words (`ObligingBoard`), so on it one
sees the whole run that another board cut short.

* `Plan.run_recorded` — a record changes nothing;
* `Plan.exchanges_obliging` — the crux: what passes on a board is what passes on the obliging one that
  gives the same words, up to the first access that fails. The induction is on the plan.
-/

namespace BoardLink.Faout

variable {σ α β : Type}

/-! ### Records -/

/-- An access and what came of it: the words that were read, none if something was written, or an
error. -/
structure Exchange where
  access : LogEntry
  reply : Except SessionError (List UInt16)

/-- Whether an access was made successfully. -/
def Exchange.succeeded (x : Exchange) : Prop := ∃ words, x.reply = .ok words

/-- The words that boards gave in exchanges. -/
def given (exchanges : List Exchange) : List (List UInt16) :=
  exchanges.filterMap (·.reply.toOption)

/-- A board with a record of what passed, the oldest first. -/
structure Recorded (σ : Type) where
  board : σ
  exchanges : List Exchange := []

/-- Makes an access to the board and records it. -/
def Recorded.keep (access : LogEntry) (words : α → List UInt16) (x : Access σ α) :
    Access (Recorded σ) α := fun r =>
  let (result, board) := x r.board
  (result, ⟨board, r.exchanges ++ [⟨access, result.map words⟩]⟩)

instance [RegisterAccess σ] : RegisterAccess (Recorded σ) where
  readReg addr port := Recorded.keep (.read addr port) (fun word => [word]) (readReg addr port)
  writeReg addr port value := Recorded.keep (.write addr port value) (fun _ => []) (writeReg addr port value)
  readRegN addr port count := Recorded.keep (.readBlock addr port count) id (readRegN addr port count)
  writeRegN addr port values :=
    Recorded.keep (.writeBlock addr port values) (fun _ => []) (writeRegN addr port values)

/-! ### A board without failures -/

/-- A board that fulfils every access. What it gives is prescribed, for one access after the other. -/
structure ObligingBoard where
  replies : List (List UInt16)

/-- Fulfils an access. -/
def ObligingBoard.oblige (read : List UInt16 → α) : Access ObligingBoard α := fun b =>
  (.ok (read (b.replies.headD [])), ⟨b.replies.tail⟩)

instance : RegisterAccess ObligingBoard where
  readReg _ _ := ObligingBoard.oblige (·.headD 0)
  writeReg _ _ _ := ObligingBoard.oblige fun _ => ()
  readRegN _ _ _ := ObligingBoard.oblige id
  writeRegN _ _ _ := ObligingBoard.oblige fun _ => ()

/-! ### Single accesses -/

namespace LogEntry

/-- Makes an access. -/
def perform [RegisterAccess σ] : LogEntry → Access σ (List UInt16)
  | .read addr port => (fun word => [word]) <$> readReg addr port
  | .write addr port value => (fun _ => []) <$> writeReg addr port value
  | .readBlock addr port count => readRegN addr port count
  | .writeBlock addr port values => (fun _ => []) <$> writeRegN addr port values

/-- What an access takes of the words that it is given. -/
def take : LogEntry → List UInt16 → List UInt16
  | .read _ _, words => [words.headD 0]
  | .readBlock _ _ _, words => words
  | .write _ _ _, _ | .writeBlock _ _ _, _ => []

/-- A record changes nothing of an access, and holds it. -/
theorem perform_recorded [RegisterAccess σ] (access : LogEntry) (r : Recorded σ) :
    access.perform r = ((access.perform r.board).1,
      ⟨(access.perform r.board).2, r.exchanges ++ [⟨access, (access.perform r.board).1⟩]⟩) := by
  have hkeep : ∀ {α : Type} (words : α → List UInt16) (x : Access σ α),
      (words <$> Recorded.keep access words x) r = ((x r.board).1.map words,
        ⟨(x r.board).2, r.exchanges ++ [⟨access, (x r.board).1.map words⟩]⟩) := fun words x =>
    Access.map_apply words (Recorded.keep access words x) r
  -- three of the accesses map what the board gives, and a read of a block takes it as it is
  cases access with
  | read addr port | write addr port value | writeBlock addr port values =>
    rw [perform, perform, Access.map_apply _ _ r.board]
    exact hkeep _ _
  | readBlock addr port count =>
    rw [perform, perform, ← id_map (readRegN addr port count : Access (Recorded σ) _),
      ← id_map (readRegN addr port count : Access σ _), Access.map_apply _ _ r.board]
    exact hkeep _ _

theorem perform_obliging (access : LogEntry) (b : ObligingBoard) :
    access.perform b = (.ok (access.take (b.replies.headD [])), ⟨b.replies.tail⟩) := by
  cases access <;> rfl

/-- What a board gives is what the access takes. -/
theorem take_of_perform [RegisterAccess σ] {access : LogEntry} {s s' : σ} {words : List UInt16}
    (h : access.perform s = (.ok words, s')) : access.take words = words := by
  -- a single word is taken as the list of it, and a write gives nothing
  cases access with
  | read addr port | write addr port value | writeBlock addr port values =>
    rw [perform, Access.map_apply, Prod.mk.injEq] at h
    obtain ⟨a, -, rfl⟩ := map_eq_ok_iff.1 h.1
    rfl
  | readBlock addr port count => rfl

end LogEntry

/-! ### Plans -/

/-- What an operation does on any board: it ends with a result or a refusal, or makes an access and
goes on with what it is given. -/
inductive Plan (α : Type) where
  | done (a : α)
  | refuse (e : SessionError)
  | ask (access : LogEntry) (next : List UInt16 → Plan α)

namespace Plan

/-- Goes on with another plan. -/
def bind : Plan α → (α → Plan β) → Plan β
  | done a, f => f a
  | refuse e, _ => refuse e
  | ask access next, f => ask access fun words => (next words).bind f

section

variable [RegisterAccess σ]

/-- Follows a plan on a board. -/
def run : Plan α → Access σ α
  | done a => pure a
  | refuse e => throw e
  | ask access next => do (next (← access.perform)).run

/-- What passes between a plan and a board. -/
def exchanges : Plan α → σ → List Exchange
  | done _, _ | refuse _, _ => []
  | ask access next, s =>
    match access.perform s with
    | (.ok words, s') => ⟨access, .ok words⟩ :: (next words).exchanges s'
    | (.error e, _) => [⟨access, .error e⟩]

theorem exchanges_ask_ok {access : LogEntry} {next : List UInt16 → Plan α} {s s' : σ}
    {words : List UInt16} (h : access.perform s = (.ok words, s')) :
    (ask access next).exchanges s = ⟨access, .ok words⟩ :: (next words).exchanges s' := by
  rw [exchanges, h]

theorem exchanges_ask_error {access : LogEntry} {next : List UInt16 → Plan α} {s s' : σ}
    {e : SessionError} (h : access.perform s = (.error e, s')) :
    (ask access next).exchanges s = [⟨access, .error e⟩] := by
  rw [exchanges, h]

theorem run_bind (p : Plan α) (f : α → Plan β) :
    ((p.bind f).run : Access σ β) = p.run >>= fun a => (f a).run := by
  induction p with
  | done a => exact (pure_bind _ _).symm
  | refuse e => rfl
  | ask access next ih =>
    -- the induction hypothesis is for every reply, which is what a bind asks for
    rw [bind, run, run, bind_assoc]
    exact bind_congr ih

theorem run_ask_ok {access : LogEntry} {next : List UInt16 → Plan α} {s s' : σ}
    {words : List UInt16} (h : access.perform s = (.ok words, s')) :
    (ask access next).run s = (next words).run s' := by
  rw [run, Access.bind_apply, h]

theorem run_ask_error {access : LogEntry} {next : List UInt16 → Plan α} {s s' : σ}
    {e : SessionError} (h : access.perform s = (.error e, s')) :
    (ask access next).run s = (.error e, s') := by
  rw [run, Access.bind_apply, h]

/-- **A record changes nothing**, and holds what passes. -/
theorem run_recorded (p : Plan α) (r : Recorded σ) : p.run r =
    ((p.run r.board).1, ⟨(p.run r.board).2, r.exchanges ++ p.exchanges r.board⟩) := by
  induction p generalizing r with
  | done a | refuse e => simp only [exchanges, List.append_nil]; rfl
  | ask access next ih =>
    have hrecord := access.perform_recorded r
    -- the board decides how the access ends, and the record follows it
    rcases h : access.perform r.board with ⟨e | words, s'⟩
    · rw [h] at hrecord
      rw [run_ask_error h, run_ask_error hrecord, exchanges_ask_error h]
    · rw [h] at hrecord
      rw [run_ask_ok h, run_ask_ok hrecord, exchanges_ask_ok h, ih, List.append_assoc]
      rfl

end

theorem succeeded_obliging (p : Plan α) (b : ObligingBoard) : ∀ x ∈ p.exchanges b, x.succeeded := by
  induction p generalizing b with
  | done a | refuse e => exact fun x hx => absurd hx List.not_mem_nil
  | ask access next ih =>
    rw [exchanges, access.perform_obliging]
    -- the first exchange, which is fulfilled, or one of those behind it
    rintro x (_ | ⟨_, hx⟩)
    · exact ⟨_, rfl⟩
    · exact ih _ _ x hx

/-- **A plan is followed up to the first access that fails.** Let a board that obliges give what was
given on another one, and then anything further. If no access failed on the other one, then the same
has passed on both; else what has passed in front of the failure also passes on the obliging board,
which goes on with the access that failed. The induction is on the plan. -/
theorem exchanges_obliging [RegisterAccess σ] (p : Plan α) (s : σ) (further : List (List UInt16)) :
    let board : ObligingBoard := ⟨given (p.exchanges s) ++ further⟩
    (p.exchanges s = p.exchanges board ∧ (p.run s).1 = (p.run board).1) ∨
    ∃ front access e words, p.exchanges s = front ++ [⟨access, .error e⟩] ∧
      front ++ [⟨access, .ok words⟩] <+: p.exchanges board ∧ (p.run s).1 = .error e := by
  induction p generalizing s with
  | done a | refuse e => exact .inl ⟨rfl, rfl⟩
  | ask access next ih =>
    intro board
    have hobliging := access.perform_obliging board
    rcases h : access.perform s with ⟨e | words, s'⟩
    · -- nothing was given yet, and the access is the first one on both
      refine .inr ⟨[], access, e, access.take (board.replies.headD []), exchanges_ask_error h, ?_,
        by rw [run_ask_error h]⟩
      rw [exchanges_ask_ok hobliging]
      exact List.prefix_append [_] _
    · -- the same words are given, so both go on with the same plan
      have hwords : access.take (board.replies.headD []) = words := by
        show access.take ((given ((ask access next).exchanges s) ++ further).headD []) = words
        rw [exchanges_ask_ok h]
        exact LogEntry.take_of_perform h
      have hrest : board.replies.tail = given ((next words).exchanges s') ++ further := by
        show (given ((ask access next).exchanges s) ++ further).tail = _
        rw [exchanges_ask_ok h]
        rfl
      rw [hwords, hrest] at hobliging
      rw [exchanges_ask_ok h, exchanges_ask_ok hobliging, run_ask_ok h, run_ask_ok hobliging]
      -- from here on the obliging board is left with what is given later, as the hypothesis asks
      obtain ⟨hsame, hresult⟩ | ⟨front, failing, e, words', hmade, hfront, hresult⟩ := ih words s'
      · exact .inl ⟨congrArg _ hsame, hresult⟩
      · refine .inr ⟨_ :: front, failing, e, words', congrArg _ hmade, ?_, hresult⟩
        exact List.cons_prefix_cons.2 ⟨rfl, hfront⟩

end Plan

end BoardLink.Faout
