import BoardLink.Proofs.Faout.FirstFailure
import Mathlib

/-!
# The cells of a board

The operations that set something set one *cell* each: a configuration bit, a channel, an interpolator,
or the command register. Cells share registers and register blocks. Sixteen configuration bits are one
register, which is read and written again to set one of them; and an interpolator has its value and its
steps in two registers, six ports apart. Still no bit belongs to two cells, so every operation leaves
the other cells alone.

What an operation changes is counted in bits, since half a register may be somebody else's, and it is
counted for an operation that fails as well. What a cell contains is said only after a success.

* `Cell.eq_of_holds` — no bit belongs to two cells;
* `Operation.changesOnly` — an operation changes nothing outside its own cell, whatever comes of it;
* `Operation.content_of_ok` — what a success makes of every cell, from these two;
* `Operation.content_after` — what a run makes of every cell, by induction on it;
* `Operation.cells_independent` — what is read after a run.
-/

namespace BoardLink.Faout

/-! ### Single bits -/

theorem toNat_mask {bit : UInt8} (h : bit < 16) :
    ((1 : UInt16) <<< bit.toUInt16).toNat = 2 ^ bit.toNat := by
  -- the shift is below sixteen, so the bit is not lost
  have hbit : bit.toNat < 16 := UInt8.lt_iff_toNat_lt.1 h
  rw [UInt16.toNat_shiftLeft, UInt8.toNat_toUInt16, Nat.mod_eq_of_lt hbit]
  show (1 <<< bit.toNat) % 2 ^ 16 = _
  rw [Nat.one_shiftLeft]
  exact Nat.mod_eq_of_lt (Nat.pow_lt_pow_right (by decide) hbit)

theorem bitSet_eq_testBit (word : UInt16) {bit : UInt8} (h : bit < 16) :
    bitSet word bit.toUInt16 = word.toNat.testBit bit.toNat := by
  rw [bitSet, Bool.eq_iff_iff, bne_iff_ne, ne_eq, ← UInt16.toNat_inj, UInt16.toNat_and, toNat_mask h,
    Nat.and_two_pow]
  cases word.toNat.testBit bit.toNat <;> simp

/-- One bit is set or cleared, and the others stay. -/
theorem bitSet_withBit (word : UInt16) {bit other : UInt8} (h : bit < 16) (hother : other < 16)
    (enabled : Bool) : bitSet (withBit word bit enabled) other.toUInt16 =
      if bit = other then enabled else bitSet word other.toUInt16 := by
  have hsame : bit.toNat = other.toNat ↔ bit = other := UInt8.toNat_inj
  rw [bitSet_eq_testBit _ hother, bitSet_eq_testBit _ hother, withBit]
  cases enabled with
  | true =>
    -- setting is an `or` with the mask, which adds the one bit
    rw [if_pos rfl, UInt16.toNat_or, toNat_mask h, Nat.testBit_lor, Nat.testBit_two_pow]
    by_cases heq : bit = other <;> simp [hsame, heq]
  | false =>
    -- clearing is an `and` with the complement of the mask, which has all bits below 16 but this
    -- one
    have hbit : 2 ^ bit.toNat < 2 ^ 16 :=
      Nat.pow_lt_pow_right (by decide) (UInt8.lt_iff_toNat_lt.1 h)
    have hplace : other.toNat < 16 := UInt8.lt_iff_toNat_lt.1 hother
    have hmask : UInt16.size - 1 - 2 ^ bit.toNat = 2 ^ 16 - (2 ^ bit.toNat + 1) := by
      rw [Nat.sub_sub, Nat.add_comm]
      rfl
    rw [if_neg Bool.false_ne_true, UInt16.toNat_and, UInt16.toNat_not, toNat_mask h,
      Nat.testBit_land, hmask, Nat.testBit_two_pow_sub_succ hbit, Nat.testBit_two_pow]
    by_cases heq : bit = other <;> simp [hsame, heq, hplace]

/-- Words with the same bits are equal. -/
theorem eq_of_bitSet {word word' : UInt16}
    (h : ∀ bit : UInt8, bit < 16 → bitSet word bit.toUInt16 = bitSet word' bit.toUInt16) :
    word = word' := by
  refine UInt16.toNat_inj.1 (Nat.eq_of_testBit_eq fun i => ?_)
  by_cases hi : i < 16
  -- a bit of the word, so it is the same by assumption
  · have hbit : (UInt8.ofNat i).toNat = i := UInt8.toNat_ofNat_of_lt' (by simp [UInt8.size]; omega)
    have hlt : UInt8.ofNat i < 16 := UInt8.lt_iff_toNat_lt.2 (by rw [hbit]; exact hi)
    have := h _ hlt
    rwa [bitSet_eq_testBit _ hlt, bitSet_eq_testBit _ hlt, hbit] at this
  -- above the word all bits are zero
  · have hhigh : ∀ w : UInt16, w.toNat.testBit i = false := fun w =>
      Nat.testBit_lt_two_pow (w.toNat_lt.trans_le (Nat.pow_le_pow_right (by decide) (Nat.le_of_not_lt hi)))
    rw [hhigh, hhigh]

/-! ### Cells -/

/-- The registers agree on some of their bits. -/
def AgreeOn (bits : (addr port bit : UInt8) → Prop) (m m' : RegisterMap UInt16) : Prop :=
  ∀ addr port bit : UInt8, bit < 16 → bits addr port bit →
    bitSet (m addr port) bit.toUInt16 = bitSet (m' addr port) bit.toUInt16

/-- The things on a board that operations set. -/
inductive Cell where
  | command
  | config (bit : UInt8)
  | dac (index : UInt8)
  | interp (index : UInt8)
  deriving DecidableEq, Repr

namespace Cell

/-- Whether the board has a cell. -/
def Valid : Cell → Prop
  | command => True
  | config bit => bit < 16
  | dac index | interp index => index < channels

/-- Whether a bit of a register belongs to a cell. -/
def Holds : Cell → (addr port bit : UInt8) → Prop
  | command, addr, port, _ => addr = registersAddr ∧ port = commandPort
  | config own, addr, port, bit => addr = registersAddr ∧ port = configPort ∧ bit = own
  | dac index, addr, port, _ => addr = dacAddr ∧ port = index
  | interp index, addr, port, _ => addr = interpAddr ∧ (port = index ∨ port = index + channels)

/-- What a cell contains: a value with steps in the case of an interpolator. -/
@[reducible] def Content : Cell → Type
  | command | dac _ => UInt16
  | config _ => Bool
  | interp _ => UInt16 × UInt16

/-- What the registers have in a cell. -/
def content (m : RegisterMap UInt16) : (c : Cell) → c.Content
  | command => m registersAddr commandPort
  | config bit => bitSet (m registersAddr configPort) bit.toUInt16
  | dac index => m dacAddr index
  | interp index => (m interpAddr index, m interpAddr (index + channels))

/-- **No bit belongs to two cells.** -/
theorem eq_of_holds {c d : Cell} (hc : c.Valid) (hd : d.Valid) {addr port bit : UInt8}
    (h : c.Holds addr port bit) (h' : d.Holds addr port bit) : c = d := by
  -- two interpolators are the one case that needs the numbers: steps are kept above all values
  cases c <;> cases d <;> simp only [Holds, Valid] at * <;>
    grind [registersAddr, commandPort, configPort, dacAddr, interpAddr, channels]

/-- What a cell contains depends on its own bits. -/
theorem content_eq {c : Cell} (hc : c.Valid) {m m' : RegisterMap UInt16}
    (h : AgreeOn c.Holds m m') : c.content m = c.content m' := by
  cases c with
  | command => exact eq_of_bitSet fun bit hbit => h _ _ bit hbit ⟨rfl, rfl⟩
  | config bit => exact h _ _ bit hc ⟨rfl, rfl, rfl⟩
  | dac index => exact eq_of_bitSet fun bit hbit => h _ _ bit hbit ⟨rfl, rfl⟩
  | interp index =>
    exact Prod.ext (eq_of_bitSet fun bit hbit => h _ _ bit hbit ⟨rfl, .inl rfl⟩)
      (eq_of_bitSet fun bit hbit => h _ _ bit hbit ⟨rfl, .inr rfl⟩)

end Cell

namespace Operation

/-- The cell that an operation sets, if it sets one. -/
def cell? : Operation → Option Cell
  | setConfigBit bit _ => some (.config bit)
  | setClockExtern _ => some (.config clockExternBit)
  | command _ => some .command
  | writeDac index _ => some (.dac index)
  | writeInterp index _ _ => some (.interp index)
  | _ => none

/-- What an operation puts into a cell, if it sets it. -/
def sets : Operation → (c : Cell) → Option c.Content
  | command c, .command => some c.word
  | setConfigBit own enabled, .config bit => if own = bit then some enabled else none
  | setClockExtern enabled, .config bit => if clockExternBit = bit then some enabled else none
  | writeDac own value, .dac index => if own = index then some value else none
  | writeInterp own value steps, .interp index => if own = index then some (value, steps) else none
  | _, _ => none

theorem sets_of_ne {op : Operation} {c : Cell} (h : op.cell? ≠ some c) : op.sets c = none := by
  cases op <;> cases c <;> simp_all [sets, cell?]

/-- Whether an operation is not one on a configuration bit beyond the register. -/
def InRegister (op : Operation) : Prop := ∀ bit, op.cell? = some (.config bit) → bit < 16

/-- Whether a bit of a register belongs to the cell that an operation sets. -/
def Holds (op : Operation) (addr port bit : UInt8) : Prop :=
  ∃ c, op.cell? = some c ∧ c.Holds addr port bit

/-- What operations put into a cell in the end, if they set it. -/
def lastSet (ops : List Operation) (c : Cell) : Option c.Content :=
  (ops.filterMap (·.sets c)).getLast?

theorem lastSet_cons (op : Operation) (ops : List Operation) (c : Cell) (a : c.Content) :
    (lastSet (op :: ops) c).getD a = (lastSet ops c).getD ((op.sets c).getD a) := by
  rw [lastSet, lastSet, List.filterMap_cons]
  cases op.sets c with
  | none => rfl
  | some b => rw [List.getLast?_cons, Option.getD_some, Option.getD_some]

end Operation

/-! ### Boards in memory -/

/-- **A board in memory**: its registers hold what was written, single reads and writes are of these
registers, and blocks go elsewhere. An access that fails changes nothing. -/
class RegisterFile (σ : Type) extends RegisterAccess σ where
  registers : σ → RegisterMap UInt16
  readReg_ok {addr port : UInt8} {s s' : σ} {word : UInt16} :
    readReg addr port s = (.ok word, s') → word = registers s addr port
  writeReg_ok {addr port : UInt8} {value : UInt16} {s s' : σ} {u : Unit} :
    writeReg addr port value s = (.ok u, s') → registers s' = (registers s).set addr port value
  writeReg_error {addr port : UInt8} {value : UInt16} {s s' : σ} {e : SessionError} :
    writeReg addr port value s = (.error e, s') → registers s' = registers s
  readReg_kept (addr port : UInt8) (s : σ) : registers (readReg addr port s).2 = registers s
  readRegN_kept (addr port : UInt8) (count : Nat) (s : σ) :
    registers (readRegN addr port count s).2 = registers s
  writeRegN_kept (addr port : UInt8) (values : List UInt16) (s : σ) :
    registers (writeRegN addr port values s).2 = registers s

export RegisterFile (registers)

namespace MemoryBoard

variable (addr port : UInt8) (b : MemoryBoard)

theorem readReg_eq : readReg addr port b = (match b.failingReads addr port with
    | some message => .error (.server (-1) message)
    | none => .ok (b.registers addr port), { b with log := .read addr port :: b.log }) := by
  show (failIf (b.failingReads addr port) >>= fun _ => pure (b.registers addr port) :
    Access MemoryBoard UInt16) _ = _
  cases b.failingReads addr port <;> rfl

theorem writeReg_eq (value : UInt16) : writeReg addr port value b =
    let b : MemoryBoard := { b with log := .write addr port value :: b.log }
    match b.failingWrites addr port with
    | some message => (.error (.server (-1) message), b)
    | none => (.ok (), { b with registers := b.registers.set addr port value }) := by
  show (failIf (b.failingWrites addr port) >>= fun _ => modify fun b : MemoryBoard =>
    { b with registers := b.registers.set addr port value } : Access MemoryBoard Unit) _ = _
  dsimp only
  cases b.failingWrites addr port <;> rfl

theorem readRegN_kept (count : Nat) : (readRegN addr port count b).2.registers = b.registers := by
  show ((failIf (b.failingReads addr port) >>= fun _ => _ : Access MemoryBoard _) _).2.registers = _
  cases b.failingReads addr port with
  | some message => rfl
  | none =>
    show ((ite (blockLimit < count) _ _ : Access MemoryBoard _) _).2.registers = _
    split <;> rfl

theorem writeRegN_kept (values : List UInt16) :
    (writeRegN addr port values b).2.registers = b.registers := by
  show (failIf (b.failingWrites addr port) _).2.registers = _
  cases b.failingWrites addr port <;> rfl

end MemoryBoard

instance : RegisterFile MemoryBoard where
  registers := MemoryBoard.registers
  readReg_ok {addr port s s' word} h := by
    rw [MemoryBoard.readReg_eq] at h
    split at h <;> cases h
    rfl
  writeReg_ok {addr port value s s' u} h := by
    rw [MemoryBoard.writeReg_eq] at h
    dsimp only at h
    split at h <;> cases h
    rfl
  writeReg_error {addr port value s s' e} h := by
    rw [MemoryBoard.writeReg_eq] at h
    dsimp only at h
    split at h <;> cases h
    rfl
  readReg_kept addr port s := by rw [MemoryBoard.readReg_eq]
  readRegN_kept addr port count s := MemoryBoard.readRegN_kept addr port s count
  writeRegN_kept addr port values s := MemoryBoard.writeRegN_kept addr port s values

/-! ### Every operation keeps to its cell -/

variable {σ : Type} [RegisterFile σ]

/-- Outside some bits, an operation changes nothing in the registers, whatever comes of it. -/
def ChangesOnly {α : Type} (bits : (addr port bit : UInt8) → Prop) (x : Access σ α) : Prop :=
  ∀ s, AgreeOn (fun addr port bit => ¬ bits addr port bit) (registers (x s).2) (registers s)

namespace ChangesOnly

variable {α β : Type} {bits : (addr port bit : UInt8) → Prop}

/-- Nothing changes if the registers stay as they are. -/
theorem of_kept {x : Access σ α} (h : ∀ s, registers (x s).2 = registers s) : ChangesOnly bits x :=
  fun s _ _ _ _ _ => by rw [h s]

theorem pure (a : α) : ChangesOnly bits (pure a : Access σ α) := of_kept fun _ => rfl

theorem throw (e : SessionError) : ChangesOnly bits (throw e : Access σ α) := of_kept fun _ => rfl

theorem readReg (addr port : UInt8) : ChangesOnly bits (readReg addr port : Access σ UInt16) :=
  of_kept (RegisterFile.readReg_kept addr port)

theorem readRegN (addr port : UInt8) (count : Nat) :
    ChangesOnly bits (readRegN addr port count : Access σ (List UInt16)) :=
  of_kept (RegisterFile.readRegN_kept addr port count)

theorem writeRegN (addr port : UInt8) (values : List UInt16) :
    ChangesOnly bits (writeRegN addr port values : Access σ Unit) :=
  of_kept (RegisterFile.writeRegN_kept addr port values)

theorem writeReg {addr port : UInt8} (h : ∀ bit, bits addr port bit) (value : UInt16) :
    ChangesOnly bits (writeReg addr port value : Access σ Unit) := by
  intro s x y bit _ hbits
  -- the register is another one, or the write has failed and nothing was changed
  rcases hwrite : RegisterAccess.writeReg addr port value s with ⟨e | u, s'⟩
  · rw [RegisterFile.writeReg_error hwrite]
  · rw [RegisterFile.writeReg_ok hwrite, RegisterMap.set_of_ne]
    rintro ⟨rfl, rfl⟩
    exact hbits (h bit)

theorem mono {bits' : (addr port bit : UInt8) → Prop} {x : Access σ α} (hx : ChangesOnly bits x)
    (h : ∀ addr port bit, bits addr port bit → bits' addr port bit) : ChangesOnly bits' x :=
  fun s addr port bit hbit hbits => hx s addr port bit hbit fun hown => hbits (h _ _ _ hown)

theorem bind {x : Access σ α} {f : α → Access σ β} (hx : ChangesOnly bits x)
    (hf : ∀ a, ChangesOnly bits (f a)) : ChangesOnly bits (x >>= f) := by
  intro s addr port bit hbit hbits
  have hfirst := hx s addr port bit hbit hbits
  rw [Access.bind_apply]
  -- a failure keeps what the first step has left, and a success goes on from there
  rcases h : x s with ⟨e | a, s₁⟩ <;> rw [h] at hfirst
  · exact hfirst
  · exact (hf a s₁ addr port bit hbit hbits).trans hfirst

theorem ite {c : Prop} [Decidable c] {x y : Access σ α} (hx : ChangesOnly bits x)
    (hy : ChangesOnly bits y) : ChangesOnly bits (if c then x else y) := by
  split
  · exact hx
  · exact hy

end ChangesOnly

namespace Operation

theorem changesOnly_sdramPointers {bits : (addr port bit : UInt8) → Prop} :
    ChangesOnly bits (Faout.sdramPointers : Access σ (UInt32 × UInt32)) :=
  (ChangesOnly.readReg sdramAddr 1).bind fun _ => (ChangesOnly.readReg sdramAddr 0).bind fun _ =>
    (ChangesOnly.readReg sdramAddr 3).bind fun _ => (ChangesOnly.readReg sdramAddr 2).bind fun _ =>
      .pure _

theorem changesOnly_checkChannel {bits : (addr port bit : UInt8) → Prop} (index : UInt8) :
    ChangesOnly bits (checkChannel index : Access σ Unit) := .ite (.pure ()) (.throw _)

/-- A configuration bit is set in the word that was read, so that the other bits stay. -/
theorem changesOnly_setConfigBit {own : UInt8} (hown : own < 16) (enabled : Bool) :
    ChangesOnly (Cell.config own).Holds (Faout.setConfigBit own enabled : Access σ Unit) := by
  intro s addr port bit hbit hother
  have hkept := RegisterFile.readReg_kept registersAddr configPort s
  rw [Faout.setConfigBit, Access.bind_apply]
  rcases hread : readReg registersAddr configPort s with ⟨e | config, s₁⟩ <;> rw [hread] at hkept <;>
    dsimp only at hkept ⊢
  · rw [hkept]
  · -- what is written is what the register contains, but for one bit
    obtain rfl := RegisterFile.readReg_ok hread
    rcases hwrite : writeReg registersAddr configPort
      (withBit (registers s registersAddr configPort) own enabled) s₁ with ⟨e | u, s'⟩
    · rw [RegisterFile.writeReg_error hwrite, hkept]
    · rw [RegisterFile.writeReg_ok hwrite, hkept]
      -- in the register itself only the bit of the cell is another one
      by_cases hregister : addr = registersAddr ∧ port = configPort
      · obtain ⟨rfl, rfl⟩ := hregister
        have hne : own ≠ bit := fun heq => hother ⟨rfl, rfl, heq.symm⟩
        rw [RegisterMap.set_self, bitSet_withBit _ hown hbit, if_neg hne]
      · rw [RegisterMap.set_of_ne _ _ hregister]

/-- **An operation changes nothing outside its own cell**, whatever comes of it. -/
theorem changesOnly {op : Operation} (hop : op.InRegister) :
    ChangesOnly op.Holds (op.run : Access σ op.Result) := by
  -- reads change nothing, and neither do blocks: only single writes have to keep to the cell
  cases op with
  | deviceStatus => exact (ChangesOnly.readReg registersAddr statusPort).bind fun _ => .pure _
  | version => exact .readReg registersAddr versionPort
  | configBit bit | clockExtern =>
    exact (ChangesOnly.readReg registersAddr configPort).bind fun _ => .pure _
  | setConfigBit bit enabled | setClockExtern enabled =>
    exact (changesOnly_setConfigBit (hop _ rfl) enabled).mono fun _ _ _ h => ⟨_, rfl, h⟩
  | command c => exact .writeReg (fun _ => ⟨_, rfl, rfl, rfl⟩) c.word
  | sdramPointers => exact changesOnly_sdramPointers
  | sdramWrite data =>
    exact changesOnly_sdramPointers.bind fun _ =>
      .ite ((ChangesOnly.throw _).bind fun _ => .writeRegN _ _ _) (.writeRegN _ _ _)
  | sdramRead count =>
    exact changesOnly_sdramPointers.bind fun _ =>
      .ite ((ChangesOnly.throw _).bind fun _ => .readRegN _ _ _) (.readRegN _ _ _)
  | writeDac index value =>
    exact (changesOnly_checkChannel index).bind fun _ =>
      .writeReg (fun _ => ⟨_, rfl, rfl, rfl⟩) value
  | readDac index => exact (changesOnly_checkChannel index).bind fun _ => .readReg _ _
  | writeInterp index value steps =>
    exact (changesOnly_checkChannel index).bind fun _ =>
      (ChangesOnly.writeReg (fun _ => ⟨_, rfl, rfl, .inr rfl⟩) steps).bind fun _ =>
        .writeReg (fun _ => ⟨_, rfl, rfl, .inl rfl⟩) value
  | readInterp index =>
    exact (changesOnly_checkChannel index).bind fun _ =>
      (ChangesOnly.readReg interpAddr (index + channels)).bind fun _ =>
        (ChangesOnly.readReg interpAddr index).bind fun _ => .pure _

/-! ### Runs -/

/-- What a success puts into a cell. -/
theorem sets_of_ok {op : Operation} {c : Cell} (hc : c.Valid) (hcell : op.cell? = some c)
    {s s' : σ} {a : op.Result} (h : op.run s = (.ok a, s')) :
    op.sets c = some (c.content (registers s')) := by
  cases op with
  | setConfigBit bit enabled | setClockExtern enabled =>
    obtain rfl := Option.some.inj hcell
    -- the read before the write has kept the registers
    obtain ⟨config, s₁, -, hwrite⟩ := Access.bind_ok h
    rw [Cell.content, RegisterFile.writeReg_ok hwrite, RegisterMap.set_self,
      bitSet_withBit _ hc hc, if_pos rfl]
    simp [sets]
  | command c =>
    obtain rfl := Option.some.inj hcell
    rw [Cell.content, RegisterFile.writeReg_ok h, RegisterMap.set_self]
    rfl
  | writeDac index value =>
    obtain rfl := Option.some.inj hcell
    obtain ⟨u, s₁, -, hwrite⟩ := Access.bind_ok h
    rw [Cell.content, RegisterFile.writeReg_ok hwrite, RegisterMap.set_self]
    exact if_pos rfl
  | writeInterp index value steps =>
    obtain rfl := Option.some.inj hcell
    obtain ⟨u, s₁, -, hrest⟩ := Access.bind_ok h
    obtain ⟨u', s₂, hsteps, hvalue⟩ := Access.bind_ok hrest
    -- steps and value are different registers, so that the second write keeps the first
    have hport : index + channels ≠ index := by simp [channels]
    rw [Cell.content, RegisterFile.writeReg_ok hvalue, RegisterMap.set_self,
      RegisterMap.set_of_ne _ _ (hport ·.2), RegisterFile.writeReg_ok hsteps, RegisterMap.set_self]
    exact if_pos rfl
  | _ => cases hcell

/-- A success is one of an operation on a cell that the board has, unless it is on a bit beyond the
register. -/
theorem valid_of_ok {op : Operation} (hop : op.InRegister) {c : Cell} (hcell : op.cell? = some c)
    {s s' : σ} {a : op.Result} (h : op.run s = (.ok a, s')) : c.Valid := by
  -- an operation on a channel beyond the last one would have been refused
  have hchannel : ∀ index, op.channel? = some index → index < channels := by
    intro index hindex
    by_contra hlarge
    rw [run_of_channel_le hindex (UInt8.not_lt.1 hlarge)] at h
    cases h
  cases op with
  | setConfigBit bit enabled | setClockExtern enabled =>
    obtain rfl := Option.some.inj hcell
    exact hop _ rfl
  | command c =>
    obtain rfl := Option.some.inj hcell
    trivial
  | writeDac index value | writeInterp index value steps =>
    obtain rfl := Option.some.inj hcell
    exact hchannel index rfl
  | _ => cases hcell

/-- **A cell contains what a success puts into it**, or else what it contained before. -/
theorem content_of_ok {op : Operation} (hop : op.InRegister) {c : Cell} (hc : c.Valid) {s s' : σ}
    {a : op.Result} (h : op.run s = (.ok a, s')) :
    c.content (registers s') = (op.sets c).getD (c.content (registers s)) := by
  by_cases hcell : op.cell? = some c
  -- the cell of the operation: it contains what was set
  · rw [sets_of_ok hc hcell h, Option.getD_some]
  · rw [sets_of_ne hcell, Option.getD_none]
    have hkept := changesOnly hop s
    rw [h] at hkept
    refine Cell.content_eq hc fun addr port bit hbit hholds => hkept addr port bit hbit ?_
    -- a bit of this cell does not belong to the cell of the operation as well
    rintro ⟨d, hd, hd'⟩
    rw [hd, Cell.eq_of_holds (valid_of_ok hop hd h) hc hd' hholds] at hcell
    exact hcell rfl

/-- A board after operations. -/
def after (s : σ) (ops : List Operation) : σ := ops.foldl (fun s op => (op.run s).2) s

/-- Whether operations succeed, one after the other. -/
def allSucceed (s : σ) : List Operation → Bool
  | [] => true
  | op :: ops => (op.result s).isOk && allSucceed (op.run s).2 ops

/-- **After a run, a cell contains what was last put into it**, or else what it contained before. -/
theorem content_after {s : σ} {ops : List Operation} (h : allSucceed s ops)
    (hops : ∀ op ∈ ops, op.InRegister) {c : Cell} (hc : c.Valid) :
    c.content (registers (after s ops)) = (lastSet ops c).getD (c.content (registers s)) := by
  induction ops generalizing s with
  | nil => rfl
  | cons op ops ih =>
    obtain ⟨hop, hrest⟩ := List.forall_mem_cons.1 hops
    rw [allSucceed, result, Bool.and_eq_true] at h
    rcases hrun : op.run s with ⟨e | a, s₁⟩ <;> rw [hrun] at h
    · -- this would be a failure
      cases h.1
    · have hafter : after s (op :: ops) = after s₁ ops := by rw [after, List.foldl_cons, hrun]; rfl
      rw [hafter, ih h.2 hrest, content_of_ok hop hc hrun, lastSet_cons]

/-! ### Reading cells -/

/-- A register is read as it is. -/
theorem readReg_map {α : Type} (addr port : UInt8) (f : UInt16 → α) (s : σ) :
    (readReg addr port s).1.map f = (readReg addr port s).1.map fun _ => f (registers s addr port) := by
  rcases h : readReg addr port s with ⟨e | word, s'⟩
  · rfl
  · rw [RegisterFile.readReg_ok h]
    rfl

theorem result_configBit (bit : UInt8) (s : σ) : (configBit bit).result s =
    (readReg registersAddr configPort s).1.map fun _ => (Cell.config bit).content (registers s) := by
  -- what is read is what the register contains, as single reads are of the registers
  rw [result, run, Faout.configBit, bind_pure_comp, Access.map_apply, readReg_map]
  rfl

theorem result_readDac {index : UInt8} (hindex : index < channels) (s : σ) :
    (readDac index).result s =
      (readReg dacAddr index s).1.map fun _ => (Cell.dac index).content (registers s) := by
  rw [result, run, Faout.readDac, checkChannel_bind hindex]
  exact (congrFun Except.map_id _).symm.trans (readReg_map dacAddr index id s)

theorem result_readInterp {index : UInt8} (hindex : index < channels) (s : σ) :
    (readInterp index).result s =
      ((do let _ ← readReg interpAddr (index + channels); readReg interpAddr index) s).1.map fun _ =>
        (Cell.interp index).content (registers s) := by
  rw [result, run, Faout.readInterp, checkChannel_bind hindex, Access.bind_apply, Access.bind_apply]
  have hkept := RegisterFile.readReg_kept interpAddr (index + channels) s
  rcases h : readReg interpAddr (index + channels) s with ⟨e | steps, s₁⟩ <;> rw [h] at hkept
  · rfl
  · -- the value is read from the registers as they were in front of the steps
    rw [RegisterFile.readReg_ok h]
    dsimp only
    rw [bind_pure_comp, Access.map_apply, readReg_map, hkept]
    rfl

/-- **The cells of a board are independent.** Let operations succeed one after the other on a board in
memory, whatever it contains at first, the configuration bits among them within the register. Then,
unless a read fails,

* a configuration bit is read as it was last set, where the external clock is bit 0;
* a channel is read as it was last written;
* an interpolator is read with the value and the steps last written to it;
* what was not set is read from the registers as they were at first.

No operation, successful or not, changes a bit of a register outside its own cell, and no bit belongs
to two cells that the board has. -/
theorem cells_independent (s : σ) (ops : List Operation) (h : allSucceed s ops)
    (hops : ∀ op ∈ ops, op.InRegister) :
    let s' := after s ops
    (∀ bit : UInt8, bit < 16 → (configBit bit).result s' =
      (readReg registersAddr configPort s').1.map fun _ => (lastSet ops (.config bit)).getD
        (bitSet (registers s registersAddr configPort) bit.toUInt16)) ∧
    (∀ index < channels, (readDac index).result s' =
      (readReg dacAddr index s').1.map fun _ => (lastSet ops (.dac index)).getD
        (registers s dacAddr index)) ∧
    (∀ index < channels, (readInterp index).result s' =
      ((do let _ ← readReg interpAddr (index + channels); readReg interpAddr index) s').1.map fun _ =>
        (lastSet ops (.interp index)).getD
          (registers s interpAddr index, registers s interpAddr (index + channels))) ∧
    (∀ op : Operation, op.InRegister → ∀ t : σ,
      AgreeOn (fun addr port bit => ¬ op.Holds addr port bit) (registers (op.run t).2) (registers t)) ∧
    ∀ c d : Cell, c.Valid → d.Valid → ∀ addr port bit,
      c.Holds addr port bit → d.Holds addr port bit → c = d := by
  intro s'
  refine ⟨fun bit hbit => ?_, fun index hindex => ?_, fun index hindex => ?_,
    fun op hop => changesOnly hop, fun c d hc hd addr port bit => Cell.eq_of_holds hc hd⟩
  -- in each case what is read after the run is the content of the cell
  · rw [result_configBit, content_after h hops (c := .config bit) hbit]
    rfl
  · rw [result_readDac hindex, content_after h hops (c := .dac index) hindex]
    rfl
  · rw [result_readInterp hindex, content_after h hops (c := .interp index) hindex]
    rfl

/-- Bits 1 and 2 are set at first; then everything is set once or twice. -/
theorem cells_independent_mixed :
    let board : MemoryBoard := { registers := (RegisterMap.all 0).set 0 2 0b110 }
    let ops := [setConfigBit 15 true, writeInterp 2 9 9, setClockExtern true, command .sequenceStart,
      writeDac 5 7, sdramWrite [1, 2], setConfigBit 2 false, writeInterp 2 300 40, readDac 5]
    let s' := after board ops
    allSucceed board ops ∧ (configBit 0).result s' = .ok true ∧
      (configBit 1).result s' = .ok true ∧ (configBit 2).result s' = .ok false ∧
      (readDac 5).result s' = .ok 7 ∧ (readDac 4).result s' = .ok 0 ∧
      (readInterp 2).result s' = .ok (300, 40) := by
  intro board ops s'
  have hrun : allSucceed board ops := by cbv
  have hops : ∀ op ∈ ops, op.InRegister := by simp [ops, InRegister, cell?, clockExternBit]
  obtain ⟨hconfig, hdac, hinterp, -⟩ := cells_independent board ops hrun hops
  exact ⟨hrun, (hconfig 0 (by decide)).trans (by cbv), (hconfig 1 (by decide)).trans (by cbv),
    (hconfig 2 (by decide)).trans (by cbv), (hdac 5 (by decide)).trans (by cbv),
    (hdac 4 (by decide)).trans (by cbv), (hinterp 2 (by decide)).trans (by cbv)⟩

end Operation

end BoardLink.Faout
