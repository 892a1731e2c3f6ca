/-
# Runs refine integer arithmetic

The registers are read as integers. One update is read as one transaction of the integer
machine, hence one step as one step, and a run as a run, by induction on the program. The
integers determine the bits, so the registers inherit from the integer machine that a fault
leaves all of them as they are.
-/

import TwoLimb.Proofs.InPlace.IntegerMachine

namespace TwoLimb.InPlace

/-- What an update does to a register that holds `a` is read as an effect. After a fault the
register still holds `a`. -/
inductive IsReadAs {α : Type} (value : α → Int) (a : α) :
    Except Fault (Option α) × α → Effect → Prop
  | done (returned : Option α) (next : α) :
      IsReadAs value a (.ok returned, next) (.ok (value next, returned.map value))
  | refused (fault : Fault) : IsReadAs value a (.error fault, a) (.error fault)

section Updates

variable {α : Type} {view : View} {value : α → Int}

/-- An assignment is read as the effect of storing what the result is read as. -/
theorem isReadAs_assign {compute : α → Except Fault α} {a : α} {result : Except Fault Int}
    (hcompute : (compute a).map value = result.map view.reduce) :
    IsReadAs value a (Update.on (do assign compute; return none) a) (stored view result) := by
  rw [Update.on_bind, on_assign, stored, ← hcompute]
  cases compute a with
  | ok b => exact .done none b
  | error fault => exact .refused fault

variable [Arithmetic α]

/-- To add or subtract one never stops. -/
theorem exists_on_operate_one (hreads : Reads view value) (operator : Operator) (a : α) {n : Int}
    (hexact : operator.exact (value a) 1 = .ok n) :
    ∃ b : α, (operate operator Arithmetic.one).on a = (.ok (), b) ∧ value b = view.reduce n := by
  have hmap := hreads.operate operator a Arithmetic.one
  rw [hreads.one, hexact] at hmap
  rw [operate, on_assign]
  cases hoperate : Arithmetic.operate operator a Arithmetic.one with
  | ok b =>
      rw [hoperate] at hmap
      exact ⟨b, rfl, Except.ok.inj hmap⟩
  | error fault =>
      rw [hoperate] at hmap
      exact nomatch hmap

/-- Counting that returns the new value. -/
theorem isReadAs_newValue (hreads : Reads view value) (operator : Operator) (a : α) {n : Int}
    (hexact : operator.exact (value a) 1 = .ok n) :
    IsReadAs value a
      (Update.on ((do operate operator Arithmetic.one; get) >>= fun b => pure (some b)) a)
      (.ok (view.reduce n, some (view.reduce n))) := by
  obtain ⟨b, hoperate, hvalue⟩ := exists_on_operate_one hreads operator a hexact
  have hcount : Update.on (do operate operator Arithmetic.one; get) a = (.ok b, b) := by
    rw [Update.on_bind, hoperate]
    rfl
  rw [Update.on_bind, hcount, ← hvalue]
  exact .done (some b) b

/-- Counting that returns the previous value. -/
theorem isReadAs_previousValue (hreads : Reads view value) (operator : Operator) (a : α) {n : Int}
    (hexact : operator.exact (value a) 1 = .ok n) :
    IsReadAs value a
      (Update.on ((do
        let previous ← get
        operate operator Arithmetic.one
        return previous) >>= fun b => pure (some b)) a)
      (.ok (view.reduce n, some (value a))) := by
  obtain ⟨b, hoperate, hvalue⟩ := exists_on_operate_one hreads operator a hexact
  have hcount : Update.on (do
      let previous ← get
      operate operator Arithmetic.one
      return previous) a = (.ok a, b) := by
    change Update.on (operate operator Arithmetic.one >>= fun _ => pure a) a = _
    rw [Update.on_bind, hoperate]
    rfl
  rw [Update.on_bind, hcount, ← hvalue]
  exact .done (some a) b

theorem isReadAs_count (hreads : Reads view value) (counter : Counter) (a : α) :
    IsReadAs value a (Update.on (do return some (← count counter)) a)
      (counter.exact view (value a)) := by
  cases counter with
  | increment => exact isReadAs_newValue hreads .add a rfl
  | decrement => exact isReadAs_newValue hreads .sub a rfl
  | postIncrement => exact isReadAs_previousValue hreads .add a rfl
  | postDecrement => exact isReadAs_previousValue hreads .sub a rfl

/-- The lowest 64 digits of an integer make every amount of these types. -/
theorem AmountKind.reduce_emod (kind : AmountKind) (n : Int) {modulus : Int}
    (hmodulus : (2 ^ 64 : Int) ∣ modulus) : kind.reduce (n % modulus) = kind.reduce n := by
  have hdigits {divisor : Int} (hdivisor : divisor ∣ 2 ^ 64) :
      n % modulus % divisor = n % divisor :=
    Int.emod_emod_of_dvd n (Int.dvd_trans hdivisor hmodulus)
  cases kind with
  | int =>
      change (n % modulus).bmod (2 ^ 32) = n.bmod (2 ^ 32)
      rw [← Int.emod_bmod, ← Int.emod_bmod n]
      exact congrArg (fun n => Int.bmod n (2 ^ 32)) (hdigits (by decide))
  | _ => exact hdigits (by decide)

theorem toInt_amount (kind : AmountKind) (bits : UInt128) :
    (kind.amount bits).toInt = kind.reduce bits.toNat := by
  have hlow : (bits.low.toNat : Int) = bits.toNat % 2 ^ 64 := by
    have hlt := bits.low.toNat_lt
    rw [UInt128.toNat]
    omega
  rw [← kind.reduce_emod bits.toNat (Int.dvd_refl _), ← hlow]
  cases kind with
  | byte => exact congrArg Int.ofNat bits.low.toNat_toUInt8
  | half => exact congrArg Int.ofNat bits.low.toNat_toUInt16
  | word => exact congrArg Int.ofNat bits.low.toNat_toUInt32
  | limb | size =>
      have hlt := bits.low.toNat_lt
      exact (Int.emod_eq_of_lt (Int.natCast_nonneg _) (by omega)).symm
  | int =>
      have hword : bits.low.toUInt32.toBitVec.toNat = bits.low.toNat % 2 ^ 32 :=
        bits.low.toNat_toUInt32
      change bits.low.toUInt32.toInt32.toBitVec.toInt = _
      rw [UInt32.toBitVec_toInt32, BitVec.toInt_eq_toNat_bmod, hword, Int.natCast_emod,
        Int.emod_bmod, AmountKind.reduce]

theorem View.reduce_emod (view : View) (n : Int) : view.reduce (n % 2 ^ 128) = view.reduce n := by
  cases view with
  | unsigned => exact Int.emod_emod n _
  | signed => exact Int.emod_bmod n _

/-- An update by an instruction is read as the effect of the instruction, if its source is
read as an integer with the bits of the source. -/
theorem isReadAs_instruction (hreads : Reads view value) {bits : UInt128} {source : Int}
    (hsource : (bits.toNat : Int) = source % 2 ^ 128) (instruction : Instruction) (a : α) :
    IsReadAs value a ((instruction.update bits).on a)
      (instruction.exact view source (value a)) := by
  cases instruction with
  | operate operator =>
      apply isReadAs_assign
      rw [hreads.operate, hreads.ofBits, hsource, view.reduce_emod]
  | shift direction kind =>
      apply isReadAs_assign
      rw [hreads.shift, toInt_amount, hsource, kind.reduce_emod source (by decide)]
  | count counter => exact isReadAs_count hreads counter a

end Updates

/-- An update by an instruction for unsigned registers is read as its effect. -/
theorem isReadAs_unsignedInstruction {bits : UInt128} {source : Int}
    (hsource : (bits.toNat : Int) = source % 2 ^ 128) (instruction : UnsignedInstruction)
    (a : UInt128) :
    IsReadAs (fun value : UInt128 => (value.toNat : Int)) a ((instruction.update bits).on a)
      (instruction.exact source a.toNat) := by
  have hlimb : ((UInt128.ofLimb bits.low).toNat : Int) = source % 2 ^ 64 := by
    have hlt := bits.low.toNat_lt
    rw [UInt128.toNat_ofLimb, ← Int.emod_emod_of_dvd source (by decide : (2 ^ 64 : Int) ∣ 2 ^ 128),
      ← hsource, UInt128.toNat]
    omega
  cases instruction with
  | common instruction => exact isReadAs_instruction reads_unsigned hsource instruction a
  | addLimb =>
      apply isReadAs_assign
      have hsum := reads_unsigned.operate .add a (.ofLimb bits.low)
      rw [hlimb] at hsum
      exact hsum
  | subLimb =>
      apply isReadAs_assign
      have hdifference := reads_unsigned.operate .sub a (.ofLimb bits.low)
      rw [hlimb] at hdifference
      exact hdifference
  | shiftWide direction =>
      apply isReadAs_assign
      have hshift := reads_unsigned.shift a direction (.wide bits)
      rw [ShiftCount.toInt, hsource] at hshift
      exact hshift

section Runs

variable {m n : Nat}

/-- A returned value is read with its type. -/
def Word.reading : Word → View × Int
  | .unsigned value => (.unsigned, value.toNat)
  | .signed value => (.signed, value.toInt)

/-- What the result of a step is read as. -/
def readResult (result : Except Fault (Option Word)) : Except Fault (Option (View × Int)) :=
  result.map (Option.map Word.reading)

/-- The integers that registers are read as. -/
def Registers.values (registers : Registers m n) : Integers m n where
  unsigned := registers.unsigned.map fun value => (value.toNat : Int)
  signed := registers.signed.map Int128.toInt

section Values

variable (registers : Registers m n)

/-- The integers determine the bits. -/
theorem values_inj {one two : Registers m n} : one.values = two.values ↔ one = two := by
  refine ⟨fun hvalues => ?_, congrArg Registers.values⟩
  have hunsigned : one.unsigned = two.unsigned := by
    apply (Vector.map_inj_right ?_).mp (congrArg RegisterFile.unsigned hvalues)
    intro a b hvalue
    exact UInt128.toNat_inj.mp (Int.ofNat_inj.mp hvalue)
  have hsigned : one.signed = two.signed := by
    apply (Vector.map_inj_right ?_).mp (congrArg RegisterFile.signed hvalues)
    intro a b hvalue
    exact Int128.toInt_inj.mp hvalue
  cases one
  cases two
  exact congr (congrArg RegisterFile.mk hunsigned) hsigned

theorem get_unsigned_values (index : Fin m) :
    registers.values.unsigned.get index = (registers.unsigned.get index).toNat :=
  Vector.getElem_map _ index.isLt

theorem get_signed_values (index : Fin n) :
    registers.values.signed.get index = (registers.signed.get index).toInt :=
  Vector.getElem_map _ index.isLt

theorem values_setUnsigned (target : Fin m) (a : UInt128) :
    Registers.values (registers.setUnsigned target a) =
      registers.values.setUnsigned target a.toNat :=
  congrArg (fun unsigned => RegisterFile.mk unsigned registers.values.signed) Vector.map_set

theorem values_setSigned (target : Fin n) (a : Int128) :
    Registers.values (registers.setSigned target a) = registers.values.setSigned target a.toInt :=
  congrArg (RegisterFile.mk registers.values.unsigned) Vector.map_set

/-- A source has the bits of its integer. -/
theorem toNat_bits_source (source : Source m n) :
    ((source.bits registers).toNat : Int) = source.integer registers.values % 2 ^ 128 := by
  cases source with
  | immediate bits => exact (reduce_unsigned bits).symm
  | unsigned index =>
      rw [Source.bits, Source.integer, get_unsigned_values]
      exact (reduce_unsigned _).symm
  | signed index =>
      rw [Source.bits, Source.integer, get_signed_values]
      exact Int128.toNat_bits_eq_emod _

end Values

/-- An update that is read as an effect makes of the registers what the effect makes of their
integers. -/
theorem commit_values {α : Type} {value : α → Int} {a : α} {outcome : Except Fault (Option α) × α}
    {effect : Effect} (heffect : IsReadAs value a outcome effect) (registers : Registers m n)
    {view : View} {word : α → Word} (hword : ∀ b, (word b).reading = (view, value b))
    (store : α → Registers m n) {storeInteger : Int → Integers m n} (hsame : store a = registers)
    (hstore : ∀ b, (store b).values = storeInteger (value b)) :
    registers.values.commit view storeInteger effect =
      (readResult (outcome.1.map (Option.map word)), (store outcome.2).values) := by
  cases heffect with
  | done returned next =>
      rw [hstore]
      cases returned with
      | none => rfl
      | some b =>
          apply congrArg fun reading => (Except.ok (some reading), storeInteger (value next))
          exact (hword b).symm
  | refused fault =>
      rw [hsame]
      rfl

/-- One step is read as one step of the integer machine. -/
theorem step_values (registers : Registers m n) (s : Step m n) :
    registers.values.step s =
      (readResult (step registers s).1, (step registers s).2.values) := by
  have hsource := toNat_bits_source registers
  cases s with
  | unsigned target instruction source =>
      have heffect := isReadAs_unsignedInstruction (hsource source) instruction
        (registers.unsigned.get target)
      rw [Integers.step, get_unsigned_values]
      exact commit_values heffect registers (fun _ => rfl) (registers.setUnsigned target)
        (registers.setUnsigned_get target) (values_setUnsigned registers target)
  | signed target instruction source =>
      have heffect := isReadAs_instruction reads_signed (hsource source) instruction
        (registers.signed.get target)
      rw [Integers.step, get_signed_values]
      exact commit_values heffect registers (fun _ => rfl) (registers.setSigned target)
        (registers.setSigned_get target) (values_setSigned registers target)
  | viewed target instruction source =>
      have heffect := isReadAs_instruction reads_signed (hsource source) instruction
        ⟨registers.unsigned.get target⟩
      have hvalue := Int128.toInt_eq_bmod ⟨registers.unsigned.get target⟩
      rw [hvalue] at heffect
      have hstore (b : Int128) : Registers.values (registers.setUnsigned target b.bits) =
          registers.values.setUnsigned target (View.unsigned.reduce b.toInt) := by
        rw [values_setUnsigned, b.toNat_bits_eq_emod, View.reduce]
      rw [Integers.step, get_unsigned_values]
      exact commit_values heffect registers (fun _ => rfl)
        (fun value => registers.setUnsigned target value.bits) (registers.setUnsigned_get target)
        hstore

/-- A run is read as a run of the integer machine. -/
theorem run_values (registers : Registers m n) (program : List (Step m n)) :
    registers.values.run program =
      ((run registers program).1.map readResult, (run registers program).2.values) := by
  induction program generalizing registers with
  | nil => rfl
  | cons s rest ih =>
      simp only [Integers.run, step_values, ih]
      rfl

/-- Runs on registers of two limbs refine runs on integers modulo `2^128`. What every step
returns and the registers at the end are read as those of the integer machine. Wherever a
run is, a step faults exactly when it divides by zero or shifts by an amount that is not one
of 0 to 127, and a step that faults leaves every register as it is. -/
theorem runs_refine_integers (registers : Registers m n) (program : List (Step m n)) :
    registers.values.run program =
        ((run registers program).1.map readResult, (run registers program).2.values) ∧
      ∀ (reached : Registers m n) (s : Step m n),
        (Faults (step reached s).1 ↔ s.IsRefused reached.values) ∧
          (Faults (step reached s).1 → (step reached s).2 = reached) := by
  refine ⟨run_values registers program, fun reached s => ?_⟩
  have hstep := step_values reached s
  have hfaults : Faults (step reached s).1 ↔ Faults (reached.values.step s).1 := by
    rw [hstep]
    exact faults_map.symm
  refine ⟨hfaults.trans faults_step, fun hfault => ?_⟩
  have hsame := step_of_faults (hfaults.mp hfault)
  rw [hstep] at hsame
  exact values_inj.mp hsame

/-- A view counts below zero, and a division by zero leaves what the view has stored. -/
example :
    run (⟨#v[.zero], #v[]⟩ : Registers 1 0)
        [.viewed 0 (.count .decrement) (.immediate .zero),
          .unsigned 0 (.common (.operate .div)) (.immediate .zero)] =
      ([.ok (some (.signed .negOne)), .error .divisionByZero], ⟨#v[.max], #v[]⟩) := by
  decide

end Runs

end TwoLimb.InPlace
