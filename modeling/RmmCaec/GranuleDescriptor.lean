import RmmCaec.AtomicPrograms
import RmmCaec.State

/-!
# The descriptor of a granule

The lock, the state and the reference count of a granule share one word of 16 bits. The state
is changed by an exclusive or with a value that was computed from an earlier read, and the
reference count by adding to the whole word, also without the lock. The word still is a record
of three fields, whatever the accesses of several CPUs do in between.
-/
namespace RmmCaec.GranuleDesc

open AtomicPrograms Program

def grnLockBit : BitVec 16 := 1#16 <<< 15
def grnStateShift : ℕ := 10
def stateMask : BitVec 16 := 0x1f#16 <<< grnStateShift
def refcountMask : BitVec 16 := 0x3ff#16

/-- `LOCKED` -/
def locked (d : BitVec 16) : Bool := d &&& grnLockBit != 0#16

/-- `REFCOUNT` -/
def refcount (d : BitVec 16) : ℕ := (d &&& refcountMask).toNat

/-- `STATE` -/
def stateOf (d : BitVec 16) : BitVec 8 := ((d &&& stateMask) >>> grnStateShift).setWidth 8

/-- The record that a descriptor stands for. -/
structure GranuleFields where
  locked : Bool
  state : BitVec 8
  refcount : ℕ
  deriving DecidableEq, Repr

def fields (d : BitVec 16) : GranuleFields := ⟨locked d, stateOf d, refcount d⟩

/-- What can be done to the record. -/
inductive FieldOp
  | lock
  | unlock
  | setState (state : BitVec 8)
  | add (val : ℕ)
  | sub (val : ℕ)
  deriving DecidableEq, Repr

/-- Every operation changes its own field only, within the bounds of the field. -/
def FieldOp.apply (g : GranuleFields) : FieldOp → Option GranuleFields
  | lock => if g.locked then none else some { g with locked := true }
  | unlock => if g.locked then some { g with locked := false } else none
  | setState state =>
    if g.locked ∧ state.toNat < 32 then some { g with state := state } else none
  | add val =>
    if g.locked ∧ g.refcount + val ≤ refcountMax then
      some { g with refcount := g.refcount + val } else none
  | sub val => if val ≤ g.refcount then some { g with refcount := g.refcount - val } else none

/-- The values of the states in a descriptor. -/
def stateCode : GranuleState → BitVec 8
  | .NS => 0
  | .DELEGATED => 1
  | .RD => 2
  | .REC => 3
  | .REC_AUX => 4
  | .DATA => 5
  | .RTT => 6
  | .APT => 7

def stateWithCode (state : BitVec 8) : Option GranuleState :=
  [GranuleState.NS, .DELEGATED, .RD, .REC, .REC_AUX, .DATA, .RTT, .APT].find? fun s =>
    stateCode s == state

/-- A function on a descriptor; an access that changes a field is marked with what it does. -/
abbrev DescM := Program (BitVec 16) FieldOp

/-- `ldsetah` until the bit was clear. -/
def granuleBitlockAcquire : DescM Unit :=
  .await (fun d => !locked d) (fun d => d ||| grnLockBit) .lock (.done ())

/-- `stclrlh` -/
def granuleBitlockRelease : DescM Unit :=
  .access (fun d => d &&& ~~~grnLockBit) (some .unlock) fun _ => .done ()

/-- `ldeorh` -/
def atomicEor16 (val : BitVec 16) (op : FieldOp) : DescM (BitVec 16) :=
  .access (fun d => d ^^^ val) (some op) .done

/-- `ldaddh`, and `ldaddlh` with release semantics -/
def atomicLoadAdd16 (val : BitVec 16) (op : FieldOp) : DescM (BitVec 16) :=
  .access (fun d => d + val) (some op) .done

def granuleGetState : DescM (BitVec 8) := do
  let d ← load
  assert (locked d)
  let d ← load
  return stateOf d

def granuleSetState (state : BitVec 8) : DescM Unit := do
  let d ← load
  assert (locked d)
  let d ← load
  let val := (d &&& stateMask) ^^^ (state.setWidth 16 <<< grnStateShift)
  let _ ← atomicEor16 val (.setState state)
  return ()

/-- The count is read for the states that bound it. -/
def granuleAssertUnlockedInvariants (state : BitVec 8) : DescM Unit :=
  match stateWithCode state with
  | none => .fail
  | some .RD => return ()
  | some s => do
    let d ← load
    assert (unlockedInvariant ⟨s, refcount d⟩)

def granuleUnlock : DescM Unit := do
  let state ← granuleGetState
  granuleAssertUnlockedInvariants state
  granuleBitlockRelease

def granuleUnlockTransition (newState : BitVec 8) : DescM Unit := do
  granuleSetState newState
  granuleUnlock

def granuleRefcountInc (val : BitVec 16) : DescM Unit := do
  let d ← load
  assert (locked d)
  let old ← atomicLoadAdd16 val (.add val.toNat)
  assert (refcount old + val.toNat ≤ refcountMax)

def granuleRefcountDec (val : BitVec 16) : DescM Unit := do
  let d ← load
  assert (locked d)
  let old ← atomicLoadAdd16 (-val) (.sub val.toNat)
  assert (val.toNat ≤ refcount old)

def atomicGranuleGet : DescM Unit := granuleRefcountInc 1

def atomicGranulePut : DescM Unit := granuleRefcountDec 1

/-- The only change without the lock. -/
def atomicGranulePutRelease : DescM Unit := do
  let old ← atomicLoadAdd16 (-1) (.sub 1)
  assert (refcount old != 0)

inductive GranuleCall
  | bitlockAcquire
  | bitlockRelease
  | setState (state : BitVec 8)
  | unlock
  | unlockTransition (newState : BitVec 8)
  | refcountInc (val : BitVec 16)
  | refcountDec (val : BitVec 16)
  | get
  | put
  | putRelease
  deriving DecidableEq, Repr

def GranuleCall.run : GranuleCall → DescM Unit
  | bitlockAcquire => granuleBitlockAcquire
  | bitlockRelease => granuleBitlockRelease
  | setState state => granuleSetState state
  | unlock => granuleUnlock
  | unlockTransition newState => granuleUnlockTransition newState
  | refcountInc val => granuleRefcountInc val
  | refcountDec val => granuleRefcountDec val
  | get => atomicGranuleGet
  | put => atomicGranulePut
  | putRelease => atomicGranulePutRelease

def runCalls : List GranuleCall → DescM Unit
  | [] => return ()
  | call :: rest => do
    call.run
    runCalls rest

/-- What a call is for, as operations on the record. -/
def GranuleCall.ops : GranuleCall → List FieldOp
  | bitlockAcquire => [.lock]
  | bitlockRelease => [.unlock]
  | setState state => [.setState state]
  | unlock => [.unlock]
  | unlockTransition newState => [.setState newState, .unlock]
  | refcountInc val => [.add val.toNat]
  | refcountDec val => [.sub val.toNat]
  | get => [.add 1]
  | put => [.sub 1]
  | putRelease => [.sub 1]

/-- The calls of a CPU, by whether it holds the lock: all but the lock-free release of a reference
are made with the lock held, and a state is a value of its field. -/
def Disciplined : Bool → List GranuleCall → Prop
  | _, [] => True
  | _, .bitlockAcquire :: rest => Disciplined true rest
  | held, .putRelease :: rest => Disciplined held rest
  | held, .bitlockRelease :: rest => held = true ∧ Disciplined false rest
  | held, .unlock :: rest => held = true ∧ Disciplined false rest
  | held, .unlockTransition newState :: rest =>
    held = true ∧ newState.toNat < 32 ∧ Disciplined false rest
  | held, .setState state :: rest => held = true ∧ state.toNat < 32 ∧ Disciplined held rest
  | held, .refcountInc _ :: rest => held = true ∧ Disciplined held rest
  | held, .refcountDec _ :: rest => held = true ∧ Disciplined held rest
  | held, .get :: rest => held = true ∧ Disciplined held rest
  | held, .put :: rest => held = true ∧ Disciplined held rest

theorem getLsbD_grnLockBit {i : ℕ} (hi : i < 16) : grnLockBit.getLsbD i = decide (i = 15) := by
  revert i
  decide

theorem getLsbD_stateMask {i : ℕ} (hi : i < 16) :
    stateMask.getLsbD i = decide (10 ≤ i ∧ i < 15) := by
  revert i
  decide

theorem getLsbD_refcountMask {i : ℕ} (hi : i < 16) :
    refcountMask.getLsbD i = decide (i < 10) := by
  revert i
  decide

theorem locked_eq (d : BitVec 16) : locked d = d.getLsbD 15 := by
  have hbit : grnLockBit = BitVec.twoPow 16 15 := by decide
  rw [locked, hbit, BitVec.and_twoPow]
  cases d.getLsbD 15 <;> decide

theorem refcount_eq (d : BitVec 16) : refcount d = d.toNat % 1024 := by
  unfold refcount refcountMask
  rw [BitVec.toNat_and]
  exact Nat.and_two_pow_sub_one_eq_mod d.toNat 10

theorem getLsbD_stateOf (d : BitVec 16) {i : ℕ} (hi : i < 8) :
    (stateOf d).getLsbD i = (decide (i < 5) && d.getLsbD (10 + i)) := by
  unfold stateOf grnStateShift
  rw [BitVec.getLsbD_setWidth, BitVec.getLsbD_ushiftRight, BitVec.getLsbD_and, decide_eq_true hi,
    Bool.true_and]
  by_cases h : 10 + i < 16
  · rw [getLsbD_stateMask h, Bool.and_comm]
    congr 1
    rw [decide_eq_decide]
    omega
  · rw [BitVec.getLsbD_of_ge _ _ (not_lt.mp h), Bool.false_and, Bool.and_false]

theorem stateOf_eq (d : BitVec 16) : (stateOf d).toNat = d.toNat / 1024 % 32 := by
  apply Nat.eq_of_testBit_eq
  intro i
  have h : d.toNat / 1024 % 32 = d.toNat / 2 ^ 10 % 2 ^ 5 := rfl
  rw [h, Nat.testBit_mod_two_pow, Nat.testBit_div_two_pow]
  by_cases hi : i < 8
  · rw [Nat.add_comm i]
    exact getLsbD_stateOf d hi
  · have hge : (stateOf d).toNat.testBit i = false := BitVec.getLsbD_of_ge _ _ (not_lt.mp hi)
    rw [hge, decide_eq_false (by omega), Bool.false_and]

theorem locked_eq_decide (d : BitVec 16) : locked d = decide (2 ^ 15 ≤ d.toNat) := by
  rw [locked_eq]
  exact BitVec.msb_eq_decide d

variable {d d' val : BitVec 16} {state : BitVec 8}

/-- The three fields are all that a descriptor holds. -/
theorem fields_injective : Function.Injective fields := by
  intro d d' h
  obtain ⟨hl, hs, hr⟩ := GranuleFields.mk.inj h
  have hs' := congrArg BitVec.toNat hs
  rw [stateOf_eq, stateOf_eq] at hs'
  rw [refcount_eq, refcount_eq] at hr
  rw [locked_eq_decide, locked_eq_decide, decide_eq_decide] at hl
  apply BitVec.eq_of_toNat_eq
  have hd := d.isLt
  have hd' := d'.isLt
  omega

theorem fields_or_lockBit (d : BitVec 16) :
    fields (d ||| grnLockBit) = { fields d with locked := true } := by
  have hs : grnLockBit &&& stateMask = 0#16 := by decide
  have hr : grnLockBit &&& refcountMask = 0#16 := by decide
  have hl : locked (d ||| grnLockBit) = true := by
    rw [locked_eq, BitVec.getLsbD_or, getLsbD_grnLockBit (by omega), decide_eq_true rfl,
      Bool.or_true]
  rw [fields, hl, stateOf, refcount, BitVec.and_or_distrib_right, BitVec.and_or_distrib_right, hs,
    hr, BitVec.or_zero, BitVec.or_zero]
  rfl

theorem fields_and_not_lockBit (d : BitVec 16) :
    fields (d &&& ~~~grnLockBit) = { fields d with locked := false } := by
  have hs : ~~~grnLockBit &&& stateMask = stateMask := by decide
  have hr : ~~~grnLockBit &&& refcountMask = refcountMask := by decide
  have hl : locked (d &&& ~~~grnLockBit) = false := by
    rw [locked, BitVec.and_assoc]
    simp
  rw [fields, hl, stateOf, refcount, BitVec.and_assoc, BitVec.and_assoc, hs, hr]
  rfl

/-- A descriptor that is locked already. -/
theorem or_lockBit (h : locked d = true) : d ||| grnLockBit = d := by
  apply fields_injective
  rw [fields_or_lockBit, fields, h]

/-- The bits of a state are the low five bits of a byte. -/
theorem getLsbD_of_state (hst : state.toNat < 32) {j : ℕ} (hj : 5 ≤ j) :
    state.getLsbD j = false := by
  have hpow : 2 ^ 5 ≤ 2 ^ j := Nat.pow_le_pow_right (by omega) hj
  exact Nat.testBit_lt_two_pow (by omega)

/-- The exclusive or of the old and the new state replaces the bits of the state. -/
theorem getLsbD_xor_state (hst : state.toNat < 32)
    (hval : val = (d &&& stateMask) ^^^ (state.setWidth 16 <<< grnStateShift)) {i : ℕ}
    (hi : i < 16) : (d ^^^ val).getLsbD i =
      if 10 ≤ i ∧ i < 15 then state.getLsbD (i - 10) else d.getLsbD i := by
  have hnew : (state.setWidth 16 <<< grnStateShift).getLsbD i =
      if 10 ≤ i ∧ i < 15 then state.getLsbD (i - 10) else false := by
    rw [BitVec.getLsbD_shiftLeft, BitVec.getLsbD_setWidth, grnStateShift, decide_eq_true hi,
      decide_eq_true (show i - 10 < 16 by omega), Bool.true_and, Bool.true_and]
    split_ifs with hin
    · rw [decide_eq_false (by omega)]
      rfl
    · by_cases hlow : i < 10
      · rw [decide_eq_true hlow]
        rfl
      · rw [getLsbD_of_state hst (by omega), Bool.and_false]
  rw [hval, BitVec.getLsbD_xor, BitVec.getLsbD_xor, BitVec.getLsbD_and, getLsbD_stateMask hi, hnew]
  split_ifs with hin
  · rw [decide_eq_true hin, Bool.and_true, ← Bool.xor_assoc, Bool.xor_self, Bool.false_xor]
  · rw [decide_eq_false hin, Bool.and_false, Bool.xor_false, Bool.xor_false]

/-- The bits of the state are what the state says. -/
theorem and_stateMask_congr (h : stateOf d = stateOf d') : d &&& stateMask = d' &&& stateMask := by
  apply BitVec.eq_of_getLsbD_eq
  intro i hi
  rw [BitVec.getLsbD_and, BitVec.getLsbD_and, getLsbD_stateMask hi]
  by_cases hin : 10 ≤ i ∧ i < 15
  · have hbit := congrArg (fun st => st.getLsbD (i - 10)) h
    simp only [getLsbD_stateOf _ (show i - 10 < 8 by omega), Nat.add_sub_cancel' hin.1,
      decide_eq_true (show i - 10 < 5 by omega), Bool.true_and] at hbit
    rw [hbit]
  · rw [decide_eq_false hin, Bool.and_false, Bool.and_false]

theorem fields_xor (hst : state.toNat < 32)
    (hval : val = (d &&& stateMask) ^^^ (state.setWidth 16 <<< grnStateShift)) :
    fields (d ^^^ val) = { fields d with state := state } := by
  have hl : locked (d ^^^ val) = locked d := by
    rw [locked_eq, locked_eq, getLsbD_xor_state hst hval (by omega), if_neg (by omega)]
  have hs : stateOf (d ^^^ val) = state := by
    apply BitVec.eq_of_getLsbD_eq
    intro i hi
    rw [getLsbD_stateOf _ hi]
    by_cases hlow : i < 5
    · rw [getLsbD_xor_state hst hval (by omega), if_pos (by omega), Nat.add_sub_cancel_left,
        decide_eq_true hlow, Bool.true_and]
    · rw [decide_eq_false hlow, getLsbD_of_state hst (not_lt.mp hlow), Bool.false_and]
  have hr : (d ^^^ val) &&& refcountMask = d &&& refcountMask := by
    apply BitVec.eq_of_getLsbD_eq
    intro i hi
    rw [BitVec.getLsbD_and, BitVec.getLsbD_and, getLsbD_refcountMask hi,
      getLsbD_xor_state hst hval hi]
    by_cases hlow : i < 10
    · rw [if_neg (by omega)]
    · rw [decide_eq_false hlow, Bool.and_false, Bool.and_false]
  rw [fields, hl, hs, refcount, hr]
  rfl

theorem fields_add (h : refcount d + val.toNat ≤ refcountMax) :
    fields (d + val) = { fields d with refcount := refcount d + val.toNat } := by
  have hd := d.isLt
  rw [refcount_eq, refcountMax] at h
  have hadd : (d + val).toNat = d.toNat + val.toNat := by
    rw [BitVec.toNat_add]
    omega
  have hl : locked (d + val) = locked d := by
    rw [locked_eq_decide, locked_eq_decide, decide_eq_decide, hadd]
    omega
  have hs : stateOf (d + val) = stateOf d := by
    apply BitVec.eq_of_toNat_eq
    rw [stateOf_eq, stateOf_eq, hadd]
    omega
  have hr : refcount (d + val) = refcount d + val.toNat := by
    rw [refcount_eq, refcount_eq, hadd]
    omega
  rw [fields, hl, hs, hr]
  rfl

theorem fields_add_neg (h : val.toNat ≤ refcount d) :
    fields (d + -val) = { fields d with refcount := refcount d - val.toNat } := by
  have hd := d.isLt
  rw [refcount_eq] at h
  have hadd : (d + -val).toNat = d.toNat - val.toNat := by
    rw [BitVec.toNat_add, BitVec.toNat_neg]
    omega
  have hl : locked (d + -val) = locked d := by
    rw [locked_eq_decide, locked_eq_decide, decide_eq_decide, hadd]
    omega
  have hs : stateOf (d + -val) = stateOf d := by
    apply BitVec.eq_of_toNat_eq
    rw [stateOf_eq, stateOf_eq, hadd]
    omega
  have hr : refcount (d + -val) = refcount d - val.toNat := by
    rw [refcount_eq, refcount_eq, hadd]
    omega
  rw [fields, hl, hs, hr]
  rfl

/-- The ghost value is the CPU that holds the lock. Until it releases the lock no other CPU
changes the state. -/
def granuleProtocol (T : Type) : Protocol T (BitVec 16) FieldOp GranuleFields (Option T) where
  view := fields
  apply op g := op.apply g
  inv s := locked s.1 = s.2.isSome
  rely t s s' := (s'.2 = some t ↔ s.2 = some t) ∧ (s.2 = some t → stateOf s'.1 = stateOf s.1)
  rely_refl := fun _ _ => ⟨Iff.rfl, fun _ => rfl⟩
  rely_trans := by
    rintro t s s' s'' ⟨hh, hs⟩ ⟨hh', hs'⟩
    exact ⟨hh'.trans hh, fun h => (hs' (hh.mpr h)).trans (hs h)⟩

section
variable {T : Type} {t : T} {s s' : BitVec 16 × Option T} {d w val : BitVec 16} {state : BitVec 8}

/-- The CPU holds the lock. -/
def Holds (t : T) {α : Type} (_ : α) (s : BitVec 16 × Option T) : Prop := s.2 = some t

theorem Holds.rely (h : s.2 = some t) (hr : (granuleProtocol T).rely t s s') : s'.2 = some t :=
  hr.1.mpr h

theorem Holds.locked (h : s.2 = some t) (hinv : (granuleProtocol T).inv s) :
    GranuleDesc.locked s.1 = true := by
  have hlock : GranuleDesc.locked s.1 = s.2.isSome := hinv
  rw [hlock, h]
  rfl

/-- A change by the CPU that holds the lock, while it keeps the lock. -/
theorem guarantees_of_holds (h : s.2 = some t) (hl : locked w = true) :
    (granuleProtocol T).Guarantees t s (w, some t) := by
  refine ⟨hl, fun t' ht => ⟨by rw [h], fun h' => ?_⟩⟩
  rw [h] at h'
  exact absurd (Option.some.inj h').symm ht

/-- A change that leaves the lock and the state as they are. -/
theorem guarantees_of_same (hinv : (granuleProtocol T).inv s) (hl : locked w = locked s.1)
    (hs : stateOf w = stateOf s.1) : (granuleProtocol T).Guarantees t s (w, s.2) :=
  ⟨hl.trans hinv, fun _ _ => ⟨Iff.rfl, fun _ => hs⟩⟩

theorem load_holds (h : s.2 = some t) : (granuleProtocol T).Safe t (Holds t) load s :=
  .load fun _ hr _ _ hr' => Holds.rely (Holds.rely h hr) hr'

theorem assert_holds {b : Bool} (h : s.2 = some t) :
    (granuleProtocol T).Safe t (Holds t) (assert b) s :=
  .assert fun _ _ hr => Holds.rely h hr

theorem granuleBitlockAcquire_safe (s : BitVec 16 × Option T) :
    (granuleProtocol T).Safe t (Holds t) granuleBitlockAcquire s := by
  intro s' _ hinv
  split_ifs with hfree
  · have hunlocked : locked s'.1 = false := by simpa using hfree
    have hnone : s'.2 = none := by
      have hlock : locked s'.1 = s'.2.isSome := hinv
      rw [hunlocked] at hlock
      exact Option.isNone_iff_eq_none.mp (Option.isSome_eq_false_iff.mp hlock.symm)
    have hfields := fields_or_lockBit s'.1
    have hl : locked (s'.1 ||| grnLockBit) = true := congrArg GranuleFields.locked hfields
    refine ⟨some t, ?_, ⟨hl, fun t' ht => ⟨?_, fun h => ?_⟩⟩,
      fun s'' hr => Holds.rely rfl hr⟩
    · change FieldOp.apply (fields s'.1) .lock = some (fields (s'.1 ||| grnLockBit))
      rw [hfields]
      exact if_neg (by simp [fields, hunlocked])
    · simp [hnone, ht.symm]
    · rw [hnone] at h
      cases h
  · exact or_lockBit (by simpa using hfree)

theorem granuleBitlockRelease_safe {Q : Unit → BitVec 16 × Option T → Prop}
    (hQ : ∀ s, Q () s) (h : s.2 = some t) :
    (granuleProtocol T).Safe t Q granuleBitlockRelease s := by
  intro s' hr hinv _
  have h' := Holds.rely h hr
  have hlocked := Holds.locked h' hinv
  have hfields := fields_and_not_lockBit s'.1
  have hl : locked (s'.1 &&& ~~~grnLockBit) = false := congrArg GranuleFields.locked hfields
  refine ⟨none, ?_, ⟨hl, fun t' ht => ⟨?_, fun heq => ?_⟩⟩, fun s'' _ => hQ s''⟩
  · change FieldOp.apply (fields s'.1) .unlock = some (fields (s'.1 &&& ~~~grnLockBit))
    rw [hfields]
    exact if_pos hlocked
  · simp [h', ht.symm]
  · rw [h'] at heq
    exact absurd (Option.some.inj heq).symm ht

theorem granuleGetState_safe (h : s.2 = some t) :
    (granuleProtocol T).Safe t (Holds t) granuleGetState s :=
  .bind (load_holds h) fun _ _ h1 => .bind (assert_holds h1) fun _ _ h2 =>
    .bind (load_holds h2) fun _ _ h3 => .pure fun _ hr => Holds.rely h3 hr

/-- What was read of the state is the state until the lock is released. -/
theorem granuleSetState_safe (hst : state.toNat < 32) (h : s.2 = some t) :
    (granuleProtocol T).Safe t (Holds t) (granuleSetState state) s := by
  refine .bind (load_holds h) fun _ s1 h1 => .bind (assert_holds h1) fun _ s2 h2 => ?_
  refine .bind (R := fun d s => s.2 = some t ∧ stateOf d = stateOf s.1) ?_ ?_
  · refine .load fun s3 hr hinv s4 hr' => ?_
    have h3 := Holds.rely h2 hr
    exact ⟨Holds.rely h3 hr', (hr'.2 h3).symm⟩
  · rintro d s4 ⟨h4, hd⟩
    refine .bind (R := Holds t) (.access fun s5 hr hinv => ?_) fun _ _ h6 =>
      .pure fun _ hr => Holds.rely h6 hr
    have h5 := Holds.rely h4 hr
    have hlocked := Holds.locked h5 hinv
    have hsame : d &&& stateMask = s5.1 &&& stateMask :=
      and_stateMask_congr (hd.trans (hr.2 h4).symm)
    have hfields := fields_xor hst (congrArg (· ^^^ state.setWidth 16 <<< grnStateShift) hsame)
    have hl := (congrArg GranuleFields.locked hfields).trans hlocked
    refine ⟨some t, ?_, guarantees_of_holds h5 hl, fun s'' hr' => Holds.rely rfl hr'⟩
    change FieldOp.apply (fields s5.1) (.setState state) = some (fields _)
    rw [hfields]
    exact if_pos ⟨hlocked, hst⟩

theorem granuleAssertUnlockedInvariants_safe (h : s.2 = some t) :
    (granuleProtocol T).Safe t (Holds t) (granuleAssertUnlockedInvariants state) s := by
  unfold granuleAssertUnlockedInvariants
  split
  · exact trivial
  · exact .pure fun _ hr => Holds.rely h hr
  · exact .bind (load_holds h) fun _ _ h1 => assert_holds h1

theorem granuleUnlock_safe {Q : Unit → BitVec 16 × Option T → Prop} (hQ : ∀ s, Q () s)
    (h : s.2 = some t) : (granuleProtocol T).Safe t Q granuleUnlock s :=
  .bind (granuleGetState_safe h) fun _ _ h1 =>
    .bind (granuleAssertUnlockedInvariants_safe h1) fun _ _ h2 => granuleBitlockRelease_safe hQ h2

theorem granuleUnlockTransition_safe {Q : Unit → BitVec 16 × Option T → Prop}
    (hQ : ∀ s, Q () s)
    (hst : state.toNat < 32) (h : s.2 = some t) :
    (granuleProtocol T).Safe t Q (granuleUnlockTransition state) s :=
  .bind (granuleSetState_safe hst h) fun _ _ h1 => granuleUnlock_safe hQ h1

theorem granuleRefcountInc_safe (h : s.2 = some t) :
    (granuleProtocol T).Safe t (Holds t) (granuleRefcountInc val) s := by
  refine .bind (load_holds h) fun _ s1 h1 => .bind (assert_holds h1) fun _ s2 h2 => ?_
  refine .access_assert fun s3 hr hinv hbound => ?_
  have h3 := Holds.rely h2 hr
  have hlocked := Holds.locked h3 hinv
  have hfields := fields_add (of_decide_eq_true hbound)
  have hl := (congrArg GranuleFields.locked hfields).trans hlocked
  refine ⟨some t, ?_, guarantees_of_holds h3 hl, fun s'' hr' => Holds.rely rfl hr'⟩
  change FieldOp.apply (fields s3.1) (.add val.toNat) = some (fields _)
  rw [hfields]
  exact if_pos ⟨hlocked, of_decide_eq_true hbound⟩

/-- Subtracting from the count, with or without the lock: the others can rely on the lock and
the state. -/
theorem sub_safe {b : BitVec 16 → Bool} (hb : ∀ d, b d = true → val.toNat ≤ refcount d)
    {Q : Unit → BitVec 16 × Option T → Prop} (hQ : Q () s)
    (hrely : ∀ {s s'}, Q () s → (granuleProtocol T).rely t s s' → Q () s')
    (hghost : ∀ {w w' g}, Q () (w, g) → Q () (w', g)) :
    (granuleProtocol T).Safe t Q
      (atomicLoadAdd16 (-val) (.sub val.toNat) >>= fun old => assert (b old)) s := by
  refine .access_assert fun s' hr hinv hbound => ?_
  have hfields := fields_add_neg (hb _ hbound)
  have hsame : (granuleProtocol T).Guarantees t s' (s'.1 + -val, s'.2) :=
    guarantees_of_same hinv (congrArg GranuleFields.locked hfields)
      (congrArg GranuleFields.state hfields)
  refine ⟨s'.2, ?_, hsame, fun s'' hr' => hrely (hghost (hrely hQ hr)) hr'⟩
  change FieldOp.apply (fields s'.1) (.sub val.toNat) = some (fields _)
  rw [hfields]
  exact if_pos (hb _ hbound)

theorem granuleRefcountDec_safe (h : s.2 = some t) :
    (granuleProtocol T).Safe t (Holds t) (granuleRefcountDec val) s :=
  .bind (load_holds h) fun _ _ h1 => .bind (assert_holds h1) fun _ _ h2 =>
    sub_safe (fun _ hb => of_decide_eq_true hb) h2 Holds.rely id

/-- The lock-free release of a reference: whoever holds the lock still holds it. -/
theorem atomicGranulePutRelease_safe {held : Bool} (h : held = true → s.2 = some t) :
    (granuleProtocol T).Safe t (fun _ s => held = true → s.2 = some t)
      atomicGranulePutRelease s := by
  have hone : ∀ d, (refcount d != 0) = true → (1#16).toNat ≤ refcount d := fun d hb =>
    Nat.one_le_iff_ne_zero.mpr (by simpa using hb)
  exact sub_safe hone h (fun h hr hh => Holds.rely (h hh) hr) id

theorem granuleSetState_marked (state : BitVec 8) :
    (granuleSetState state).Marked [.setState state] :=
  .after load_marked fun d => .after (assert_marked (locked d)) fun _ =>
    .after load_marked fun _ => .bind (access_marked _ _) fun _ => rfl

theorem granuleAssertUnlockedInvariants_marked (state : BitVec 8) :
    (granuleAssertUnlockedInvariants state).Marked [] := by
  unfold granuleAssertUnlockedInvariants
  split
  · exact trivial
  · exact rfl
  · exact .after load_marked fun _ => assert_marked _

theorem granuleUnlock_marked : granuleUnlock.Marked [.unlock] := by
  have hstate : granuleGetState.Marked [] :=
    .after load_marked fun d => .after (assert_marked (locked d)) fun _ =>
      .after load_marked fun _ => rfl
  exact .after hstate fun state => .after (granuleAssertUnlockedInvariants_marked state) fun _ =>
    ⟨[], rfl, fun _ => rfl⟩

theorem granuleRefcountInc_marked (val : BitVec 16) :
    (granuleRefcountInc val).Marked [.add val.toNat] :=
  .after load_marked fun d => .after (assert_marked (locked d)) fun _ =>
    .bind (access_marked _ _) fun _ => assert_marked _

theorem granuleRefcountDec_marked (val : BitVec 16) :
    (granuleRefcountDec val).Marked [.sub val.toNat] :=
  .after load_marked fun d => .after (assert_marked (locked d)) fun _ =>
    .bind (access_marked _ _) fun _ => assert_marked _

/-- Every call is marked with what it is for. -/
theorem GranuleCall.run_marked (call : GranuleCall) : call.run.Marked call.ops := by
  cases call with
  | bitlockAcquire => exact ⟨[], rfl, rfl⟩
  | bitlockRelease => exact ⟨[], rfl, fun _ => rfl⟩
  | setState state => exact granuleSetState_marked state
  | unlock => exact granuleUnlock_marked
  | unlockTransition newState =>
    exact .bind (granuleSetState_marked newState) fun _ => granuleUnlock_marked
  | refcountInc val => exact granuleRefcountInc_marked val
  | refcountDec val => exact granuleRefcountDec_marked val
  | get => exact granuleRefcountInc_marked 1
  | put => exact granuleRefcountDec_marked 1
  | putRelease => exact .bind (access_marked _ _) fun _ => assert_marked _

theorem runCalls_marked (calls : List GranuleCall) :
    (runCalls calls).Marked (calls.flatMap GranuleCall.ops) := by
  induction calls with
  | nil => exact rfl
  | cons call rest ih =>
    rw [List.flatMap_cons]
    exact call.run_marked.bind fun _ => ih

/-- Every CPU is safe through the whole list of its calls. -/
theorem runCalls_safe {held : Bool} {calls : List GranuleCall} (hcalls : Disciplined held calls)
    (h : held = true → s.2 = some t) :
    (granuleProtocol T).Safe t (fun _ _ => True) (runCalls calls) s := by
  induction calls generalizing held s with
  | nil => exact .pure fun _ _ => trivial
  | cons call rest ih =>
    have next : ∀ {held : Bool} {p : DescM Unit} {Q : Unit → BitVec 16 × Option T → Prop},
        Disciplined held rest → (∀ s, Q () s → held = true → s.2 = some t) →
        (granuleProtocol T).Safe t Q p s →
        (granuleProtocol T).Safe t (fun _ _ => True) (p >>= fun _ => runCalls rest) s :=
      fun hrest hQ hp => .bind hp fun _ s hs => ih hrest (hQ s hs)
    have kept : ∀ s, Holds t () s → held = true → s.2 = some t := fun _ hs _ => hs
    -- behind a call that releases the lock nothing is known
    have gone : ∀ {p : DescM Unit}, Disciplined false rest →
        (granuleProtocol T).Safe t (fun _ _ => True) p s →
        (granuleProtocol T).Safe t (fun _ _ => True) (p >>= fun _ => runCalls rest) s :=
      fun hrest hp => next hrest (fun _ _ hf => absurd hf Bool.false_ne_true) hp
    cases call with
    | bitlockAcquire => exact next hcalls (fun _ hs _ => hs) (granuleBitlockAcquire_safe s)
    | bitlockRelease =>
      exact gone hcalls.2 (granuleBitlockRelease_safe (fun _ => trivial) (h hcalls.1))
    | setState state =>
      exact next hcalls.2.2 kept (granuleSetState_safe hcalls.2.1 (h hcalls.1))
    | unlock => exact gone hcalls.2 (granuleUnlock_safe (fun _ => trivial) (h hcalls.1))
    | unlockTransition newState =>
      exact gone hcalls.2.2
        (granuleUnlockTransition_safe (fun _ => trivial) hcalls.2.1 (h hcalls.1))
    | refcountInc val => exact next hcalls.2 kept (granuleRefcountInc_safe (h hcalls.1))
    | refcountDec val => exact next hcalls.2 kept (granuleRefcountDec_safe (h hcalls.1))
    | get => exact next hcalls.2 kept (granuleRefcountInc_safe (h hcalls.1))
    | put => exact next hcalls.2 kept (granuleRefcountDec_safe (h hcalls.1))
    | putRelease => exact next hcalls (fun _ hs => hs) (atomicGranulePutRelease_safe h)

end

/-- A granule that is not locked, and the calls that each CPU is going to make. -/
def granuleStart {T : Type} (d : BitVec 16) (calls : T → List GranuleCall) :
    Machine T (BitVec 16) FieldOp := ⟨d, fun t => runCalls (calls t)⟩

/-- At every point of every run in which no assertion has failed, the descriptor is the record on
which the operations of the run were carried out field by field. The operations of a CPU are those
of the calls that it has completed, and of the call that it is in up to there: with the ones that
it still has to do they are the operations of its calls, and a CPU that has come to the end of its
calls has carried out all of them. -/
theorem granuleDescriptor_refines {T : Type} [DecidableEq T] {calls : T → List GranuleCall}
    (hcalls : ∀ t, Disciplined false (calls t)) {d : BitVec 16} (hfree : locked d = false)
    {events : List (T × FieldOp)} {m : Machine T (BitVec 16) FieldOp}
    (hrun : Run (granuleStart d calls) events m) (hok : m.Asserted) :
    (events.map Prod.snd).foldlM FieldOp.apply (fields d) = some (fields m.word) ∧
      ∀ t, (∃ rest, (calls t).flatMap GranuleCall.ops = ofThread t events ++ rest ∧
          (m.left t).Marked rest) ∧
        (m.left t = .done () → ofThread t events = (calls t).flatMap GranuleCall.ops) := by
  have hsafe : ∀ t, (granuleProtocol T).Safe t (fun _ _ => True)
      ((granuleStart d calls).left t) ((granuleStart d calls).word, none) := fun t =>
    runCalls_safe (hcalls t) fun hf => absurd hf Bool.false_ne_true
  obtain ⟨-, -, -, hfold⟩ := Protocol.Safe.run hfree hsafe hrun hok
  refine ⟨hfold, fun t => ?_⟩
  obtain ⟨rest, hops, hrest⟩ := hrun.marked (runCalls_marked (calls t))
  refine ⟨⟨rest, hops, hrest⟩, fun hdone => ?_⟩
  have hnil : rest = [] := by
    rw [hdone] at hrest
    exact hrest
  rw [hops, hnil, List.append_nil]

/-- One CPU changes the state, and another one drops a reference between its two accesses. -/
def racingCalls : Bool → List GranuleCall
  | true => [.bitlockAcquire, .setState 1, .get]
  | false => [.putRelease]

theorem granuleDescriptor_refines_racing : ∃ events m,
    Run (granuleStart 0x801#16 racingCalls) events m ∧
      events = [(true, .lock), (false, .sub 1), (true, .setState 1)] ∧
      (events.map Prod.snd).foldlM FieldOp.apply (fields 0x801#16) = some (fields m.word) ∧
      ∀ t, (∃ rest, (racingCalls t).flatMap GranuleCall.ops = ofThread t events ++ rest ∧
          (m.left t).Marked rest) ∧
        (m.left t = .done () → ofThread t events = (racingCalls t).flatMap GranuleCall.ops) := by
  have hcalls : ∀ t, Disciplined false (racingCalls t) := by
    rintro (_ | _)
    · exact trivial
    · exact ⟨rfl, by decide, rfl, trivial⟩
  have hrun : Run (granuleStart 0x801#16 racingCalls) _ _ :=
    .snoc (.snoc (.snoc (.snoc (.snoc .nil (.acquires (t := true) rfl (by decide)))
      (.access (t := true) rfl)) (.access (t := true) rfl)) (.access (t := false) rfl))
      (.access (t := true) rfl)
  refine ⟨_, _, hrun, rfl, granuleDescriptor_refines hcalls (by decide) hrun ?_⟩
  rintro (_ | _) hfail
  · cases hfail
  · cases hfail

/-- The record of a granule with its lock. -/
def GranuleFields.ofGranule (locked : Bool) (g : Granule) : GranuleFields :=
  ⟨locked, stateCode g.state, g.refcount⟩

section
variable {s s' : State} {addr : Word}

/-- What the handlers do to the record of a granule is what its functions do to the descriptor. -/
theorem granuleRefcountInc_fields {n : ℕ}
    (h : RmmCaec.granuleRefcountInc s addr n = .ok s') :
    FieldOp.apply (.ofGranule true (s.granule addr)) (.add n) =
      some (.ofGranule true (s'.granule addr)) := by
  unfold RmmCaec.granuleRefcountInc assertThat at h
  split_ifs at h with hbound
  · cases h
    rw [State.setRefcount_same]
    exact if_pos ⟨rfl, of_decide_eq_true hbound⟩
  · cases h

theorem granuleRefcountDec_fields {n : ℕ}
    (h : RmmCaec.granuleRefcountDec s addr n = .ok s') :
    FieldOp.apply (.ofGranule true (s.granule addr)) (.sub n) =
      some (.ofGranule true (s'.granule addr)) := by
  unfold RmmCaec.granuleRefcountDec assertThat at h
  split_ifs at h with hbound
  · cases h
    rw [State.setRefcount_same]
    exact if_pos (of_decide_eq_true hbound)
  · cases h

theorem granuleUnlockTransition_fields {state : GranuleState}
    (h : RmmCaec.granuleUnlockTransition s addr state = .ok s') :
    [FieldOp.setState (stateCode state), .unlock].foldlM FieldOp.apply
        (.ofGranule true (s.granule addr)) = some (.ofGranule false (s'.granule addr)) := by
  have hstate : (stateCode state).toNat < 32 := by
    cases state <;> decide
  unfold RmmCaec.granuleUnlockTransition RmmCaec.granuleUnlock assertThat at h
  dsimp only at h
  split_ifs at h
  · cases h
    rw [State.setState_self]
    simp [List.foldlM, FieldOp.apply, GranuleFields.ofGranule, hstate]
  · cases h

end

end RmmCaec.GranuleDesc
