import RmmCaec.Attachment

/-!
# The monitor state

Granule descriptors, the contents of RD, REC, RTT and APT granules, the global
registries and the stage 2 TLB. A handler either returns or stops at a failed
assertion, a wild access, a panic or a lock that its own CPU already holds; all
of these are faults, and a fault ends the run.
-/
namespace RmmCaec

inductive GranuleState
  | NS
  | DELEGATED
  | RD
  | REC
  | REC_AUX
  | DATA
  | RTT
  | APT
  deriving DecidableEq, Repr

structure Granule where
  state : GranuleState
  refcount : ℕ
  deriving DecidableEq, Repr

inductive RealmState
  | NEW
  | ACTIVE
  | SYSTEM_OFF
  deriving DecidableEq, Repr

instance : Inhabited S2ttContext := ⟨⟨0, 0, 0, 0#64, 0, false, false⟩⟩

structure Rd where
  state : RealmState
  recCount : ℕ
  s2Ctx : S2ttContext
  numRecAux : ℕ
  aptPa : Word
  deriving DecidableEq, Repr

/-- The content of a zeroed RD granule. -/
instance : Inhabited Rd := ⟨⟨.NEW, 0, default, 0, 0#64⟩⟩

/-- The RIPAS change request of a REC. -/
structure SetRipas where
  base : Word
  top : Word
  addr : Word
  ripasVal : Ripas
  changeDestroyed : Bool
  reject : Bool
  deriving DecidableEq, Repr

instance : Inhabited SetRipas := ⟨⟨0#64, 0#64, 0#64, .EMPTY, false, false⟩⟩

/-- The part of a REC that the realm's memory management reads. -/
structure Rec where
  recIdx : ℕ
  gRd : Word
  s2Ctx : S2ttContext
  gAux : List Word
  setRipas : SetRipas
  deriving DecidableEq, Repr

/-- The content of a zeroed REC granule. -/
instance : Inhabited Rec := ⟨⟨0, 0#64, default, [], default⟩⟩

/-- A leaf that the TLB may hold: the range of an entry at its own level. -/
structure TlbLeaf where
  vmid : ℕ
  level : ℤ
  ipa : ℕ
  pa : Word
  deriving DecidableEq, Repr

structure State where
  granule : Word → Granule
  rd : Word → Rd
  recs : Word → Rec
  rtt : Word → ℕ → Word
  apt : Word → Apt
  tags : TagRegistry
  csmIds : CsmIdRegistry
  vmids : ℕ → Bool
  tlb : TlbLeaf → Bool

/-- The memory and the features of the machine, and the options of the build. -/
structure Platform where
  isGranule : Word → Bool
  isGranule_lt : ∀ a, isGranule a = true → a.toNat < 2 ^ 52
  paWidth : ℕ
  s2sz : ℕ
  s2sz_le : s2sz ≤ 52
  lpa2 : Bool
  numBps : ℕ
  numWps : ℕ
  sveEn : Bool
  sveVl : ℕ
  pmuNumCtrs : ℕ
  hpmn0 : Bool
  vmid16 : Bool
  /-- `ENABLE_OPENCCA`. -/
  opencca : Bool

inductive Fault
  | lockState
  | unlockInvariant
  | doubleUnlock
  | deadlock
  | nullGranule
  | dataNotData
  | refcountOverflow
  | refcountUnderflow
  | walkArgs
  | unaligned
  | blockLevel
  | unknownEntry
  | startingLevel
  | outOfBounds
  | recAux
  | panic
  deriving DecidableEq, Repr

/-- A computation of the monitor. -/
abbrev Rmm := Except Fault

def assertThat (b : Bool) (f : Fault) : Rmm Unit := if b then .ok () else .error f

inductive RmiStatus
  | SUCCESS
  | ERROR_INPUT
  | ERROR_REALM
  | ERROR_REC
  | ERROR_RTT
  deriving DecidableEq, Repr

/-- A packed return code: the status and an 8-bit index. -/
structure ReturnCode where
  status : RmiStatus
  index : ℕ
  deriving DecidableEq, Repr

def rmiSuccess : ReturnCode := ⟨.SUCCESS, 0⟩
def rmiErrorInput : ReturnCode := ⟨.ERROR_INPUT, 0⟩
def rmiErrorRealm : ReturnCode := ⟨.ERROR_REALM, 0⟩
def rmiErrorRec : ReturnCode := ⟨.ERROR_REC, 0⟩

/-- `pack_return_code (RMI_ERROR_RTT, level)`, the level cut to eight bits. -/
def rmiErrorRtt (level : ℤ) : ReturnCode := ⟨.ERROR_RTT, (level % 256).toNat⟩

structure SmcResult where
  ret : ReturnCode
  x1 : Word
  x2 : Word
  deriving DecidableEq, Repr

def smcRet (ret : ReturnCode) : SmcResult := ⟨ret, 0#64, 0#64⟩

instance : LawfulBEq Word := inferInstance

def findGranule (plat : Platform) (addr : Word) : Bool := granuleAligned addr && plat.isGranule addr

def refcountMax : ℕ := 1023
def rttRefcountMax : ℕ := 512

/-- The assertions on a granule that is not locked. -/
def unlockedInvariant (g : Granule) : Bool :=
  match g.state with
  | .NS => g.refcount == 0
  | .DELEGATED => g.refcount == 0
  | .RD => true
  | .REC => decide (g.refcount ≤ 1)
  | .DATA => g.refcount == 0
  | .APT => g.refcount == 0
  | .RTT => decide (g.refcount ≤ rttRefcountMax)
  | .REC_AUX => g.refcount == 0

/-- Look up a granule and lock it if it is in the expected state. The handler
passes the granules it already holds: waiting for one of them never ends. -/
def findLockGranule (plat : Platform) (s : State) (held : List Word) (addr : Word)
    (expected : GranuleState) : Rmm Bool :=
  if findGranule plat addr then
    if addr ∈ held then .error .deadlock else .ok ((s.granule addr).state == expected)
  else .ok false

/-- Lock two granules in address order; two equal addresses are refused. -/
def findLockTwoGranules (plat : Platform) (s : State) (addr1 : Word) (expected1 : GranuleState)
    (addr2 : Word) (expected2 : GranuleState) : Bool :=
  addr1 != addr2 && findGranule plat addr1 && (s.granule addr1).state == expected1 &&
    findGranule plat addr2 && (s.granule addr2).state == expected2

/-- Lock a granule whose state the caller asserts. -/
def granuleLock (s : State) (addr : Word) (expected : GranuleState) : Rmm Unit :=
  assertThat ((s.granule addr).state == expected) .lockState

def granuleUnlock (s : State) (addr : Word) : Rmm Unit :=
  assertThat (unlockedInvariant (s.granule addr)) .unlockInvariant

namespace State

def setState (s : State) (addr : Word) (state : GranuleState) : State :=
  { s with granule := Function.update s.granule addr { s.granule addr with state := state } }

def setRefcount (s : State) (addr : Word) (n : ℕ) : State :=
  { s with granule := Function.update s.granule addr { s.granule addr with refcount := n } }

/-- Zero the content of a granule, whatever it was used for. -/
def memzero (s : State) (addr : Word) : State :=
  { s with
    rd := Function.update s.rd addr default
    recs := Function.update s.recs addr default
    rtt := Function.update s.rtt addr (fun _ => 0#64)
    apt := Function.update s.apt addr default }

def setRd (s : State) (addr : Word) (rd : Rd) : State :=
  { s with rd := Function.update s.rd addr rd }

def setRec (s : State) (addr : Word) (r : Rec) : State :=
  { s with recs := Function.update s.recs addr r }

def setApt (s : State) (addr : Word) (a : Apt) : State :=
  { s with apt := Function.update s.apt addr a }

def setTable (s : State) (addr : Word) (table : ℕ → Word) : State :=
  { s with rtt := Function.update s.rtt addr table }

variable (s : State) (addr : Word)

@[simp] theorem setState_self (state : GranuleState) :
    (s.setState addr state).granule addr = ⟨state, (s.granule addr).refcount⟩ :=
  Function.update_self ..

@[simp] theorem setState_of_ne {addr g : Word} (h : g ≠ addr) (state : GranuleState) :
    (s.setState addr state).granule g = s.granule g := Function.update_of_ne h _ _

@[simp] theorem setApt_same (a : Apt) : (s.setApt addr a).apt addr = a := Function.update_self ..

@[simp] theorem setApt_of_ne {addr g : Word} (h : g ≠ addr) (a : Apt) :
    (s.setApt addr a).apt g = s.apt g := Function.update_of_ne h _ _

@[simp] theorem setRefcount_same (n : ℕ) :
    (s.setRefcount addr n).granule addr = ⟨(s.granule addr).state, n⟩ := Function.update_self ..

@[simp] theorem setRefcount_of_ne {addr g : Word} (h : g ≠ addr) (n : ℕ) :
    (s.setRefcount addr n).granule g = s.granule g := Function.update_of_ne h _ _

end State

def granuleUnlockTransition (s : State) (addr : Word) (state : GranuleState) : Rmm State := do
  let s' := s.setState addr state
  granuleUnlock s' addr
  return s'

def granuleRefcountInc (s : State) (addr : Word) (n : ℕ) : Rmm State := do
  assertThat (decide ((s.granule addr).refcount + n ≤ refcountMax)) .refcountOverflow
  return s.setRefcount addr ((s.granule addr).refcount + n)

def granuleRefcountDec (s : State) (addr : Word) (n : ℕ) : Rmm State := do
  assertThat (decide (n ≤ (s.granule addr).refcount)) .refcountUnderflow
  return s.setRefcount addr ((s.granule addr).refcount - n)

def atomicGranuleGet (s : State) (addr : Word) : Rmm State := granuleRefcountInc s addr 1

def atomicGranulePut (s : State) (addr : Word) : Rmm State := granuleRefcountDec s addr 1

end RmmCaec
