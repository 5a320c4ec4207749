import StableNet.Evm.Program

/-! The machine of one transaction, the world it acts on, and the native managers for coins and for account bits. -/
namespace StableNet.Evm
open Chain (Address Bytes)
open Lib

structure Precompile where
  requiredGas : Bytes → ℕ
  run : Bytes → Except VmError Bytes

/-- The gas of one operation. Costs depend on memory growth, access lists and the storage schedule;
the machine takes them from outside. -/
structure Charge where
  cost : ℕ
  addRefund : ℕ
  subRefund : ℕ

/-- What code can read of the block and the transaction. -/
structure Env where
  coinbase : Address
  gasLimit : ℕ
  number : ℕ
  time : ℕ
  random : Word
  baseFee : ℕ
  origin : Address
  gasPrice : ℕ

/-- What is fixed for a chain under Anzeon rules. -/
structure Network where
  chainId : ℕ
  nativeCoinAdapter : Address
  govCouncil : Address
  precompiles : Address → Precompile
  createAddress : Address → BitVec 64 → Address
  createAddress2 : Address → Word → Bytes → Address
  /-- What the code of a contract does. -/
  interp : Env → Contract → Program Bytes
  /-- The gas of each operation, in the order the operations are executed. -/
  charges : ℕ → Charge

/-- The machine of one transaction. -/
structure Vm extends Network where
  isBoho : Bool
  env : Env

def nativeCoinManagerAddress : Address := 0xb00002

def accountManagerAddress : Address := 0xb00003

namespace Vm

def precompiledAddresses (vm : Vm) : List Address :=
  [1,2,3,4,5,6,7,8,9,0x0a,0xb00001]++if vm.isBoho then [0x100] else []

def precompile (vm : Vm) (addr : Address) : Option Precompile :=
  if addr ∈ vm.precompiledAddresses then some (vm.precompiles addr) else none

end Vm

inductive Method where
  | mint
  | burn
  | transfer
  | setFlag (f : Flag)
  | clearFlag (f : Flag)
  | hasFlag (f : Flag)
  deriving DecidableEq

inductive NativeCall where
  | mint (dst : Address) (amount : Word)
  | burn (src : Address) (amount : Word)
  | transfer (src dst : Address) (amount : Word)
  | setFlag (f : Flag) (a : Address)
  | clearFlag (f : Flag) (a : Address)
  | hasFlag (f : Flag) (a : Address)
  deriving DecidableEq

def coinManagerMintSelector : Bytes := [0x40,0xc1,0x0f,0x19]

def coinManagerBurnSelector : Bytes := [0x9d,0xc2,0x9f,0xac]

def coinManagerTransferSelector : Bytes := [0xbe,0xab,0xac,0xc8]

def accountManagerBlacklistSelector : Bytes := [0xf9,0xf9,0x2b,0xe4]

def accountManagerUnBlacklistSelector : Bytes := [0x1a,0x89,0x52,0x66]

def accountManagerIsBlacklistedSelector : Bytes := [0xfe,0x57,0x5a,0x87]

def accountManagerAuthorizeSelector : Bytes := [0xb6,0xa5,0xd7,0xde]

def accountManagerUnAuthorizeSelector : Bytes := [0x3b,0xbb,0xc7,0xc9]

def accountManagerIsAuthorizedSelector : Bytes := [0xfe,0x9f,0xbb,0x80]

abbrev NativeManagerContract := Bytes → Option Method

def coinManager : NativeManagerContract := fun selector =>
  if selector=coinManagerMintSelector then some .mint
  else if selector=coinManagerBurnSelector then some .burn
  else if selector=coinManagerTransferSelector then some .transfer
  else none

def accountManager : NativeManagerContract := fun selector =>
  if selector=accountManagerBlacklistSelector then some (.setFlag .blacklisted)
  else if selector=accountManagerUnBlacklistSelector then some (.clearFlag .blacklisted)
  else if selector=accountManagerIsBlacklistedSelector then some (.hasFlag .blacklisted)
  else if selector=accountManagerAuthorizeSelector then some (.setFlag .authorized)
  else if selector=accountManagerUnAuthorizeSelector then some (.clearFlag .authorized)
  else if selector=accountManagerIsAuthorizedSelector then some (.hasFlag .authorized)
  else none

def nativeManager (addr : Address) : Option NativeManagerContract :=
  if addr=nativeCoinManagerAddress then some coinManager
  else if addr=accountManagerAddress then some accountManager
  else none

namespace Method

def paramCount : Method → ℕ
  | mint | burn => 2
  | transfer => 3
  | setFlag _ | clearFlag _ | hasFlag _ => 1

/-- The only account a method runs for; anyone may ask for a bit. -/
def requiredCaller (vm : Vm) : Method → Option Address
  | mint | burn | transfer => some vm.nativeCoinAdapter
  | setFlag _ | clearFlag _ => some vm.govCouncil
  | hasFlag _ => none

def canRun (vm : Vm) (op : CallKind) (caller : Address) (m : Method) : Option VmError :=
  match m.requiredCaller vm with
  | none => none
  | some required =>
    if op ≠ .call then some (.invalidCallContext op)
    else if caller≠required then some .unauthorized
    else none

def decode (input : Bytes) : Method → NativeCall
  | mint => .mint (bytesToAddress (param input 0)) (bytesToWord (param input 1))
  | burn => .burn (bytesToAddress (param input 0)) (bytesToWord (param input 1))
  | transfer =>
    .transfer (bytesToAddress (param input 0)) (bytesToAddress (param input 1)) (bytesToWord (param input 2))
  | setFlag f => .setFlag f (bytesToAddress (param input 0))
  | clearFlag f => .clearFlag f (bytesToAddress (param input 0))
  | hasFlag f => .hasFlag f (bytesToAddress (param input 0))

end Method

inductive Step where
  | call (caller addr : Address) (value : Word)
  | create (caller addr : Address) (value : Word)
  | selfdestruct (self beneficiary : Address)
  | native (caller : Address) (call : NativeCall)
  /-- An interpreter frame for the code of the named account. -/
  | frame (addr : Address)
  /-- The end of a transaction or a block. -/
  | finalise
  deriving DecidableEq

/-- A step and the state it started in. -/
structure Event where
  step : Step
  before : StateDB

/-- `trace` has every step executed so far, newest first, and `kept` those not reverted since. Nothing
is computed from them. -/
structure World where
  db : StateDB
  clock : ℕ
  trace : List Event
  kept : List Event

namespace World

def record (w : World) (s : Step) : World :=
  { w with trace := ⟨s,w.db⟩::w.trace, kept := ⟨s,w.db⟩::w.kept }

/-- Give up the changes since `start`. -/
def rollback (start w : World) : World :=
  { w with db := w.db.revertToSnapshot start.db.snapshot, kept := start.kept }

end World

structure Result where
  ret : Bytes
  gas : ℕ
  err : Option VmError

def canTransfer (db : StateDB) (addr : Address) (amount : Word) : Bool := amount ≤ db.getBalance addr

def transfer (db : StateDB) (sender recipient : Address) (amount : Word) : StateDB :=
  (db.subBalance sender amount).addBalance recipient amount

def transferEventSig : Word := 0xddf252ad1be2c89b69c2b068fc378daa952ba7f163c4a11628f55a4df523b3ef

namespace Vm
variable (vm : Vm)

def transferLog (sender recipient : Address) (amount : Word) : Log where
  address := vm.nativeCoinAdapter
  topics := [transferEventSig,addressWord sender,addressWord recipient]
  data := encodeWord amount

def addTransferLog (db : StateDB) (sender recipient : Address) (amount : Word) : StateDB :=
  db.addLog (vm.transferLog sender recipient amount)

/-- Move coins without running code; coins of the zero address come from nowhere. -/
def nativeTransfer (db : StateDB) (src dst : Address) (amount : Word) : StateDB :=
  let moved :=
    if amount=0 then db
    else (if src≠0 then db.subBalance src amount else db).addBalance dst amount
  vm.addTransferLog moved src dst amount

end Vm

def updateBalanceGas : ℕ := 4500

def updateAccountExtraGas : ℕ := 4500

def callNewAccountGas : ℕ := 25000

def newAccountGas (db : StateDB) (a : Address) : ℕ := if db.exist a then 0 else callNewAccountGas

namespace NativeCall

def check (db : StateDB) : NativeCall → Option VmError
  | burn src amount | transfer src _ amount =>
    if canTransfer db src amount then none else some .insufficientBalance
  | mint _ _ | setFlag _ _ | clearFlag _ _ | hasFlag _ _ => none

def transferGas (db : StateDB) (src dst : Address) (amount : Word) : ℕ :=
  if amount=0 then 0
  else updateBalanceGas+(if src≠0 then updateBalanceGas else 0)+newAccountGas db dst

def gasCost (db : StateDB) : NativeCall → ℕ
  | mint dst amount => transferGas db 0 dst amount
  | burn _ _ => updateBalanceGas
  | transfer src dst amount => transferGas db src dst amount
  | setFlag _ a => updateAccountExtraGas+newAccountGas db a
  | clearFlag _ _ => updateAccountExtraGas
  | hasFlag _ _ => 0

def apply (vm : Vm) (db : StateDB) : NativeCall → StateDB
  | mint dst amount => vm.nativeTransfer db 0 dst amount
  | burn src amount => vm.addTransferLog (db.subBalance src amount) src 0 amount
  | transfer src dst amount => vm.nativeTransfer db src dst amount
  | setFlag f a => db.setFlag f a
  | clearFlag f a => db.clearFlag f a
  | hasFlag _ _ => db

def output (db : StateDB) : NativeCall → Bytes
  | hasFlag f a => encodeWord (if db.hasFlag f a then 1 else 0)
  | mint _ _ | burn _ _ | transfer _ _ _ | setFlag _ _ | clearFlag _ _ => []

def run (vm : Vm) (caller : Address) (gas : ℕ) (w : World) (call : NativeCall) : Result × World :=
  match call.check w.db with
  | some e => (⟨[],gas,some e⟩,w)
  | none =>
    if gas<call.gasCost w.db then (⟨[],0,some .outOfGas⟩,w)
    else (⟨call.output w.db,gas-call.gasCost w.db,none⟩,
      { w.record (.native caller call) with db := call.apply vm w.db })

end NativeCall

def runNativeManager (vm : Vm) (m : NativeManagerContract) (op : CallKind) (caller : Address)
    (input : Bytes) (suppliedGas : ℕ) (w : World) : Result × World :=
  if input.length<4 then (⟨[],suppliedGas,some .invalidSelectorLength⟩,w)
  else
    match m (input.take 4) with
    | none => (⟨[],suppliedGas,some .invalidMethod⟩,w)
    | some method =>
      match method.canRun vm op caller with
      | some e => (⟨[],suppliedGas,some e⟩,w)
      | none =>
        if input.length-4 ≠ method.paramCount*32 then (⟨[],suppliedGas,some .invalidInputLength⟩,w)
        else (method.decode input).run vm caller suppliedGas w

end StableNet.Evm
