import StableNet.Evm.NativeManager

/-! Message calls, contract creation and the operations of a running contract. -/
namespace StableNet.Evm
open Chain (Address Bytes)
open Lib

/-- A request to the machine. The caller of the creation has chosen the new address. -/
inductive CallOp where
  | call (caller addr : Address) (input : Bytes) (gas : ℕ) (value : Word)
  | callCode (caller addr : Address) (input : Bytes) (gas : ℕ) (value : Word)
  | delegateCall (parent : Contract) (addr : Address) (input : Bytes) (gas : ℕ)
  | staticCall (caller addr : Address) (input : Bytes) (gas : ℕ)
  | create (caller : Address) (code : Bytes) (gas : ℕ) (value : Word) (address : Address)

def CallOp.gas : CallOp → ℕ
  | call _ _ _ gas _ | callCode _ _ _ gas _ | delegateCall _ _ _ gas | staticCall _ _ _ gas
  | create _ _ gas _ _ => gas

/-- How requests are answered; the flag says whether the frame below is read-only. -/
abbrev Handler := CallOp → Bool → World → Result × World

def delegationPrefix : Bytes := [0xef,0x01,0x00]

/-- EIP-7702: the prefix and an address. -/
def parseDelegation (code : Bytes) : Option Address :=
  if code.length=23 ∧ code.take 3 = delegationPrefix then some (bytesToAddress (code.drop 3)) else none

/-- Whose code is run for the named account: one level of delegation is followed. -/
def codeSource (db : StateDB) (addr : Address) : Address := (parseDelegation (db.getCode addr)).getD addr

def resolveCode (db : StateDB) (addr : Address) : Bytes := db.getCode (codeSource db addr)

def checkBlacklisted (db : StateDB) (src dst : Address) : Option VmError :=
  if db.isBlacklisted src then some (.blacklistedAccount src)
  else if db.isBlacklisted dst then some (.blacklistedAccount dst)
  else none

def callValueTransferGas : ℕ := 9000

def callStipend : ℕ := 2300

def createDataGas : ℕ := 200

def maxCodeSize : ℕ := 253952

def maxInitCodeSize : ℕ := maxCodeSize

def callCreateDepth : ℕ := 1024

def runPrecompiledContract (p : Precompile) (input : Bytes) (suppliedGas : ℕ) : Result :=
  if suppliedGas<p.requiredGas input then ⟨[],0,some .outOfGas⟩
  else
    match p.run input with
    | .ok output => ⟨output,suppliedGas-p.requiredGas input,none⟩
    | .error e => ⟨[],suppliedGas-p.requiredGas input,some e⟩

/-- Revert to the start of the request on an error, which takes the gas unless the code reverted. -/
def settle (start : World) (o : Result × World) : Result × World :=
  match o.1.err with
  | none => o
  | some e => ({ o.1 with gas := if e = .executionReverted then o.1.gas else 0 },start.rollback o.2)

structure Frame where
  world : World
  gas : ℕ

namespace Vm
variable (vm : Vm)

def tick (f : Frame) : Frame := { f with world := { f.world with clock := f.world.clock+1 } }

def refunds (ch : Charge) (db : StateDB) : StateDB :=
  let added := if ch.addRefund=0 then db else db.addRefund ch.addRefund
  if ch.subRefund=0 then added else added.subRefund ch.subRefund

def selfdestruct6780 (self beneficiary : Address) (w : World) : World :=
  let balance := w.db.getBalance self
  let db := transfer w.db self beneficiary balance
  let db := if balance≠0 then vm.addTransferLog db self beneficiary balance else db
  { w.record (.selfdestruct self beneficiary) with db := db.selfdestruct6780 self }

/-- All but one 64th, as of EIP-150. -/
def callGas (available requested : ℕ) : ℕ := min requested (available-available/64)

def transfersValue : CallKind → Word → Bool
  | .call, value | .callCode, value => value != 0
  | .delegateCall, _ | .staticCall, _ => false

def valueGas (kind : CallKind) (value : Word) : ℕ :=
  if transfersValue kind value then callValueTransferGas else 0

def callOp (c : Contract) (kind : CallKind) (addr : Address) (value : Word) (input : Bytes) (gas : ℕ) : CallOp :=
  let gas := if transfersValue kind value then gas+callStipend else gas
  match kind with
  | .call => .call c.self addr input gas value
  | .callCode => .callCode c.self addr input gas value
  | .delegateCall => .delegateCall c addr input gas
  | .staticCall => .staticCall c.self addr input gas

def opCall (sub : Handler) (ro : Bool) (c : Contract) (f : Frame) (kind : CallKind) (requested : ℕ)
    (addr : Address) (value : Word) (input : Bytes) : Except Halt (Bool × Bytes) × Frame :=
  let base := valueGas kind value
  if f.gas<base then (.error (.error .outOfGas),f)
  else if ro && kind == .call && value != 0 then (.error (.error .writeProtection),f)
  else
    let gas := callGas (f.gas-base) requested
    let (r,w) := sub (callOp c kind addr value input gas) ro f.world
    (.ok (r.err.isNone,r.ret),⟨w,f.gas-base-gas+r.gas⟩)

def opCreate (sub : Handler) (ro : Bool) (c : Contract) (f : Frame) (value : Word) (init : Bytes)
    (address : Address) : Except Halt (Word × Bytes) × Frame :=
  if maxInitCodeSize < init.length then (.error (.error .outOfGas),f)
  else if ro then (.error (.error .writeProtection),f)
  else
    let gas := f.gas-f.gas/64
    let (r,w) := sub (.create c.self init gas value address) ro f.world
    let pushed := if r.err.isNone then addressWord address else 0
    let data := if r.err = some .executionReverted then r.ret else []
    (.ok (pushed,data),⟨w,f.gas-gas+r.gas⟩)

/-- A change of the contract's own state, refused to a read-only frame. -/
def mutate (ro : Bool) (f : Frame) (change : StateDB → StateDB) : Except Halt Unit × Frame :=
  if ro then (.error (.error .writeProtection),f)
  else (.ok (),{ f with world := { f.world with db := change f.world.db } })

def execute (sub : Handler) (ro : Bool) (c : Contract) (ch : Charge) (f : Frame) :
    (e : Op) → Except Halt e.Answer × Frame
  | .gas => (.ok f.gas,f)
  | .balance a => (.ok (f.world.db.getBalance a),f)
  | .extCode a => (.ok (f.world.db.getCode a),f)
  | .sload key => (.ok (f.world.db.getState c.self key),f)
  | .tload key => (.ok (f.world.db.transient c.self key),f)
  | .sstore key value => mutate ro f fun db => (refunds ch db).setState c.self key value
  | .tstore key value => mutate ro f fun db => db.setTransientState c.self key value
  | .log topics data => mutate ro f fun db => db.addLog ⟨c.self,topics,data⟩
  | .selfdestruct beneficiary =>
    if ro then (.error (.error .writeProtection),f)
    else
      match checkBlacklisted f.world.db c.self beneficiary with
      | some e => (.error (.error e),f)
      | none => (.error .stop,{ f with world := vm.selfdestruct6780 c.self beneficiary f.world })
  | .call kind gas addr value input => opCall sub ro c f kind gas addr value input
  | .create value init =>
    opCreate sub ro c f value init (vm.createAddress c.self (f.world.db.getNonce c.self))
  | .create2 value init salt => opCreate sub ro c f value init (vm.createAddress2 c.self salt init)

def step (sub : Handler) (ro : Bool) (c : Contract) (e : Op) (f : Frame) : Except Halt e.Answer × Frame :=
  let ch := vm.charges f.world.clock
  if f.gas<ch.cost then (.error (.error .outOfGas),tick f)
  else vm.execute sub ro c ch { tick f with gas := f.gas-ch.cost } e

def finish (ret : Bytes) (err : Option VmError) (f : Frame) : Result × World :=
  let ch := vm.charges f.world.clock
  if f.gas<ch.cost then (⟨[],0,some .outOfGas⟩,(tick f).world)
  else (⟨ret,f.gas-ch.cost,err⟩,(tick f).world)

def run (sub : Handler) (ro : Bool) (c : Contract) (w : World) : Result × World :=
  if c.code.isEmpty then (⟨[],c.gas,none⟩,w)
  else
    match (vm.interp vm.env c).run (vm.step sub ro c) ⟨w,c.gas⟩ with
    | (.ok ret,f) => vm.finish ret none f
    | (.error .stop,f) => (⟨[],f.gas,none⟩,f.world)
    | (.error (.revert ret),f) => vm.finish ret (some .executionReverted) f
    | (.error (.error e),f) => (⟨[],f.gas,some e⟩,f.world)

/-- Run what stands at an address: a precompiled contract, a native manager or code. -/
def runAt (sub : Handler) (ro : Bool) (op : CallKind) (caller addr : Address) (c : Contract)
    (w : World) : Result × World :=
  match vm.precompile addr with
  | some p => (runPrecompiledContract p c.input c.gas,w)
  | none =>
    match nativeManager addr with
    | some m => runNativeManager vm m op caller c.input c.gas w
    | none =>
      let c := { c with code := resolveCode w.db addr }
      vm.run sub ro c (if c.code.isEmpty then w else w.record (.frame addr))

/-- What a call is refused for. -/
def callCheck (db : StateDB) (caller addr : Address) (value : Word) : Option VmError :=
  match checkBlacklisted db caller addr with
  | some e => some e
  | none =>
    if value=0 then none
    else if !canTransfer db caller value then some .insufficientBalance
    else if addr=0 then some .zeroAddressTransfer
    else if (nativeManager addr).isSome || (vm.precompile addr).isSome then some .valueTransferToPrecompile
    else none

/-- The account is created if it is absent, and the value is moved. -/
def callEnter (caller addr : Address) (value : Word) (w : World) : World :=
  let db := if w.db.exist addr then w.db else w.db.createAccount addr
  let db := transfer db caller addr value
  let db := if value≠0 then vm.addTransferLog db caller addr value else db
  { w.record (.call caller addr value) with db := db }

def call (sub : Handler) (ro : Bool) (caller addr : Address) (input : Bytes) (gas : ℕ) (value : Word)
    (w : World) : Result × World :=
  match vm.callCheck w.db caller addr value with
  | some e => (⟨[],gas,some e⟩,w)
  | none =>
    if !w.db.exist addr && (vm.precompile addr).isNone && (nativeManager addr).isNone && value == 0 then
      (⟨[],gas,none⟩,w)
    else
      settle w (vm.runAt sub ro .call caller addr ⟨caller,addr,[],value,input,gas⟩
        (vm.callEnter caller addr value w))

def callCode (sub : Handler) (ro : Bool) (caller addr : Address) (input : Bytes) (gas : ℕ)
    (value : Word) (w : World) : Result × World :=
  match checkBlacklisted w.db caller addr with
  | some e => (⟨[],gas,some e⟩,w)
  | none =>
    if !canTransfer w.db caller value then (⟨[],gas,some .insufficientBalance⟩,w)
    else settle w (vm.runAt sub ro .callCode caller addr ⟨caller,caller,[],value,input,gas⟩ w)

def delegateCall (sub : Handler) (ro : Bool) (parent : Contract) (addr : Address) (input : Bytes)
    (gas : ℕ) (w : World) : Result × World :=
  match checkBlacklisted w.db parent.self addr with
  | some e => (⟨[],gas,some e⟩,w)
  | none =>
    settle w (vm.runAt sub ro .delegateCall parent.self addr
      ⟨parent.callerAddress,parent.self,[],parent.value,input,gas⟩ w)

/-- The called account is touched; the frame and all below it are read-only. -/
def staticCall (sub : Handler) (caller addr : Address) (input : Bytes) (gas : ℕ) (w : World) : Result × World :=
  match checkBlacklisted w.db caller addr with
  | some e => (⟨[],gas,some e⟩,w)
  | none =>
    settle w (vm.runAt sub true .staticCall caller addr ⟨caller,addr,[],0,input,gas⟩
      { w with db := w.db.addBalance addr 0 })

/-- The new account, with its value. -/
def createEnter (caller address : Address) (value : Word) (w : World) : World :=
  let db := (w.db.createAccount address).setNonce address 1
  let db := transfer db caller address value
  let db := if value≠0 then vm.addTransferLog db caller address value else db
  { w.record (.create caller address value) with db := db }

/-- Store what the initialisation code returned as the code of the new account. -/
def deploy (address : Address) (o : Result × World) : Result × World :=
  let (r,w) := o
  if r.err.isSome then o
  else if maxCodeSize<r.ret.length then ({ r with err := some .maxCodeSizeExceeded },w)
  else if r.ret.head? = some 0xef then ({ r with err := some .invalidCode },w)
  else if r.gas<r.ret.length*createDataGas then ({ r with err := some .codeStoreOutOfGas },w)
  else ({ r with gas := r.gas-r.ret.length*createDataGas },
    { w with db := w.db.setCode address r.ret })

def create (sub : Handler) (ro : Bool) (caller : Address) (code : Bytes) (gas : ℕ) (value : Word)
    (address : Address) (w : World) : Result × World :=
  let nonce := w.db.getNonce caller
  if w.db.isBlacklisted caller then (⟨[],gas,some (.blacklistedAccount caller)⟩,w)
  else if !canTransfer w.db caller value then (⟨[],gas,some .insufficientBalance⟩,w)
  else if nonce+1<nonce then (⟨[],gas,some .nonceUintOverflow⟩,w)
  else
    let w := { w with db := w.db.setNonce caller (nonce+1) }
    if w.db.getNonce address≠0 || !(w.db.getCode address).isEmpty then
      (⟨[],0,some .contractAddressCollision⟩,w)
    else
      settle w (deploy address (vm.run sub ro ⟨caller,address,code,value,[],gas⟩
        (vm.createEnter caller address value w)))

/-- One level of requests over the level below. -/
def handle (sub : Handler) : Handler
  | .call caller addr input gas value, ro, w => vm.call sub ro caller addr input gas value w
  | .callCode caller addr input gas value, ro, w => vm.callCode sub ro caller addr input gas value w
  | .delegateCall parent addr input gas, ro, w => vm.delegateCall sub ro parent addr input gas w
  | .staticCall caller addr input gas, _, w => vm.staticCall sub caller addr input gas w
  | .create caller code gas value address, ro, w => vm.create sub ro caller code gas value address w

/-- Requests with `n` levels of the call stack left. -/
def exec : ℕ → Handler
  | 0, op, _, w => (⟨[],op.gas,some .depth⟩,w)
  | n+1, op, ro, w => vm.handle (exec n) op ro w

end Vm

end StableNet.Evm
