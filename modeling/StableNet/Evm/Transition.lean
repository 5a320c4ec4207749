import StableNet.Evm.Interpreter
import StableNet.Lib.Except

/-! Applying one transaction. An error means that the block with the transaction is rejected. -/
namespace StableNet.Evm
open Chain (Address Bytes)
open Lib

/-- A signed delegation of an account's code; `authority` is the recovered signer. -/
structure SetCodeAuthorization where
  chainId : ℕ
  address : Address
  nonce : BitVec 64
  authority : Option Address

/-- A transaction as far as its execution reads it. The sender and the fee payer are recovered from
signatures; of the access list only the numbers of its addresses and keys are charged. -/
structure Transaction where
  sender : Option Address
  nonce : BitVec 64
  gas : ℕ
  gasFeeCap : ℕ
  gasTipCap : ℕ
  dst : Option Address
  value : ℕ
  data : Bytes
  accessList : Option (ℕ × ℕ)
  setCodeAuthorizations : Option (List SetCodeAuthorization)
  feeDelegated : Bool
  feePayer : Option Address

structure Message where
  src : Address
  dst : Option Address
  nonce : BitVec 64
  value : ℕ
  gasLimit : ℕ
  gasPrice : ℕ
  gasFeeCap : ℕ
  gasTipCap : ℕ
  data : Bytes
  accessList : Option (ℕ × ℕ)
  feePayer : Option Address
  setCodeAuthorizations : Option (List SetCodeAuthorization)

inductive TxError where
  | invalidSender
  | invalidFeePayer
  | nonceTooHigh
  | nonceTooLow
  | nonceMax
  | senderNoEOA
  | feeCapVeryHigh
  | tipVeryHigh
  | tipAboveFeeCap
  | feeCapTooLow
  | setCodeTxCreate
  | emptyAuthList
  | insufficientFunds
  | gasLimitReached
  | gasUintOverflow
  | intrinsicGas
  | insufficientFundsForTransfer
  | blacklistedAccount (address : Address)
  deriving DecidableEq

/-- An authorized sender keeps its own tip; all others pay the tip of the header. -/
def transactionToMessage (tx : Transaction) (baseFee : ℕ) (headerGasTip : Option ℕ) (db : StateDB) :
    Except TxError Message :=
  match tx.sender with
  | none => .error .invalidSender
  | some src =>
    let gasTipCap :=
      match headerGasTip with
      | some tip => if db.isAuthorized src then tx.gasTipCap else tip
      | none => tx.gasTipCap
    let msg (feePayer : Option Address) : Message :=
      ⟨src,tx.dst,tx.nonce,tx.value,tx.gas,min (gasTipCap+baseFee) tx.gasFeeCap,tx.gasFeeCap,gasTipCap,
        tx.data,tx.accessList,feePayer,tx.setCodeAuthorizations⟩
    if tx.feeDelegated then
      match tx.feePayer with
      | none => .error .invalidFeePayer
      | some feePayer => .ok (msg (some feePayer))
    else .ok (msg none)

/-- Only an authorized sender sets its own tip. -/
def senderTip (headerGasTip : Option ℕ) (tx : Transaction) (authorized : Bool) : ℕ :=
  match headerGasTip with
  | some tip => if authorized then tx.gasTipCap else tip
  | none => tx.gasTipCap

/-- The message of a transaction whose signatures are valid. -/
def Transaction.messageOf (tx : Transaction) (src : Address) (baseFee tip : ℕ) : Message :=
  ⟨src,tx.dst,tx.nonce,tx.value,tx.gas,min (tip+baseFee) tx.gasFeeCap,tx.gasFeeCap,tip,tx.data,tx.accessList,
    if tx.feeDelegated then tx.feePayer else none,tx.setCodeAuthorizations⟩

lemma transactionToMessage_eq_ok {tx : Transaction} {baseFee : ℕ} {headerGasTip : Option ℕ} {db : StateDB}
    {msg : Message} : transactionToMessage tx baseFee headerGasTip db = .ok msg ↔ ∃ src, tx.sender = some src ∧
      (tx.feeDelegated=true → tx.feePayer.isSome) ∧
      tx.messageOf src baseFee (senderTip headerGasTip tx (db.isAuthorized src)) = msg := by
  unfold transactionToMessage
  cases tx.sender with
  | none => simp
  | some src =>
    simp only [Option.some.injEq,exists_eq_left',Transaction.messageOf]
    cases tx.feeDelegated <;> cases tx.feePayer <;> cases headerGasTip <;> simp [senderTip]

def txGas : ℕ := 21000

def txGasContractCreation : ℕ := 53000

def txDataZeroGas : ℕ := 4

def txDataNonZeroGas : ℕ := 16

def txAccessListAddressGas : ℕ := 2400

def txAccessListStorageKeyGas : ℕ := 1900

def txAuthTupleGas : ℕ := 12500

def refundQuotient : ℕ := 5

def intrinsicGas (msg : Message) : Except TxError ℕ :=
  let base := if msg.dst.isNone then txGasContractCreation else txGas
  let nonZero := msg.data.countP (·≠0)
  let gas := base+nonZero*txDataNonZeroGas+(msg.data.length-nonZero)*txDataZeroGas
  if 2^64 ≤ gas then .error .gasUintOverflow
  else
    let listGas :=
      match msg.accessList with
      | some (addresses,keys) => addresses*txAccessListAddressGas+keys*txAccessListStorageKeyGas
      | none => 0
    let authGas :=
      match msg.setCodeAuthorizations with
      | some auths => auths.length*callNewAccountGas
      | none => 0
    .ok (gas+listGas+authGas)

def checkNonce (msg : Message) (db : StateDB) : Except TxError Unit := do
  let nonce := db.getNonce msg.src
  require (msg.nonce ≤ nonce) .nonceTooHigh
  require (nonce ≤ msg.nonce) .nonceTooLow
  require (nonce ≤ nonce+1) .nonceMax

/-- Code is allowed to a sender only as a delegation. -/
def isEOA (db : StateDB) (a : Address) : Bool :=
  (db.getCode a).isEmpty || (parseDelegation (db.getCode a)).isSome

def checkFees (msg : Message) (baseFee : ℕ) : Except TxError Unit := do
  require (msg.gasFeeCap<2^256) .feeCapVeryHigh
  require (msg.gasTipCap<2^256) .tipVeryHigh
  require (msg.gasTipCap ≤ msg.gasFeeCap) .tipAboveFeeCap
  require (baseFee ≤ msg.gasFeeCap) .feeCapTooLow

def checkAuthorizations (msg : Message) : Except TxError Unit :=
  match msg.setCodeAuthorizations with
  | none => .ok ()
  | some auths => do
    require msg.dst.isSome .setCodeTxCreate
    require (!auths.isEmpty) .emptyAuthList

namespace Message

def isFeeDelegation (msg : Message) : Bool := msg.feePayer.isSome && msg.feePayer != some msg.src

/-- The sender, unless there is a fee payer. -/
def payer (msg : Message) : Address := msg.feePayer.getD msg.src

def gasCost (msg : Message) : ℕ := msg.gasLimit*msg.gasPrice

end Message

/-- The sender can pay for gas and value, or the fee payer for the gas and the sender for the value. -/
def hasFunds (msg : Message) (db : StateDB) : Bool :=
  if msg.isFeeDelegation then
    msg.gasCost<2^256 && msg.gasCost ≤ (db.getBalance msg.payer).toNat &&
      (msg.value<2^256 && msg.value ≤ (db.getBalance msg.src).toNat)
  else
    let total := msg.gasLimit*msg.gasFeeCap+msg.value
    total<2^256 && total ≤ (db.getBalance msg.src).toNat

/-- Pay for the gas limit in advance; also takes it from the gas pool of the block. The Applepie fork, before which a
fee payer is refused here, is taken to be active. -/
def buyGas (msg : Message) (gp : ℕ) (db : StateDB) : Except TxError (ℕ × StateDB) := do
  require (hasFunds msg db) .insufficientFunds
  require (msg.gasLimit ≤ gp) .gasLimitReached
  return (gp-msg.gasLimit,db.subBalance msg.payer (BitVec.ofNat 256 msg.gasCost))

def preCheck (msg : Message) (baseFee gp : ℕ) (db : StateDB) : Except TxError (ℕ × StateDB) := do
  checkNonce msg db
  require (isEOA db msg.src) .senderNoEOA
  checkFees msg baseFee
  checkAuthorizations msg
  buyGas msg gp db

def checkAccounts (msg : Message) (db : StateDB) : Except TxError Unit := do
  require (!db.isBlacklisted msg.src) (.blacklistedAccount msg.src)
  match msg.dst with
  | none => .ok ()
  | some dst => require (!db.isBlacklisted dst) (.blacklistedAccount dst)

def addressToDelegation (a : Address) : Bytes := delegationPrefix++BigEndian.encode 20 a.toNat

/-- The account whose delegation is valid in this state. -/
def validateAuthorization (chainId : ℕ) (db : StateDB) (auth : SetCodeAuthorization) : Option Address :=
  if auth.chainId≠0 && auth.chainId≠chainId then none
  else if auth.nonce+1<auth.nonce then none
  else
    match auth.authority with
    | none => none
    | some authority =>
      if !isEOA db authority then none
      else if db.getNonce authority≠auth.nonce then none
      else some authority

/-- An invalid authorization is skipped. -/
def applyAuthorization (chainId : ℕ) (db : StateDB) (auth : SetCodeAuthorization) : StateDB :=
  match validateAuthorization chainId db auth with
  | none => db
  | some authority =>
    let db := if db.exist authority then db.addRefund (callNewAccountGas-txAuthTupleGas) else db
    let db := db.setNonce authority (auth.nonce+1)
    db.setCode authority (if auth.address=0 then [] else addressToDelegation auth.address)

structure ExecutionResult where
  usedGas : ℕ
  refundedGas : ℕ
  err : Option VmError
  returnData : Bytes

def authorizedTxExecutedEventSig : Word :=
  0x40e728a89c7f5b192cf1c1b747fb64d51d81c7a2b3ed4607b94d3a1e6a3e0373

def authorizedTxExecutedLog : Log := ⟨accountManagerAddress,[authorizedTxExecutedEventSig],[]⟩

namespace Vm
variable (vm : Vm)

/-- A call counts up the nonce of the sender and installs the delegations first. -/
def entry (msg : Message) (w : World) : World :=
  match msg.dst with
  | none => w
  | some _ =>
    let db := w.db.setNonce msg.src (w.db.getNonce msg.src+1)
    { w with db := (msg.setCodeAuthorizations.getD []).foldl (applyAuthorization vm.chainId) db }

/-- The topmost call or creation. -/
def topmost (msg : Message) (gas : ℕ) (w : World) : CallOp :=
  let value := BitVec.ofNat 256 msg.value
  match msg.dst with
  | none => .create msg.src msg.data gas value (vm.createAddress msg.src (w.db.getNonce msg.src))
  | some dst => .call msg.src dst msg.data gas value

def executeMessage (msg : Message) (gas : ℕ) (w : World) : Result × World :=
  vm.exec (callCreateDepth+1) (vm.topmost msg gas w) false (vm.entry msg w)

end Vm

/-- At most a fraction of the gas used. -/
def refundedGas (msg : Message) (gasRemaining refund : ℕ) : ℕ :=
  min ((msg.gasLimit-gasRemaining)/refundQuotient) refund

def effectiveTip (msg : Message) (baseFee : ℕ) : ℕ := min msg.gasTipCap (msg.gasFeeCap-baseFee)

/-- Give the gas that is left back to the payer, and the tip to the coinbase. -/
def payFees (msg : Message) (coinbase : Address) (baseFee gasRemaining : ℕ) (db : StateDB) : StateDB :=
  let remaining := BitVec.ofNat 256 (gasRemaining*msg.gasPrice)
  let fee := BitVec.ofNat 256 ((msg.gasLimit-gasRemaining)*effectiveTip msg baseFee)
  (db.addBalance msg.payer remaining).addBalance coinbase fee

/-- Checked after the execution only. -/
def checkFeePayer (msg : Message) (db : StateDB) : Except TxError Unit :=
  match msg.feePayer with
  | none => .ok ()
  | some payer => require (!db.isBlacklisted payer) (.blacklistedAccount payer)

def logAuthorized (msg : Message) (db : StateDB) : StateDB :=
  if db.isAuthorized msg.src then db.addLog authorizedTxExecutedLog else db

/-- Refund, tip and log after the execution. -/
def complete (env : Env) (msg : Message) (gp : ℕ) (o : Result × World) :
    Except TxError (ExecutionResult × ℕ × World) := do
  let refund := refundedGas msg o.1.gas o.2.db.refund
  let gasRemaining := o.1.gas+refund
  let db := payFees msg env.coinbase env.baseFee gasRemaining o.2.db
  checkFeePayer msg db
  return (⟨msg.gasLimit-gasRemaining,refund,o.1.err,o.1.ret⟩,gp+gasRemaining,
    { o.2 with db := logAuthorized msg db })

/-- All checks of `TransitionDb` before any code runs; also returns the gas that is needed until then. -/
def commence (msg : Message) (baseFee gp : ℕ) (db : StateDB) : Except TxError (ℕ × ℕ × StateDB) := do
  let (gp,db) ← preCheck msg baseFee gp db
  let gas ← intrinsicGas msg
  require (gas ≤ msg.gasLimit) .intrinsicGas
  require (msg.value<2^256 && canTransfer db msg.src (BitVec.ofNat 256 msg.value))
    .insufficientFundsForTransfer
  checkAccounts msg db
  return (gp,gas,db)

def transitionDb (vm : Vm) (msg : Message) (gp : ℕ) (w : World) : Except TxError (ExecutionResult × ℕ × World) := do
  let (gp,gas,db) ← commence msg vm.env.baseFee gp w.db
  complete vm.env msg gp (vm.executeMessage msg (msg.gasLimit-gas) { w with db := db.prepare })

/-- The end of a transaction or of a block: destroyed and empty accounts are deleted. -/
def World.finalise (w : World) : World := { w.record .finalise with db := w.db.finalise }

end StableNet.Evm
