import StableNet.Pool.Transaction

/-! The rules for entering the pool: first what a transaction says by itself, then what the state and the pooled
transactions of its payers allow. -/
namespace StableNet.Pool
open Chain (Address Header)
open Lib

inductive ValidationError where
  | txTypeNotSupported
  | oversizedData
  | gasLimit
  | feeCapVeryHigh
  | tipVeryHigh
  | tipAboveFeeCap
  | gasUintOverflow
  | intrinsicGas
  | underpriced
  | emptyAuthList
  | blacklistedAccount (address : Address)
  | nonceTooLow
  | nonceTooHigh
  | senderInsufficientFunds
  | feePayerInsufficientFunds
  | insufficientFunds
  | accountLimitExceeded
  | accountingUnderflow (address : Address)
  deriving DecidableEq

structure ValidationOptions where
  accept : Tx.TxType → Bool
  maxSize : ℕ
  minTip : ℕ

/-- The transaction as a message, as far as its intrinsic gas goes. -/
def Tx.message (tx : Tx) : Evm.Message :=
  ⟨tx.src,tx.inner.dst,tx.inner.nonce,tx.value,tx.gas,tx.gasFeeCap,tx.gasFeeCap,tx.gasTipCap,tx.inner.data,
    tx.inner.accessList,tx.inner.feePayer,tx.inner.setCodeAuthorizations⟩

/-- The recovered signatures are part of the transaction. -/
def validateTransaction (chain : BlockChain) (opts : ValidationOptions) (head : Header) (tx : Tx) :
    Except ValidationError Unit := do
  require (opts.accept tx.type) .txTypeNotSupported
  require (tx.size ≤ opts.maxSize) .oversizedData
  require (chain.isApplepie head.number || tx.type ≠ .feeDelegateDynamicFee) .txTypeNotSupported
  require (chain.config.anzeonEnabled || tx.type ≠ .setCode) .txTypeNotSupported
  require (tx.gas ≤ head.gasLimit) .gasLimit
  require (tx.gasFeeCap<2^256) .feeCapVeryHigh
  require (tx.gasTipCap<2^256) .tipVeryHigh
  require (tx.gasTipCap ≤ tx.gasFeeCap) .tipAboveFeeCap
  let intrGas ← (Evm.intrinsicGas tx.message).mapError fun _ => .gasUintOverflow
  require (intrGas ≤ tx.gas) .intrinsicGas
  require (opts.minTip ≤ tx.gasTipCap) .underpriced
  require (!(chain.config.isLondon head.number && chain.config.anzeonEnabled) ||
    Chain.Params.minBaseFee+opts.minTip ≤ tx.gasFeeCap) .underpriced
  require (tx.type ≠ .setCode || tx.inner.setCodeAuthorizations ≠ some []) .emptyAuthList

structure ValidationOptionsWithState where
  state : Evm.StateDB
  firstNonceGap : Option (Address → ℕ)
  usedAndLeftSlots : Option (Address → ℕ × ℤ)
  existingExpenditure : Address → ℕ
  existingCost : Address → ℕ → Option ℕ
  existingTx : Option (Address → ℕ → Option Tx)
  anzeonTipEnv : Option AnzeonTipEnv

/-- What a replaced transaction gives free. -/
structure Replaced where
  gasPayer : Address
  value : ℕ
  gasCost : ℕ

namespace ValidationOptionsWithState
variable (chain : BlockChain) (opts : ValidationOptionsWithState) (tx : Tx)

def balance (addr : Address) : ℕ := (opts.state.getBalance addr).toNat

/-- Without the transaction itself, all of its cost is the sender's. -/
def replaced : Option Replaced :=
  match opts.existingTx with
  | some existingTx => (existingTx tx.src tx.nonce).map fun prev => ⟨prev.gasPayer,prev.value,prev.feeCost⟩
  | none => (opts.existingCost tx.src tx.nonce).map fun cost => ⟨tx.src,0,cost⟩

/-- What an account has pooled without the replaced transaction. -/
def kept (addr : Address) : ℤ :=
  match opts.replaced tx with
  | none => opts.existingExpenditure addr
  | some prev => (opts.existingExpenditure addr : ℤ)-(if addr=tx.src then prev.value else 0 : ℕ) -
      (if addr=prev.gasPayer then prev.gasCost else 0 : ℕ)

/-- What an account would have to pay for with the transaction. -/
def need (addr : Address) : Except ValidationError ℕ :=
  let n := opts.kept tx addr
  if n<0 then .error (.accountingUnderflow addr)
  else .ok (n.toNat+(if addr=tx.src then tx.value else 0)+if addr=tx.gasPayer then tx.feeCost else 0)

def checkBlacklist : Except ValidationError Unit := do
  if chain.config.anzeonEnabled then
    require (!opts.state.isBlacklisted tx.src) (.blacklistedAccount tx.src)
    match tx.inner.dst with
    | none => .ok ()
    | some dst => require (!opts.state.isBlacklisted dst) (.blacklistedAccount dst)

/-- The transaction can be paid for by itself. -/
def checkFunds : Except ValidationError Unit := do
  if tx.feeDelegated then
    require (!(chain.config.anzeonEnabled && opts.state.isBlacklisted tx.feePayer)) (.blacklistedAccount tx.feePayer)
    require (tx.value ≤ opts.balance tx.src) .senderInsufficientFunds
    require (tx.feeCost ≤ opts.balance tx.feePayer) .feePayerInsufficientFunds
  else require (tx.cost ≤ opts.balance tx.src) .insufficientFunds

/-- It can be paid for together with the pooled ones. -/
def checkExpenditure : Except ValidationError Unit := do
  let senderNeed ← opts.need tx tx.src
  if tx.src=tx.gasPayer then require (senderNeed ≤ opts.balance tx.src) .insufficientFunds
  else
    require (senderNeed ≤ opts.balance tx.src) .senderInsufficientFunds
    let feePayerNeed ← opts.need tx tx.gasPayer
    require (feePayerNeed ≤ opts.balance tx.gasPayer) .feePayerInsufficientFunds

def checkSlots : Except ValidationError Unit :=
  match opts.usedAndLeftSlots with
  | none => .ok ()
  | some slots => require ((opts.existingCost tx.src tx.nonce).isSome || 0<(slots tx.src).2) .accountLimitExceeded

/-- A tip cap that is remembered is not computed again. -/
def cacheTipCap (caps : TipCaps) : TipCaps :=
  match opts.anzeonTipEnv, caps tx with
  | some env, none => Function.update caps tx (some (env.getAnzeonTipCap chain tx))
  | _, _ => caps

def validateTransactionWithState (caps : TipCaps) : Except ValidationError TipCaps := do
  opts.checkBlacklist chain tx
  require ((opts.state.getNonce tx.src).toNat ≤ tx.nonce) .nonceTooLow
  require (opts.firstNonceGap.all fun gap => tx.nonce ≤ gap tx.src) .nonceTooHigh
  opts.checkFunds chain tx
  opts.checkSlots tx
  opts.checkExpenditure tx
  return opts.cacheTipCap chain tx caps

end ValidationOptionsWithState

end StableNet.Pool
