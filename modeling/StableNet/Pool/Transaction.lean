import StableNet.Chain.BaseFee
import StableNet.Evm.Process

/-! Transactions as the pool holds them, and the environment in which their tips are compared. -/
namespace StableNet.Evm

deriving instance DecidableEq for SetCodeAuthorization
deriving instance DecidableEq for Transaction

end StableNet.Evm

namespace StableNet.Pool
open Chain (Address Header)

/-- A transaction whose signatures were checked. It stands for its hash. -/
structure Tx where
  inner : Evm.Transaction
  size : ℕ
  src : Address
  signed : inner.sender = some src
  delegated : inner.feeDelegated=true → inner.feePayer.isSome=true
  recipient : inner.setCodeAuthorizations.isSome=true → inner.dst.isSome=true
  exclusive : inner.feeDelegated=true → inner.setCodeAuthorizations=none
  deriving DecidableEq

namespace Tx
variable (tx : Tx)

def nonce : ℕ := tx.inner.nonce.toNat

def value : ℕ := tx.inner.value

def gas : ℕ := tx.inner.gas

def gasFeeCap : ℕ := tx.inner.gasFeeCap

def gasTipCap : ℕ := tx.inner.gasTipCap

def feeDelegated : Bool := tx.inner.feeDelegated

/-- The types that the pool's rules tell apart: legacy, access-list and dynamic-fee transactions are plain ones. -/
inductive TxType where
  | plain
  | feeDelegateDynamicFee
  | setCode
  deriving DecidableEq

def type : TxType :=
  if tx.feeDelegated then .feeDelegateDynamicFee
  else if tx.inner.setCodeAuthorizations.isSome then .setCode
  else .plain

def feePayer : Address := tx.inner.feePayer.getD 0

/-- The most that the transaction can take from the accounts that pay for it. -/
def cost : ℕ := tx.gasFeeCap*tx.gas+tx.value

def feeCost : ℕ := tx.cost-tx.value

/-- The most that it can take from its sender. -/
def senderCost : ℕ := if tx.feeDelegated then tx.value else tx.cost

/-- What it can take from a fee payer. -/
def feeFor (payer : Address) : ℕ := if tx.feeDelegated ∧ tx.feePayer=payer then tx.feeCost else 0

def gasPayer : Address := if tx.feeDelegated then tx.feePayer else tx.src

def slotSize : ℕ := 32*1024

def numSlots : ℕ := (tx.size+slotSize-1)/slotSize

/-- The accounts whose delegations the transaction carries, without those that cannot be recovered. -/
def setCodeAuthorities : List Address :=
  ((tx.inner.setCodeAuthorizations.getD []).filterMap (·.authority)).dedup

lemma feeCost_eq : tx.feeCost = tx.gasFeeCap*tx.gas := by simp [feeCost,cost]

end Tx

structure BlockChain where
  config : Chain.ChainConfig
  isApplepie : ℕ → Bool
  stateAt : ℕ → Option Evm.StateDB

structure AnzeonTipEnv where
  currentBlock : Option Header
  currentState : Option Evm.StateDB
  baseFee : Option ℕ

namespace AnzeonTipEnv
variable (chain : BlockChain) (env : AnzeonTipEnv)

/-- The state of a header; there is none under an empty root. -/
def stateOf (header : Header) : Option Evm.StateDB := if header.root≠0 then chain.stateAt header.root else none

/-- A header with the same root and the same tip is not looked at. -/
def setCurrentBlock (header : Option Header) : AnzeonTipEnv :=
  match header with
  | none => env
  | some header =>
    match env.currentBlock with
    | none => { env with currentBlock := some header, currentState := stateOf chain header }
    | some block =>
      if block.root≠header.root ∨ Evm.Header.gasTip block ≠ Evm.Header.gasTip header then
        { env with currentBlock := some header, currentState := stateOf chain header }
      else env

def setBaseFee (baseFee : Option ℕ) : AnzeonTipEnv := { env with baseFee }

def getBaseFee : Option ℕ := env.baseFee.or (env.currentBlock.bind (·.baseFee))

/-- The header's tip for a sender that is not authorized, its own tip cap for the others. -/
def getAnzeonTipCap (tx : Tx) : ℕ :=
  match env.currentBlock with
  | none => tx.gasTipCap
  | some block =>
    if chain.config.anzeonEnabled then
      match env.currentState.or (stateOf chain block), Evm.Header.gasTip block with
      | some state, some tip => if state.isAuthorized tx.src then tx.gasTipCap else tip
      | _, _ => tx.gasTipCap
    else tx.gasTipCap

/-- The header's tip, where it counts. -/
def headerTip : Option ℕ := if chain.config.anzeonEnabled then env.currentBlock.bind Evm.Header.gasTip else none

/-- The bit of the sender; without a state nobody pays the header's tip. -/
def authorized (tx : Tx) : Bool :=
  (env.currentState.or (env.currentBlock.bind (stateOf chain))).all (·.isAuthorized tx.src)

lemma getAnzeonTipCap_eq (tx : Tx) : env.getAnzeonTipCap chain tx =
    if env.authorized chain tx then tx.gasTipCap else (env.headerTip chain).getD tx.gasTipCap := by
  unfold getAnzeonTipCap headerTip authorized
  cases env.currentBlock with
  | none => simp
  | some block =>
    by_cases hanzeon : chain.config.anzeonEnabled
    · cases hstate : env.currentState.or (stateOf chain block) <;> cases htip : Evm.Header.gasTip block <;>
        simp [hanzeon,hstate,htip]
    · simp [hanzeon]

end AnzeonTipEnv

/-- What the validation of a transaction sees: the tip cap that its object carries, the tip of the header and the
authorization of its sender. -/
structure Admission where
  carried : Option ℕ
  headerTip : Option ℕ
  authorized : Bool

/-- The cap that a validation comes to. -/
def Admission.cap (x : Admission) (tx : Tx) : ℕ :=
  x.carried.getD (if x.authorized then tx.gasTipCap else x.headerTip.getD tx.gasTipCap)

def AnzeonTipEnv.admission (chain : BlockChain) (env : AnzeonTipEnv) (tx : Tx) (carried : Option ℕ) : Admission :=
  ⟨carried,env.headerTip chain,env.authorized chain tx⟩

abbrev Admissions := Tx → Option Admission

abbrev TipCaps := Tx → Option ℕ

/-- The cap of a transaction is what its validation has given it. -/
def Remembers (caps : TipCaps) (admissions : Admissions) (tx : Tx) : Prop :=
  ∃ x, admissions tx = some x ∧ caps tx = some (x.cap tx)

lemma Remembers.isSome {caps : TipCaps} {admissions : Admissions} {tx : Tx} (h : Remembers caps admissions tx) :
    (caps tx).isSome := by
  obtain ⟨x,-,hcap⟩ := h
  rw [hcap,Option.isSome_some]

namespace Tx
variable (chain : BlockChain) (env : AnzeonTipEnv) (caps : TipCaps) (tx other : Tx)

/-- The tip that is left to a producer, and whether the fee cap is below the base fee. -/
def effectiveGasTip : ℤ × Bool :=
  match env.getBaseFee with
  | none => (tx.gasTipCap,false)
  | some baseFee =>
    (min (((caps tx).getD (env.getAnzeonTipCap chain tx) : ℕ) : ℤ) (tx.gasFeeCap-baseFee),tx.gasFeeCap<baseFee)

def effectiveGasTipValue : ℤ := (tx.effectiveGasTip chain env caps).1

def effectiveGasTipCmp : Ordering :=
  match env.getBaseFee with
  | none => compare tx.gasTipCap other.gasTipCap
  | some _ => compare (tx.effectiveGasTipValue chain env caps) (other.effectiveGasTipValue chain env caps)

end Tx

end StableNet.Pool
