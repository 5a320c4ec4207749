import StableNet.Evm.Transition

/-! Executing a block: its transactions one after the other, then the contract upgrades and the base
fees that the engine applies at the end. -/
namespace StableNet.Evm
open Chain
open Lib

/-- The code and the storage that an upgrade of the system contracts writes. -/
structure StateTransition where
  codes : List (Address × Bytes)
  states : List (Address × Slot × Word)

/-- A block as it is executed. The engine has looked up the epoch info the block is under, and the
upgrade that the configuration has for its number. -/
structure Block where
  header : Header
  isBoho : Bool
  txs : List Transaction
  epochInfo : Option EpochInfo
  upgrade : Option StateTransition

inductive BlockError where
  | tx (e : TxError)
  | missingBaseFee
  | missingEpochInfo
  | candidateOutOfRange
  | shareOverflow
  | negativeDust
  | dustOverflow
  | gasUsed
  deriving DecidableEq

structure Receipt where
  failed : Bool
  gasUsed : ℕ
  cumulativeGasUsed : ℕ
  logs : List Log

def Header.gasTip (h : Header) : Option ℕ := h.extractWBFTExtra.bind (·.gasTip)

def newEnv (h : Header) (msg : Message) : Env where
  coinbase := h.coinbase
  gasLimit := h.gasLimit
  number := h.number
  time := h.time
  random := BitVec.ofNat 256 h.mixDigest
  baseFee := h.baseFee.getD 0
  origin := msg.src
  gasPrice := msg.gasPrice

/-- The state of a block in execution: the world, the gas pool and the gas used. -/
structure Progress where
  world : World
  gasPool : ℕ
  usedGas : ℕ

namespace Network
variable (net : Network)

def vm (b : Block) (msg : Message) : Vm := ⟨net,b.isBoho,newEnv b.header msg⟩

def applyTransaction (b : Block) (p : Progress) (tx : Transaction) : Except TxError (Receipt × Progress) := do
  let msg ← transactionToMessage tx (b.header.baseFee.getD 0) (Header.gasTip b.header) p.world.db
  let w := { p.world with db := p.world.db.setTxContext }
  let (result,gp,w) ← transitionDb (net.vm b msg) msg p.gasPool w
  let w := w.finalise
  let usedGas := p.usedGas+result.usedGas
  return (⟨result.err.isSome,result.usedGas,usedGas,w.db.logs⟩,⟨w,gp,usedGas⟩)

def applyTransactions (b : Block) : List Transaction → Progress → Except TxError (List Receipt × Progress)
  | [], p => .ok ([],p)
  | tx::txs, p => do
    let (receipt,p) ← net.applyTransaction b p tx
    let (receipts,p) ← applyTransactions b txs p
    return (receipt::receipts,p)

variable {net} in
lemma applyTransactions_cons {b : Block} {tx : Transaction} {txs : List Transaction} {p p' : Progress}
    {receipts : List Receipt} (h : net.applyTransactions b (tx::txs) p = .ok (receipts,p')) :
    ∃ receipt q rest, net.applyTransaction b p tx = .ok (receipt,q) ∧ net.applyTransactions b txs q = .ok (rest,p') ∧
      receipts=receipt::rest := by
  obtain ⟨⟨receipt,q⟩,htx,h⟩ := bind_eq_ok.mp h
  obtain ⟨⟨rest,q'⟩,hrest,h⟩ := bind_eq_ok.mp h
  cases h
  exact ⟨receipt,q,rest,htx,hrest,rfl⟩

variable {net} in
lemma applyTransactions_concat {b : Block} {tx : Transaction} {txs : List Transaction} {p q q' : Progress}
    {receipts : List Receipt} {receipt : Receipt} (h : net.applyTransactions b txs p = .ok (receipts,q))
    (htx : net.applyTransaction b q tx = .ok (receipt,q')) :
    net.applyTransactions b (txs++[tx]) p = .ok (receipts++[receipt],q') := by
  induction txs generalizing p receipts with
  | nil =>
    cases h
    exact bind_eq_ok.mpr ⟨_,htx,rfl⟩
  | cons x txs ih =>
    obtain ⟨r,p',rest,hx,hrest,rfl⟩ := applyTransactions_cons h
    exact bind_eq_ok.mpr ⟨_,hx,bind_eq_ok.mpr ⟨_,ih hrest,rfl⟩⟩

end Network

/-- First the codes, then the storage. -/
def applyUpgrade (st : StateTransition) (db : StateDB) : StateDB :=
  let db := st.codes.foldl (fun db (a,code) => db.setCode a code) db
  st.states.foldl (fun db (a,key,value) => db.setState a key value) db

def validatorCandidates (info : EpochInfo) : Option (List Candidate) :=
  info.validators.mapM fun index => info.candidates[index]?

def diligenceSum (validators : List Candidate) : ℕ := (validators.map (·.diligence)).sum%2^64

/-- The share, rounded down. -/
def share (total sum : ℕ) (c : Candidate) : ℕ := total*c.diligence/sum

/-- Pay each validator its share; returns what is left of the dust. -/
def payShares (total sum : ℕ) : List Candidate → ℤ → StateDB → Except BlockError (ℤ × StateDB)
  | [], dust, db => .ok (dust,db)
  | c::validators, dust, db =>
    let share := share total sum c
    if share=0 then payShares total sum validators dust db
    else if 2^256 ≤ share then .error .shareOverflow
    else payShares total sum validators (dust-share) (db.addBalance c.addr (BitVec.ofNat 256 share))

/-- Without any diligence everything is dust. -/
def payValidators (total : ℕ) (validators : List Candidate) (db : StateDB) : Except BlockError (ℤ × StateDB) :=
  let sum := diligenceSum validators
  if sum=0 then .ok ((total : ℤ),db) else payShares total sum validators total db

def distributeBaseFee (h : Header) (epochInfo : Option EpochInfo) (db : StateDB) : Except BlockError StateDB :=
  if h.gasUsed=0 || h.number=0 then .ok db
  else
    match h.baseFee, epochInfo with
    | none, _ => .error .missingBaseFee
    | some _, none => .error .missingEpochInfo
    | some baseFee, some info =>
      match validatorCandidates info with
      | none => .error .candidateOutOfRange
      | some validators => do
        let (dust,db) ← payValidators (baseFee*h.gasUsed) validators db
        require (0 ≤ dust) .negativeDust
        require (dust<2^256) .dustOverflow
        return if dust=0 then db else db.addBalance h.coinbase (BitVec.ofNat 256 dust.toNat)

/-- The state with the upgrade that the block brings. -/
def Block.upgraded (b : Block) (db : StateDB) : StateDB :=
  match b.upgrade with
  | none => db
  | some st => applyUpgrade st db

def finalize (b : Block) (w : World) : Except BlockError World := do
  let db ← distributeBaseFee b.header b.epochInfo (b.upgraded w.db)
  return { w with db := db }.finalise

namespace Network
variable (net : Network)

/-- Execute a block; it is accepted if it used the gas its header says. -/
def process (b : Block) (w : World) : Except BlockError (List Receipt × World) := do
  let (receipts,p) ← (net.applyTransactions b b.txs ⟨w,b.header.gasLimit,0⟩).mapError .tx
  let w ← finalize b p.world
  require (b.header.gasUsed=p.usedGas) .gasUsed
  return (receipts,w)

variable {net} in
lemma process_ok {b : Block} {w w' : World} {receipts : List Receipt} (h : net.process b w = .ok (receipts,w')) :
    ∃ p, net.applyTransactions b b.txs ⟨w,b.header.gasLimit,0⟩ = .ok (receipts,p) ∧ finalize b p.world = .ok w' ∧
      b.header.gasUsed=p.usedGas := by
  simp only [process,bind_eq_ok,mapError_eq_ok,Prod.exists,require_eq_ok,decide_eq_true_eq] at h
  obtain ⟨_,p,htxs,_,hend,_,hused,h⟩ := h
  cases h
  exact ⟨p,htxs,hend,hused⟩

def processChain : List Block → World → Except BlockError World
  | [], w => .ok w
  | b::blocks, w => do
    let (_,w) ← net.process b w
    processChain blocks w

end Network

end StableNet.Evm
