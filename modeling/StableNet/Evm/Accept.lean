import StableNet.Evm.Process
import StableNet.Evm.Steps

/-! What is known of a transaction that was accepted, and of the world after it. -/
namespace StableNet.Evm
open Chain (Address Bytes)
open Lib

/-- The world in which a message is executed: the gas is bought. -/
def Message.start (msg : Message) (w : World) : World :=
  { w with db := (w.db.subBalance msg.payer (BitVec.ofNat 256 msg.gasCost)).prepare }

/-- The message passed all checks, and needs `gas` before any code runs. -/
structure Admitted (msg : Message) (baseFee gp : ℕ) (w : World) (gas : ℕ) : Prop where
  nonce : w.db.getNonce msg.src=msg.nonce
  eoa : isEOA w.db msg.src=true
  feeCap_lt : msg.gasFeeCap<2^256
  tip_le : msg.gasTipCap ≤ msg.gasFeeCap
  baseFee_le : baseFee ≤ msg.gasFeeCap
  funds : hasFunds msg w.db=true
  pool : msg.gasLimit ≤ gp
  intrinsic : intrinsicGas msg = .ok gas
  gas_le : gas ≤ msg.gasLimit
  value_lt : msg.value<2^256
  transfer : canTransfer (msg.start w).db msg.src (BitVec.ofNat 256 msg.value)=true
  accounts : checkAccounts msg (msg.start w).db = .ok ()

lemma transitionDb_ok {vm : Vm} {msg : Message} {gp : ℕ} {w : World}
    {r : ExecutionResult × ℕ × World} (h : transitionDb vm msg gp w = .ok r) :
    ∃ gas, Admitted msg vm.env.baseFee gp w gas ∧ complete vm.env msg (gp-msg.gasLimit)
      (vm.executeMessage msg (msg.gasLimit-gas) (msg.start w)) = .ok r := by
  unfold transitionDb commence preCheck checkNonce checkFees buyGas at h
  simp only [bind_eq_ok,require_eq_ok,Prod.exists,decide_eq_true_eq,Bool.and_eq_true] at h
  obtain ⟨gp',gas,db,⟨_,_,⟨_,⟨_,hle,_,hge,_⟩,_,heoa,_,⟨_,hcap,_,_,_,htip,hbase⟩,_,_,_,hfunds,_,hpool,heq⟩,
    _,hgas,_,hgasLe,_,⟨hvalue,htransfer⟩,_,haccounts,hadmitted⟩,hcomplete⟩ := h
  cases hadmitted
  obtain ⟨rfl,rfl⟩ : gp-msg.gasLimit = gp' ∧ w.db.subBalance msg.payer (BitVec.ofNat 256 msg.gasCost) = db := by
    simpa [pure,Except.pure] using heq
  exact ⟨gas,⟨BitVec.le_antisymm hge hle,heoa,hcap,htip,hbase,hfunds,hpool,hgas,hgasLe,hvalue,htransfer,
    haccounts⟩,hcomplete⟩

/-- The gas that is left when a message has been executed, the refund included. -/
def gasLeft (msg : Message) (o : Result × World) : ℕ := o.1.gas+refundedGas msg o.1.gas o.2.db.refund

def paid (env : Env) (msg : Message) (o : Result × World) : StateDB :=
  payFees msg env.coinbase env.baseFee (gasLeft msg o) o.2.db

lemma complete_ok {env : Env} {msg : Message} {gp : ℕ} {o : Result × World} {result : ExecutionResult}
    {gp' : ℕ} {w' : World} (h : complete env msg gp o = .ok (result,gp',w')) :
    checkFeePayer msg (paid env msg o) = .ok () ∧ result.usedGas = msg.gasLimit-gasLeft msg o ∧
      result.err = o.1.err ∧ gp' = gp+gasLeft msg o ∧ w' = { o.2 with db := logAuthorized msg (paid env msg o) } := by
  unfold complete at h
  simp only [bind_eq_ok] at h
  obtain ⟨_,hpayer,heq⟩ := h
  simp only [pure,Except.pure,Except.ok.injEq,Prod.mk.injEq] at heq
  obtain ⟨rfl,rfl,rfl⟩ := heq
  exact ⟨hpayer,rfl,rfl,rfl,rfl⟩

lemma Network.applyTransaction_ok {net : Network} {b : Block} {p p' : Progress} {tx : Transaction}
    {receipt : Receipt} (h : net.applyTransaction b p tx = .ok (receipt,p')) :
    ∃ msg gas result w', transactionToMessage tx (b.header.baseFee.getD 0) (Header.gasTip b.header) p.world.db =
        .ok msg ∧ let w := { p.world with db := p.world.db.setTxContext }
      Admitted msg (b.header.baseFee.getD 0) p.gasPool w gas ∧
      complete (newEnv b.header msg) msg (p.gasPool-msg.gasLimit)
        ((net.vm b msg).executeMessage msg (msg.gasLimit-gas) (msg.start w)) = .ok (result,p'.gasPool,w') ∧
      p' = ⟨w'.finalise,p'.gasPool,p.usedGas+result.usedGas⟩ ∧
      receipt = ⟨result.err.isSome,result.usedGas,p.usedGas+result.usedGas,w'.finalise.db.logs⟩ := by
  unfold applyTransaction at h
  simp only [bind_eq_ok,Prod.exists] at h
  obtain ⟨msg,hmsg,result,gp,w',htrans,heq⟩ := h
  obtain ⟨gas,hadmitted,hcomplete⟩ := transitionDb_ok htrans
  simp only [pure,Except.pure,Except.ok.injEq,Prod.mk.injEq] at heq
  obtain ⟨rfl,rfl⟩ := heq
  exact ⟨msg,gas,result,w',hmsg,hadmitted,hcomplete,rfl,rfl⟩

end StableNet.Evm
