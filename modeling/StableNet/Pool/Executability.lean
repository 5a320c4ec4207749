import StableNet.Evm.Blacklist
import StableNet.Evm.Receipts
import StableNet.Pool.Validation

/-! What the pool accepts can be executed. Its rules for the payers and those of a block are written apart. -/
namespace StableNet.Pool
open Chain (Address Header)
open Evm (Block Network StateDB World isEOA intrinsicGas senderTip transactionToMessage transactionToMessage_eq_ok
  transitionDb)
open Lib

namespace ValidationOptionsWithState
variable {opts : ValidationOptionsWithState} {tx : Tx} {a : Address} {n : ℕ}

lemma need_eq_ok : opts.need tx a = .ok n ↔ 0 ≤ opts.kept tx a ∧
    n = (opts.kept tx a).toNat+(if a=tx.src then tx.value else 0)+if a=tx.gasPayer then tx.feeCost else 0 := by
  rw [need]
  split
  · rename_i hneg
    simp [hneg.not_ge]
  · rename_i hpos
    simp [not_lt.mp hpos,eq_comm]

lemma checkExpenditure_ok (h : opts.checkExpenditure tx = .ok ()) (ha : a=tx.src ∨ a=tx.gasPayer) :
    ∃ n, opts.need tx a = .ok n ∧ n ≤ opts.balance a := by
  obtain ⟨senderNeed,hsender,h⟩ := bind_eq_ok.mp h
  split at h
  · rename_i hself
    obtain rfl : a=tx.src := ha.elim id fun ha => ha.trans hself.symm
    exact ⟨senderNeed,hsender,by simpa [require_eq_ok] using h⟩
  · obtain ⟨_,hfunds,h⟩ := bind_eq_ok.mp h
    obtain ⟨payerNeed,hpayer,h⟩ := bind_eq_ok.mp h
    rcases ha with rfl | rfl
    · exact ⟨senderNeed,hsender,by simpa [require_eq_ok] using hfunds⟩
    · exact ⟨payerNeed,hpayer,by simpa [require_eq_ok] using h⟩

theorem payable (h : opts.checkExpenditure tx = .ok ()) :
    tx.value+(if tx.src=tx.gasPayer then tx.feeCost else 0) ≤ opts.balance tx.src ∧
      tx.feeCost ≤ opts.balance tx.gasPayer := by
  obtain ⟨n,hn,hle⟩ := checkExpenditure_ok h (.inl rfl)
  obtain ⟨m,hm,hle'⟩ := checkExpenditure_ok h (.inr rfl)
  rw [need_eq_ok,if_pos rfl] at hn hm
  constructor <;> omega

end ValidationOptionsWithState

namespace Tx
variable (tx : Tx) (baseFee : ℕ) (headerGasTip : Option ℕ) (db : StateDB)

/-- The message that a block makes of a transaction. -/
def messageIn : Evm.Message :=
  let tip := senderTip headerGasTip tx.inner (db.isAuthorized tx.src)
  { tx.message with
    gasPrice := min (tip+baseFee) tx.gasFeeCap
    gasTipCap := tip
    feePayer := if tx.feeDelegated then some tx.feePayer else none }

lemma transactionToMessage_eq :
    transactionToMessage tx.inner baseFee headerGasTip db = .ok (tx.messageIn baseFee headerGasTip db) := by
  refine transactionToMessage_eq_ok.mpr ⟨_,tx.signed,tx.delegated,?_⟩
  unfold Evm.Transaction.messageOf messageIn
  by_cases hdelegated : tx.feeDelegated=true
  · obtain ⟨payer,hpayer⟩ := Option.isSome_iff_exists.mp (tx.delegated hdelegated)
    have hfee : tx.feePayer=payer := by simp [feePayer,hpayer]
    rw [if_pos hdelegated,if_pos (show tx.inner.feeDelegated=true from hdelegated),hfee,hpayer]
    rfl
  · rw [if_neg hdelegated,if_neg (show ¬tx.inner.feeDelegated=true from hdelegated)]
    rfl

lemma payer_messageIn : (tx.messageIn baseFee headerGasTip db).payer = tx.gasPayer := by
  unfold Evm.Message.payer messageIn gasPayer
  split <;> rfl

lemma gasCost_messageIn_le : (tx.messageIn baseFee headerGasTip db).gasCost ≤ tx.feeCost := by
  rw [feeCost_eq,Nat.mul_comm]
  exact Nat.mul_le_mul_left _ (Nat.min_le_right _ _)

/-- What both validations leave to a block. -/
structure Accepted : Prop where
  feeCap_lt : tx.gasFeeCap<2^256
  intrinsic : ∃ gas, intrinsicGas tx.message = .ok gas ∧ gas ≤ tx.gas
  authorizations : tx.inner.setCodeAuthorizations ≠ some []
  free : db.isBlacklisted tx.src=false ∧ (∀ dst ∈ tx.inner.dst, db.isBlacklisted dst=false) ∧
    (tx.feeDelegated=true → db.isBlacklisted tx.feePayer=false)
  value : tx.value+(if tx.src=tx.gasPayer then tx.feeCost else 0) ≤ (db.getBalance tx.src).toNat
  fee : tx.feeCost ≤ (db.getBalance tx.gasPayer).toNat

end Tx

section
variable {chain : BlockChain} {opts : ValidationOptions} {head : Header} {tx : Tx}
  {optsWithState : ValidationOptionsWithState} {caps caps' : TipCaps}

lemma validateTransaction_ok (h : validateTransaction chain opts head tx = .ok ()) : tx.gasFeeCap<2^256 ∧
    (∃ gas, intrinsicGas tx.message = .ok gas ∧ gas ≤ tx.gas) ∧ tx.inner.setCodeAuthorizations ≠ some [] := by
  simp only [validateTransaction,bind_eq_ok,require_eq_ok,mapError_eq_ok,decide_eq_true_eq] at h
  obtain ⟨_,_,_,_,_,_,_,_,_,_,_,hcap,_,_,_,_,gas,hgas,_,hle,_,_,_,_,hauth⟩ := h
  refine ⟨hcap,⟨gas,hgas,hle⟩,fun hempty => ?_⟩
  have hsome : tx.inner.setCodeAuthorizations.isSome=true := by rw [hempty]; rfl
  have hplain : ¬tx.feeDelegated=true := fun hdelegated => by simp [tx.exclusive hdelegated] at hsome
  simp [Tx.type,hplain,hempty] at hauth

lemma free_of_checks (hanzeon : chain.config.anzeonEnabled=true)
    (hblacklist : optsWithState.checkBlacklist chain tx = .ok ())
    (hfunds : optsWithState.checkFunds chain tx = .ok ()) :
    optsWithState.state.isBlacklisted tx.src=false ∧
      (∀ dst ∈ tx.inner.dst, optsWithState.state.isBlacklisted dst=false) ∧
      (tx.feeDelegated=true → optsWithState.state.isBlacklisted tx.feePayer=false) := by
  simp only [ValidationOptionsWithState.checkBlacklist,hanzeon,if_true,bind_eq_ok,require_eq_ok,
    Bool.not_eq_true'] at hblacklist
  obtain ⟨_,hsrc,hdst⟩ := hblacklist
  refine ⟨hsrc,fun dst hmem => ?_,fun hdelegated => ?_⟩
  · rw [Option.mem_def.mp hmem] at hdst
    simpa [require_eq_ok] using hdst
  · simp only [ValidationOptionsWithState.checkFunds,hdelegated,if_true,hanzeon,bind_eq_ok,require_eq_ok] at hfunds
    obtain ⟨_,hpayer,_⟩ := hfunds
    simpa using hpayer

lemma accepted_of_validated (hanzeon : chain.config.anzeonEnabled=true)
    (hvalid : validateTransaction chain opts head tx = .ok ())
    (h : optsWithState.validateTransactionWithState chain tx caps = .ok caps') : tx.Accepted optsWithState.state := by
  obtain ⟨hcap,hgas,hauth⟩ := validateTransaction_ok hvalid
  obtain ⟨_,hblacklist,h⟩ := bind_eq_ok.mp h
  obtain ⟨_,h⟩ := ok_of_bind h
  obtain ⟨_,h⟩ := ok_of_bind h
  obtain ⟨_,hfunds,h⟩ := bind_eq_ok.mp h
  obtain ⟨_,h⟩ := ok_of_bind h
  obtain ⟨_,hexpenditure,_⟩ := bind_eq_ok.mp h
  obtain ⟨hvalue,hfee⟩ := ValidationOptionsWithState.payable hexpenditure
  exact ⟨hcap,hgas,hauth,free_of_checks hanzeon hblacklist hfunds,hvalue,hfee⟩

end

section
variable {tx : Tx} {baseFee gp : ℕ} {tip : Option ℕ} {db : StateDB} {w : World}

lemma isFeeDelegation_messageIn : (tx.messageIn baseFee tip db).isFeeDelegation = decide (tx.gasPayer≠tx.src) := by
  simp only [Evm.Message.isFeeDelegation,Tx.messageIn,Tx.gasPayer]
  split
  · by_cases hself : tx.feePayer=tx.src <;> simp [Tx.message,hself]
  · simp

namespace Tx.Accepted

lemma hasFunds (h : tx.Accepted db) : Evm.hasFunds (tx.messageIn baseFee tip db) db=true := by
  have hcost := tx.gasCost_messageIn_le baseFee tip db
  have hvalue := h.value
  have hsrc := (db.getBalance tx.src).isLt
  have hpayer := (db.getBalance tx.gasPayer).isLt
  rw [Evm.hasFunds,isFeeDelegation_messageIn,payer_messageIn]
  by_cases hself : tx.gasPayer=tx.src
  · have htotal : tx.gas*tx.gasFeeCap+tx.value = tx.value+tx.feeCost := by
      rw [feeCost_eq,Nat.mul_comm,Nat.add_comm]
    rw [if_pos hself.symm,← htotal] at hvalue
    rw [if_neg (by simpa using hself)]
    exact Bool.and_eq_true_iff.mpr ⟨decide_eq_true (hvalue.trans_lt hsrc),decide_eq_true hvalue⟩
  · have hv : tx.value ≤ (db.getBalance tx.src).toNat := (Nat.le_add_right _ _).trans hvalue
    have hc := hcost.trans h.fee
    rw [if_pos (by simpa using hself)]
    simp only [Bool.and_eq_true,decide_eq_true_eq]
    exact ⟨⟨hc.trans_lt hpayer,hc⟩,hv.trans_lt hsrc,hv⟩

theorem canTransfer (h : tx.Accepted w.db) :
    Evm.canTransfer ((tx.messageIn baseFee tip w.db).start w).db tx.src (BitVec.ofNat 256 tx.value)=true := by
  have hcost := tx.gasCost_messageIn_le baseFee tip w.db
  have hvalue := h.value
  have hsrc := (w.db.getBalance tx.src).isLt
  rw [StateDB.getBalance_eq] at hvalue hsrc
  refine decide_eq_true ?_
  rw [StateDB.getBalance_eq,Evm.Message.obj_start,payer_messageIn,BitVec.le_def]
  dsimp only
  by_cases hself : tx.src=tx.gasPayer
  · rw [if_pos hself] at hvalue ⊢
    generalize (tx.messageIn baseFee tip w.db).gasCost = cost at hcost ⊢
    have hmod : (BitVec.ofNat 256 cost).toNat=cost := by rw [BitVec.toNat_ofNat,Nat.mod_eq_of_lt (by omega)]
    rw [BitVec.toNat_sub_of_le (by rw [BitVec.le_def,hmod]; omega),hmod,BitVec.toNat_ofNat,
      Nat.mod_eq_of_lt (by omega)]
    omega
  · rw [if_neg hself] at hvalue ⊢
    rw [show (w.db.obj tx.src).balance-0 = (w.db.obj tx.src).balance from BitVec.sub_zero _,BitVec.toNat_ofNat,
      Nat.mod_eq_of_lt (by omega)]
    exact hvalue

lemma checkAccounts (h : tx.Accepted w.db) :
    Evm.checkAccounts (tx.messageIn baseFee tip w.db) ((tx.messageIn baseFee tip w.db).start w).db = .ok () := by
  obtain ⟨hsrc,hdst,_⟩ := h.free
  cases hcheck : Evm.checkAccounts (tx.messageIn baseFee tip w.db) ((tx.messageIn baseFee tip w.db).start w).db with
  | ok => rfl
  | error e =>
    rcases Evm.checkAccounts_error hcheck with hlisted | ⟨dst,hmem,hlisted⟩
    · rw [Evm.isBlacklisted_start] at hlisted
      exact absurd (hlisted.symm.trans hsrc) (by simp)
    · rw [Evm.isBlacklisted_start] at hlisted
      exact absurd (hlisted.symm.trans (hdst dst hmem)) (by simp)

theorem cleared (h : tx.Accepted w.db) (hnonce : w.db.getNonce tx.src=tx.inner.nonce) (hmax : tx.nonce<2^64-1)
    (heoa : isEOA w.db tx.src=true) (hbase : baseFee ≤ tx.gasFeeCap)
    (htip : senderTip tip tx.inner (w.db.isAuthorized tx.src) ≤ tx.gasFeeCap) (hgas : tx.gas ≤ gp) :
    ∃ gas, Evm.Cleared (tx.messageIn baseFee tip w.db) baseFee gp w gas := by
  obtain ⟨gas,hintrinsic,hle⟩ := h.intrinsic
  have hlt : tx.value<2^256 := (Nat.le_add_right _ _).trans_lt (h.value.trans_lt (w.db.getBalance tx.src).isLt)
  refine ⟨gas,⟨⟨hnonce,heoa,h.feeCap_lt,htip,hbase,h.hasFunds,hgas,hintrinsic,hle,hlt,h.canTransfer,h.checkAccounts⟩,
    ?_,?_⟩⟩
  · change w.db.getNonce tx.src ≤ w.db.getNonce tx.src+1
    have hlt : tx.inner.nonce.toNat<2^64-1 := hmax
    rw [hnonce]
    bv_omega
  · cases hauth : tx.inner.setCodeAuthorizations with
    | none => simp [Evm.checkAuthorizations,messageIn,message,hauth]
    | some auths =>
      have hne : auths≠[] := fun he => h.authorizations (he ▸ hauth)
      have hdst : tx.inner.dst.isSome=true := tx.recipient (by rw [hauth]; rfl)
      simp [Evm.checkAuthorizations,messageIn,message,hauth,hdst,hne,require,ok_bind]

end Tx.Accepted

end

/-- A transaction that the pool accepts for the next nonce of a sender without code is executed, in a block that it can
pay for, unless its own execution lists its fee payer. -/
theorem accepted_executes {chain : BlockChain} {opts : ValidationOptions} {head : Header} {tx : Tx}
    {optsWithState : ValidationOptionsWithState} {caps caps' : TipCaps} {net : Network} {b : Block} {w : World} {gp : ℕ}
    (hanzeon : chain.config.anzeonEnabled=true) (hvalid : validateTransaction chain opts head tx = .ok ())
    (hstate : optsWithState.validateTransactionWithState chain tx caps = .ok caps') (hw : w.db=optsWithState.state)
    (hnonce : w.db.getNonce tx.src=tx.inner.nonce) (hmax : tx.nonce<2^64-1) (heoa : isEOA w.db tx.src=true)
    (hbase : b.header.baseFee.getD 0 ≤ tx.gasFeeCap)
    (htip : senderTip (Evm.Header.gasTip b.header) tx.inner (w.db.isAuthorized tx.src) ≤ tx.gasFeeCap)
    (hgas : tx.gas ≤ gp) :
    ∃ msg gas, transactionToMessage tx.inner (b.header.baseFee.getD 0) (Evm.Header.gasTip b.header) w.db = .ok msg ∧
      intrinsicGas msg = .ok gas ∧ ((∀ payer ∈ msg.feePayer,
          (net.executed b ⟨w,gp,0⟩ msg gas).isBlacklisted payer = w.db.isBlacklisted payer) →
        ∃ r, transitionDb (net.vm b msg) msg gp { w with db := w.db.setTxContext } = .ok r) := by
  have h : tx.Accepted w.db := hw ▸ accepted_of_validated hanzeon hvalid hstate
  let msg := tx.messageIn (b.header.baseFee.getD 0) (Evm.Header.gasTip b.header) w.db
  have hstart : tx.Accepted w.db.setTxContext := ⟨h.feeCap_lt,h.intrinsic,h.authorizations,h.free,h.value,h.fee⟩
  obtain ⟨gas,hcleared⟩ : ∃ gas, Evm.Cleared msg (net.vm b msg).env.baseFee gp { w with db := w.db.setTxContext } gas :=
    @Tx.Accepted.cleared _ _ _ _ { w with db := w.db.setTxContext } hstart hnonce hmax heoa hbase htip hgas
  refine ⟨msg,gas,tx.transactionToMessage_eq _ _ _,hcleared.intrinsic,fun hkept => ?_⟩
  rw [hcleared.transitionDb_eq]
  obtain ⟨r,hr,_⟩ | ⟨payer,hmem,_,hlisted⟩ := Evm.complete_cases (net.vm b msg).env msg (gp-msg.gasLimit)
    ((net.vm b msg).executeMessage msg (msg.gasLimit-gas) (msg.start { w with db := w.db.setTxContext }))
  · exact ⟨r,hr⟩
  · have hpayer : (if tx.feeDelegated then some tx.feePayer else none) = some payer := hmem
    obtain ⟨hdelegated,rfl⟩ : tx.feeDelegated=true ∧ tx.feePayer=payer := by simpa using hpayer
    have hfree := (hkept _ hmem).trans (h.free.2.2 hdelegated)
    exact absurd (hlisted.symm.trans hfree) (by simp)

namespace Sponsored
open Evm.SingleSender (sender wallet contract account creation)

def world : World := Evm.SingleSender.world [(sender,account),(contract,account)]

def chain : BlockChain := ⟨⟨some 0,none,none,some ⟨[],[],true⟩⟩,fun _ => true,fun _ => some world.db⟩

/-- A transfer whose gas another account pays. -/
def transfer : Tx where
  inner := { Evm.SingleSender.transaction (some wallet) 7 [] with
    gas := 21000
    gasFeeCap := 3*10^13
    feeDelegated := true
    feePayer := some contract }
  size := 200
  src := sender
  signed := rfl
  delegated _ := rfl
  recipient _ := rfl
  exclusive _ := rfl

def options : ValidationOptionsWithState := ⟨world.db,none,none,fun _ => 0,fun _ _ => none,none,none⟩

theorem transfer_executes : ∃ msg r,
    transactionToMessage transfer.inner 5 (Evm.Header.gasTip creation.header) world.db = .ok msg ∧
    msg.feePayer = some contract ∧
    transitionDb (Evm.SingleSender.net.vm creation msg) msg 30000 { world with db := world.db.setTxContext } =
    .ok r := by
  obtain ⟨_,hvalid,-⟩ := exists_of_holds (P := fun _ => true) (x := validateTransaction chain ⟨fun _ => true,1000,1⟩
    creation.header transfer) (by decide +kernel)
  obtain ⟨_,hstate,-⟩ := exists_of_holds (P := fun _ => true) (x := options.validateTransactionWithState chain transfer
    fun _ => none) (by decide +kernel)
  obtain ⟨msg,gas,hmsg,hgas,hrun⟩ := @accepted_executes _ _ _ _ _ _ _ Evm.SingleSender.net creation _ 30000 rfl
    hvalid hstate rfl (by decide +kernel) (by decide) (by decide +kernel) (by decide) (by decide +kernel) (by decide)
  rw [transfer.transactionToMessage_eq] at hmsg
  obtain rfl := Except.ok.inj hmsg
  cases hgas
  obtain ⟨r,hr⟩ := hrun fun payer hpayer => by
    obtain rfl : contract=payer := Option.some.inj hpayer
    decide +kernel
  exact ⟨_,r,transfer.transactionToMessage_eq _ _ _,rfl,hr⟩

end Sponsored

end StableNet.Pool
