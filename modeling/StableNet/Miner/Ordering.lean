import StableNet.Evm.Transition
import StableNet.Lib.Heap

/-! The order in which a block producer takes pending transactions: the fee each is thought to pay, and the heap of
the first ones. -/
namespace StableNet.Miner
open Chain (Address)
open Lib

/-- A pending transaction as far as the selection reads it. -/
structure LazyTransaction where
  hash : ℕ
  time : ℤ
  gasFeeCap : ℕ
  gasTipCap : ℕ
  deriving DecidableEq

structure TxWithMinerFee where
  tx : LazyTransaction
  src : Address
  fees : ℕ
  deriving DecidableEq

inductive OrderingError where
  | gasFeeCapTooLow
  deriving DecidableEq

def newTxWithMinerFee (tx : LazyTransaction) (src : Address) (baseFee headerTip : Option ℕ) (isAuthorized : Bool) :
    Except OrderingError TxWithMinerFee :=
  match baseFee with
  | none => .ok ⟨tx,src,tx.gasTipCap⟩
  | some baseFee =>
    if tx.gasFeeCap<baseFee then .error .gasFeeCapTooLow
    else
      let tip := tx.gasFeeCap-baseFee
      let tip :=
        match headerTip with
        | some headerTip => if !isAuthorized && headerTip<tx.gasTipCap then headerTip else tip
        | none => tip
      .ok ⟨tx,src,if tx.gasTipCap<tip then tx.gasTipCap else tip⟩

def lazyTransaction (hash : ℕ) (time : ℤ) (tx : Evm.Transaction) : LazyTransaction :=
  ⟨hash,time,tx.gasFeeCap,tx.gasTipCap⟩

/-- The order of the three limits in which the estimate and the payment agree. Only a sender without authorization
under a header with a tip can fall out of it: its own tip must exceed that of the header, with room for the header's
under the fee cap, or be the same, or be out of reach under the fee cap. -/
def FeeExact (tx : Evm.Transaction) (baseFee : ℕ) (headerTip : Option ℕ) (isAuthorized : Bool) : Prop :=
  isAuthorized=true ∨ ∀ tip, headerTip = some tip →
    if tip<tx.gasTipCap then baseFee+tip ≤ tx.gasFeeCap
    else tx.gasTipCap=tip ∨ tx.gasFeeCap ≤ baseFee+tx.gasTipCap

lemma checkFees_ok {msg : Evm.Message} {baseFee : ℕ} {u : Unit} (h : Evm.checkFees msg baseFee = .ok u) :
    msg.gasTipCap ≤ msg.gasFeeCap ∧ baseFee ≤ msg.gasFeeCap := by
  simp only [Evm.checkFees,bind_eq_ok,require_eq_ok,decide_eq_true_eq] at h
  obtain ⟨_,_,_,_,_,htip,hbase⟩ := h
  exact ⟨htip,hbase⟩

/-- The estimate is the tip per gas that the coinbase gets exactly under `FeeExact`. -/
theorem minerFee_eq_effectiveTip_iff {tx : Evm.Transaction} {baseFee : ℕ} {headerTip : Option ℕ} {db : Evm.StateDB}
    {msg : Evm.Message} (hash : ℕ) (time : ℤ) (hmsg : Evm.transactionToMessage tx baseFee headerTip db = .ok msg)
    (hfees : Evm.checkFees msg baseFee = .ok ()) :
    (∃ w, newTxWithMinerFee (lazyTransaction hash time tx) msg.src (some baseFee) headerTip (db.isAuthorized msg.src) =
        .ok w ∧ w.fees = Evm.effectiveTip msg baseFee) ↔ FeeExact tx baseFee headerTip (db.isAuthorized msg.src) := by
  obtain ⟨hcap,htip⟩ : msg.gasFeeCap=tx.gasFeeCap ∧
      msg.gasTipCap = Evm.senderTip headerTip tx (db.isAuthorized msg.src) := by
    obtain ⟨_,_,_,rfl⟩ := Evm.transactionToMessage_eq_ok.mp hmsg
    exact ⟨rfl,rfl⟩
  obtain ⟨htipCap,hbase⟩ := checkFees_ok hfees
  rw [hcap] at htipCap hbase
  have hpayable : ¬ (lazyTransaction hash time tx).gasFeeCap<baseFee := Nat.not_lt.mpr hbase
  simp only [newTxWithMinerFee,if_neg hpayable,← min_def_lt,Except.ok.injEq,exists_eq_left',Evm.effectiveTip,hcap,
    FeeExact]
  cases headerTip with
  | none =>
    simp [htip,Evm.senderTip,lazyTransaction]
  | some tip =>
    rw [Evm.senderTip] at htip
    simp only [Option.some.injEq,forall_eq']
    cases hauth : db.isAuthorized msg.src with
    | true =>
      rw [hauth,if_pos rfl] at htip
      simp [htip,lazyTransaction]
    | false =>
      rw [hauth,if_neg Bool.false_ne_true] at htip
      rw [htip] at htipCap ⊢
      by_cases hlt : tip<tx.gasTipCap
      · simp only [lazyTransaction,hlt,Bool.not_false,decide_true,Bool.and_self,if_true,Bool.false_eq_true,false_or]
        omega
      · simp only [lazyTransaction,hlt,decide_false,Bool.and_false,Bool.false_eq_true,if_false,false_or]
        omega

def payment (gasFeeCap gasTipCap : ℕ) : Evm.Transaction :=
  ⟨some 7,0,21000,gasFeeCap,gasTipCap,some 8,0,[],none,none,false,none⟩

def blank : Evm.StateDB := ⟨⟨∅,[],0,fun _ _ => 0⟩,[],false⟩

theorem minerFee_eq_effectiveTip_payment : ∃ msg, Evm.transactionToMessage (payment 20 6) 8 (some 5) blank = .ok msg ∧
    Evm.checkFees msg 8 = .ok () ∧ ∃ w, newTxWithMinerFee (lazyTransaction 0 0 (payment 20 6)) msg.src (some 8) (some 5)
      (blank.isAuthorized msg.src) = .ok w ∧ w.fees = Evm.effectiveTip msg 8 := by
  have hmsg : Evm.transactionToMessage (payment 20 6) 8 (some 5) blank = .ok
      ⟨7,some 8,0,0,21000,13,20,5,[],none,none,none⟩ := rfl
  refine ⟨_,hmsg,rfl,(minerFee_eq_effectiveTip_iff 0 0 hmsg rfl).mpr (.inr ?_)⟩
  rintro tip ⟨⟩
  decide

/-- With little room under the fee cap the header's tip is estimated in full and paid in part; with a tip below the
header's the header's is paid. -/
theorem minerFee_misjudged : (holds (Evm.transactionToMessage (payment 10 6) 8 (some 5) blank) fun msg =>
      holds (Evm.checkFees msg 8) (fun _ => Evm.effectiveTip msg 8 = 2) &&
        holds (newTxWithMinerFee (lazyTransaction 0 0 (payment 10 6)) msg.src (some 8) (some 5)
          (blank.isAuthorized msg.src)) (·.fees = 5))=true ∧
    (holds (Evm.transactionToMessage (payment 20 1) 8 (some 5) blank) fun msg =>
      holds (Evm.checkFees msg 8) (fun _ => Evm.effectiveTip msg 8 = 5) &&
        holds (newTxWithMinerFee (lazyTransaction 0 0 (payment 20 1)) msg.src (some 8) (some 5)
          (blank.isAuthorized msg.src)) (·.fees=1))=true := by
  decide +kernel

/-- Authorized senders first, by fee; the others by time. -/
def less (anzeonEnabled : Bool) (isAuthorized : Address → Bool) (a b : TxWithMinerFee) : Bool :=
  let byFee : Bool := if a.fees=b.fees then a.tx.time<b.tx.time else b.fees<a.fees
  if !anzeonEnabled then byFee
  else if isAuthorized a.src = isAuthorized b.src then
    if isAuthorized a.src then byFee else a.tx.time<b.tx.time
  else isAuthorized a.src

lemma less_iff {anzeonEnabled : Bool} {isAuthorized : Address → Bool} {a b : TxWithMinerFee} :
    less anzeonEnabled isAuthorized a b=true ↔
      if anzeonEnabled=true ∧ isAuthorized b.src=false then isAuthorized a.src=true ∨ a.tx.time<b.tx.time
      else (anzeonEnabled=true → isAuthorized a.src=true) ∧ (b.fees<a.fees ∨ a.fees=b.fees ∧ a.tx.time<b.tx.time) := by
  have hfee : (if a.fees=b.fees then decide (a.tx.time<b.tx.time) else decide (b.fees<a.fees))=true ↔
      b.fees<a.fees ∨ a.fees=b.fees ∧ a.tx.time<b.tx.time := by
    split
    · simp_all
    · simp_all
  simp only [less]
  cases anzeonEnabled <;> cases isAuthorized a.src <;> cases isAuthorized b.src <;> simp [hfee]

lemma weakOrder_less (anzeonEnabled : Bool) (isAuthorized : Address → Bool) :
    Heap.WeakOrder (less anzeonEnabled isAuthorized) where
  asymm {a b} h := by
    rw [← Bool.not_eq_true,less_iff]
    rw [less_iff] at h
    cases anzeonEnabled <;> cases ha : isAuthorized a.src <;> cases hb : isAuthorized b.src <;> simp_all <;> omega
  negTrans {a b c} h h' := by
    rw [← Bool.not_eq_true,less_iff] at *
    cases anzeonEnabled <;> cases ha : isAuthorized a.src <;> cases hb : isAuthorized b.src <;>
      cases hc : isAuthorized c.src <;> simp_all <;> omega

end StableNet.Miner
