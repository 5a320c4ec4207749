import StableNet.Evm.AccountBits

/-! The money for gas. What a transaction pays for gas is what it used at its price, and over a block the payments are
the tips and the rewards. -/
namespace StableNet.Evm
open Chain
open Lib

/-- Requests give back at most the gas they were given. -/
def Frugal (sub : Handler) : Prop := ∀ op ro w, (sub op ro w).1.gas ≤ op.gas

namespace Vm
variable {vm : Vm} {sub : Handler} {c : Contract} {ro : Bool} {w : World} {f : Frame}

lemma gas_mutate {change : StateDB → StateDB} : (mutate ro f change).2.gas = f.gas := by
  rw [mutate]
  split <;> rfl

lemma gas_callOp_le (kind : CallKind) (addr : Address) (value : Word) (input : Bytes) (gas : ℕ) :
    (callOp c kind addr value input gas).gas ≤ gas+valueGas kind value := by
  have hstipend : callStipend ≤ callValueTransferGas := by decide
  unfold callOp valueGas
  by_cases h : transfersValue kind value=true
  · cases kind <;> simp only [h,if_true,CallOp.gas] <;> omega
  · cases kind <;> simp [h,CallOp.gas]

theorem gas_opCall_le (h : Frugal sub) {kind : CallKind} {requested : ℕ} {addr : Address} {value : Word}
    {input : Bytes} : (opCall sub ro c f kind requested addr value input).2.gas ≤ f.gas := by
  rw [opCall]
  split
  · exact le_rfl
  split
  · exact le_rfl
  · rename_i hbase _
    have hcall := h (callOp c kind addr value input (callGas (f.gas-valueGas kind value) requested)) ro f.world
    have hop := gas_callOp_le (c := c) kind addr value input (callGas (f.gas-valueGas kind value) requested)
    have hgas : callGas (f.gas-valueGas kind value) requested ≤ f.gas-valueGas kind value :=
      (Nat.min_le_right _ _).trans (Nat.sub_le _ _)
    change f.gas-valueGas kind value-callGas (f.gas-valueGas kind value) requested+_ ≤ f.gas
    omega

lemma gas_opCreate_le (h : Frugal sub) {value : Word} {init : Bytes} {address : Address} :
    (opCreate sub ro c f value init address).2.gas ≤ f.gas := by
  rw [opCreate]
  split
  · exact le_rfl
  split
  · exact le_rfl
  · have hcreate := h (.create c.self init (f.gas-f.gas/64) value address) ro f.world
    rw [CallOp.gas] at hcreate
    change f.gas-(f.gas-f.gas/64)+_ ≤ f.gas
    omega

lemma gas_execute_le (h : Frugal sub) (ch : Charge) (e : Op) : (vm.execute sub ro c ch f e).2.gas ≤ f.gas := by
  cases e with
  | gas | balance | extCode | sload | tload => exact le_rfl
  | sstore | tstore | log => exact gas_mutate.le
  | selfdestruct beneficiary =>
    rw [execute]
    split
    · exact le_rfl
    · split <;> exact le_rfl
  | call => exact gas_opCall_le h
  | create | create2 => exact gas_opCreate_le h

lemma gas_step_le (h : Frugal sub) (e : Op) (f : Frame) : (vm.step sub ro c e f).2.gas ≤ f.gas := by
  rw [step]
  dsimp only
  split
  · exact le_rfl
  · exact (gas_execute_le h _ e).trans (Nat.sub_le _ _)

lemma gas_finish_le {ret : Bytes} {err : Option VmError} : (vm.finish ret err f).1.gas ≤ f.gas := by
  rw [finish]
  split
  · exact Nat.zero_le _
  · exact Nat.sub_le _ _

lemma gas_run_le (h : Frugal sub) : (vm.run sub ro c w).1.gas ≤ c.gas := by
  rw [run]
  split
  · exact le_rfl
  · have hrun := Tree.run_rel (R := fun f f' : Frame => f'.gas ≤ f.gas) (fun _ => le_rfl)
      (fun h h' => h'.trans h) (@gas_step_le vm sub c ro h) (vm.interp vm.env c) ⟨w,c.gas⟩
    split
    · exact gas_finish_le.trans (by simpa [*] using hrun)
    · simpa [*] using hrun
    · exact gas_finish_le.trans (by simpa [*] using hrun)
    · simpa [*] using hrun

lemma gas_settle_le {start : World} {o : Result × World} {gas : ℕ} (h : o.1.gas ≤ gas) :
    (settle start o).1.gas ≤ gas := by
  rw [settle]
  split
  · exact h
  · dsimp only
    split
    · exact h
    · exact Nat.zero_le _

lemma gas_runAt_le (h : Frugal sub) {op : CallKind} {caller addr : Address} :
    (vm.runAt sub ro op caller addr c w).1.gas ≤ c.gas := by
  rw [runAt]
  split
  · rw [runPrecompiledContract]
    split
    · exact Nat.zero_le _
    · split <;> exact Nat.sub_le _ _
  · split
    · obtain ⟨r,heq,_,hgas⟩ | ⟨call,_,_,_,heq⟩ := runNativeManager_cases vm _ op caller c.input c.gas w
      · rw [heq]
        exact hgas
      · rw [heq]
        exact Nat.sub_le _ _
    · exact gas_run_le h

lemma gas_deploy_le {address : Address} {o : Result × World} : (deploy address o).1.gas ≤ o.1.gas := by
  unfold deploy
  dsimp only
  split
  · exact le_rfl
  split
  · exact le_rfl
  split
  · exact le_rfl
  split
  · exact le_rfl
  · exact Nat.sub_le _ _

lemma gas_create_le (h : Frugal sub) {caller address : Address} {code : Bytes} {gas : ℕ} {value : Word} :
    (vm.create sub ro caller code gas value address w).1.gas ≤ gas := by
  rw [create]
  dsimp only
  split
  · exact le_rfl
  split
  · exact le_rfl
  split
  · exact le_rfl
  split
  · exact Nat.zero_le _
  · exact gas_settle_le (gas_deploy_le.trans (gas_run_le h))

lemma frugal_handle (h : Frugal sub) : Frugal (vm.handle sub) := by
  intro op ro w
  cases op with
  | call =>
    rw [handle,call]
    split
    · exact le_rfl
    split
    · exact le_rfl
    · exact gas_settle_le (gas_runAt_le h)
  | callCode =>
    rw [handle,callCode]
    split
    · exact le_rfl
    split
    · exact le_rfl
    · exact gas_settle_le (gas_runAt_le h)
  | delegateCall =>
    rw [handle,delegateCall]
    split
    · exact le_rfl
    · exact gas_settle_le (gas_runAt_le h)
  | staticCall =>
    rw [handle,staticCall]
    split
    · exact le_rfl
    · exact gas_settle_le (gas_runAt_le h)
  | create => exact gas_create_le h

lemma frugal_exec (vm : Vm) (n : ℕ) : Frugal (vm.exec n) := by
  induction n with
  | zero => exact fun _ _ _ => le_rfl
  | succ n ih => exact frugal_handle ih

lemma gas_executeMessage_le (vm : Vm) (msg : Message) (gas : ℕ) (w : World) :
    (vm.executeMessage msg gas w).1.gas ≤ gas := by
  have h := vm.frugal_exec (callCreateDepth+1) (vm.topmost msg gas w) false (vm.entry msg w)
  rw [executeMessage]
  refine h.trans (le_of_eq ?_)
  rw [topmost]
  cases msg.dst <;> rfl

end Vm

lemma gasLeft_le {msg : Message} {o : Result × World} (h : o.1.gas ≤ msg.gasLimit) : gasLeft msg o ≤ msg.gasLimit := by
  have hrefund : refundedGas msg o.1.gas o.2.db.refund ≤ (msg.gasLimit-o.1.gas)/refundQuotient := Nat.min_le_left _ _
  have hquotient : (msg.gasLimit-o.1.gas)/refundQuotient ≤ msg.gasLimit-o.1.gas := Nat.div_le_self _ _
  rw [gasLeft]
  omega

/-- What moved for the gas of one transaction. -/
structure GasBill where
  payer : Address
  price : ℕ
  gasUsed : ℕ
  bought : ℕ
  refunded : ℕ
  tip : ℕ

namespace GasBill

def charge (bill : GasBill) : ℕ := bill.bought-bill.refunded

def payments (coinbase : Address) (bill : GasBill) : List (Address × ℕ) :=
  [(bill.payer,bill.refunded),(coinbase,bill.tip)]

end GasBill

def gasBill (env : Env) (msg : Message) (o : Result × World) : GasBill where
  payer := msg.payer
  price := msg.gasPrice
  gasUsed := msg.gasLimit-gasLeft msg o
  bought := msg.gasCost
  refunded := gasLeft msg o*msg.gasPrice
  tip := (msg.gasLimit-gasLeft msg o)*effectiveTip msg env.baseFee

/-- The transaction took the block from `p` to `p'`, and the bill has all that moved for its gas: the
message was executed on balances from which only the gas bought is missing, and after it the refund
and the tip were paid. -/
def Billed (net : Network) (b : Block) (p : Progress) (tx : Transaction) (p' : Progress) (bill : GasBill) : Prop :=
  ∃ msg gas, transactionToMessage tx (b.header.baseFee.getD 0) (Header.gasTip b.header) p.world.db = .ok msg ∧
    intrinsicGas msg = .ok gas ∧
    let start := msg.start { p.world with db := p.world.db.setTxContext }
    let o := (net.vm b msg).executeMessage msg (msg.gasLimit-gas) start
    bill = gasBill (newEnv b.header msg) msg o ∧
    (∀ a, (start.db.getBalance a).toNat+(if a=bill.payer then bill.bought else 0) =
      (p.world.db.getBalance a).toNat) ∧
    p'.world=World.finalise
      { o.2 with db := logAuthorized msg (credit (bill.payments b.header.coinbase) o.2.db) } ∧
    p'.usedGas = p.usedGas+bill.gasUsed

/-- The bills of transactions applied one after the other. -/
inductive Bills (net : Network) (b : Block) : Progress → List Transaction → List GasBill → Progress → Prop where
  | nil (p : Progress) : Bills net b p [] [] p
  | cons {p q p' : Progress} {tx : Transaction} {txs : List Transaction} {bill : GasBill} {bills : List GasBill}
      (hbill : Billed net b p tx q bill) (hrest : Bills net b q txs bills p') :
      Bills net b p (tx::txs) (bill::bills) p'

/-- A bill of a block with this base fee is right: the payer is charged for the gas used at the price, which
is the base fee and the tip. -/
structure GasBill.Fair (baseFee : ℕ) (bill : GasBill) : Prop where
  refunded_le : bill.refunded ≤ bill.bought
  charge_eq : bill.charge = bill.gasUsed*bill.price
  split_eq : bill.charge = bill.gasUsed*baseFee+bill.tip
  bought_lt : bill.bought<2^256

lemma hasFunds_bounds {msg : Message} {db : StateDB} (h : hasFunds msg db=true)
    (hprice : msg.gasPrice ≤ msg.gasFeeCap) : msg.gasCost<2^256 ∧ msg.gasCost ≤ (db.getBalance msg.payer).toNat := by
  unfold hasFunds at h
  split at h
  · simp only [Bool.and_eq_true,decide_eq_true_eq] at h
    exact h.1
  · rename_i hself
    have hcost : msg.gasCost ≤ msg.gasLimit*msg.gasFeeCap := Nat.mul_le_mul_left _ hprice
    have hpayer : msg.payer=msg.src := by
      rw [Message.isFeeDelegation,Bool.and_eq_true,not_and] at hself
      rw [Message.payer]
      cases hp : msg.feePayer with
      | none => rfl
      | some payer => simpa [hp] using hself
    simp only [Bool.and_eq_true,decide_eq_true_eq] at h
    rw [hpayer]
    omega

lemma gasBill_fair {env : Env} {msg : Message} {o : Result × World}
    (hprice : msg.gasPrice = min (msg.gasTipCap+env.baseFee) msg.gasFeeCap)
    (hbase : env.baseFee ≤ msg.gasFeeCap) (hleft : gasLeft msg o ≤ msg.gasLimit)
    (hcost : msg.gasCost<2^256) : (gasBill env msg o).Fair env.baseFee := by
  have hsplit : msg.gasPrice = env.baseFee+effectiveTip msg env.baseFee := by
    rw [hprice,effectiveTip]
    omega
  have hcharge : (gasBill env msg o).charge = (msg.gasLimit-gasLeft msg o)*msg.gasPrice := by
    change msg.gasLimit*msg.gasPrice-gasLeft msg o*msg.gasPrice = _
    rw [Nat.sub_mul]
  refine ⟨Nat.mul_le_mul_right _ hleft,hcharge,?_,hcost⟩
  rw [hcharge]
  change _ = (msg.gasLimit-gasLeft msg o)*env.baseFee+(msg.gasLimit-gasLeft msg o)*_
  rw [← Nat.mul_add,← hsplit]

namespace Network
variable {net : Network} {b : Block}

lemma billed_applyTransaction {p p' : Progress} {tx : Transaction} {receipt : Receipt}
    (h : net.applyTransaction b p tx = .ok (receipt,p')) :
    ∃ bill, Billed net b p tx p' bill ∧ bill.Fair (b.header.baseFee.getD 0) := by
  obtain ⟨msg,gas,result,w',hmsg,hadmitted,hcomplete,hp',-⟩ := applyTransaction_ok h
  obtain ⟨-,hused,-,-,hw'⟩ := complete_ok hcomplete
  have hprice : msg.gasPrice = min (msg.gasTipCap+b.header.baseFee.getD 0) msg.gasFeeCap := by
    obtain ⟨_,_,_,rfl⟩ := transactionToMessage_eq_ok.mp hmsg
    rfl
  have hfunds := hasFunds_bounds hadmitted.funds (by rw [hprice]; exact Nat.min_le_right _ _)
  have hleft : gasLeft msg ((net.vm b msg).executeMessage msg (msg.gasLimit-gas)
      (msg.start { p.world with db := p.world.db.setTxContext })) ≤ msg.gasLimit :=
    gasLeft_le (((net.vm b msg).gas_executeMessage_le msg _ _).trans (Nat.sub_le _ _))
  refine ⟨_,⟨msg,gas,hmsg,hadmitted.intrinsic,rfl,fun a => ?_,?_,?_⟩,
    @gasBill_fair (newEnv b.header msg) msg _ hprice hadmitted.baseFee_le hleft hfunds.1⟩
  · -- the payer has what the gas limit costs
    rw [StateDB.getBalance_eq,Message.obj_start]
    change ((p.world.db.obj a).balance-_).toNat+_ = _
    rw [StateDB.getBalance_eq]
    by_cases ha : a=msg.payer
    · subst ha
      rw [StateDB.getBalance_eq] at hfunds
      have hmod : (BitVec.ofNat 256 msg.gasCost).toNat = msg.gasCost := by
        rw [BitVec.toNat_ofNat,Nat.mod_eq_of_lt hfunds.1]
      have hle : BitVec.ofNat 256 msg.gasCost ≤ (p.world.db.obj msg.payer).balance := by
        rw [BitVec.le_def,hmod]
        exact hfunds.2
      rw [if_pos rfl,BitVec.toNat_sub_of_le hle,hmod]
      change _-msg.gasCost+(if msg.payer=msg.payer then msg.gasCost else 0) = _
      rw [if_pos rfl]
      exact Nat.sub_add_cancel hfunds.2
    · rw [if_neg ha]
      change _+(if a=msg.payer then msg.gasCost else 0) = _
      rw [if_neg ha]
      simp
  · rw [hp',hw']
    rfl
  · rw [hp',hused]
    rfl

lemma bills_applyTransactions {txs : List Transaction} {p p' : Progress} {receipts : List Receipt}
    (h : net.applyTransactions b txs p = .ok (receipts,p')) :
    ∃ bills, Bills net b p txs bills p' ∧ (∀ bill ∈ bills, bill.Fair (b.header.baseFee.getD 0)) ∧
      p'.usedGas = p.usedGas+(bills.map (·.gasUsed)).sum := by
  induction txs generalizing p receipts with
  | nil =>
    cases h
    exact ⟨[],.nil _,by simp,by simp⟩
  | cons tx txs ih =>
    obtain ⟨receipt,q,_,htx,hrest,rfl⟩ := applyTransactions_cons h
    obtain ⟨bill,hbill,hfair⟩ := billed_applyTransaction htx
    obtain ⟨bills,hbills,hfairs,hused⟩ := ih hrest
    have hq : q.usedGas = p.usedGas+bill.gasUsed := by
      obtain ⟨_,_,_,_,_,_,_,hq⟩ := hbill
      exact hq
    refine ⟨bill::bills,.cons hbill hbills,?_,?_⟩
    · intro bill' hmem
      obtain rfl | hmem := List.mem_cons.mp hmem
      · exact hfair
      · exact hfairs bill' hmem
    · rw [hused,hq,List.map_cons,List.sum_cons,Nat.add_assoc]

lemma sum_charge {baseFee : ℕ} {bills : List GasBill} (h : ∀ bill ∈ bills, bill.Fair baseFee) :
    (bills.map (·.charge)).sum = (bills.map (·.tip)).sum+baseFee*(bills.map (·.gasUsed)).sum := by
  induction bills with
  | nil => simp
  | cons bill bills ih =>
    have hbill := (h bill List.mem_cons_self).split_eq
    have hrest := ih fun bill' hmem => h bill' (List.mem_cons_of_mem _ hmem)
    simp only [List.map_cons,List.sum_cons]
    rw [hbill,hrest]
    ring

/-- Over a block, what the payers are charged is what the coinbase gets as tips and what is paid out as base
fees, each payer being charged the gas used at its price. -/
theorem gas_conserved {w w' : World} {receipts : List Receipt} (h : net.process b w = .ok (receipts,w'))
    (hnumber : b.header.number≠0) : ∃ bills p rewards, Bills net b ⟨w,b.header.gasLimit,0⟩ b.txs bills p ∧
      (∀ bill ∈ bills, bill.Fair (b.header.baseFee.getD 0)) ∧
      (bills.map (·.charge)).sum = (bills.map (·.tip)).sum+(rewards.map (·.2)).sum ∧
      (∀ reward ∈ rewards, reward.2<2^256) ∧
      w' = World.finalise { p.world with db := credit rewards (b.upgraded p.world.db) } := by
  obtain ⟨p,htxs,hend,hused⟩ := process_ok h
  obtain ⟨bills,hbills,hfair,hsum⟩ := bills_applyTransactions htxs
  have hgas : (bills.map (·.gasUsed)).sum = b.header.gasUsed := by
    rw [hused,hsum,Nat.zero_add]
  obtain ⟨db,hdb,rfl⟩ := finalize_ok hend
  have hcharge := sum_charge hfair
  obtain ⟨hzero,rfl⟩ | ⟨baseFee,rewards,hbase,-,rfl,hrewards,hsmall⟩ := distributeBaseFee_ok hdb
  · refine ⟨bills,p,[],hbills,hfair,?_,by simp,rfl⟩
    rw [hcharge,hgas,hzero.resolve_right hnumber]
    rfl
  · refine ⟨bills,p,rewards,hbills,hfair,?_,hsmall,rfl⟩
    rw [hcharge,hgas,hrewards,hbase]
    rfl

end Network

theorem SingleSender.creation_gas_conserved : ∃ receipts w bills p rewards,
    net.process creation listed = .ok (receipts,w) ∧
      Bills net creation ⟨listed,creation.header.gasLimit,0⟩ creation.txs bills p ∧
      (∀ bill ∈ bills, bill.Fair (creation.header.baseFee.getD 0)) ∧
      (bills.map (·.charge)).sum = (bills.map (·.tip)).sum+(rewards.map (·.2)).sum ∧
      (∀ reward ∈ rewards, reward.2<2^256) ∧
      w = World.finalise { p.world with db := credit rewards (creation.upgraded p.world.db) } := by
  obtain ⟨⟨receipts,w⟩,hw,-⟩ := exists_of_holds (x := net.process creation listed) (P := fun _ => true)
    (by decide +kernel)
  obtain ⟨bills,p,rewards,h⟩ := Network.gas_conserved hw (by decide)
  exact ⟨receipts,w,bills,p,rewards,hw,h⟩

namespace Network
variable {net : Network} {b : Block} {p p' : Progress}

theorem metered_applyTransaction {tx : Transaction} {receipt : Receipt}
    (h : net.applyTransaction b p tx = .ok (receipt,p')) :
    p'.gasPool+receipt.gasUsed = p.gasPool ∧ p'.usedGas = p.usedGas+receipt.gasUsed ∧
      receipt.cumulativeGasUsed=p'.usedGas ∧ receipt.gasUsed ≤ tx.gas := by
  obtain ⟨msg,gas,result,w',hmsg,hadmitted,hcomplete,hp',rfl⟩ := applyTransaction_ok h
  obtain ⟨-,hused,-,hpool,-⟩ := complete_ok hcomplete
  have hlimit : msg.gasLimit=tx.gas := by
    obtain ⟨_,_,_,rfl⟩ := transactionToMessage_eq_ok.mp hmsg
    rfl
  have hleft := gasLeft_le (((net.vm b msg).gas_executeMessage_le msg (msg.gasLimit-gas)
    (msg.start { p.world with db := p.world.db.setTxContext })).trans (Nat.sub_le _ _))
  have hfits := hadmitted.pool
  have hcounter : p'.usedGas = p.usedGas+result.usedGas := congrArg Progress.usedGas hp'
  refine ⟨?_,hcounter,hcounter.symm,?_⟩ <;> dsimp only <;> omega

lemma metered_applyTransactions {txs : List Transaction} {receipts : List Receipt}
    (h : net.applyTransactions b txs p = .ok (receipts,p')) : List.Forall₂ (·.gasUsed ≤ ·.gas) receipts txs ∧
      p.usedGas::receipts.map (·.cumulativeGasUsed) = (receipts.map (·.gasUsed)).scanl (·+·) p.usedGas ∧
      p'.usedGas = p.usedGas+(receipts.map (·.gasUsed)).sum ∧ p'.gasPool+p'.usedGas = p.gasPool+p.usedGas := by
  induction txs generalizing p receipts with
  | nil =>
    cases h
    simp
  | cons tx txs ih =>
    obtain ⟨receipt,q,rest,htx,hrest,rfl⟩ := applyTransactions_cons h
    obtain ⟨hpool,hused,hcumulative,hlimit⟩ := metered_applyTransaction htx
    obtain ⟨hall,hscan,hsum,hleft⟩ := ih hrest
    refine ⟨.cons hlimit hall,?_,?_,by omega⟩
    · rw [List.map_cons,List.map_cons,List.scanl_cons,← hused,← hscan,hcumulative]
    · rw [hsum,hused,List.map_cons,List.sum_cons,Nat.add_assoc]

/-- The receipts of a block add up to the gas of its header, transaction by transaction, within the limits of the
transactions and of the block. -/
theorem receipts_metered {w w' : World} {receipts : List Receipt} (h : net.process b w = .ok (receipts,w')) :
    List.Forall₂ (·.gasUsed ≤ ·.gas) receipts b.txs ∧
      0::receipts.map (·.cumulativeGasUsed) = (receipts.map (·.gasUsed)).scanl (·+·) 0 ∧
      (receipts.map (·.gasUsed)).sum = b.header.gasUsed ∧ b.header.gasUsed ≤ b.header.gasLimit := by
  obtain ⟨p,htxs,-,hused⟩ := process_ok h
  obtain ⟨hall,hscan,hsum,hpool⟩ := metered_applyTransactions htxs
  refine ⟨hall,hscan,?_,?_⟩
  · rw [hused,hsum,Nat.zero_add]
  · rw [hused]
    exact Nat.le.intro ((Nat.add_comm _ _).trans hpool)

end Network

namespace SingleSender

/-- A payment, and a creation for which another account pays. -/
def twoPayers : Block :=
  { block 74004 (transaction (some 0xb0b) 7 []) with
    txs := [transaction (some 0xb0b) 7 [],
      { transaction none 0 [0x00] with nonce := 1, feeDelegated := true, feePayer := some 0xfee }] }

theorem twoPayers_metered : ∃ receipts w,
    net.process twoPayers (world [(sender,account),(0xfee,account)]) = .ok (receipts,w) ∧
      List.Forall₂ (·.gasUsed ≤ ·.gas) receipts twoPayers.txs ∧
      0::receipts.map (·.cumulativeGasUsed) = (receipts.map (·.gasUsed)).scanl (·+·) 0 ∧
      (receipts.map (·.gasUsed)).sum = 74004 ∧ 74004 ≤ twoPayers.header.gasLimit := by
  obtain ⟨⟨receipts,w⟩,hw,-⟩ := exists_of_holds
    (x := net.process twoPayers (world [(sender,account),(0xfee,account)])) (P := fun _ => true) (by decide +kernel)
  exact ⟨receipts,w,hw,Network.receipts_metered hw⟩

end SingleSender

end StableNet.Evm
