import StableNet.Evm.Gas

/-! Receipts as they are read back, and when the gas price worked out from the logs is the price that was charged. -/
namespace StableNet.Evm
open Chain StateDB
open Lib
variable {vm : Vm} {db : StateDB} {tx : Transaction} {p p' : Progress}
variable {msg : Message} {baseFee : ℕ} {txs : List Transaction} {receipts : List Receipt}

/-- What is stored of a receipt; receipts from other nodes come without a price. -/
structure StoredReceipt where
  failed : Bool
  cumulativeGasUsed : ℕ
  logs : List Log
  effectiveGasPrice : Option ℕ

structure DerivedReceipt where
  effectiveGasPrice : ℕ
  transactionIndex : ℕ
  contractAddress : Address
  gasUsed : ℕ
  /-- The logs with their indices in the block. -/
  logs : List (Log × ℕ)

/-- The receipt as it is sent to other nodes. -/
def Receipt.stored (r : Receipt) : StoredReceipt := ⟨r.failed,r.cumulativeGasUsed,r.logs,none⟩

/-- Only the last log is looked at. -/
def hasAuthorizedTxLog (logs : List Log) : Bool :=
  match logs.getLast? with
  | none => false
  | some last => last.address == accountManagerAddress && last.topics.head? == some authorizedTxExecutedEventSig

def deriveGasPrice (baseFee headerGasTip : Option ℕ) (tx : Transaction) (r : StoredReceipt) : ℕ :=
  match r.effectiveGasPrice with
  | some price => price
  | none =>
    let gasTipCap :=
      match headerGasTip with
      | some tip => if hasAuthorizedTxLog r.logs then tx.gasTipCap else tip
      | none => tx.gasTipCap
    match baseFee with
    | some baseFee => min (gasTipCap+baseFee) tx.gasFeeCap
    -- the gas price of a transaction is its fee cap
    | none => tx.gasFeeCap

/-- The loop over the receipts from index `i` on; `cumulative` is the gas used before. -/
def deriveFieldsFrom (createAddress : Address → BitVec 64 → Address) (baseFee headerGasTip : Option ℕ) :
    ℕ → ℕ → ℕ → List (Transaction × StoredReceipt) → List DerivedReceipt
  | _, _, _, [] => []
  | i, logIndex, cumulative, (tx,r)::rest =>
    { effectiveGasPrice := deriveGasPrice baseFee headerGasTip tx r
      transactionIndex := i
      contractAddress := if tx.dst.isNone then createAddress (tx.sender.getD 0) tx.nonce else 0
      gasUsed := (r.cumulativeGasUsed+2^64-cumulative)%2^64
      logs := r.logs.zipIdx logIndex } ::
    deriveFieldsFrom createAddress baseFee headerGasTip (i+1) (logIndex+r.logs.length) r.cumulativeGasUsed rest

/-- The fields of all receipts of a block; `none` if there are not as many receipts as transactions. -/
def deriveFields (createAddress : Address → BitVec 64 → Address) (baseFee headerGasTip : Option ℕ)
    (txs : List Transaction) (receipts : List StoredReceipt) : Option (List DerivedReceipt) :=
  if txs.length≠receipts.length then none
  else some (deriveFieldsFrom createAddress baseFee headerGasTip 0 0 0 (txs.zip receipts))

/-- Nobody has the address of the account manager: not the adapter, and no contract that can be created. -/
structure Network.Separated (net : Network) : Prop where
  adapter : net.nativeCoinAdapter≠accountManagerAddress
  create : ∀ a n, net.createAddress a n≠accountManagerAddress
  create2 : ∀ a salt init, net.createAddress2 a salt init≠accountManagerAddress

theorem Prim.logs {special : Address → Prop} {ro : Bool} {w w' : World}
    (h : Prim vm special ro w w') : ∃ new, w'.db.logs = w.db.logs++new ∧
      ∀ log ∈ new, log.address=vm.nativeCoinAdapter ∨ ¬special log.address := by
  have hvalue (s r : Address) (v : Word) : ∀ log ∈ vm.valueLogs s r v,
      log.address=vm.nativeCoinAdapter ∨ ¬special log.address := by
    intro log hlog
    rw [Vm.valueLogs] at hlog
    split at hlog
    · rw [List.mem_singleton] at hlog
      exact .inl (hlog ▸ rfl)
    · simp at hlog
  cases h with
  | tick | frame => exact ⟨[],by simp [World.record],by simp⟩
  | refunds | sstore | tstore | touch | bumpNonce | setCode => exact ⟨[],by simp,by simp⟩
  | @log w self topics data hself =>
    refine ⟨[_],rfl,fun log hlog => .inr ?_⟩
    rw [List.mem_singleton.mp hlog]
    exact hself
  | selfdestruct => exact ⟨_,Vm.logs_selfdestruct6780,hvalue _ _ _⟩
  | callEnter => exact ⟨_,Vm.logs_callEnter,hvalue _ _ _⟩
  | createEnter => exact ⟨_,Vm.logs_createEnter,hvalue _ _ _⟩
  | @native ro w op caller call =>
    cases call with
    | mint | transfer =>
      refine ⟨_,Vm.logs_nativeTransfer,fun log hlog => .inl ?_⟩
      rw [List.mem_singleton.mp hlog]
      rfl
    | burn src amount =>
      refine ⟨[vm.transferLog src 0 amount],?_,fun log hlog => .inl ?_⟩
      · change (w.db.subBalance src amount).logs++_ = _
        rw [logs_subBalance]
      · rw [List.mem_singleton.mp hlog]
        rfl
    | setFlag f a => exact ⟨[],(@StateDB.logs_setFlag w.db a f).trans (List.append_nil _).symm,by simp⟩
    | clearFlag f a => exact ⟨[],(@StateDB.logs_clearFlag w.db a f).trans (List.append_nil _).symm,by simp⟩
    | hasFlag f a => exact ⟨[],(List.append_nil _).symm,by simp⟩

/-- No log of the account manager. -/
def Unsigned (db : StateDB) : Prop := ∀ log ∈ db.logs, log.address≠accountManagerAddress

lemma closed_unsigned (hadapter : vm.nativeCoinAdapter≠accountManagerAddress) :
    Closed vm (· = accountManagerAddress) fun _ w w' => w.Grows w' ∧ (Unsigned w.db → Unsigned w'.db) where
  refl _ w := ⟨.refl w,id⟩
  trans h h' := ⟨h.1.trans h'.1,h'.2 ∘ h.2⟩
  mono h := h
  revert h := by
    rw [World.rollback_eq_restored h.1]
    exact ⟨World.grows_restored h.1,id⟩
  prim h := by
    refine ⟨h.grows,fun hw log hlog => ?_⟩
    obtain ⟨new,hlogs,hnew⟩ := Prim.logs h
    rw [hlogs] at hlog
    obtain hlog | hlog := List.mem_append.mp hlog
    · exact hw log hlog
    · obtain haddress | haddress := hnew log hlog
      · rwa [haddress]
      · exact haddress

lemma specials_unsigned (hnet : vm.toNetwork.Separated) {R : Bool → World → World → Prop} :
    Specials vm (· = accountManagerAddress) R where
  frame n ro start w c hself hmanager := by
    rw [hself] at hmanager
    exact absurd hmanager (by decide)
  create n w c caller value hself hcreates := by
    obtain ⟨nonce,heq⟩ | ⟨salt,init,heq⟩ := hcreates
    · exact absurd (heq.symm.trans hself) (hnet.create _ _)
    · exact absurd (heq.symm.trans hself) (hnet.create2 _ _ _)

lemma hasAuthorizedTxLog_unsigned (h : Unsigned db) : hasAuthorizedTxLog db.logs=false := by
  rw [hasAuthorizedTxLog]
  split
  · rfl
  · rename_i last hlast
    have hne := h last (List.mem_of_getLast? hlast)
    simp [hne]

theorem hasAuthorizedTxLog_logAuthorized (h : Unsigned db) :
    hasAuthorizedTxLog (logAuthorized msg db).logs = db.isAuthorized msg.src := by
  rw [logs_logAuthorized]
  cases hauth : db.isAuthorized msg.src with
  | false => simpa using hasAuthorizedTxLog_unsigned h
  | true => simp [hasAuthorizedTxLog,authorizedTxExecutedLog]

lemma getElem?_deriveFieldsFrom (createAddress : Address → BitVec 64 → Address) (baseFee tip : Option ℕ)
    (i logIndex cumulative k : ℕ) (l : List (Transaction × StoredReceipt)) :
    ((deriveFieldsFrom createAddress baseFee tip i logIndex cumulative l)[k]?).map (·.effectiveGasPrice) =
      l[k]?.map fun c => deriveGasPrice baseFee tip c.1 c.2 := by
  induction l generalizing i logIndex cumulative k with
  | nil => rfl
  | cons c l ih =>
    cases k with
    | zero => rfl
    | succ k => exact ih _ _ _ k

namespace Network
variable {net : Network} {b : Block}

theorem applyTransactions_getElem {i : ℕ}
    (h : net.applyTransactions b txs p = .ok (receipts,p')) (htx : txs[i]? = some tx) :
    ∃ before q receipt q', net.applyTransactions b (txs.take i) p = .ok (before,q) ∧
      net.applyTransaction b q tx = .ok (receipt,q') ∧ receipts[i]? = some receipt := by
  induction txs generalizing p receipts i with
  | nil => simp at htx
  | cons tx' txs ih =>
    obtain ⟨receipt',q,receipts',htx',hrest,rfl⟩ := applyTransactions_cons h
    cases i with
    | zero =>
      obtain rfl : tx'=tx := by simpa using htx
      exact ⟨[],p,receipt',q,rfl,htx',rfl⟩
    | succ i =>
      obtain ⟨before,r,receipt,r',hbefore,hr,hreceipt⟩ := ih hrest htx
      refine ⟨receipt'::before,r,receipt,r',?_,hr,hreceipt⟩
      rw [List.take_succ_cons,applyTransactions]
      simp only [bind_eq_ok,Prod.exists]
      exact ⟨receipt',q,htx',before,r,hbefore,rfl⟩

lemma length_applyTransactions (h : net.applyTransactions b txs p = .ok (receipts,p')) :
    receipts.length=txs.length := by
  induction txs generalizing p receipts with
  | nil =>
    cases h
    rfl
  | cons tx txs ih =>
    obtain ⟨receipt,q,_,_,hrest,rfl⟩ := applyTransactions_cons h
    simp [ih hrest]

/-- The state after the execution. -/
def executed (net : Network) (b : Block) (p : Progress) (msg : Message) (gas : ℕ) : StateDB :=
  ((net.vm b msg).executeMessage msg (msg.gasLimit-gas)
    (msg.start { p.world with db := p.world.db.setTxContext })).2.db

lemma deriveGasPrice_stored (hnet : net.Separated) {receipt : Receipt}
    (hbase : b.header.baseFee = some baseFee) (hsender : tx.sender ≠ some accountManagerAddress)
    (h : net.applyTransaction b p tx = .ok (receipt,p')) :
    ∃ msg gas, transactionToMessage tx baseFee (Header.gasTip b.header) p.world.db = .ok msg ∧
      intrinsicGas msg = .ok gas ∧ deriveGasPrice b.header.baseFee (Header.gasTip b.header) tx receipt.stored =
        min (senderTip (Header.gasTip b.header) tx ((net.executed b p msg gas).isAuthorized msg.src)+baseFee)
          tx.gasFeeCap := by
  obtain ⟨msg,gas,result,w',hmsg,hadmitted,hcomplete,-,hreceipt⟩ := applyTransaction_ok h
  obtain ⟨-,-,-,-,hw'⟩ := complete_ok hcomplete
  rw [hbase,Option.getD_some] at hmsg
  have hsrc : tx.sender = some msg.src := by
    obtain ⟨_,hsrc,_,rfl⟩ := transactionToMessage_eq_ok.mp hmsg
    exact hsrc
  refine ⟨msg,gas,hmsg,hadmitted.intrinsic,?_⟩
  set w : World := { p.world with db := p.world.db.setTxContext }
  set o := (net.vm b msg).executeMessage msg (msg.gasLimit-gas) (msg.start w) with ho
  have hne : ¬msg.src=accountManagerAddress := fun heq => hsender (heq ▸ hsrc)
  have hstart : Unsigned ((net.vm b msg).entry msg (msg.start w)).db := by
    have heoa : isEOA (msg.start w).db msg.src=true := by
      rw [isEOA,getCode_eq,Message.obj_start,← getCode_eq]
      exact hadmitted.eoa
    intro log hlog
    rw [(Vm.delegates_entry heoa).logs,Message.logs_start] at hlog
    simp [w,StateDB.setTxContext] at hlog
  have hclean : Unsigned o.2.db := ((net.vm b msg).executeMessage_rel_of_specials msg (msg.gasLimit-gas) (msg.start w)
      (closed_unsigned hnet.adapter) (specials_unsigned hnet) hne).2 hstart
  have hpaid : Unsigned (paid (newEnv b.header msg) msg o) := by
    intro log hlog
    rw [logs_paid] at hlog
    exact hclean log hlog
  -- the log is written after the execution, from the bit in that state
  have hlog : hasAuthorizedTxLog receipt.logs = o.2.db.isAuthorized msg.src := by
    rw [hreceipt]
    change hasAuthorizedTxLog w'.db.finalise.logs=_
    rw [logs_finalise,hw',hasAuthorizedTxLog_logAuthorized hpaid,StateDB.isAuthorized,
      hasFlag_eq,obj_paid,StateDB.isAuthorized,hasFlag_eq]
    rfl
  change _ = min (senderTip _ tx (o.2.db.isAuthorized msg.src)+baseFee) _
  rw [← hlog,hbase]
  rfl

/-- The price derived for a transaction of a block is the one its payer was charged exactly if the
transaction left the authorized bit of its sender as it was, or both tips come to the same price. -/
theorem derived_price_iff (hnet : net.Separated) {w w' : World} {receipts : List Receipt} {baseFee : ℕ}
    (hbase : b.header.baseFee = some baseFee) (h : net.process b w = .ok (receipts,w')) {i : ℕ}
    {tx : Transaction} (htx : b.txs[i]? = some tx) (hsender : tx.sender ≠ some accountManagerAddress) :
    ∃ before p msg gas derived, net.applyTransactions b (b.txs.take i) ⟨w,b.header.gasLimit,0⟩ = .ok (before,p) ∧
      transactionToMessage tx baseFee (Header.gasTip b.header) p.world.db = .ok msg ∧ intrinsicGas msg = .ok gas ∧
      deriveFields net.createAddress b.header.baseFee (Header.gasTip b.header) b.txs
        (receipts.map (·.stored)) = some derived ∧ (derived[i]?.map (·.effectiveGasPrice) = some msg.gasPrice ↔
        (net.executed b p msg gas).isAuthorized msg.src = p.world.db.isAuthorized msg.src ∨
          ∀ tip, Header.gasTip b.header = some tip →
            min (tx.gasTipCap+baseFee) tx.gasFeeCap = min (tip+baseFee) tx.gasFeeCap) := by
  obtain ⟨q,htxs,_⟩ := process_ok h
  obtain ⟨before,p,receipt,p',hbefore,happly,hreceipt⟩ := applyTransactions_getElem htxs htx
  obtain ⟨msg,gas,hmsg,hgas,hprice⟩ := deriveGasPrice_stored hnet hbase hsender happly
  have hlength : b.txs.length = (receipts.map (·.stored)).length := by
    rw [List.length_map,length_applyTransactions htxs]
  refine ⟨before,p,msg,gas,_,hbefore,hmsg,hgas,if_neg (not_not.mpr hlength),?_⟩
  have hzip : (b.txs.zip (receipts.map (·.stored)))[i]? = some (tx,receipt.stored) := by
    rw [List.getElem?_zip_eq_some]
    exact ⟨htx,by rw [List.getElem?_map,hreceipt]; rfl⟩
  have hpaid : msg.gasPrice =
      min (senderTip (Header.gasTip b.header) tx (p.world.db.isAuthorized msg.src)+baseFee) tx.gasFeeCap := by
    obtain ⟨_,_,_,rfl⟩ := transactionToMessage_eq_ok.mp hmsg
    rfl
  rw [getElem?_deriveFieldsFrom,hzip,Option.map_some,hprice,hpaid,Option.some_inj]
  cases Header.gasTip b.header with
  | none => simp [senderTip]
  | some tip =>
    cases (net.executed b p msg gas).isAuthorized msg.src <;>
      cases p.world.db.isAuthorized msg.src <;> simp [senderTip,eq_comm]

end Network

namespace SingleSender

lemma separated : net.Separated where
  adapter := by decide
  create _ _ := (by decide : contract≠accountManagerAddress)
  create2 _ _ _ := (by decide : (0 : Address) ≠ accountManagerAddress)

theorem creation_price : ∃ receipts w before p msg gas derived, net.process creation listed = .ok (receipts,w) ∧
    net.applyTransactions creation (creation.txs.take 0) ⟨listed,creation.header.gasLimit,0⟩ = .ok (before,p) ∧
    transactionToMessage (transaction none 0 [0x00]) 5 (Header.gasTip creation.header) p.world.db = .ok msg ∧
    intrinsicGas msg = .ok gas ∧
    deriveFields net.createAddress creation.header.baseFee (Header.gasTip creation.header) creation.txs
      (receipts.map (·.stored)) = some derived ∧ (derived[0]?.map (·.effectiveGasPrice) = some msg.gasPrice ↔
      (net.executed creation p msg gas).isAuthorized msg.src = p.world.db.isAuthorized msg.src ∨
        ∀ tip, Header.gasTip creation.header = some tip → min (1+5) 10 = min (tip+5) 10) := by
  obtain ⟨⟨receipts,w⟩,hw,-⟩ := exists_of_holds (x := net.process creation listed) (P := fun _ => true)
    (by decide +kernel)
  obtain ⟨before,p,msg,gas,derived,h⟩ := Network.derived_price_iff separated
    (show creation.header.baseFee = some 5 from rfl) hw
    (show creation.txs[0]? = some (transaction none 0 [0x00]) from rfl) (by decide)
  exact ⟨receipts,w,before,p,msg,gas,derived,hw,h⟩

/-- The chain with a council whose code authorizes the sender. -/
def authorizingNet : Network :=
  { net with
    interp := fun _ _ => .op (.call .call 50000 accountManagerAddress 0
      (encodeCall accountManagerAuthorizeSelector [addressWord sender])) fun _ => .halt .stop }

/-- The sender offers a tip of 3, while the header asks for 1. -/
def selfAuthorization : Transaction := { transaction (some net.govCouncil) 0 [] with gasTipCap := 3 }

/-- The sender pays a price of 6; the receipt of its transaction says 8. -/
theorem derived_price_differs : ∃ receipts w derived msg,
    authorizingNet.process (block 25500 selfAuthorization) councilWorld = .ok (receipts,w) ∧
      transactionToMessage selfAuthorization 5 (some 1) councilWorld.db = .ok msg ∧ msg.gasPrice=6 ∧
      deriveFields authorizingNet.createAddress (some 5) (some 1) [selfAuthorization]
        (receipts.map (·.stored)) = some derived ∧ derived.map (·.effectiveGasPrice) = [8] := by
  obtain ⟨⟨receipts,w⟩,hw,hcheck⟩ := exists_of_holds
    (x := authorizingNet.process (block 25500 selfAuthorization) councilWorld)
    (P := fun o => ((deriveFields authorizingNet.createAddress (some 5) (some 1) [selfAuthorization]
      (o.1.map (·.stored))).map fun d => d.map (·.effectiveGasPrice)) == some [8]) (by decide +kernel)
  obtain ⟨msg,hmsg,hprice⟩ := exists_of_holds
    (x := transactionToMessage selfAuthorization 5 (some 1) councilWorld.db) (P := fun m => m.gasPrice == 6)
    (by decide +kernel)
  rw [beq_iff_eq,Option.map_eq_some_iff] at hcheck
  obtain ⟨derived,hderived,hprices⟩ := hcheck
  exact ⟨receipts,w,derived,msg,hw,hmsg,by simpa using hprice,hderived,hprices⟩

end SingleSender

end StableNet.Evm
