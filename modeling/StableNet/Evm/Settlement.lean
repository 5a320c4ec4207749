import StableNet.Evm.History

/-! What a transaction and a block do to the accounts outside the machine: gas, delegations, fees, upgrades and
deletions. -/
namespace StableNet.Evm
open Chain
open Lib
open StateDB
variable {db db' : StateDB}
variable {a : Address} {w : World} {total : ℕ} {validators : List Candidate} {dust : ℤ} {h : Header}
  {info : Option EpochInfo}

namespace Message
variable {msg : Message}

lemma obj_start : (msg.start w).db.obj a = { w.db.obj a with
    balance := (w.db.obj a).balance-if a=msg.payer then BitVec.ofNat 256 msg.gasCost else 0 } := by
  change (w.db.subBalance msg.payer (BitVec.ofNat 256 msg.gasCost)).obj a=_
  rw [obj_subBalance]
  split
  · subst a
    rfl
  · simp

lemma logs_start : (msg.start w).db.logs = w.db.logs := @StateDB.logs_subBalance w.db _ _

end Message

/-- Installing delegations: only nonces and codes change, and only of accounts without code of their own. -/
structure Delegates (db db' : StateDB) : Prop where
  obj : ∀ a, ∃ nonce code, db'.obj a = { db.obj a with nonce := nonce, code := code }
  contract : ∀ a, isEOA db a=false → db'.obj a = db.obj a
  logs : db'.logs=db.logs

namespace Delegates
variable {db'' : StateDB}

lemma refl (db : StateDB) : Delegates db db := ⟨fun _ => ⟨_,_,rfl⟩,fun _ _ => rfl,rfl⟩

lemma trans (h : Delegates db db') (h' : Delegates db' db'') : Delegates db db'' where
  obj a := by
    obtain ⟨n,c,hobj⟩ := h.obj a
    obtain ⟨n',c',hobj'⟩ := h'.obj a
    exact ⟨n',c',by rw [hobj',hobj]⟩
  contract a ha := by
    have hobj := h.contract a ha
    have heoa : isEOA db' a=false := by rwa [isEOA,getCode_eq,hobj,← getCode_eq]
    rw [h'.contract a heoa,hobj]
  logs := h'.logs.trans h.logs

lemma extra (h : Delegates db db') (a : Address) : (db'.obj a).extra = (db.obj a).extra := by
  obtain ⟨_,_,hobj⟩ := h.obj a
  rw [hobj]

lemma setNonce {n : BitVec 64} (ha : isEOA db a=true) : Delegates db (db.setNonce a n) where
  obj b := by
    rw [obj_setNonce]
    split
    · subst b
      exact ⟨_,_,rfl⟩
    · exact ⟨_,_,rfl⟩
  contract b hb := by
    rw [obj_setNonce,if_neg]
    rintro rfl
    simp [ha] at hb
  logs := logs_setNonce

end Delegates

lemma validateAuthorization_isEOA {chainId : ℕ} {auth : SetCodeAuthorization}
    (h : validateAuthorization chainId db auth = some a) : isEOA db a=true := by
  unfold validateAuthorization at h
  split at h
  · simp at h
  split at h
  · simp at h
  split at h
  · simp at h
  split at h
  · simp at h
  split at h
  · simp at h
  · rename_i heoa _
    obtain rfl := Option.some.inj h
    simpa using heoa

lemma delegates_applyAuthorization (chainId : ℕ) (db : StateDB) (auth : SetCodeAuthorization) :
    Delegates db (applyAuthorization chainId db auth) := by
  unfold applyAuthorization
  split
  · exact .refl db
  rename_i authority hauth
  dsimp only
  have hrefund : ∀ b, (if db.exist authority then db.addRefund (callNewAccountGas-txAuthTupleGas)
      else db).obj b = db.obj b := by
    intro b
    split <;> rfl
  have hlogs : (if db.exist authority then db.addRefund (callNewAccountGas-txAuthTupleGas)
      else db).logs = db.logs := by
    split <;> rfl
  generalize (if db.exist authority then db.addRefund (callNewAccountGas-txAuthTupleGas) else db) = db' at hrefund hlogs
  constructor
  · intro a
    rw [obj_setCode,obj_setNonce,obj_setNonce,hrefund,hrefund]
    by_cases ha : a=authority
    · subst ha
      rw [if_pos rfl,if_pos rfl]
      exact ⟨_,_,rfl⟩
    · rw [if_neg ha,if_neg ha]
      exact ⟨_,_,rfl⟩
  · intro a ha
    have hne : a≠authority := by
      rintro rfl
      simp [validateAuthorization_isEOA hauth] at ha
    rw [obj_setCode,if_neg hne,obj_setNonce,if_neg hne,hrefund]
  · rw [logs_setCode,logs_setNonce,hlogs]

lemma Vm.delegates_entry {vm : Vm} {msg : Message} (h : isEOA w.db msg.src=true) :
    Delegates w.db (vm.entry msg w).db := by
  have hfold (auths : List SetCodeAuthorization) (db : StateDB) :
      Delegates db (auths.foldl (applyAuthorization vm.chainId) db) := by
    induction auths generalizing db with
    | nil => exact .refl db
    | cons auth auths ih => exact (delegates_applyAuthorization vm.chainId db auth).trans (ih _)
  unfold entry
  cases msg.dst with
  | none => exact .refl w.db
  | some dst => exact (Delegates.setNonce h).trans (hfold _ _)

section Fees
variable {env : Env} {msg : Message} {o : Result × World}

lemma obj_paid : (paid env msg o).obj a = { o.2.db.obj a with
    balance := (o.2.db.obj a).balance +
      (if a=msg.payer then BitVec.ofNat 256 (gasLeft msg o*msg.gasPrice) else 0) +
      (if a=env.coinbase then
        BitVec.ofNat 256 ((msg.gasLimit-gasLeft msg o)*effectiveTip msg env.baseFee) else 0) } := by
  rw [paid,payFees]
  dsimp only
  rw [obj_addBalance,obj_addBalance,obj_addBalance]
  by_cases hc : a = env.coinbase <;> by_cases hp : a=msg.payer
  · subst hc
    simp [hp]
  · subst hc
    simp [hp]
  · subst hp
    simp [hc]
  · simp [hc,hp]

lemma logs_paid : (paid env msg o).logs = o.2.db.logs := by
  rw [paid,payFees,logs_addBalance,logs_addBalance]

lemma obj_logAuthorized : (logAuthorized msg db).obj a = db.obj a := by
  rw [logAuthorized]
  split <;> rfl

lemma logs_logAuthorized : (logAuthorized msg db).logs =
    db.logs++if db.isAuthorized msg.src then [authorizedTxExecutedLog] else [] := by
  rw [logAuthorized]
  split
  · rfl
  · rw [List.append_nil]

end Fees

namespace StateObject

/-- What does not outlive the transaction. -/
def dead (o : StateObject) : Bool := o.selfDestructed || o.empty

def finalised (o : StateObject) : StateObject := if o.dead then .new else { o with created := false }

lemma extra_of_empty {o : StateObject} (h : o.empty=true) : o.extra=0 := by
  simp only [empty,Bool.and_eq_true,beq_iff_eq] at h
  exact h.2

end StateObject

namespace StateDB

lemma lookup_finaliseObject (objects : Finmap fun _ : Address => StateObject) (a b : Address) :
    (finaliseObject objects a).lookup b = if b=a then
      (objects.lookup a).bind fun o => if o.dead then none else some { o with created := false }
    else objects.lookup b := by
  cases ho : objects.lookup a with
  | none =>
    by_cases hb : b=a
    · subst hb
      simp [finaliseObject,ho]
    · simp [finaliseObject,ho,hb]
  | some o =>
    have hstep : finaliseObject objects a =
        if o.dead then objects.erase a else objects.insert a { o with created := false } := by
      simp only [finaliseObject,ho]
      rfl
    rw [hstep]
    by_cases hb : b=a
    · subst hb
      split <;> simp [*]
    · split <;> simp [hb]

/-- The fold over the dirty accounts settles each of them once; settling it again changes nothing. -/
theorem lookup_finaliseObjects (l : List Address) (objects : Finmap fun _ : Address => StateObject) (b : Address) :
    (l.foldl finaliseObject objects).lookup b = if b ∈ l then
      (objects.lookup b).bind fun o => if o.dead then none else some { o with created := false }
    else objects.lookup b := by
  induction l generalizing objects with
  | nil => simp
  | cons a l ih =>
    rw [List.foldl_cons,ih,lookup_finaliseObject]
    by_cases hb : b=a
    · subst hb
      cases ho : objects.lookup b with
      | none => simp
      | some o =>
        by_cases hdead : o.dead=true
        · simp [hdead]
        · have hdead' : ({ o with created := false } : StateObject).dead=false := by
            simpa [StateObject.dead,StateObject.empty] using hdead
          simp [hdead,hdead']
    · simp [hb]

lemma objects_finalise (db : StateDB) : db.finalise.objects = db.dirties.foldl finaliseObject db.objects := by
  rw [finalise,clearJournalAndRefund]
  split <;> rfl

lemma obj_finalise (db : StateDB) (a : Address) : db.finalise.obj a =
    if a ∈ db.dirties ∧ db.exist a=true then (db.obj a).finalised else db.obj a := by
  rw [State.obj,objects_finalise,lookup_finaliseObjects,exist,getStateObject,State.obj]
  cases ho : db.objects.lookup a with
  | none => simp
  | some o =>
    by_cases hdirty : a ∈ db.dirties
    · by_cases hdead : o.dead=true
      · simp [hdirty,StateObject.finalised,hdead]
      · simp [hdirty,StateObject.finalised,hdead]
    · simp [hdirty]

lemma logs_finalise (db : StateDB) : db.finalise.logs=db.logs := by
  rw [finalise,clearJournalAndRefund]
  split <;> rfl

lemma extra_finalise (h : (db.obj a).selfDestructed=false) : (db.finalise.obj a).extra = (db.obj a).extra := by
  rw [obj_finalise]
  split
  · rw [StateObject.finalised]
    split
    · rename_i hdead
      rw [StateObject.dead,h,Bool.false_or] at hdead
      rw [StateObject.extra_of_empty hdead]
      rfl
    · rfl
  · rfl

end StateDB

def upgradedCode (codes : List (Address × Bytes)) (a : Address) (code : Bytes) : Bytes :=
  codes.foldl (fun code c => if c.1=a then c.2 else code) code

def upgradedStorage (states : List (Address × Slot × Word)) (a : Address) (storage : Slot → Word) : Slot → Word :=
  states.foldl (fun storage c => if c.1=a then Function.update storage c.2.1 c.2.2 else storage) storage

lemma obj_setCodes (codes : List (Address × Bytes)) (db : StateDB) (a : Address) :
    (codes.foldl (fun db c => db.setCode c.1 c.2) db).obj a =
      { db.obj a with code := upgradedCode codes a (db.obj a).code } := by
  induction codes generalizing db with
  | nil => rfl
  | cons c codes ih =>
    rw [List.foldl_cons,ih,obj_setCode]
    by_cases hc : c.1=a
    · subst hc
      simp [upgradedCode]
    · simp [upgradedCode,hc,Ne.symm hc]

lemma obj_setStates (states : List (Address × Slot × Word)) (db : StateDB) (a : Address) :
    (states.foldl (fun db c => db.setState c.1 c.2.1 c.2.2) db).obj a =
      { db.obj a with storage := upgradedStorage states a (db.obj a).storage } := by
  induction states generalizing db with
  | nil => rfl
  | cons c states ih =>
    rw [List.foldl_cons,ih,obj_setState]
    by_cases hc : c.1=a
    · subst hc
      simp [upgradedStorage]
    · simp [upgradedStorage,hc,Ne.symm hc]

lemma obj_applyUpgrade_eq (st : StateTransition) (db : StateDB) (a : Address) : (applyUpgrade st db).obj a =
    { db.obj a with
      code := upgradedCode st.codes a (db.obj a).code
      storage := upgradedStorage st.states a (db.obj a).storage } := by
  refine (obj_setStates st.states _ a).trans ?_
  rw [obj_setCodes]

lemma Block.obj_upgraded (b : Block) (db : StateDB) (a : Address) :
    ∃ code storage, (b.upgraded db).obj a = { db.obj a with code := code, storage := storage } := by
  rw [upgraded]
  split
  · exact ⟨_,_,rfl⟩
  · exact ⟨_,_,obj_applyUpgrade_eq _ db a⟩

def credit (l : List (Address × ℕ)) (db : StateDB) : StateDB :=
  l.foldl (fun db c => db.addBalance c.1 (BitVec.ofNat 256 c.2)) db

def credited (l : List (Address × ℕ)) (a : Address) : ℕ := ((l.filter (·.1 = a)).map (·.2)).sum

lemma obj_credit (l : List (Address × ℕ)) (db : StateDB) (a : Address) : (credit l db).obj a =
    { db.obj a with balance := (db.obj a).balance+BitVec.ofNat 256 (credited l a) } := by
  induction l generalizing db with
  | nil => simp [credit,credited]
  | cons c l ih =>
    change (credit l (db.addBalance c.1 (BitVec.ofNat 256 c.2))).obj a=_
    rw [ih,obj_addBalance]
    by_cases ha : a=c.1
    · subst ha
      simp [credited,BitVec.ofNat_add,BitVec.add_assoc]
    · simp [credited,ha,Ne.symm ha]

def shares (total sum : ℕ) (validators : List Candidate) : List (Address × ℕ) :=
  (validators.map fun c => (c.addr,share total sum c)).filter (·.2≠0)

lemma payShares_ok {sum : ℕ} {dust' : ℤ}
    (h : payShares total sum validators dust db = .ok (dust',db')) : db' = credit (shares total sum validators) db ∧
      dust' = dust-((shares total sum validators).map (·.2)).sum ∧ ∀ c ∈ shares total sum validators, c.2<2^256 := by
  induction validators generalizing dust db with
  | nil =>
    simp only [payShares,Except.ok.injEq,Prod.mk.injEq] at h
    obtain ⟨rfl,rfl⟩ := h
    simp [shares,credit]
  | cons c validators ih =>
    rw [payShares] at h
    by_cases hzero : share total sum c=0
    · rw [if_pos hzero] at h
      simpa [shares,hzero] using ih h
    · rw [if_neg hzero] at h
      split at h
      · simp at h
      · rename_i hlt
        obtain ⟨hdb,hdust,hsmall⟩ := ih h
        have hcons : shares total sum (c::validators) =
            (c.addr,share total sum c)::shares total sum validators := by simp [shares,hzero]
        rw [hcons]
        refine ⟨hdb,?_,?_⟩
        · rw [hdust]
          push_cast [List.map_cons,List.sum_cons]
          ring
        · intro d hd
          obtain rfl | hd := List.mem_cons.mp hd
          · exact Nat.lt_of_not_le hlt
          · exact hsmall d hd

/-- What the validators are paid; without any diligence nothing. -/
def payments (total : ℕ) (validators : List Candidate) : List (Address × ℕ) :=
  if diligenceSum validators=0 then [] else shares total (diligenceSum validators) validators

lemma payValidators_ok (h : payValidators total validators db = .ok (dust,db')) :
    db' = credit (payments total validators) db ∧ dust = total-((payments total validators).map (·.2)).sum ∧
      ∀ c ∈ payments total validators, c.2<2^256 := by
  unfold payValidators at h
  unfold payments
  dsimp only at h
  split at h
  · rw [if_pos ‹_›]
    cases h
    simp [credit]
  · rw [if_neg ‹_›]
    exact payShares_ok h

/-- The dust goes to the coinbase. -/
def rest (coinbase : Address) (dust : ℕ) : List (Address × ℕ) := if dust=0 then [] else [(coinbase,dust)]

theorem distributeBaseFee_cases (hok : distributeBaseFee h info db = .ok db') :
    ((h.gasUsed=0 ∨ h.number=0) ∧ db'=db) ∨ ∃ baseFee epochInfo validators dust,
      h.baseFee = some baseFee ∧ info = some epochInfo ∧ validatorCandidates epochInfo = some validators ∧
      h.number≠0 ∧ db' = credit (payments (baseFee*h.gasUsed) validators++rest h.coinbase dust) db ∧
      ((payments (baseFee*h.gasUsed) validators).map (·.2)).sum+dust = baseFee*h.gasUsed ∧
      (∀ c ∈ payments (baseFee*h.gasUsed) validators, c.2<2^256) ∧ dust<2^256 := by
  unfold distributeBaseFee at hok
  split at hok
  · rename_i hzero
    simp only [Bool.or_eq_true,decide_eq_true_eq] at hzero
    exact .inl ⟨hzero,(Except.ok.inj hok).symm⟩
  rename_i hzero
  simp only [Bool.or_eq_true,decide_eq_true_eq,not_or] at hzero
  split at hok
  · simp at hok
  · simp at hok
  rename_i baseFee epochInfo hbase
  split at hok
  · simp at hok
  rename_i validators hvalidators
  simp only [bind_eq_ok,require_eq_ok,Prod.exists,decide_eq_true_eq] at hok
  obtain ⟨dust,paid,hshares,_,hnonneg,_,hlt,heq⟩ := hok
  obtain ⟨hpaid,hdust,hsmall⟩ := payValidators_ok hshares
  refine .inr ⟨baseFee,epochInfo,validators,dust.toNat,hbase,rfl,hvalidators,hzero.2,?_,by omega,hsmall,by omega⟩
  simp only [pure,Except.pure,Except.ok.injEq] at heq
  have hnat : dust.toNat=0 ↔ dust=0 := by omega
  rw [← heq,hpaid,rest,if_congr hnat rfl rfl]
  split
  · rw [List.append_nil]
  · simp [credit]

lemma distributeBaseFee_ok (hok : distributeBaseFee h info db = .ok db') :
    ((h.gasUsed=0 ∨ h.number=0) ∧ db'=db) ∨ ∃ baseFee l, h.baseFee = some baseFee ∧
      h.number≠0 ∧ db' = credit l db ∧ (l.map (·.2)).sum = baseFee*h.gasUsed ∧ ∀ c ∈ l, c.2<2^256 := by
  obtain hzero | ⟨baseFee,_,validators,dust,hbase,_,_,hnumber,hdb,hsum,hsmall,hdust⟩ := distributeBaseFee_cases hok
  · exact .inl hzero
  refine .inr ⟨baseFee,_,hbase,hnumber,hdb,?_,fun c hc => ?_⟩
  · rw [List.map_append,List.sum_append,← hsum,rest]
    split <;> simp_all
  · obtain hc | hc := List.mem_append.mp hc
    · exact hsmall c hc
    · unfold rest at hc
      split at hc
      · cases hc
      · cases List.mem_singleton.mp hc
        exact hdust

theorem finalize_ok {b : Block} {w' : World} (h : finalize b w = .ok w') :
    ∃ db, distributeBaseFee b.header b.epochInfo (b.upgraded w.db) = .ok db ∧
      w' = World.finalise { w with db := db } := by
  unfold finalize at h
  simp only [bind_eq_ok] at h
  obtain ⟨db,hdb,heq⟩ := h
  exact ⟨db,hdb,(Except.ok.inj heq).symm⟩

end StableNet.Evm
