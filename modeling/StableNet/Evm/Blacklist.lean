import StableNet.Evm.AccountBits

/-! When the blacklist rejects a transaction. The sender and the recipient are looked up before the
execution, the fee payer after it. -/
namespace StableNet.Evm
open Chain
open Lib

def Message.named (msg : Message) : List Address := msg.src::(msg.dst.toList++msg.feePayer.toList)

/-- The message passes every check that is made before its execution. -/
structure Cleared (msg : Message) (baseFee gp : ℕ) (w : World) (gas : ℕ) : Prop
    extends Admitted msg baseFee gp w gas where
  nonceMax : w.db.getNonce msg.src ≤ w.db.getNonce msg.src+1
  authorizations : checkAuthorizations msg = .ok ()

def TxError.isOther : TxError → Bool
  | .blacklistedAccount _ => false
  | _ => true

/-- A computation that never fails because of the blacklist. -/
def OtherErrors {α : Type} (x : Except TxError α) : Prop := ErrorsIn (·.isOther=true) x

lemma OtherErrors.ne_blacklisted {α : Type} {x : Except TxError α} (h : OtherErrors x) {a : Address} :
    x ≠ .error (.blacklistedAccount a) := by
  intro he
  simpa [TxError.isOther] using h _ he

section Checks

variable {vm : Vm} {msg : Message} {baseFee gp gas : ℕ} {w : World} {db : StateDB}

lemma otherErrors_checkAuthorizations : OtherErrors (checkAuthorizations msg) := by
  unfold checkAuthorizations
  split
  · exact ErrorsIn.ok ()
  · exact ErrorsIn.bind (.require rfl) fun _ => .require rfl

lemma otherErrors_preCheck : OtherErrors (preCheck msg baseFee gp db) := by
  unfold preCheck checkNonce checkFees buyGas
  exact ErrorsIn.bind (.bind (.require rfl) fun _ => .bind (.require rfl) fun _ => .require rfl) fun _ =>
    .bind (.require rfl) fun _ => .bind (.bind (.require rfl) fun _ => .bind (.require rfl) fun _ =>
    .bind (.require rfl) fun _ => .require rfl) fun _ => .bind otherErrors_checkAuthorizations fun _ =>
    .bind (.require rfl) fun _ => .bind (.require rfl) fun _ => .ok _

lemma otherErrors_intrinsicGas : OtherErrors (intrinsicGas msg) := by
  unfold intrinsicGas
  generalize (if msg.dst.isNone then txGasContractCreation else txGas) = base
  dsimp only
  split
  · exact ErrorsIn.error rfl
  · exact ErrorsIn.ok _

lemma Cleared.preCheck_eq (h : Cleared msg baseFee gp w gas) : preCheck msg baseFee gp w.db =
    .ok (gp-msg.gasLimit,w.db.subBalance msg.payer (BitVec.ofNat 256 msg.gasCost)) := by
  have htip : msg.gasTipCap<2^256 := h.tip_le.trans_lt h.feeCap_lt
  have hge : msg.nonce ≤ w.db.getNonce msg.src := by rw [h.nonce]; exact BitVec.le_refl _
  have hle : w.db.getNonce msg.src ≤ msg.nonce := by rw [h.nonce]; exact BitVec.le_refl _
  simp only [preCheck,checkNonce,checkFees,buyGas,bind_eq_ok,require_eq_ok,decide_eq_true_eq]
  exact ⟨(),⟨(),hge,(),hle,h.nonceMax⟩,(),h.eoa,(),⟨(),h.feeCap_lt,(),htip,(),h.tip_le,h.baseFee_le⟩,
    (),h.authorizations,(),h.funds,(),h.pool,rfl⟩

lemma Cleared.transitionDb_eq (h : Cleared msg vm.env.baseFee gp w gas) :
    transitionDb vm msg gp w = complete vm.env msg (gp-msg.gasLimit)
      (vm.executeMessage msg (msg.gasLimit-gas) (msg.start w)) := by
  let db := w.db.subBalance msg.payer (BitVec.ofNat 256 msg.gasCost)
  have hgas : (require (gas ≤ msg.gasLimit) .intrinsicGas : Except TxError Unit) = .ok () :=
    require_eq_ok.mpr (decide_eq_true h.gas_le)
  have htransfer : (require (msg.value<2^256 && canTransfer db msg.src (BitVec.ofNat 256 msg.value))
      .insufficientFundsForTransfer : Except TxError Unit) = .ok () :=
    require_eq_ok.mpr (Bool.and_eq_true_iff.mpr ⟨decide_eq_true h.value_lt,h.transfer⟩)
  have haccounts : checkAccounts msg db = .ok () := h.accounts
  have hentry : commence msg vm.env.baseFee gp w.db = .ok (gp-msg.gasLimit,gas,db) := by
    unfold commence
    rw [h.preCheck_eq,ok_bind]
    dsimp only
    rw [h.intrinsic,ok_bind,hgas,ok_bind,htransfer,ok_bind,haccounts,ok_bind]
    rfl
  rw [transitionDb,hentry,ok_bind]
  rfl

lemma preCheck_ok {gp' : ℕ} (gas : ℕ) (h : preCheck msg baseFee gp w.db = .ok (gp',db)) :
    db = w.db.subBalance msg.payer (BitVec.ofNat 256 msg.gasCost) ∧
    (intrinsicGas msg = .ok gas → gas ≤ msg.gasLimit → msg.value<2^256 →
      canTransfer db msg.src (BitVec.ofNat 256 msg.value)=true → checkAccounts msg db = .ok () →
      Cleared msg baseFee gp w gas) := by
  simp only [preCheck,checkNonce,checkFees,buyGas,bind_eq_ok,require_eq_ok,decide_eq_true_eq] at h
  obtain ⟨_,⟨_,hge,_,hle,hmax⟩,_,heoa,_,⟨_,hcap,_,_,_,htip,hbase⟩,_,hauth,_,hfunds,_,hpool,heq⟩ := h
  obtain ⟨-,rfl⟩ : gp-msg.gasLimit = gp' ∧
      w.db.subBalance msg.payer (BitVec.ofNat 256 msg.gasCost) = db := by simpa [pure,Except.pure] using heq
  exact ⟨rfl,fun hgas hgasLe hvalue htransfer haccounts => ⟨⟨BitVec.le_antisymm hle hge,heoa,hcap,htip,hbase,
    hfunds,hpool,hgas,hgasLe,hvalue,htransfer,haccounts⟩,hmax,hauth⟩⟩

lemma cleared_of_commence {r : ℕ × ℕ × StateDB} (h : commence msg baseFee gp w.db = .ok r) :
    ∃ gas, Cleared msg baseFee gp w gas := by
  simp only [commence,bind_eq_ok,require_eq_ok,Prod.exists,decide_eq_true_eq,Bool.and_eq_true] at h
  obtain ⟨gp',db,hpre,gas,hgas,_,hgasLe,_,⟨hvalue,htransfer⟩,_,haccounts,-⟩ := h
  exact ⟨gas,(preCheck_ok gas hpre).2 hgas hgasLe hvalue htransfer haccounts⟩

lemma cleared_of_ok {r : ExecutionResult × ℕ × World} (h : transitionDb vm msg gp w = .ok r) :
    ∃ gas, Cleared msg vm.env.baseFee gp w gas := by
  obtain ⟨_,hentry,_⟩ := bind_eq_ok.mp h
  exact cleared_of_commence hentry

/-- The blacklist rejects a message before its execution, or after it. -/
theorem transitionDb_blacklisted {a : Address} (h : transitionDb vm msg gp w = .error (.blacklistedAccount a)) :
    checkAccounts msg (msg.start w).db = .error (.blacklistedAccount a) ∨
    ∃ gas, Cleared msg vm.env.baseFee gp w gas := by
  rcases bind_eq_error.mp h with h | ⟨_,hentry,_⟩
  · left
    rcases bind_eq_error.mp h with hpre | ⟨⟨gp',db⟩,hpre,h⟩
    · exact absurd hpre otherErrors_preCheck.ne_blacklisted
    rcases bind_eq_error.mp h with hgas | ⟨gas,_,h⟩
    · exact absurd hgas otherErrors_intrinsicGas.ne_blacklisted
    rcases bind_eq_error.mp h with hle | ⟨_,_,h⟩
    · exact absurd hle (OtherErrors.ne_blacklisted (ErrorsIn.require rfl))
    rcases bind_eq_error.mp h with hvalue | ⟨_,_,h⟩
    · exact absurd hvalue (OtherErrors.ne_blacklisted (ErrorsIn.require rfl))
    obtain ⟨rfl,_⟩ := preCheck_ok gas hpre
    rcases bind_eq_error.mp h with haccounts | ⟨_,_,h⟩
    · exact haccounts
    · cases h
  · exact .inr (cleared_of_commence hentry)

lemma checkAccounts_ok (h : checkAccounts msg db = .ok ()) :
    db.isBlacklisted msg.src=false ∧ ∀ dst ∈ msg.dst, db.isBlacklisted dst=false := by
  simp only [checkAccounts,bind_eq_ok,require_eq_ok,Bool.not_eq_true'] at h
  obtain ⟨_,hsrc,h⟩ := h
  refine ⟨hsrc,fun dst hdst => ?_⟩
  rw [Option.mem_def.mp hdst] at h
  simpa [require_eq_ok] using h

lemma checkAccounts_error {e : TxError} (h : checkAccounts msg db = .error e) :
    db.isBlacklisted msg.src=true ∨ ∃ dst ∈ msg.dst, db.isBlacklisted dst=true := by
  by_contra hno
  push Not at hno
  cases hdst : msg.dst with
  | none => simp [checkAccounts,require,hno.1,hdst,ok_bind] at h
  | some dst => simp [checkAccounts,require,hno.1,hdst,hno.2 dst (by simp [hdst]),ok_bind] at h

lemma isBlacklisted_start (a : Address) : (msg.start w).db.isBlacklisted a = w.db.isBlacklisted a := by
  rw [StateDB.isBlacklisted,StateDB.isBlacklisted,StateDB.hasFlag_eq,StateDB.hasFlag_eq,Message.obj_start]
  rfl

lemma isBlacklisted_paid {env : Env} {o : Result × World} (a : Address) :
    (paid env msg o).isBlacklisted a = o.2.db.isBlacklisted a := by
  rw [StateDB.isBlacklisted,StateDB.isBlacklisted,StateDB.hasFlag_eq,StateDB.hasFlag_eq,obj_paid]
  rfl

theorem complete_cases (env : Env) (msg : Message) (gp : ℕ) (o : Result × World) :
    (∃ r, complete env msg gp o = .ok r ∧ ∀ payer ∈ msg.feePayer, o.2.db.isBlacklisted payer=false) ∨
    ∃ payer ∈ msg.feePayer, complete env msg gp o = .error (.blacklistedAccount payer) ∧
      o.2.db.isBlacklisted payer=true := by
  have heq : complete env msg gp o = checkFeePayer msg (paid env msg o) >>= fun _ =>
      .ok (⟨msg.gasLimit-gasLeft msg o,refundedGas msg o.1.gas o.2.db.refund,o.1.err,o.1.ret⟩,
        gp+gasLeft msg o,{ o.2 with db := logAuthorized msg (paid env msg o) }) := rfl
  cases hp : msg.feePayer with
  | none =>
    rw [show checkFeePayer msg (paid env msg o) = .ok () by simp [checkFeePayer,hp],ok_bind] at heq
    exact .inl ⟨_,heq,by simp⟩
  | some payer =>
    have hcheck : checkFeePayer msg (paid env msg o) =
        require (!o.2.db.isBlacklisted payer) (.blacklistedAccount payer) := by
      simp [checkFeePayer,hp,isBlacklisted_paid]
    rw [hcheck] at heq
    cases hbit : o.2.db.isBlacklisted payer with
    | false =>
      rw [hbit] at heq
      exact .inl ⟨_,heq,by simpa using hbit⟩
    | true =>
      rw [hbit] at heq
      exact .inr ⟨payer,rfl,heq,hbit⟩

end Checks

/-- The blacklist rejects a message exactly if it lists one of the accounts the message names, in the
state before the message. -/
def DecidedBefore (vm : Vm) (msg : Message) (gp : ℕ) (w : World) : Prop :=
  (∀ r, transitionDb vm msg gp w = .ok r → ∀ a ∈ msg.named, w.db.isBlacklisted a=false) ∧
  ∀ a, transitionDb vm msg gp w = .error (.blacklistedAccount a) →
    ∃ a ∈ msg.named, w.db.isBlacklisted a=true

section Decision

variable {vm : Vm} {msg : Message} {gp gas : ℕ} {w : World}

lemma Message.mem_named {a : Address} : a ∈ msg.named ↔ a=msg.src ∨ a ∈ msg.dst ∨ a ∈ msg.feePayer := by
  simp [named]

theorem Cleared.free (h : Cleared msg vm.env.baseFee gp w gas) {a : Address} (ha : a ∈ msg.named)
    (hpayer : a ∉ msg.feePayer) : w.db.isBlacklisted a=false := by
  obtain ⟨hsrc,hdst⟩ := checkAccounts_ok h.accounts
  simp only [isBlacklisted_start] at hsrc hdst
  rcases Message.mem_named.mp ha with rfl | ha | ha
  · exact hsrc
  · exact hdst a ha
  · exact absurd ha hpayer

/-- Whether the blacklist rejects a message is decided by the state before it, exactly if the execution
leaves the bit of the fee payer as it was. -/
theorem decidedBefore_iff (vm : Vm) (msg : Message) (gp : ℕ) (w : World) :
    DecidedBefore vm msg gp w ↔ ∀ payer ∈ msg.feePayer, ∀ gas, Cleared msg vm.env.baseFee gp w gas →
      (vm.executeMessage msg (msg.gasLimit-gas) (msg.start w)).2.db.isBlacklisted payer = w.db.isBlacklisted payer := by
  constructor
  · rintro ⟨hok,herr⟩ payer hpayer gas hcleared
    have hmem : payer ∈ msg.named := Message.mem_named.mpr (.inr (.inr hpayer))
    rcases complete_cases vm.env msg (gp-msg.gasLimit)
      (vm.executeMessage msg (msg.gasLimit-gas) (msg.start w)) with ⟨r,hr,hfree⟩ | ⟨p,hp,he,hlisted⟩
    · rw [hfree payer hpayer,hok r (hcleared.transitionDb_eq.trans hr) payer hmem]
    · obtain rfl : p=payer := Option.mem_unique hp hpayer
      rw [hlisted]
      -- only the fee payer is left to be the one that was listed
      obtain ⟨a,ha,hbit⟩ := herr p (hcleared.transitionDb_eq.trans he)
      by_cases hpa : a ∈ msg.feePayer
      · rw [← Option.mem_unique hpa hpayer,hbit]
      · rw [hcleared.free ha hpa] at hbit
        exact absurd hbit (by simp)
  · intro h
    refine ⟨fun r hr a ha => ?_,fun a he => ?_⟩
    · obtain ⟨gas,hcleared⟩ := cleared_of_ok hr
      by_cases hpa : a ∈ msg.feePayer
      · rw [← h a hpa gas hcleared]
        rcases complete_cases vm.env msg (gp-msg.gasLimit)
          (vm.executeMessage msg (msg.gasLimit-gas) (msg.start w)) with ⟨_,_,hfree⟩ | ⟨p,_,he,_⟩
        · exact hfree a hpa
        · rw [hcleared.transitionDb_eq,he] at hr
          cases hr
      · exact hcleared.free ha hpa
    · rcases transitionDb_blacklisted he with haccounts | ⟨gas,hcleared⟩
      · rcases checkAccounts_error haccounts with hsrc | ⟨dst,hdst,hbit⟩
        · exact ⟨msg.src,Message.mem_named.mpr (.inl rfl),by rwa [isBlacklisted_start] at hsrc⟩
        · exact ⟨dst,Message.mem_named.mpr (.inr (.inl hdst)),by rwa [isBlacklisted_start] at hbit⟩
      · rcases complete_cases vm.env msg (gp-msg.gasLimit)
          (vm.executeMessage msg (msg.gasLimit-gas) (msg.start w)) with ⟨r,hr,_⟩ | ⟨p,hp,_,hlisted⟩
        · rw [hcleared.transitionDb_eq,hr] at he
          cases he
        · exact ⟨p,Message.mem_named.mpr (.inr (.inr hp)),by rw [← h p hp gas hcleared,hlisted]⟩

end Decision

namespace SingleSender

def strikingNet : Network :=
  { net with
    interp := fun _ _ => .op (.call .call 50000 accountManagerAddress 0
      (encodeCall accountManagerUnBlacklistSelector [addressWord contract])) fun _ => .halt .stop }

/-- A call of the council for which the account pays the fees. -/
def sponsored : Message := ⟨sender,some net.govCouncil,0,0,100000,6,10,1,[],none,some contract,none⟩

def sponsoredWorld (extra : BitVec 64) : World := world [(sender,account),
  (net.govCouncil,{ account with code := [0x00] }),(contract,{ account with extra })]

/-- A listed fee payer gets away with a transaction that takes it off the blacklist, and a transaction
that lists its fee payer is rejected although nobody it names was listed before. -/
theorem decided_after_execution : (∃ r, transitionDb (strikingNet.vm creation sponsored) sponsored 30000000
      (sponsoredWorld (Flag.mask .blacklisted)) = .ok r) ∧
    (sponsoredWorld (Flag.mask .blacklisted)).db.isBlacklisted contract=true ∧
    transitionDb (councilNet.vm creation sponsored) sponsored 30000000 (sponsoredWorld 0) =
      .error (.blacklistedAccount contract) ∧ ∀ a ∈ sponsored.named, (sponsoredWorld 0).db.isBlacklisted a=false := by
  have hfree : sponsored.named.all (fun a => !(sponsoredWorld 0).db.isBlacklisted a)=true := by
    decide +kernel
  refine ⟨?_,by decide +kernel,?_,fun a ha => by simpa using List.all_eq_true.mp hfree a ha⟩
  · obtain ⟨r,hr,-⟩ := exists_of_holds (x := transitionDb (strikingNet.vm creation sponsored) sponsored 30000000
      (sponsoredWorld (Flag.mask .blacklisted))) (P := fun _ => true) (by decide +kernel)
    exact ⟨r,hr⟩
  · obtain ⟨e,he,hcheck⟩ := exists_of_fails (x := transitionDb (councilNet.vm creation sponsored) sponsored
      30000000 (sponsoredWorld 0)) (P := fun e => decide (e = .blacklistedAccount contract)) (by decide +kernel)
    rw [he,of_decide_eq_true hcheck]

end SingleSender

end StableNet.Evm
