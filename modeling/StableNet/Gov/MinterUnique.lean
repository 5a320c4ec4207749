import StableNet.Gov.MinterSteps

/-! One mint for a deposit and one burn for a withdrawal: an executed id is never open again. -/
namespace StableNet.Gov
open Chain (Address Bytes)
open Lib Agenda
variable {κ ρ : Type} {k : MinterAction} {executed : Bytes → Bool} {link : Bytes → ℕ} {quorum : ℕ} {m₁ : Minter}

section
variable {A : Agenda κ} {ref : κ → Option ρ} {executed : ρ → Bool} {link : ρ → ℕ} {done : List ρ} {id : ℕ} {k : κ}

/-- Every open proposal has its reference for itself, and those that took effect are marked. -/
structure Exclusive (A : Agenda κ) (ref : κ → Option ρ) (executed : ρ → Bool) (link : ρ → ℕ) (done : List ρ) :
    Prop where
  linked : ∀ id k r, A.stage id = .voting → A.custom id = some k → ref k = some r → link r = id ∧ executed r=false
  marked : ∀ r, r ∈ done ↔ executed r=true
  nodup : done.Nodup

/-- A reference that was not executed and that no open proposal uses. -/
def Available (A : Agenda κ) (executed : ρ → Bool) (link : ρ → ℕ) (r? : Option ρ) : Prop :=
  ∀ r, r? = some r → executed r=false ∧ (link r=0 ∨ A.stage (link r) ≠ .voting)

def mark [DecidableEq ρ] (executed : ρ → Bool) : Option ρ → ρ → Bool
  | none => executed
  | some r => Function.update executed r true

/-- The proposal that a reference now belongs to. -/
def relink [DecidableEq ρ] (link : ρ → ℕ) (id : ℕ) : Option ρ → ρ → ℕ
  | none => link
  | some r => Function.update link r id

namespace Exclusive

section
variable (h : Exclusive A ref executed link done)
include h

lemma eq_of_ref {id' : ℕ} {k' : κ} {r : ρ} (hopen : A.stage id = .voting)
    (hopen' : A.stage id' = .voting) (hk : A.custom id = some k) (hk' : A.custom id' = some k')
    (hr : ref k = some r) (hr' : ref k' = some r) : id = id' :=
  (h.linked id k r hopen hk hr).1.symm.trans (h.linked id' k' r hopen' hk' hr').1

lemma finish {st : ProposalStatus} (hst : st ≠ .voting) : Exclusive (A.finish id st) ref executed link done where
  linked j k r hj hk hr := by
    by_cases he : j = id
    · rw [he,stage_finish_self] at hj
      exact absurd hj hst
    · rw [stage_finish_of_ne A he] at hj
      exact h.linked j k r hj hk hr
  marked := h.marked
  nodup := h.nodup

theorem effect [DecidableEq ρ] (hopen : A.stage id = .voting) (hk : A.custom id = some k) :
    Exclusive (A.finish id .executed) ref (mark executed (ref k)) link ((ref k).toList++done) := by
  cases hr : ref k with
  | none => exact h.finish (by decide)
  | some r =>
    have hunmarked := (h.linked id k r hopen hk hr).2
    refine ⟨fun j k' r' hj hk' hr' => ?_,fun r' => ?_,?_⟩
    · by_cases he : j = id
      · rw [he,stage_finish_self] at hj
        cases hj
      · rw [stage_finish_of_ne A he] at hj
        have hne : r'≠r := by
          rintro rfl
          exact he (h.eq_of_ref hj hopen hk' hk hr' hr)
        rw [show mark executed (some r) r' = executed r' from Function.update_of_ne hne ..]
        exact h.linked j k' r' hj hk' hr'
    · by_cases he : r'=r
      · simp [he,mark]
      · simp [he,mark,h.marked]
    · refine List.nodup_cons.mpr ⟨fun hmem => ?_,h.nodup⟩
      rw [(h.marked r).mp hmem] at hunmarked
      cases hunmarked

lemma create [DecidableEq ρ] {k : Option κ} (hA : A.Proper) (havailable : Available A executed link (k.bind ref)) :
    Exclusive (A.create k) ref executed (relink link (A.current+1) (k.bind ref)) done where
  linked j k' r hj hk' hr := by
    by_cases he : j = A.current+1
    · rw [he,custom_create_self] at hk'
      have hbind : k.bind ref = some r := by
        rw [hk']
        exact hr
      rw [hbind]
      exact ⟨(Function.update_self ..).trans he.symm,(havailable r hbind).1⟩
    · rw [stage_create_of_ne A k he] at hj
      rw [custom_create_of_ne A k he] at hk'
      obtain ⟨hlink,hunmarked⟩ := h.linked j k' r hj hk' hr
      refine ⟨?_,hunmarked⟩
      cases hbind : k.bind ref with
      | none => exact hlink
      | some r' =>
        have hne : r≠r' := by
          rintro rfl
          have hfree := (havailable r hbind).2
          rw [hlink] at hfree
          cases hfree with
          | inl hzero =>
            rw [hzero,hA.zero] at hj
            cases hj
          | inr hclosed => exact hclosed hj
        exact (Function.update_of_ne hne ..).trans hlink
  marked := h.marked
  nodup := h.nodup

end

end Exclusive

end

def MinterAction.depositRef (k : MinterAction) : Option Bytes := k.mintOf.map Settled.ref

def MinterAction.withdrawalRef (k : MinterAction) : Option Bytes := k.burnOf.map Settled.ref

def MintProof.settled (proof : MintProof) : Settled := ⟨proof.depositId,proof.beneficiary,proof.amount⟩

namespace Minter
variable {A : Agenda MinterAction} {m m' : Minter} {version : MinterVersion} {id : ℕ} {st : ProposalStatus}

/-- The references are exclusive, and the proof of a mint proposal says what is minted. -/
structure Unique (A : Agenda MinterAction) (m : Minter) : Prop where
  proper : A.Proper
  deposits : Exclusive A MinterAction.depositRef m.executedDepositIds m.depositIdToProposalId (m.minted.map Settled.ref)
  withdrawals : Exclusive A MinterAction.withdrawalRef m.executedWithdrawalIds m.withdrawalIdToProposalId
    (m.burned.map Settled.ref)
  proofs : ∀ id, (m.mintProofs id).map MintProof.settled = (A.custom id).bind MinterAction.mintOf
  fresh : ∀ id, A.current < id → m.mintProofs id=none

def references (m : Minter) : (Bytes → ℕ) × (Bytes → ℕ) × (ℕ → Option MintProof) :=
  (m.depositIdToProposalId,m.withdrawalIdToProposalId,m.mintProofs)

def executions (m : Minter) : (Bytes → Bool) × List Bytes × (Bytes → Bool) × List Bytes :=
  (m.executedDepositIds,m.minted.map Settled.ref,m.executedWithdrawalIds,m.burned.map Settled.ref)

lemma Unique.congr (h : Unique A m) (hreferences : m'.references=m.references)
    (hexecutions : m'.executions=m.executions) : Unique A m' := by
  simp only [references,executions,Prod.mk.injEq] at hreferences hexecutions
  obtain ⟨hdeposit,hwithdrawal,hproofs⟩ := hreferences
  obtain ⟨hexecuted,hminted,hexecuted',hburned⟩ := hexecutions
  refine ⟨h.proper,?_,?_,?_,?_⟩
  · rw [hexecuted,hdeposit,hminted]
    exact h.deposits
  · rw [hexecuted',hwithdrawal,hburned]
    exact h.withdrawals
  · rw [hproofs]
    exact h.proofs
  · rw [hproofs]
    exact h.fresh

lemma Effect.executions (h : m.Effect k m') : m'.references=m.references ∧ m'.executions =
      (mark m.executedDepositIds k.depositRef,k.depositRef.toList++m.minted.map Settled.ref,
        mark m.executedWithdrawalIds k.withdrawalRef,k.withdrawalRef.toList++m.burned.map Settled.ref) := by
  cases h <;> exact ⟨rfl,rfl⟩

lemma Finalized.references {executed : Prop} (h : Finalized version m id executed m') :
    m'.references=m.references ∧ m'.executions=m.executions := by
  cases h with
  | released => exact ⟨rfl,rfl⟩
  | cleared _ h => cases h <;> exact ⟨rfl,rfl⟩

lemma Unique.effect (h : Unique A m) (hopen : A.stage id = .voting) (hk : A.custom id = some k)
    (hreferences : m'.references=m.references) (hexecutions : m'.executions =
      (mark m.executedDepositIds k.depositRef,k.depositRef.toList++m.minted.map Settled.ref,
        mark m.executedWithdrawalIds k.withdrawalRef,k.withdrawalRef.toList++m.burned.map Settled.ref)) :
    Unique (A.finish id .executed) m' := by
  simp only [references,executions,Prod.mk.injEq] at hreferences hexecutions
  obtain ⟨hdeposit,hwithdrawal,hproofs⟩ := hreferences
  obtain ⟨hexecuted,hminted,hexecuted',hburned⟩ := hexecutions
  refine ⟨h.proper.finish (by rw [hopen]; decide) .executed,?_,?_,?_,?_⟩
  · rw [hexecuted,hdeposit,hminted]
    exact h.deposits.effect hopen hk
  · rw [hexecuted',hwithdrawal,hburned]
    exact h.withdrawals.effect hopen hk
  · rw [hproofs]
    exact h.proofs
  · rw [hproofs]
    exact h.fresh

lemma Unique.ended (h : Unique A m) (hopen : A.stage id = .voting) (hended : Ended A id m st m') :
    Unique (A.finish id st) m' := by
  have hproper := h.proper.finish (by rw [hopen]; decide) st
  have hst := hended.ne_voting
  cases hended with
  | retired | governed => exact ⟨hproper,h.deposits.finish hst,h.withdrawals.finish hst,h.proofs,h.fresh⟩
  | effected hk heffect => exact h.effect hopen hk heffect.executions.1 heffect.executions.2

lemma Unique.create {k : Option MinterAction} (h : Unique A m) (hexecutions : m'.executions=m.executions)
    (hdeposit : Available A m.executedDepositIds m.depositIdToProposalId (k.bind MinterAction.depositRef))
    (hwithdrawal : Available A m.executedWithdrawalIds m.withdrawalIdToProposalId (k.bind MinterAction.withdrawalRef))
    (hdeposit' : m'.depositIdToProposalId =
      relink m.depositIdToProposalId (A.current+1) (k.bind MinterAction.depositRef))
    (hwithdrawal' : m'.withdrawalIdToProposalId =
      relink m.withdrawalIdToProposalId (A.current+1) (k.bind MinterAction.withdrawalRef))
    (hproofs : ∀ j, j ≠ A.current+1 → m'.mintProofs j = m.mintProofs j)
    (hproof : (m'.mintProofs (A.current+1)).map MintProof.settled = k.bind MinterAction.mintOf) :
    Unique (A.create k) m' := by
  simp only [executions,Prod.mk.injEq] at hexecutions
  obtain ⟨hexecuted,hminted,hexecuted',hburned⟩ := hexecutions
  refine ⟨h.proper.create k,?_,?_,fun j => ?_,fun j hj => ?_⟩
  · rw [hexecuted,hdeposit',hminted]
    exact h.deposits.create h.proper hdeposit
  · rw [hexecuted',hwithdrawal',hburned]
    exact h.withdrawals.create h.proper hwithdrawal
  · by_cases he : j = A.current+1
    · rw [he,hproof,custom_create_self]
    · rw [hproofs j he,custom_create_of_ne A k he]
      exact h.proofs j
  · have hj : A.current+1<j := hj
    rw [hproofs j (by omega)]
    exact h.fresh j (by omega)

lemma available_none : Available A executed link none :=
  fun _ h => by cases h

lemma available_some {r : Bytes} (hexecuted : executed r=false)
    (hopen : link r=0 ∨ A.stage (link r) ≠ .voting) : Available A executed link (some r) := by
  intro r' hr'
  cases hr'
  exact ⟨hexecuted,hopen⟩

lemma Unique.fresh_current (h : Unique A m) : m.mintProofs (A.current+1)=none := h.fresh _ (Nat.lt_succ_self _)

lemma Unique.waits (h : Unique A m) (hproposes : Proposes A quorum m k m₁ m₁ m') : Unique (A.create (some k)) m' := by
  cases hproposes with
  | mint hexecuted hopen =>
    exact h.create rfl (available_some hexecuted hopen) available_none rfl rfl
      (fun j hj => Function.update_of_ne hj ..) (congrArg _ (Function.update_self ..))
  | burn _ hexecuted hopen =>
    exact h.create rfl available_none (available_some hexecuted hopen) rfl rfl (fun _ _ => rfl)
      (congrArg _ h.fresh_current)
  | pause | unpause =>
    exact h.create rfl available_none available_none rfl rfl (fun _ _ => rfl) (congrArg _ h.fresh_current)

/-- The rest of the function writes the references, and nothing in between reads them. -/
theorem Proposes.references {m₂ : Minter} (h : Proposes A quorum m k m₁ m₂ m')
    (hreferences : m₂.references=m₁.references) : m'.executions=m₂.executions ∧
      ∃ m₀, Proposes A quorum m k m₁ m₁ m₀ ∧ m'.references=m₀.references ∧ m₁.executions=m₀.executions := by
  have hdeposit : m₂.depositIdToProposalId=m₁.depositIdToProposalId := congrArg Prod.fst hreferences
  have hwithdrawal : m₂.withdrawalIdToProposalId=m₁.withdrawalIdToProposalId := congrArg (·.2.1) hreferences
  have hproofs : m₂.mintProofs=m₁.mintProofs := congrArg (·.2.2) hreferences
  cases h with
  | mint hexecuted hopen =>
    refine ⟨rfl,_,.mint hexecuted hopen,?_,rfl⟩
    simp only [Minter.references,reserve,hdeposit,hwithdrawal,hproofs]
  | burn hamount hexecuted hopen =>
    refine ⟨rfl,_,.burn hamount hexecuted hopen,?_,rfl⟩
    simp only [Minter.references,linkBurn,hdeposit,hwithdrawal,hproofs]
  | pause => exact ⟨rfl,_,.pause,hreferences,rfl⟩
  | unpause => exact ⟨rfl,_,.unpause,hreferences,rfl⟩

lemma invariant_unique (version : MinterVersion) : Invariant version Unique where
  ends h hopen hended hfinalized :=
    (h.ended hopen hended).congr hfinalized.references.1 hfinalized.references.2
  create h := h.create rfl available_none available_none rfl rfl (fun _ _ => rfl) (congrArg _ h.fresh_current)
  waits h hproposes := h.waits hproposes
  executes {A quorum m k m₁ m₂ m₃ m'} h _ hproposes heffect hfinalized := by
    obtain ⟨hreferences,hexecutions⟩ := heffect.executions
    obtain ⟨hexecutions',m₀,hproposes₀,hreferences₀,hexecutions₀⟩ :=
      hproposes.references (hfinalized.references.1.trans hreferences)
    -- the proposal as if it had waited; its references are those that are written at the end
    refine (h.waits hproposes₀).effect (A.stage_create_self (some k)) (A.custom_create_self (some k)) hreferences₀ ?_
    rw [hexecutions',hfinalized.references.2,hexecutions]
    simp only [executions,Prod.mk.injEq] at hexecutions₀
    obtain ⟨hexecuted,hminted,hexecuted',hburned⟩ := hexecutions₀
    rw [hexecuted,hminted,hexecuted',hburned]
  received h _ := h.congr rfl rfl
  adapter h _ := h.congr rfl rfl
  paysOut h _ _ := h.congr rfl rfl

lemma unique_initial (balance : ℕ) (answers : AdapterAnswers) : Unique .empty (.initial balance answers) where
  proper := proper_empty
  deposits := ⟨fun _ _ _ h => (by cases h),fun _ => (by simp [initial]),List.nodup_nil⟩
  withdrawals := ⟨fun _ _ _ h => (by cases h),fun _ => (by simp [initial]),List.nodup_nil⟩
  proofs _ := rfl
  fresh _ _ := rfl

end Minter

section
open Genesis

/-- In every run, under the first version and then under the second one, a deposit is minted and a
withdrawal burned at most once, at most one open proposal has a given reference, and what was minted
are the proofs of the mint proposals that were approved and executed. -/
theorem minted_once (codec : ProofCodec) {address : Address} {param : Params} {states : List StateParam}
    (h : initializeMinter address param = .ok states) (balance : ℕ) (answers : AdapterAnswers)
    (calls₁ calls₂ : List (ℕ × Call MinterOp)) :
    let s := Minter.run codec calls₁ calls₂ (genesisMinter address states balance answers)
    (s.own.minted.map Settled.ref).Nodup ∧ (s.own.burned.map Settled.ref).Nodup ∧
    (∀ id id' k k', (s.gov.proposals id).status.isOpen → (s.gov.proposals id').status.isOpen →
      (s.gov.proposals id).action = some (.custom k) → (s.gov.proposals id').action = some (.custom k') →
      ∀ r, (k.depositRef = some r ∧ k'.depositRef = some r) ∨ (k.withdrawalRef = some r ∧ k'.withdrawalRef = some r) →
      id = id') ∧
    s.own.minted = s.gov.agenda.effected.filterMap (fun id => (s.own.mintProofs id).map MintProof.settled) ∧
    ∀ id ∈ s.gov.agenda.effected, (s.gov.proposals id).status = .executed ∧
      (s.gov.proposals id).requiredApprovals ≤ (s.gov.proposals id).approved := by
  intro s
  have hunique : Minter.Unique s.gov.agenda s.own :=
    ((Minter.invariant_unique .v1).run codec (Minter.invariant_unique .v2) h
      (Minter.unique_initial balance answers) calls₁ calls₂).2
  obtain ⟨hledger,hbooked⟩ : Ledger s.gov.roster s.gov.docket ∧ Minter.Booked s.gov.agenda s.own :=
    (Minter.invariant_booked .v1).run codec (Minter.invariant_booked .v2) h
      (Minter.booked_initial balance answers) calls₁ calls₂
  refine ⟨hunique.deposits.nodup,hunique.withdrawals.nodup,?_,?_,?_⟩
  · intro id id' k k' hopen hopen' hk hk' r hr
    have hstage := ProposalStatus.stage_of_isOpen hopen
    have hstage' := ProposalStatus.stage_of_isOpen hopen'
    have hk := Base.agenda_custom_of_action hk
    have hk' := Base.agenda_custom_of_action hk'
    cases hr with
    | inl hr => exact hunique.deposits.eq_of_ref hstage hstage' hk hk' hr.1 hr.2
    | inr hr => exact hunique.withdrawals.eq_of_ref hstage hstage' hk hk' hr.1 hr.2
  · rw [hbooked.minted,Agenda.log]
    exact List.filterMap_congr fun id _ => (hunique.proofs id).symm
  · intro id hid
    have hstage := (hbooked.effective.mem_iff id).mp hid
    have hexecuted : (s.gov.proposals id).status = .executed := ProposalStatus.eq_of_stage hstage (by decide)
    have hproposal : s.gov.docket.isProposal id := by
      refine Docket.isProposal_iff.mpr ⟨?_,hbooked.effective.toProper.le_current (by rw [hstage]; decide)⟩
      rintro rfl
      rw [hbooked.effective.zero] at hstage
      cases hstage
    exact ⟨hexecuted,(hledger.tally id hproposal).enough (.inr hexecuted)⟩

end

namespace Resubmitted
open Genesis

def param : Params
  | "members" => some "0x01, 0x02"
  | "quorum" => some "2"
  | "expiry" => some "604800"
  | "memberVersion" => some "1"
  | _ => none

/-- A proof is its deposit; the rest of the bytes tells two proofs for it apart. -/
def codec : ProofCodec where
  mintProof data := some ⟨9,50,0,data.take 1,[1],[]⟩
  burnProof _ := none

/-- A deposit is proposed, cancelled and proposed again, then minted after the upgrade; a third proof for
it is refused. -/
def calls₁ : List (ℕ × Call MinterOp) :=
  [(10,.mk 1 (.derived (.proposeMint [5,1])) []),(20,.mk 1 (.cancelProposal 1) []),
    (30,.mk 1 (.derived (.proposeMint [5,2])) [])]

def calls₂ : List (ℕ × Call MinterOp) :=
  [(40,.mk 2 (.approveProposal 2) []),(50,.mk 1 (.derived (.proposeMint [5,3])) [])]

theorem minted_once_resubmitted : ∃ states, initializeMinter 7 param = .ok states ∧
      let s := Minter.run codec calls₁ calls₂ (genesisMinter 7 states 0 ⟨100,true,true⟩)
      s.own.minted = [⟨[5],9,50⟩] ∧ s.gov.currentProposalId=2 ∧ (s.own.minted.map Settled.ref).Nodup := by
  obtain ⟨states,hstates,h⟩ := exists_of_holds (x := initializeMinter 7 param)
    (P := fun states =>
      let s := Minter.run codec calls₁ calls₂ (genesisMinter 7 states 0 ⟨100,true,true⟩)
      s.own.minted = [⟨[5],9,50⟩] && s.gov.currentProposalId=2)
    (by decide +kernel)
  simp only [Bool.and_eq_true,decide_eq_true_eq] at h
  exact ⟨states,hstates,h.1,h.2,(minted_once codec hstates 0 ⟨100,true,true⟩ calls₁ calls₂).1⟩

end Resubmitted

end StableNet.Gov
