import StableNet.Genesis.GovMinter

/-! What the functions of `GovMinter` do to its storage, as few kinds of steps. -/
namespace StableNet.Gov
open Chain (Address Bytes)
open Lib
open Function
variable {a b : ℕ} {k : MinterAction} {m₁ : Minter}
variable {c id : ℕ} {proofData : Bytes} {A : Agenda MinterAction} {st : ProposalStatus} {o : MinterOp} {m₂ : Minter}
  {msg : Msg} {codec : ProofCodec}

lemma memberless_govMinter (codec : ProofCodec) (version : MinterVersion) : (govMinter codec version).Memberless where
  onMemberAdded h := by
    cases h
    rfl
  onMemberRemoved h := by
    cases h
    rfl
  onMemberChanged h := by
    cases h
    rfl

lemma checkedAdd_eq_ok (h : checkedAdd a b = .ok c) : c = a+b := by
  unfold checkedAdd at h
  split at h
  · cases h
    rfl
  · cases h

lemma checkedSub_eq_ok (h : checkedSub a b = .ok c) : b ≤ a ∧ c = a-b := by
  unfold checkedSub at h
  split at h
  · cases h
    exact ⟨‹_›,rfl⟩
  · cases h

lemma checkedSub_of_le (h : b ≤ a) : checkedSub a b = .ok (a-b) := if_pos h

namespace Minter
variable {m m' : Minter} {version : MinterVersion} {gov : Base MinterAction}
variable {proposalId : ℕ} {next : Next MinterAction}

inductive Effect (m : Minter) : MinterAction → Minter → Prop
  | mint (beneficiary : Address) (amount : ℕ) (depositId : Bytes) : Effect m (.mint beneficiary amount depositId)
      { m with
        executedDepositIds := update m.executedDepositIds depositId true
        minted := ⟨depositId,beneficiary,amount⟩::m.minted }
  | burn (src : Address) (amount : ℕ) (withdrawalId : Bytes) (hbalance : amount ≤ m.balance)
      (hburn : amount ≤ m.burnBalance src) : Effect m (.burn src amount withdrawalId)
      { m with
        balance := m.balance-amount
        burnBalance := update m.burnBalance src (m.burnBalance src-amount)
        executedWithdrawalIds := update m.executedWithdrawalIds withdrawalId true
        burned := ⟨withdrawalId,src,amount⟩::m.burned }
  | pause (events : List PauseEvent) : Effect m .pause { m with emergencyPaused := true, events }
  | unpause (events : List PauseEvent) : Effect m .unpause { m with emergencyPaused := false, events }

lemma executeCustomAction_true (h : m.executeCustomAction gov k = .ok (true,m')) : m.Effect k m' := by
  cases k with
  | mint beneficiary amount depositId =>
    obtain ⟨_,h⟩ := ok_of_bind h
    split at h
    · cases h
      exact .mint ..
    · cases h
  | burn src amount withdrawalId =>
    obtain ⟨_,h⟩ := ok_of_bind h
    split at h
    · rename_i hburns
      obtain ⟨debited,hdebited,h⟩ := bind_eq_ok.mp h
      cases h
      obtain ⟨hle,rfl⟩ := checkedSub_eq_ok hdebited
      simp only [Bool.and_eq_true,decide_eq_true_eq] at hburns
      exact .burn _ _ _ hburns.2 hle
    · cases h
  | pause =>
    cases h
    exact .pause _
  | unpause =>
    cases h
    exact .unpause _

lemma executeCustomAction_false (h : m.executeCustomAction gov k = .ok (false,m')) : m'=m := by
  cases k with
  | mint beneficiary amount depositId =>
    obtain ⟨_,h⟩ := ok_of_bind h
    split at h
    · cases h
    · cases h
      rfl
  | burn src amount withdrawalId =>
    obtain ⟨_,h⟩ := ok_of_bind h
    split at h
    · obtain ⟨debited,_,h⟩ := bind_eq_ok.mp h
      cases h
    · cases h
      rfl
  | pause => cases h
  | unpause => cases h

def released (m : Minter) (proposalId : ℕ) : Minter :=
  { m with
    reservedMintAmount := m.reservedMintAmount-m.mintProposalAmounts proposalId
    mintProposalAmounts := update m.mintProposalAmounts proposalId 0 }

lemma cleanupMintReservation_eq_ok (h : m.cleanupMintReservation proposalId = .ok m') :
    m.mintProposalAmounts proposalId ≤ m.reservedMintAmount ∧ m' = m.released proposalId := by
  unfold cleanupMintReservation at h
  dsimp only at h
  split at h
  · obtain ⟨reserved,hreserved,h⟩ := bind_eq_ok.mp h
    cases h
    obtain ⟨hle,rfl⟩ := checkedSub_eq_ok hreserved
    exact ⟨hle,rfl⟩
  · rename_i hzero
    cases h
    have hzero : m.mintProposalAmounts proposalId=0 := Nat.eq_zero_of_not_pos hzero
    refine ⟨by omega,?_⟩
    have hupdate : update m.mintProposalAmounts proposalId 0 = m.mintProposalAmounts := by
      rw [← hzero,update_eq_self]
    rw [released,hupdate,hzero,Nat.sub_zero]

/-- The deposit of a proposal is settled in one of three ways. -/
inductive Cleared (m : Minter) (proposalId : ℕ) (executed : Prop) : Minter → Prop
  | none (h : (m.burnProposals proposalId).amount=0) : Cleared m proposalId executed m
  | burned (h : (m.burnProposals proposalId).amount≠0) (hexecuted : executed) : Cleared m proposalId executed
      { m with burnProposals := update m.burnProposals proposalId ⟨0,0⟩ }
  | refunded (h : (m.burnProposals proposalId).amount≠0) (hexecuted : ¬ executed)
      (hle : (m.burnProposals proposalId).amount ≤ m.burnBalance (m.burnProposals proposalId).requester) :
      Cleared m proposalId executed
        { m with
          burnBalance := update m.burnBalance (m.burnProposals proposalId).requester
            (m.burnBalance (m.burnProposals proposalId).requester-(m.burnProposals proposalId).amount)
          refundableBalance := update m.refundableBalance (m.burnProposals proposalId).requester
            (m.refundableBalance (m.burnProposals proposalId).requester+(m.burnProposals proposalId).amount)
          burnProposals := update m.burnProposals proposalId ⟨0,0⟩
          refunds := (proposalId,m.burnProposals proposalId)::m.refunds }

lemma cleanupBurnDeposit_eq_ok (h : m.cleanupBurnDeposit gov proposalId = .ok m') :
    m.Cleared proposalId ((gov.proposals proposalId).status = .executed) m' := by
  unfold cleanupBurnDeposit at h
  dsimp only at h
  split at h
  · cases h
    exact .none ‹_›
  · rename_i hamount
    split at h
    · rename_i hexecuted
      obtain ⟨burn,hburn,h⟩ := bind_eq_ok.mp h
      obtain ⟨refundable,hrefundable,h⟩ := bind_eq_ok.mp h
      cases h
      obtain ⟨hle,rfl⟩ := checkedSub_eq_ok hburn
      cases checkedAdd_eq_ok hrefundable
      exact .refunded hamount hexecuted hle
    · rename_i hexecuted
      cases h
      exact .burned hamount (not_not.mp hexecuted)

/-- What the end of a proposal does to the contract. -/
inductive Finalized (version : MinterVersion) (m : Minter) (proposalId : ℕ) (executed : Prop) : Minter → Prop
  | released (hversion : version = .v1) : Finalized version m proposalId executed (m.released proposalId)
  | cleared {m' : Minter} (hversion : version = .v2) (h : (m.released proposalId).Cleared proposalId executed m') :
      Finalized version m proposalId executed m'

lemma onProposalFinalized_eq_ok (h : m.onProposalFinalized version gov proposalId = .ok m') :
    Finalized version m proposalId ((gov.proposals proposalId).status = .executed) m' := by
  obtain ⟨m₁,hm₁,h⟩ := bind_eq_ok.mp h
  obtain ⟨_,rfl⟩ := cleanupMintReservation_eq_ok hm₁
  split at h
  · exact .cleared ‹_› (cleanupBurnDeposit_eq_ok h)
  · cases h
    refine .released ?_
    cases version with
    | v1 => rfl
    | v2 => exact absurd rfl ‹_›

theorem validateAvailability_eq_ok {executed : Bool} {existing : ℕ} {alreadyUsed inUse : String} {u : Unit}
    (h : validateAvailability gov executed existing alreadyUsed inUse = .ok u) :
    executed=false ∧ (existing=0 ∨ gov.agenda.stage existing ≠ .voting) := by
  obtain ⟨_,hexecuted,h⟩ := bind_eq_ok.mp h
  have hexecuted := require_eq_ok.mp hexecuted
  have hopen := require_eq_ok.mp h
  simp only [Bool.not_eq_true',Bool.or_eq_true,decide_eq_true_eq] at hexecuted hopen
  refine ⟨hexecuted,hopen.imp id fun hopen hstage => ?_⟩
  rw [ProposalStatus.isOpen_iff_stage.mpr hstage] at hopen
  cases hopen

lemma proposeMint_eq_ok (h : m.proposeMint codec version msg gov proofData = .ok (m',next)) :
    ∃ proof, decodeMintProof codec proofData = .ok proof ∧ m.executedDepositIds proof.depositId=false ∧
      (m.depositIdToProposalId proof.depositId=0 ∨
        gov.agenda.stage (m.depositIdToProposalId proof.depositId) ≠ .voting) ∧
      next = .propose (.mint proof.beneficiary proof.amount proof.depositId) ∧ m' = { m with
        usedProofHashes := update m.usedProofHashes proofData true
        mintQuorums := gov.quorum::m.mintQuorums } := by
  obtain ⟨_,h⟩ := ok_of_bind h
  obtain ⟨_,h⟩ := ok_of_bind h
  obtain ⟨proof,hproof,h⟩ := bind_eq_ok.mp h
  obtain ⟨_,h⟩ := ok_of_bind h
  obtain ⟨_,h⟩ := ok_of_bind h
  obtain ⟨_,h⟩ := ok_of_bind h
  obtain ⟨_,h⟩ := ok_of_bind h
  obtain ⟨_,h⟩ := ok_of_bind h
  obtain ⟨_,h⟩ := ok_of_bind h
  obtain ⟨_,hvalid,h⟩ := bind_eq_ok.mp h
  obtain ⟨_,h⟩ := ok_of_bind h
  cases h
  obtain ⟨hexecuted,hopen⟩ := validateAvailability_eq_ok hvalid
  exact ⟨proof,hproof,hexecuted,hopen,rfl,rfl⟩

lemma proposeBurn_eq_ok {value : ℕ} (h : m.proposeBurn codec msg gov value proofData = .ok (m',next)) :
    ∃ proof, decodeBurnProof codec proofData = .ok proof ∧ proof.amount≠0 ∧
      m.executedWithdrawalIds proof.withdrawalId=false ∧ (m.withdrawalIdToProposalId proof.withdrawalId=0 ∨
        gov.agenda.stage (m.withdrawalIdToProposalId proof.withdrawalId) ≠ .voting) ∧
      next = .propose (.burn proof.src proof.amount proof.withdrawalId) ∧ m' = { m with
        balance := m.balance+proof.amount
        burnBalance := update m.burnBalance proof.src (m.burnBalance proof.src+proof.amount)
        usedProofHashes := update m.usedProofHashes proofData true } := by
  obtain ⟨_,h⟩ := ok_of_bind h
  obtain ⟨_,h⟩ := ok_of_bind h
  obtain ⟨proof,hproof,h⟩ := bind_eq_ok.mp h
  obtain ⟨_,h⟩ := ok_of_bind h
  obtain ⟨_,hamount,h⟩ := bind_eq_ok.mp h
  obtain ⟨_,h⟩ := ok_of_bind h
  obtain ⟨_,h⟩ := ok_of_bind h
  obtain ⟨_,hsrc,h⟩ := bind_eq_ok.mp h
  obtain ⟨_,hvalue,h⟩ := bind_eq_ok.mp h
  obtain ⟨_,hvalid,h⟩ := bind_eq_ok.mp h
  obtain ⟨_,h⟩ := ok_of_bind h
  obtain ⟨credited,hcredited,h⟩ := bind_eq_ok.mp h
  cases h
  have hsrc : proof.src=msg.sender := of_decide_eq_true (require_eq_ok.mp hsrc)
  have hvalue : value=proof.amount := of_decide_eq_true (require_eq_ok.mp hvalue)
  cases checkedAdd_eq_ok hcredited
  obtain ⟨hexecuted,hopen⟩ := validateAvailability_eq_ok hvalid
  exact ⟨proof,hproof,of_decide_eq_true (require_eq_ok.mp hamount),hexecuted,hopen,rfl,by rw [hsrc,hvalue]⟩

/-- `claimBurnRefund` pays the sender out. -/
def payOut (m : Minter) (sender : Address) : Minter :=
  { m with
    refundableBalance := update m.refundableBalance sender 0
    balance := m.balance-m.refundableBalance sender
    claimed := update m.claimed sender (m.claimed sender+m.refundableBalance sender) }

lemma claimBurnRefund_eq_ok (h : m.claimBurnRefund version msg = .ok (m',next)) :
    version = .v2 ∧ m.refundableBalance msg.sender ≤ m.balance ∧ next = .callOut ∧ m' = m.payOut msg.sender := by
  obtain ⟨_,hversion,h⟩ := bind_eq_ok.mp h
  obtain ⟨_,h⟩ := ok_of_bind h
  obtain ⟨_,hbalance,h⟩ := bind_eq_ok.mp h
  cases h
  exact ⟨of_decide_eq_true (require_eq_ok.mp hversion),of_decide_eq_true (require_eq_ok.mp hbalance),rfl,rfl⟩

end Minter

namespace Minter
variable {m m' : Minter} {g : Base MinterAction} {version : MinterVersion}

/-- How the action of a proposal ends: it is not executed, takes effect, or is one of `GovBase`. -/
inductive Ended (A : Agenda MinterAction) (id : ℕ) (m : Minter) : ProposalStatus → Minter → Prop
  | retired {st : ProposalStatus} (hterminal : st.isTerminal) (hst : st ≠ .executed) : Ended A id m st m
  | effected {k : MinterAction} {m' : Minter} (hk : A.custom id = some k) (h : m.Effect k m') :
      Ended A id m .executed m'
  | governed (hk : A.custom id=none) : Ended A id m .executed m

lemma Ended.ne_voting (h : Ended A id m st m') : st ≠ .voting := by
  cases h with
  | retired hterminal =>
    rintro rfl
    cases hterminal
  | effected => decide
  | governed => decide

/-- The rest of `proposeMint`, where the sum does not overflow. -/
def reserve (m : Minter) (proposalId : ℕ) (proof : MintProof) : Minter :=
  { m with
    reservedMintAmount := m.reservedMintAmount+proof.amount
    mintProposalAmounts := update m.mintProposalAmounts proposalId proof.amount
    depositIdToProposalId := update m.depositIdToProposalId proof.depositId proposalId
    mintProofs := update m.mintProofs proposalId (some proof) }

def credit (m : Minter) (proof : BurnProof) (used : Bytes → Bool) : Minter :=
  { m with
    balance := m.balance+proof.amount
    burnBalance := update m.burnBalance proof.src (m.burnBalance proof.src+proof.amount)
    usedProofHashes := used }

/-- A function that makes a proposal: what it does before and after the proposal is created. -/
inductive Proposes (A : Agenda MinterAction) (quorum : ℕ) (m : Minter) :
    MinterAction → Minter → Minter → Minter → Prop
  | mint {proof : MintProof} {used : Bytes → Bool} {m₂ : Minter}
      (hexecuted : m.executedDepositIds proof.depositId=false)
      (hopen : m.depositIdToProposalId proof.depositId=0 ∨
        A.stage (m.depositIdToProposalId proof.depositId) ≠ .voting) :
      Proposes A quorum m (.mint proof.beneficiary proof.amount proof.depositId)
        { m with usedProofHashes := used, mintQuorums := quorum::m.mintQuorums } m₂
        (m₂.reserve (A.current+1) proof)
  | burn {proof : BurnProof} {used : Bytes → Bool} {m₂ : Minter} (hamount : proof.amount≠0)
      (hexecuted : m.executedWithdrawalIds proof.withdrawalId=false)
      (hopen : m.withdrawalIdToProposalId proof.withdrawalId=0 ∨
        A.stage (m.withdrawalIdToProposalId proof.withdrawalId) ≠ .voting) :
      Proposes A quorum m (.burn proof.src proof.amount proof.withdrawalId) (m.credit proof used) m₂
        (m₂.linkBurn (A.current+1) proof)
  | pause {m₂ : Minter} : Proposes A quorum m .pause m m₂ m₂
  | unpause {m₂ : Minter} : Proposes A quorum m .unpause m m₂ m₂

lemma call_propose {g' : Base MinterAction} (h : (govMinter codec version).call o msg g m = .ok (m₁,.propose k))
    (hresume : (govMinter codec version).resume o (g.agenda.current+1) msg g' m₂ = .ok m') :
    Proposes g.agenda g.quorum m k m₁ m₂ m' := by
  cases o with
  | proposeMint proofData =>
    obtain ⟨proof,hproof,hexecuted,hopen,hk,rfl⟩ := proposeMint_eq_ok h
    cases hk
    obtain ⟨proof',hproof',hresume⟩ := bind_eq_ok.mp hresume
    cases hproof.symm.trans hproof'
    obtain ⟨reserved,hreserved,hresume⟩ := bind_eq_ok.mp hresume
    cases checkedAdd_eq_ok hreserved
    cases hresume
    exact .mint hexecuted hopen
  | proposeBurn value proofData =>
    obtain ⟨proof,hproof,hamount,hexecuted,hopen,hk,rfl⟩ := proposeBurn_eq_ok h
    cases hk
    obtain ⟨proof',hproof',hresume⟩ := bind_eq_ok.mp hresume
    cases hproof.symm.trans hproof'
    cases hresume
    exact .burn hamount hexecuted hopen
  | proposePause =>
    obtain ⟨_,h⟩ := ok_of_bind h
    obtain ⟨_,h⟩ := ok_of_bind h
    cases h
    cases hresume
    exact .pause
  | proposeUnpause =>
    obtain ⟨_,h⟩ := ok_of_bind h
    obtain ⟨_,h⟩ := ok_of_bind h
    cases h
    cases hresume
    exact .unpause
  | claimBurnRefund success => cases (claimBurnRefund_eq_ok h).2.2.1
  | received amount => cases h
  | adapter answers => cases h

inductive Called (version : MinterVersion) (sender : Address) (m : Minter) :
    MinterOp → Minter → Next MinterAction → Prop
  | proposes {o : MinterOp} {m' : Minter} (k : MinterAction) : Called version sender m o m' (.propose k)
  | paysOut (success : Bool) (hversion : version = .v2) (hle : m.refundableBalance sender ≤ m.balance) :
      Called version sender m (.claimBurnRefund success) (m.payOut sender) .callOut
  | received (amount : ℕ) : Called version sender m (.received amount) { m with balance := m.balance+amount } .stop
  | adapter (answers : AdapterAnswers) : Called version sender m (.adapter answers) { m with answers := answers } .stop

lemma call_called {next : Next MinterAction} (h : (govMinter codec version).call o msg g m = .ok (m',next)) :
    Called version msg.sender m o m' next := by
  cases o with
  | proposeMint proofData =>
    obtain ⟨_,_,_,_,rfl,_⟩ := proposeMint_eq_ok h
    exact .proposes _
  | proposeBurn value proofData =>
    obtain ⟨_,_,_,_,_,rfl,_⟩ := proposeBurn_eq_ok h
    exact .proposes _
  | proposePause | proposeUnpause =>
    obtain ⟨_,h⟩ := ok_of_bind h
    obtain ⟨_,h⟩ := ok_of_bind h
    cases h
    exact .proposes _
  | claimBurnRefund success =>
    obtain ⟨hversion,hle,rfl,rfl⟩ := claimBurnRefund_eq_ok h
    exact .paysOut success hversion hle
  | received amount =>
    cases h
    exact .received amount
  | adapter answers =>
    cases h
    exact .adapter answers

/-- A property of the agenda and the storage that every kind of step keeps. -/
structure Invariant (version : MinterVersion) (I : Agenda MinterAction → Minter → Prop) : Prop where
  ends : ∀ {A m id st m₁ m'}, I A m → A.stage id = .voting → Ended A id m st m₁ →
    Finalized version m₁ id (st = .executed) m' → I (A.finish id st) m'
  create : ∀ {A m}, I A m → I (A.create none) m
  waits : ∀ {A quorum m k m₁ m'}, I A m → Proposes A quorum m k m₁ m₁ m' → I (A.create (some k)) m'
  executes : ∀ {A quorum m k m₁ m₂ m₃ m'}, I A m → quorum ≤ 1 → Proposes A quorum m k m₁ m₃ m' → m₁.Effect k m₂ →
    Finalized version m₂ (A.current+1) True m₃ → I ((A.create (some k)).finish (A.current+1) .executed) m'
  received : ∀ {A m}, I A m → ∀ amount, I A { m with balance := m.balance+amount }
  adapter : ∀ {A m}, I A m → ∀ answers, I A { m with answers := answers }
  paysOut : ∀ {A m sender}, I A m → version = .v2 → m.refundableBalance sender ≤ m.balance → I A (m.payOut sender)

lemma finalized_of_stage (hg : g.agenda = A.finish id st) (hst : st ≠ .voting)
    (h : m.onProposalFinalized version g id = .ok m') : Finalized version m id (st = .executed) m' := by
  have hstage : (g.proposals id).status.stage = st := by
    rw [show (g.proposals id).status.stage = g.agenda.stage id from rfl,hg]
    exact update_self ..
  have h := onProposalFinalized_eq_ok h
  rwa [ProposalStatus.eq_of_stage hstage hst] at h

lemma Invariant.derived {I : Agenda MinterAction → Minter → Prop}
    (hI : Invariant version I) (codec : ProofCodec) : (govMinter codec version).Invariant I where
  turn h hs := by
    cases h with
    | fails _ _ _ hact => exact executeCustomAction_false hact ▸ hs
    | ends hopen hterminal hst hg hown =>
      refine hI.ends hs hopen (.retired hterminal hst) (finalized_of_stage hg ?_ hown)
      rintro rfl
      cases hterminal
    | effects hopen hk hg hact hg' hown =>
      exact hI.ends hs hopen (.effected hk (executeCustomAction_true hact)) (finalized_of_stage hg' (by decide) hown)
    | governs hopen hk hg hown => exact hI.ends hs hopen (.governed hk) (finalized_of_stage hg (by decide) hown)
  create hs := hI.create hs
  stop h hs := by
    cases call_called h with
    | received amount => exact hI.received hs amount
    | adapter answers => exact hI.adapter hs answers
  propose {o msg g k m m₁ A' m₂ g' m'} h hcreated _ hresume hs := by
    have hproposes := call_propose h hresume
    cases hcreated with
    | waits => exact hI.waits hs hproposes
    | fails hquorum hg hact =>
      cases executeCustomAction_false hact
      exact hI.waits hs hproposes
    | effects hquorum hg hact hg' hown =>
      have hfinalized := finalized_of_stage hg' (by decide) hown
      exact hI.executes hs hquorum hproposes (executeCustomAction_true hact) (by simpa using hfinalized)
  callOut h hs := by
    cases call_called h with
    | paysOut success hversion hle => exact hI.paysOut hs hversion hle
  resume h hresume hs := by
    cases call_called h with
    | paysOut success hversion hle =>
      obtain ⟨_,hresume⟩ := ok_of_bind hresume
      cases hresume
      exact hs

end Minter

def MinterAction.mintOf : MinterAction → Option Settled
  | .mint beneficiary amount depositId => some ⟨depositId,beneficiary,amount⟩
  | _ => none

def MinterAction.burnOf : MinterAction → Option Settled
  | .burn src amount withdrawalId => some ⟨withdrawalId,src,amount⟩
  | _ => none

namespace Minter
variable {m m' : Minter} {version : MinterVersion}

/-- What was minted and burned are the executed proposals, each once. -/
structure Booked (A : Agenda MinterAction) (m : Minter) : Prop where
  effective : A.Effective
  minted : m.minted = A.log MinterAction.mintOf
  burned : m.burned = A.log MinterAction.burnOf

lemma Effect.booked (h : m.Effect k m') :
    m'.minted = k.mintOf.toList++m.minted ∧ m'.burned = k.burnOf.toList++m.burned := by
  cases h <;> exact ⟨rfl,rfl⟩

lemma Finalized.booked {executed : Prop} (h : Finalized version m id executed m') :
    m'.minted=m.minted ∧ m'.burned=m.burned := by
  cases h with
  | released => exact ⟨rfl,rfl⟩
  | cleared _ h => cases h <;> exact ⟨rfl,rfl⟩

lemma Proposes.booked {quorum : ℕ} (h : Proposes A quorum m k m₁ m₂ m') :
    (m₁.minted=m.minted ∧ m₁.burned=m.burned) ∧ m'.minted=m₂.minted ∧ m'.burned=m₂.burned := by
  cases h <;> exact ⟨⟨rfl,rfl⟩,rfl,rfl⟩

lemma Booked.congr (h : Booked A m) (hminted : m'.minted=m.minted) (hburned : m'.burned=m.burned) :
    Booked A m' := ⟨h.effective,hminted.trans h.minted,hburned.trans h.burned⟩

lemma Booked.create (h : Booked A m) (k : Option MinterAction) : Booked (A.create k) m where
  effective := h.effective.create k
  minted := h.minted.trans (h.effective.log_create k _).symm
  burned := h.burned.trans (h.effective.log_create k _).symm

lemma Booked.ended (h : Booked A m) (hopen : A.stage id = .voting) (hended : Ended A id m st m₁) :
    Booked (A.finish id st) m₁ := by
  have heffective := h.effective.finish hopen st
  cases hended with
  | retired _ hst =>
    exact ⟨heffective,h.minted.trans (A.log_finish_of_ne _ hst).symm,h.burned.trans (A.log_finish_of_ne _ hst).symm⟩
  | effected hk heffect =>
    refine ⟨heffective,?_,?_⟩
    · rw [heffect.booked.1,A.log_finish,hk,h.minted]
      rfl
    · rw [heffect.booked.2,A.log_finish,hk,h.burned]
      rfl
  | governed hk =>
    refine ⟨heffective,?_,?_⟩
    · rw [A.log_finish,hk,h.minted]
      rfl
    · rw [A.log_finish,hk,h.burned]
      rfl

lemma invariant_booked (version : MinterVersion) : Invariant version Booked where
  ends h hopen hended hfinalized := (h.ended hopen hended).congr hfinalized.booked.1 hfinalized.booked.2
  create h := h.create none
  waits h hproposes := by
    obtain ⟨⟨hminted,hburned⟩,hminted',hburned'⟩ := hproposes.booked
    exact (h.create _).congr (hminted'.trans hminted) (hburned'.trans hburned)
  executes {A quorum m k m₁ m₂ m₃ m'} h _ hproposes heffect hfinalized := by
    obtain ⟨⟨hminted,hburned⟩,hminted',hburned'⟩ := hproposes.booked
    have hcreated : Booked (A.create (some k)) m₁ := (h.create (some k)).congr hminted hburned
    have hended := hcreated.ended (A.stage_create_self (some k)) (.effected (A.custom_create_self (some k)) heffect)
    exact hended.congr (hminted'.trans hfinalized.booked.1) (hburned'.trans hfinalized.booked.2)
  received h _ := h.congr rfl rfl
  adapter h _ := h.congr rfl rfl
  paysOut h _ _ := h.congr rfl rfl

lemma booked_initial (balance : ℕ) (answers : AdapterAnswers) : Booked .empty (.initial balance answers) :=
  ⟨Agenda.effective_empty,rfl,rfl⟩

/-- The contract from its genesis on, under the first version and then under the second one. -/
def run (codec : ProofCodec) (calls₁ calls₂ : List (ℕ × Call MinterOp)) (s : Contract MinterAction Minter) :
    Contract MinterAction Minter := runCalls (govMinter codec .v2) calls₂ (runCalls (govMinter codec .v1) calls₁ s)

section
variable {address : Address} {param : Genesis.Params} {states : List Genesis.StateParam}
  {balance : ℕ} {answers : AdapterAnswers} {I : Agenda MinterAction → Minter → Prop}

lemma ledger_genesisMinter (h : Genesis.initializeMinter address param = .ok states) :
    Ledger (Genesis.genesisMinter address states balance answers).gov.roster
      (Genesis.genesisMinter address states balance answers).gov.docket := by
  obtain ⟨c,hc,hbase⟩ := Genesis.base_initializeMinter h
  rw [Genesis.genesisMinter,hbase]
  exact ledger_base hc

lemma Invariant.runCalls_v1 (codec : ProofCodec) (h₁ : Invariant .v1 I)
    (h : Genesis.initializeMinter address param = .ok states)
    (hI : I .empty (.initial balance answers)) (calls : List (ℕ × Call MinterOp)) :
    let s := runCalls (govMinter codec .v1) calls (Genesis.genesisMinter address states balance answers)
    Ledger s.gov.roster s.gov.docket ∧ I s.gov.agenda s.own := by
  have hledger : Ledger (Genesis.genesisMinter address states balance answers).gov.roster
      (Genesis.genesisMinter address states balance answers).gov.docket := ledger_genesisMinter h
  refine ⟨(hledger.runCalls calls).1,(h₁.derived codec).runCalls rfl (memberless_govMinter ..) calls hledger ?_⟩
  obtain ⟨c,_,hbase⟩ := Genesis.base_initializeMinter h
  rw [Genesis.genesisMinter,hbase,agenda_base]
  exact hI

lemma Invariant.run (codec : ProofCodec) (h₁ : Invariant .v1 I) (h₂ : Invariant .v2 I)
    (h : Genesis.initializeMinter address param = .ok states) (hI : I .empty (.initial balance answers))
    (calls₁ calls₂ : List (ℕ × Call MinterOp)) :
    let s := run codec calls₁ calls₂ (Genesis.genesisMinter address states balance answers)
    Ledger s.gov.roster s.gov.docket ∧ I s.gov.agenda s.own := by
  obtain ⟨hledger,hI⟩ := h₁.runCalls_v1 codec h hI calls₁
  exact ⟨(hledger.runCalls calls₂).1,(h₂.derived codec).runCalls rfl (memberless_govMinter ..) calls₂ hledger hI⟩

end

end Minter

end StableNet.Gov
