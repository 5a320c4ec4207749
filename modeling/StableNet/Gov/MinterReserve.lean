import StableNet.Gov.MinterSteps

/-! The reservations of `GovMinter`, which are made only after the proposal was created. -/
namespace StableNet.Gov
open Chain (Address Bytes)
open Lib Agenda

def MinterAction.mintAmount : MinterAction → ℕ
  | .mint _ amount _ => amount
  | _ => 0

namespace Minter
variable {A : Agenda MinterAction} {m m' : Minter} {version : MinterVersion} {id : ℕ} {st : ProposalStatus}

/-- The reservations are those of the open mint proposals. -/
structure Accurate (A : Agenda MinterAction) (m : Minter) : Prop where
  amounts : ∀ id, m.mintProposalAmounts id = A.pending MinterAction.mintAmount id
  reserved : m.reservedMintAmount = A.total MinterAction.mintAmount

section
variable (h : Accurate A m)
include h

lemma Accurate.congr (hamounts : m'.mintProposalAmounts=m.mintProposalAmounts)
    (hreserved : m'.reservedMintAmount=m.reservedMintAmount) : Accurate A m' where
  amounts id := hamounts ▸ h.amounts id
  reserved := hreserved ▸ h.reserved

lemma Accurate.create (hA : A.Proper) {k : Option MinterAction}
    (hk : (k.map MinterAction.mintAmount).getD 0=0) : Accurate (A.create k) m where
  amounts id := by
    by_cases hid : id = A.current+1
    · have hstage : A.stage id ≠ .voting := by
        rw [hA.unborn id (by omega)]
        decide
      rw [h.amounts,pending_eq_zero hstage,hid,pending_create_self,hk]
    · rw [h.amounts,pending_create_of_ne A _ k hid]
  reserved := by rw [h.reserved,total_create,hk,Nat.add_zero]

lemma Accurate.reserve (proof : MintProof) :
    Accurate (A.create (some (.mint proof.beneficiary proof.amount proof.depositId)))
      (m.reserve (A.current+1) proof) where
  amounts id := by
    by_cases hid : id = A.current+1
    · rw [hid,pending_create_self]
      exact Function.update_self ..
    · rw [pending_create_of_ne A _ _ hid,← h.amounts]
      exact Function.update_of_ne hid ..
  reserved := by
    rw [total_create,← h.reserved]
    rfl

lemma Accurate.release (hA : A.Proper) (hopen : A.stage id = .voting) (hst : st ≠ .voting) :
    Accurate (A.finish id st) (m.released id) where
  amounts j := by
    by_cases hj : j = id
    · rw [hj,pending_finish_self A _ hst]
      exact Function.update_self ..
    · rw [pending_finish_of_ne A _ hj,← h.amounts]
      exact Function.update_of_ne hj ..
  reserved := by
    have hle : id ≤ A.current := hA.le_current (by rw [hopen]; decide)
    have htotal := total_finish (f := MinterAction.mintAmount) hle hst
    rw [← h.amounts,← h.reserved] at htotal
    exact (Nat.eq_sub_of_add_eq htotal).symm

end

lemma Effect.reservations {k : MinterAction} (h : m.Effect k m') :
    m'.mintProposalAmounts=m.mintProposalAmounts ∧ m'.reservedMintAmount=m.reservedMintAmount ∧
      m'.mintQuorums=m.mintQuorums := by
  cases h <;> exact ⟨rfl,rfl,rfl⟩

lemma Finalized.reservations {executed : Prop} (h : Finalized version m id executed m') :
    m'.mintProposalAmounts = (m.released id).mintProposalAmounts ∧
      m'.reservedMintAmount = (m.released id).reservedMintAmount ∧ m'.mintQuorums=m.mintQuorums := by
  cases h with
  | released => exact ⟨rfl,rfl,rfl⟩
  | cleared _ h => cases h <;> exact ⟨rfl,rfl,rfl⟩

lemma Ended.reservations (h : Ended A id m st m') :
    m'.mintProposalAmounts=m.mintProposalAmounts ∧ m'.reservedMintAmount=m.reservedMintAmount ∧
      m'.mintQuorums=m.mintQuorums := by
  cases h with
  | retired | governed => exact ⟨rfl,rfl,rfl⟩
  | effected _ h => exact h.reservations

lemma Accurate.ends {m₁ : Minter} {executed : Prop} (h : Accurate A m) (hA : A.Proper) (hopen : A.stage id = .voting)
    (hst : st ≠ .voting) (hended : m₁.mintProposalAmounts=m.mintProposalAmounts ∧
      m₁.reservedMintAmount=m.reservedMintAmount ∧ m₁.mintQuorums=m.mintQuorums)
    (hfinalized : Finalized version m₁ id executed m') : Accurate (A.finish id st) m' := by
  obtain ⟨hamounts,hreserved,_⟩ := hended
  obtain ⟨hamounts',hreserved',_⟩ := hfinalized.reservations
  exact ((h.congr hamounts hreserved).release hA hopen hst).congr hamounts' hreserved'

/-- The reservations are accurate if no mint proposal could be executed while it was made. -/
structure Reserved (A : Agenda MinterAction) (m : Minter) : Prop where
  proper : A.Proper
  accurate : (∀ q ∈ m.mintQuorums, 2 ≤ q) → Accurate A m

lemma invariant_reserved (version : MinterVersion) : Invariant version Reserved where
  ends h hopen hended hfinalized := by
    refine ⟨h.proper.finish (by rw [hopen]; decide) _,fun hq => ?_⟩
    rw [hfinalized.reservations.2.2,hended.reservations.2.2] at hq
    exact (h.accurate hq).ends h.proper hopen hended.ne_voting hended.reservations hfinalized
  create h := ⟨h.proper.create none,fun hq => (h.accurate hq).create h.proper rfl⟩
  waits {A quorum m k m₁ m'} h hproposes := by
    refine ⟨h.proper.create _,fun hq => ?_⟩
    cases hproposes with
    | mint =>
      refine Accurate.reserve ?_ _
      exact (h.accurate fun q hmem => hq q (List.mem_cons_of_mem _ hmem)).congr rfl rfl
    | burn => exact ((h.accurate hq).create h.proper rfl).congr rfl rfl
    | pause | unpause => exact (h.accurate hq).create h.proper rfl
  executes {A quorum m k m₁ m₂ m₃ m'} h hquorum hproposes heffect hfinalized := by
    have hproper := h.proper.create (some k)
    have hopen := stage_create_self A (some k)
    refine ⟨hproper.finish (by rw [hopen]; decide) _,fun hq => ?_⟩
    have hquorums : m₃.mintQuorums=m₁.mintQuorums := hfinalized.reservations.2.2.trans heffect.reservations.2.2
    -- the accounts agree before the action, which does not touch them
    have hends : ∀ {m'}, Accurate (A.create (some k)) m₁ → m'.mintProposalAmounts=m₃.mintProposalAmounts →
        m'.reservedMintAmount=m₃.reservedMintAmount →
        Accurate ((A.create (some k)).finish (A.current+1) .executed) m' := fun haccurate hamounts hreserved =>
      (haccurate.ends hproper hopen (by decide) heffect.reservations hfinalized).congr hamounts hreserved
    cases hproposes with
    | mint =>
      have hmem : quorum ∈ m₃.mintQuorums := by
        rw [hquorums]
        exact List.mem_cons_self
      exact absurd (hq quorum hmem) (by omega)
    | burn =>
      have hq : ∀ q ∈ m.mintQuorums, 2 ≤ q := fun q hmem => hq q (hquorums ▸ hmem)
      exact hends (((h.accurate hq).create h.proper rfl).congr rfl rfl) rfl rfl
    | pause | unpause => exact hends ((h.accurate fun q hmem => hq q (hquorums ▸ hmem)).create h.proper rfl) rfl rfl
  received h _ := ⟨h.proper,fun hq => (h.accurate hq).congr rfl rfl⟩
  adapter h _ := ⟨h.proper,fun hq => (h.accurate hq).congr rfl rfl⟩
  paysOut h _ _ := ⟨h.proper,fun hq => (h.accurate hq).congr rfl rfl⟩

lemma reserved_initial (balance : ℕ) (answers : AdapterAnswers) : Reserved .empty (.initial balance answers) :=
  ⟨proper_empty,fun _ => ⟨fun _ => rfl,rfl⟩⟩

end Minter

def openMintAmount (gov : Base MinterAction) (id : ℕ) : ℕ :=
  match (gov.proposals id).action with
  | some (.custom (.mint _ amount _)) => if (gov.proposals id).status.isOpen then amount else 0
  | _ => 0

lemma pending_mintAmount (gov : Base MinterAction) (id : ℕ) :
    gov.agenda.pending MinterAction.mintAmount id = openMintAmount gov id := by
  have hopen : gov.agenda.stage id = .voting ↔ (gov.proposals id).status.isOpen := ProposalStatus.isOpen_iff_stage.symm
  unfold Agenda.pending openMintAmount
  rw [show gov.agenda.custom id = (gov.proposals id).action.bind Action.custom? from rfl]
  cases (gov.proposals id).action with
  | none => simp
  | some a => cases a with
    | custom k => cases k <;> simp [Action.custom?,MinterAction.mintAmount,hopen]
    | _ => simp [Action.custom?]

section
open Genesis

/-- In every run in which mint proposals are only made under a quorum of two or more, the reserved amount
is that of the open mint proposals, and a proposal that has ended holds no reservation. -/
theorem reservations_accurate (codec : ProofCodec) {address : Address} {param : Params} {states : List StateParam}
    (h : initializeMinter address param = .ok states) (balance : ℕ) (answers : AdapterAnswers)
    (calls₁ calls₂ : List (ℕ × Call MinterOp)) :
    let s := Minter.run codec calls₁ calls₂ (genesisMinter address states balance answers)
    (∀ q ∈ s.own.mintQuorums, 2 ≤ q) →
      s.own.reservedMintAmount = ∑ id ∈ Finset.range (s.gov.currentProposalId+1), openMintAmount s.gov id ∧
      ∀ id, (s.gov.proposals id).status.isTerminal → s.own.mintProposalAmounts id=0 := by
  intro s hq
  have hreserved : Minter.Reserved s.gov.agenda s.own :=
    ((Minter.invariant_reserved .v1).run codec (Minter.invariant_reserved .v2) h
      (Minter.reserved_initial balance answers) calls₁ calls₂).2
  have haccurate := hreserved.accurate hq
  constructor
  · rw [haccurate.reserved,Agenda.total]
    exact Finset.sum_congr rfl fun id _ => pending_mintAmount s.gov id
  · intro id hterminal
    refine (haccurate.amounts id).trans (Agenda.pending_eq_zero fun hstage => ?_)
    rw [show s.gov.agenda.stage id = (s.gov.proposals id).status from ProposalStatus.stage_of_isTerminal hterminal]
      at hstage
    rw [hstage] at hterminal
    cases hterminal

end

namespace SoleMinter
open Genesis

def param (members quorum : String) : Params
  | "members" => some members
  | "quorum" => some quorum
  | "expiry" => some "604800"
  | "memberVersion" => some "1"
  | "fiatToken" => some "0x1000"
  | _ => none

def codec : ProofCodec where
  mintProof data := some ⟨9,50,0,data,[1],[]⟩
  burnProof _ := none

def answers : AdapterAnswers := ⟨100,true,true⟩

def calls : List (ℕ × Call MinterOp) := [(10,.mk 1 (.derived (.proposeMint [1])) [])]

/-- With a quorum of one the proposal of a member mints at once, and its amount stays reserved. -/
theorem reservation_kept : ∃ states, initializeMinter 7 (param "0x01" "1") = .ok states ∧
      let s := Minter.run codec [] calls (genesisMinter 7 states 0 answers)
      (s.gov.proposals 1).status = .executed ∧ s.own.minted = [⟨[1],9,50⟩] ∧ s.own.mintProposalAmounts 1 = 50 ∧
        s.own.reservedMintAmount=50 ∧
        ∑ id ∈ Finset.range (s.gov.currentProposalId+1), openMintAmount s.gov id=0 := by
  obtain ⟨states,hstates,h⟩ := exists_of_holds (x := initializeMinter 7 (param "0x01" "1"))
    (P := fun states =>
      let s := Minter.run codec [] calls (genesisMinter 7 states 0 answers)
      (s.gov.proposals 1).status = .executed && s.own.minted = [⟨[1],9,50⟩] && s.own.mintProposalAmounts 1 = 50 &&
        s.own.reservedMintAmount = 50 && s.gov.currentProposalId=1 && openMintAmount s.gov 0=0 &&
        openMintAmount s.gov 1=0)
    (by decide +kernel)
  simp only [Bool.and_eq_true,decide_eq_true_eq] at h
  obtain ⟨⟨⟨⟨⟨⟨hstatus,hminted⟩,hamount⟩,hreserved⟩,hcurrent⟩,hzero⟩,hone⟩ := h
  refine ⟨states,hstates,hstatus,hminted,hamount,hreserved,?_⟩
  rw [hcurrent,Finset.sum_range_succ,Finset.sum_range_one,hzero,hone]

theorem reservation_of_two : ∃ states, initializeMinter 7 (param "0x01, 0x02" "2") = .ok states ∧
      let s := Minter.run codec [] calls (genesisMinter 7 states 0 answers)
      s.own.mintQuorums = [2] ∧ s.own.reservedMintAmount=50 ∧
        s.own.reservedMintAmount = ∑ id ∈ Finset.range (s.gov.currentProposalId+1), openMintAmount s.gov id := by
  obtain ⟨states,hstates,h⟩ := exists_of_holds (x := initializeMinter 7 (param "0x01, 0x02" "2"))
    (P := fun states =>
      let s := Minter.run codec [] calls (genesisMinter 7 states 0 answers)
      s.own.mintQuorums = [2] && s.own.reservedMintAmount=50)
    (by decide +kernel)
  simp only [Bool.and_eq_true,decide_eq_true_eq] at h
  refine ⟨states,hstates,h.1,h.2,(reservations_accurate codec hstates 0 answers [] calls ?_).1⟩
  rw [h.1]
  decide

end SoleMinter

end StableNet.Gov
