import StableNet.Gov.MinterSteps

/-! The deposits of burn proposals: the contract holds what it owes, and every deposit is burned or becomes
refundable, once. -/
namespace StableNet.Gov
open Chain (Address Bytes)
open Lib
open Function
open Agenda

section
variable {f : Address → ℕ} {n x : ℕ} {a : Address}

lemma sum_update_add_le (h : ∀ T : Finset Address, ∑ b ∈ T, f b ≤ n) (T : Finset Address) :
    ∑ b ∈ T, update f a (f a+x) b ≤ n+x := by
  by_cases ha : a ∈ T
  · have hT := h T
    rw [← Finset.add_sum_erase T f ha] at hT
    rw [Finset.sum_update_of_mem ha,Finset.sdiff_singleton_eq_erase]
    omega
  · rw [Finset.sum_update_of_notMem ha]
    exact (h T).trans (Nat.le_add_right n x)

lemma sum_update_sub_le (h : ∀ T : Finset Address, ∑ b ∈ T, f b ≤ n) (hx : x ≤ f a) (T : Finset Address) :
    ∑ b ∈ T, update f a (f a-x) b ≤ n-x := by
  have hT := h (insert a T)
  rw [← Finset.add_sum_erase _ f (Finset.mem_insert_self a T),Finset.erase_insert_eq_erase] at hT
  by_cases ha : a ∈ T
  · rw [Finset.sum_update_of_mem ha,Finset.sdiff_singleton_eq_erase]
    omega
  · rw [Finset.erase_eq_of_notMem ha] at hT
    rw [Finset.sum_update_of_notMem ha]
    omega

end

def MinterAction.burnAmount (a : Address) : MinterAction → ℕ
  | .burn src amount _ => if src=a then amount else 0
  | _ => 0

def depositOf : Option MinterAction → BurnProposalData
  | some (.burn src amount _) => ⟨amount,src⟩
  | _ => ⟨0,0⟩

namespace Minter
variable {A : Agenda MinterAction} {m m' : Minter} {version : MinterVersion} {id : ℕ} {st : ProposalStatus}
  {quorum amount : ℕ} {m₁ m₂ : Minter} {executed : Prop} {src : Address} {withdrawalId : Bytes} {k : MinterAction}

/-- What an account has a claim on. -/
def owed (m : Minter) (a : Address) : ℕ := m.burnBalance a+m.refundableBalance a

/-- The coins cover what is owed, and the burn balance of an account its open proposals. -/
structure Funded (A : Agenda MinterAction) (m : Minter) : Prop where
  solvent : ∀ T : Finset Address, ∑ a ∈ T, m.owed a ≤ m.balance
  covered : ∀ a, A.total (MinterAction.burnAmount a) ≤ m.burnBalance a

/-- An open proposal has its deposit recorded, and one that does not exist yet has none. -/
structure Recorded (A : Agenda MinterAction) (m : Minter) : Prop where
  recorded : ∀ id, A.stage id = .voting → m.burnProposals id = depositOf (A.custom id)
  unborn : ∀ id, A.stage id = .none → m.burnProposals id = ⟨0,0⟩

section
variable (h : Funded A m)
include h

lemma Funded.congr (hbalance : m'.balance=m.balance) (hburn : m'.burnBalance=m.burnBalance)
    (hrefundable : m'.refundableBalance=m.refundableBalance) : Funded A m' := by
  constructor
  · simpa only [owed,hbalance,hburn,hrefundable] using h.solvent
  · simpa only [hburn] using h.covered

lemma Funded.create {k : Option MinterAction}
    (hk : ∀ a, (k.map (MinterAction.burnAmount a)).getD 0=0) : Funded (A.create k) m where
  solvent := h.solvent
  covered a := by
    rw [total_create,hk,Nat.add_zero]
    exact h.covered a

lemma Funded.credit (proof : BurnProof) (used : Bytes → Bool) :
    Funded (A.create (some (.burn proof.src proof.amount proof.withdrawalId))) (m.credit proof used) where
  solvent T := by
    have howed : (m.credit proof used).owed = update m.owed proof.src (m.owed proof.src+proof.amount) := by
      funext a
      by_cases ha : a=proof.src
      · rw [ha,update_self]
        simp only [owed,Minter.credit,update_self]
        omega
      · rw [update_of_ne ha]
        simp only [owed,Minter.credit,update_of_ne ha]
    rw [howed]
    exact sum_update_add_le h.solvent T
  covered a := by
    rw [total_create]
    have hcovered := h.covered a
    by_cases ha : a=proof.src
    · subst ha
      simp only [Option.map_some,Option.getD_some,MinterAction.burnAmount,if_true,Minter.credit,update_self]
      omega
    · simpa [MinterAction.burnAmount,Ne.symm ha,Minter.credit,update_of_ne ha] using hcovered

section
variable (hle : id ≤ A.current)
include hle

lemma Funded.finish (hst : st ≠ .voting) : Funded (A.finish id st) m where
  solvent := h.solvent
  covered a := by
    have htotal := total_finish (f := MinterAction.burnAmount a) hle hst
    have hcovered := h.covered a
    omega

section
variable (hopen : A.stage id = .voting)
include hopen

theorem Funded.covered_finish (hk : A.custom id = some (.burn src amount withdrawalId))
    (hst : st ≠ .voting) (a : Address) : (A.finish id st).total (MinterAction.burnAmount a) ≤
      update m.burnBalance src (m.burnBalance src-amount) a := by
  have htotal := total_finish (f := MinterAction.burnAmount a) hle hst
  rw [pending_of_custom hopen hk] at htotal
  have hcovered := h.covered a
  by_cases ha : a=src
  · subst ha
    rw [update_self]
    simp only [MinterAction.burnAmount,if_true] at htotal
    omega
  · rw [update_of_ne ha]
    omega

lemma Funded.effect (hk : A.custom id = some k) (heffect : m.Effect k m') : Funded (A.finish id .executed) m' := by
  cases heffect with
  | mint | pause | unpause => exact (h.finish hle (by decide)).congr rfl rfl rfl
  | burn src amount withdrawalId hbalance hburn =>
    refine ⟨fun T => ?_,h.covered_finish hle hopen hk (by decide)⟩
    have howed : ∀ a, update m.burnBalance src (m.burnBalance src-amount) a+m.refundableBalance a =
        update m.owed src (m.owed src-amount) a := by
      intro a
      by_cases ha : a=src
      · rw [ha,update_self,update_self,owed]
        omega
      · rw [update_of_ne ha,update_of_ne ha,owed]
    simp only [owed,howed]
    exact sum_update_sub_le h.solvent (hburn.trans (Nat.le_add_right ..)) T

lemma Funded.refund (hk : A.custom id = some (.burn src amount withdrawalId)) (hst : st ≠ .voting)
    (hamount : amount ≤ m.burnBalance src) (hbalance : m'.balance=m.balance)
    (hburn : m'.burnBalance = update m.burnBalance src (m.burnBalance src-amount))
    (hrefundable : m'.refundableBalance = update m.refundableBalance src (m.refundableBalance src+amount)) :
    Funded (A.finish id st) m' := by
  refine ⟨fun T => ?_,fun a => hburn ▸ h.covered_finish hle hopen hk hst a⟩
  rw [hbalance]
  refine (Finset.sum_le_sum fun a _ => Nat.le_of_eq ?_).trans (h.solvent T)
  rw [owed,owed,hburn,hrefundable]
  by_cases ha : a=src
  · rw [ha,update_self,update_self]
    omega
  · rw [update_of_ne ha,update_of_ne ha]

end

end

lemma Funded.payOut {sender : Address} : Funded A (m.payOut sender) where
  solvent T := by
    have howed : (m.payOut sender).owed =
        update m.owed sender (m.owed sender-m.refundableBalance sender) := by
      funext a
      by_cases ha : a=sender
      · rw [ha,update_self]
        simp only [owed,Minter.payOut,update_self]
        omega
      · rw [update_of_ne ha]
        simp only [owed,Minter.payOut,update_of_ne ha]
    rw [howed]
    exact sum_update_sub_le h.solvent (Nat.le_add_left ..) T
  covered := h.covered

end

lemma Effect.burnProposals (h : m.Effect k m') : m'.burnProposals=m.burnProposals := by
  cases h <;> rfl

lemma Ended.burnProposals (h : Ended A id m st m') : m'.burnProposals=m.burnProposals := by
  cases h with
  | retired => rfl
  | effected _ h => exact h.burnProposals
  | governed => rfl

lemma Finalized.burnProposals_of_ne {j : ℕ} (h : Finalized version m id executed m')
    (hj : j ≠ id) : m'.burnProposals j = m.burnProposals j := by
  cases h with
  | released => rfl
  | cleared _ h =>
    cases h with
    | none => rfl
    | burned | refunded => exact update_of_ne hj ..

lemma Recorded.finish (h : Recorded A m) (hst : st ≠ .voting ∧ st ≠ .none)
    (hdata : ∀ j, j ≠ id → m'.burnProposals j = m.burnProposals j) : Recorded (A.finish id st) m' where
  recorded j hj := by
    by_cases he : j = id
    · rw [he,stage_finish_self] at hj
      exact absurd hj hst.1
    · rw [stage_finish_of_ne A he] at hj
      rw [hdata j he]
      exact h.recorded j hj
  unborn j hj := by
    by_cases he : j = id
    · rw [he,stage_finish_self] at hj
      exact absurd hj hst.2
    · rw [stage_finish_of_ne A he] at hj
      rw [hdata j he]
      exact h.unborn j hj

lemma Recorded.create {k : Option MinterAction} (h : Recorded A m)
    (hdata : ∀ j, j ≠ A.current+1 → m'.burnProposals j = m.burnProposals j)
    (hnew : m'.burnProposals (A.current+1) = depositOf k) : Recorded (A.create k) m' where
  recorded j hj := by
    by_cases he : j = A.current+1
    · rw [he,hnew,custom_create_self]
    · rw [stage_create_of_ne A k he] at hj
      rw [hdata j he,custom_create_of_ne A k he]
      exact h.recorded j hj
  unborn j hj := by
    by_cases he : j = A.current+1
    · rw [he,stage_create_self] at hj
      cases hj
    · rw [stage_create_of_ne A k he] at hj
      rw [hdata j he]
      exact h.unborn j hj

lemma Ended.ne_none (h : Ended A id m st m') : st ≠ .none := by
  cases h with
  | retired hterminal =>
    rintro rfl
    cases hterminal
  | effected => decide
  | governed => decide

/-- The coins, the deposits and the proposals agree. -/
structure Backed (A : Agenda MinterAction) (m : Minter) : Prop where
  proper : A.Proper
  funded : Funded A m
  recorded : Recorded A m

lemma Finalized.funds_of_executed (h : Finalized version m id executed m') (hexecuted : executed) :
    m'.balance=m.balance ∧ m'.burnBalance=m.burnBalance ∧ m'.refundableBalance=m.refundableBalance := by
  cases h with
  | released => exact ⟨rfl,rfl,rfl⟩
  | cleared _ h =>
    cases h with
    | none | burned => exact ⟨rfl,rfl,rfl⟩
    | refunded _ hne => exact absurd hexecuted hne

theorem Recorded.custom_of_amount (h : Recorded A m) (hopen : A.stage id = .voting)
    (hamount : (m.burnProposals id).amount≠0) :
    ∃ src amount withdrawalId, A.custom id = some (.burn src amount withdrawalId) ∧
      m.burnProposals id = ⟨amount,src⟩ := by
  rw [h.recorded id hopen] at hamount ⊢
  cases hk : A.custom id with
  | none =>
    rw [hk] at hamount
    exact absurd rfl hamount
  | some k =>
    rw [hk] at hamount
    cases k with
    | burn src amount withdrawalId => exact ⟨src,amount,withdrawalId,rfl,rfl⟩
    | mint | pause | unpause => exact absurd rfl hamount

theorem Backed.retire (h : Backed A m) (hopen : A.stage id = .voting) (hst : st ≠ .voting)
    (hexecuted : ¬ executed) (hfinalized : Finalized version m id executed m') : Funded (A.finish id st) m' := by
  have hle : id ≤ A.current := h.proper.le_current (by rw [hopen]; decide)
  cases hfinalized with
  | released => exact (h.funded.finish hle hst).congr rfl rfl rfl
  | cleared _ hcleared =>
    cases hcleared with
    | none => exact (h.funded.finish hle hst).congr rfl rfl rfl
    | burned _ he => exact absurd he hexecuted
    | refunded hamount _ hburn =>
      obtain ⟨src,amount,withdrawalId,hk,hdata⟩ := h.recorded.custom_of_amount hopen hamount
      have hdata : (m.released id).burnProposals id = ⟨amount,src⟩ := hdata
      rw [hdata] at hburn
      refine h.funded.refund hle hopen hk hst hburn rfl ?_ ?_
      · rw [hdata]
        rfl
      · rw [hdata]
        rfl

lemma Backed.ends (h : Backed A m) (hopen : A.stage id = .voting) (hended : Ended A id m st m₁)
    (hfinalized : Finalized version m₁ id (st = .executed) m') : Backed (A.finish id st) m' := by
  have hle : id ≤ A.current := h.proper.le_current (by rw [hopen]; decide)
  have hst := hended.ne_voting
  refine ⟨h.proper.finish (by rw [hopen]; decide) st,?_,h.recorded.finish ⟨hst,hended.ne_none⟩ ?_⟩
  · cases hended with
    | retired hterminal hexecuted => exact h.retire hopen hst hexecuted hfinalized
    | effected hk heffect =>
      obtain ⟨hbalance,hburn,hrefundable⟩ := hfinalized.funds_of_executed rfl
      exact (h.funded.effect hle hopen hk heffect).congr hbalance hburn hrefundable
    | governed hk =>
      obtain ⟨hbalance,hburn,hrefundable⟩ := hfinalized.funds_of_executed rfl
      exact (h.funded.finish hle (by decide)).congr hbalance hburn hrefundable
  · intro j hj
    rw [hfinalized.burnProposals_of_ne hj,hended.burnProposals]

lemma Proposes.funded (h : Funded A m)
    (hproposes : Proposes A quorum m k m₁ m₂ m') : Funded (A.create (some k)) m₁ := by
  cases hproposes with
  | mint => exact (h.create fun _ => rfl).congr rfl rfl rfl
  | burn => exact h.credit ..
  | pause | unpause => exact h.create fun _ => rfl

lemma Proposes.funds (h : Proposes A quorum m k m₁ m₂ m') :
    m'.balance=m₂.balance ∧ m'.burnBalance=m₂.burnBalance ∧ m'.refundableBalance=m₂.refundableBalance := by
  cases h <;> exact ⟨rfl,rfl,rfl⟩

lemma Proposes.burnProposals (h : Proposes A quorum m k m₁ m₂ m') :
    m₁.burnProposals=m.burnProposals ∧ (∀ j, j ≠ A.current+1 → m'.burnProposals j = m₂.burnProposals j) ∧
      (m₂.burnProposals (A.current+1) = ⟨0,0⟩ → m'.burnProposals (A.current+1) = depositOf (some k)) := by
  cases h with
  | mint | pause | unpause => exact ⟨rfl,fun _ _ => rfl,id⟩
  | burn => exact ⟨rfl,fun j hj => update_of_ne hj ..,fun _ => update_self ..⟩

lemma Recorded.current_succ (h : Recorded A m) (hA : A.Proper) : m.burnProposals (A.current+1) = ⟨0,0⟩ :=
  h.unborn _ (hA.unborn _ (Nat.lt_succ_self _))

lemma invariant_backed (version : MinterVersion) : Invariant version Backed where
  ends h hopen hended hfinalized := h.ends hopen hended hfinalized
  create h := ⟨h.proper.create none,h.funded.create fun _ => rfl,
    h.recorded.create (fun _ _ => rfl) (h.recorded.current_succ h.proper)⟩
  waits {A quorum m k m₁ m'} h hproposes := by
    obtain ⟨hbalance,hburn,hrefundable⟩ := hproposes.funds
    obtain ⟨hdata,hdata',hnew⟩ := hproposes.burnProposals
    have hzero : m₁.burnProposals (A.current+1) = ⟨0,0⟩ := hdata ▸ h.recorded.current_succ h.proper
    refine ⟨h.proper.create _,(Proposes.funded h.funded hproposes).congr hbalance hburn hrefundable,
      h.recorded.create (fun j hj => ?_) (hnew hzero)⟩
    rw [hdata' j hj,hdata]
  executes {A quorum m k m₁ m₂ m₃ m'} h _ hproposes heffect hfinalized := by
    obtain ⟨hdata,hdata',_⟩ := hproposes.burnProposals
    obtain ⟨hbalance,hburn,hrefundable⟩ := hproposes.funds
    obtain ⟨hbalance₃,hburn₃,hrefundable₃⟩ := hfinalized.funds_of_executed trivial
    have hproper := h.proper.create (some k)
    have hopen := A.stage_create_self (some k)
    have hfunded : Funded ((A.create (some k)).finish (A.current+1) .executed) m₂ :=
      (Proposes.funded h.funded hproposes).effect Nat.le.refl hopen (A.custom_create_self (some k)) heffect
    refine ⟨hproper.finish (by rw [hopen]; decide) _,
      hfunded.congr (hbalance.trans hbalance₃) (hburn.trans hburn₃) (hrefundable.trans hrefundable₃),?_⟩
    -- the new proposal has ended already, so only the deposits of the others have to be there
    have hothers : ∀ j, j ≠ A.current+1 → m'.burnProposals j = m.burnProposals j := fun j hj => by
      rw [hdata' j hj,hfinalized.burnProposals_of_ne hj,heffect.burnProposals,hdata]
    refine ⟨fun j hj => ?_,fun j hj => ?_⟩
    · by_cases he : j = A.current+1
      · rw [he,stage_finish_self] at hj
        cases hj
      · rw [stage_finish_of_ne _ he,A.stage_create_of_ne _ he] at hj
        rw [hothers j he,show ((A.create (some k)).finish (A.current+1) .executed).custom j = A.custom j from
          A.custom_create_of_ne _ he]
        exact h.recorded.recorded j hj
    · by_cases he : j = A.current+1
      · rw [he,stage_finish_self] at hj
        cases hj
      · rw [stage_finish_of_ne _ he,A.stage_create_of_ne _ he] at hj
        rw [hothers j he]
        exact h.recorded.unborn j hj
  received h amount := ⟨h.proper,⟨fun T => (h.funded.solvent T).trans (Nat.le_add_right ..),h.funded.covered⟩,
    h.recorded.recorded,h.recorded.unborn⟩
  adapter h _ := ⟨h.proper,h.funded.congr rfl rfl rfl,h.recorded.recorded,h.recorded.unborn⟩
  paysOut h _ _ := ⟨h.proper,h.funded.payOut,h.recorded.recorded,h.recorded.unborn⟩

lemma backed_initial (balance : ℕ) (answers : AdapterAnswers) : Backed .empty (.initial balance answers) where
  proper := proper_empty
  funded := ⟨fun T => by simp [owed,initial],fun _ => Nat.zero_le _⟩
  recorded := ⟨fun _ h => (by cases h),fun _ _ => rfl⟩

lemma Backed.amount_le (h : Backed A m) (hopen : A.stage id = .voting) :
    (m.burnProposals id).amount ≤ m.burnBalance (m.burnProposals id).requester := by
  by_cases hamount : (m.burnProposals id).amount=0
  · rw [hamount]
    exact Nat.zero_le _
  · obtain ⟨src,amount,withdrawalId,hk,hdata⟩ := h.recorded.custom_of_amount hopen hamount
    rw [hdata]
    have hpending : A.pending (MinterAction.burnAmount src) id=amount := by
      rw [pending_of_custom hopen hk]
      exact if_pos rfl
    calc amount = A.pending (MinterAction.burnAmount src) id := hpending.symm
      _ ≤ A.total (MinterAction.burnAmount src) := pending_le_total (h.proper.le_current (by rw [hopen]; decide))
      _ ≤ m.burnBalance src := h.funded.covered src

/-- The deposit of an open proposal can always be cleaned up. -/
theorem Backed.cleanupBurnDeposit (h : Backed A m) (hopen : A.stage id = .voting) (hbalance : m.balance<2^256)
    (gov : Base MinterAction) : ∃ m', m.cleanupBurnDeposit gov id = .ok m' := by
  have hle := h.amount_le hopen
  unfold Minter.cleanupBurnDeposit
  dsimp only
  split
  · exact ⟨_,rfl⟩
  · split
    · have hsolvent := h.funded.solvent {(m.burnProposals id).requester}
      rw [Finset.sum_singleton,owed] at hsolvent
      rw [checkedSub_of_le hle,checkedAdd,if_pos (by omega)]
      exact ⟨_,rfl⟩
    · exact ⟨_,rfl⟩

/-- A stage that a proposal ends in without taking effect. -/
def Retired (st : ProposalStatus) : Prop := st ≠ .none ∧ st ≠ .voting ∧ st ≠ .executed

def Positive (A : Agenda MinterAction) : Prop :=
  ∀ id src amount withdrawalId, A.custom id = some (.burn src amount withdrawalId) → amount≠0

lemma Positive.create (h : Positive A) {A' : Agenda MinterAction} {k : Option MinterAction}
    (hk : ∀ src amount withdrawalId, k = some (.burn src amount withdrawalId) → amount≠0)
    (hcustom : A'.custom = (A.create k).custom) : Positive A' := by
  intro id src amount withdrawalId hid
  rw [hcustom] at hid
  by_cases he : id = A.current+1
  · rw [he,custom_create_self] at hid
    exact hk src amount withdrawalId hid
  · rw [custom_create_of_ne A k he] at hid
    exact h id src amount withdrawalId hid

/-- The deposits of the proposals that have retired are refundable, each once; those of the early ones
are left where the first version left them. -/
structure Refunded (early : ℕ → Prop) (A : Agenda MinterAction) (m : Minter) : Prop where
  backed : Backed A m
  positive : Positive A
  refund : ∀ x ∈ m.refunds, Retired (A.stage x.1) ∧ x.2 = depositOf (A.custom x.1)
  nodup : (m.refunds.map Prod.fst).Nodup
  refunded : ∀ id src amount withdrawalId, A.custom id = some (.burn src amount withdrawalId) → ¬ early id →
    Retired (A.stage id) → id ∈ m.refunds.map Prod.fst

section
variable {early : ℕ → Prop}

lemma Effect.refunds (h : m.Effect k m') : m'.refunds=m.refunds := by
  cases h <;> rfl

lemma Ended.refunds (h : Ended A id m st m') : m'.refunds=m.refunds := by
  cases h with
  | retired => rfl
  | effected _ h => exact h.refunds
  | governed => rfl

lemma Proposes.refunds (h : Proposes A quorum m k m₁ m₂ m') : m₁.refunds=m.refunds ∧ m'.refunds=m₂.refunds := by
  cases h <;> exact ⟨rfl,rfl⟩

lemma Finalized.refunds_of_executed (h : Finalized version m id executed m')
    (hexecuted : executed) : m'.refunds=m.refunds := by
  cases h with
  | released => rfl
  | cleared _ h =>
    cases h with
    | none => rfl
    | burned => rfl
    | refunded _ hne => exact absurd hexecuted hne

theorem Finalized.refunds_of_retired (h : Finalized .v2 m id executed m') (hexecuted : ¬ executed) :
    (m.burnProposals id).amount=0 ∧ m'.refunds=m.refunds ∨
      (m.burnProposals id).amount≠0 ∧ m'.refunds = (id,m.burnProposals id)::m.refunds := by
  cases h with
  | released hversion => cases hversion
  | cleared _ h =>
    cases h with
    | none hzero => exact .inl ⟨hzero,rfl⟩
    | burned _ he => exact absurd he hexecuted
    | refunded hamount => exact .inr ⟨hamount,rfl⟩

lemma Refunded.notMem (h : Refunded early A m) (hid : ¬ Retired (A.stage id)) : id ∉ m.refunds.map Prod.fst := by
  intro hmem
  obtain ⟨x,hx,rfl⟩ := List.mem_map.mp hmem
  exact hid (h.refund x hx).1

lemma not_retired_voting : ¬ Retired .voting := fun h => h.2.1 rfl

lemma not_retired_executed : ¬ Retired .executed := fun h => h.2.2 rfl

lemma Refunded.create (h : Refunded early A m) {A' : Agenda MinterAction} {k : Option MinterAction}
    (hbacked : Backed A' m') (hrefunds : m'.refunds=m.refunds)
    (hk : ∀ src amount withdrawalId, k = some (.burn src amount withdrawalId) → amount≠0)
    (hcustom : A'.custom = (A.create k).custom)
    (hstage : ∀ j, j ≠ A.current+1 → A'.stage j = A.stage j) (hnew : ¬ Retired (A'.stage (A.current+1))) :
    Refunded early A' m' where
  backed := hbacked
  positive := h.positive.create hk hcustom
  refund x hx := by
    rw [hrefunds] at hx
    obtain ⟨hretired,hdata⟩ := h.refund x hx
    have hne : x.1 ≠ A.current+1 := h.backed.proper.ne_current_succ hretired.1
    rw [hstage x.1 hne,hcustom,custom_create_of_ne A k hne]
    exact ⟨hretired,hdata⟩
  nodup := hrefunds ▸ h.nodup
  refunded id src amount withdrawalId hid hearly hretired := by
    by_cases he : id = A.current+1
    · rw [he] at hretired
      exact absurd hretired hnew
    · rw [hcustom,custom_create_of_ne A k he] at hid
      rw [hstage id he] at hretired
      rw [hrefunds]
      exact h.refunded id src amount withdrawalId hid hearly hretired

lemma Refunded.finish_executed (h : Refunded early A m) (hopen : A.stage id = .voting)
    (hbacked : Backed (A.finish id .executed) m') (hrefunds : m'.refunds=m.refunds) :
    Refunded early (A.finish id .executed) m' where
  backed := hbacked
  positive := h.positive
  refund x hx := by
    rw [hrefunds] at hx
    obtain ⟨hretired,hdata⟩ := h.refund x hx
    have hne : x.1 ≠ id := by
      intro he
      rw [he,hopen] at hretired
      exact not_retired_voting hretired
    rw [stage_finish_of_ne A hne]
    exact ⟨hretired,hdata⟩
  nodup := hrefunds ▸ h.nodup
  refunded j src amount withdrawalId hj hearly hretired := by
    by_cases he : j = id
    · rw [he,stage_finish_self] at hretired
      exact absurd hretired not_retired_executed
    · rw [stage_finish_of_ne A he] at hretired
      rw [hrefunds]
      exact h.refunded j src amount withdrawalId hj hearly hretired

lemma Refunded.retired (h : Refunded early A m) (hopen : A.stage id = .voting) (hst : Retired st)
    (hbacked : Backed (A.finish id st) m') (hrefunds : (m.burnProposals id).amount=0 ∧ m'.refunds=m.refunds ∨
      (m.burnProposals id).amount≠0 ∧ m'.refunds = (id,m.burnProposals id)::m.refunds) :
    Refunded early (A.finish id st) m' := by
  have hstage : ∀ j, Retired (A.stage j) → Retired ((A.finish id st).stage j) := by
    intro j hj
    by_cases he : j = id
    · rw [he,stage_finish_self]
      exact hst
    · rwa [stage_finish_of_ne A he]
  have hdata := h.backed.recorded.recorded id hopen
  refine ⟨hbacked,h.positive,?_,?_,?_⟩
  · intro x hx
    have hold : x ∈ m.refunds → Retired ((A.finish id st).stage x.1) ∧ x.2 = depositOf (A.custom x.1) := fun hx =>
      ⟨hstage x.1 (h.refund x hx).1,(h.refund x hx).2⟩
    obtain ⟨_,hrefunds⟩ | ⟨_,hrefunds⟩ := hrefunds
    · exact hold (hrefunds ▸ hx)
    · rw [hrefunds] at hx
      cases hx with
      | head =>
        rw [stage_finish_self]
        exact ⟨hst,hdata⟩
      | tail _ hx => exact hold hx
  · obtain ⟨_,hrefunds⟩ | ⟨_,hrefunds⟩ := hrefunds
    · exact hrefunds ▸ h.nodup
    · rw [hrefunds]
      exact List.nodup_cons.mpr ⟨h.notMem (hopen ▸ not_retired_voting),h.nodup⟩
  · intro j src amount withdrawalId hj hearly hretired
    by_cases he : j = id
    · subst he
      obtain ⟨hzero,_⟩ | ⟨_,hrefunds⟩ := hrefunds
      · rw [hdata,show A.custom j = _ from hj] at hzero
        exact absurd hzero (h.positive j src amount withdrawalId hj)
      · rw [hrefunds]
        exact List.mem_cons_self
    · rw [stage_finish_of_ne A he] at hretired
      have hmem := h.refunded j src amount withdrawalId hj hearly hretired
      obtain ⟨_,hrefunds⟩ | ⟨_,hrefunds⟩ := hrefunds
      · rwa [hrefunds]
      · rw [hrefunds]
        exact List.mem_cons_of_mem _ hmem

lemma Proposes.positive (h : Proposes A quorum m k m₁ m₂ m')
    (src : Address) (amount : ℕ) (withdrawalId : Bytes) (hk : some k = some (.burn src amount withdrawalId)) :
    amount≠0 := by
  cases h with
  | burn hamount =>
    cases hk
    exact hamount
  | mint | pause | unpause => cases hk

lemma invariant_refunded (early : ℕ → Prop) : Invariant .v2 (Refunded early) where
  ends h hopen hended hfinalized := by
    have hbacked := h.backed.ends hopen hended hfinalized
    have hne := hended.ne_voting
    have hnone := hended.ne_none
    cases hended with
    | retired _ hst => exact h.retired hopen ⟨hnone,hne,hst⟩ hbacked (hfinalized.refunds_of_retired hst)
    | effected _ heffect =>
      exact h.finish_executed hopen hbacked ((hfinalized.refunds_of_executed rfl).trans heffect.refunds)
    | governed => exact h.finish_executed hopen hbacked (hfinalized.refunds_of_executed rfl)
  create h := h.create ((invariant_backed .v2).create h.backed) rfl (fun _ _ _ hk => by cases hk) rfl
    (fun j hj => stage_create_of_ne _ _ hj) (by rw [stage_create_self]; exact not_retired_voting)
  waits h hproposes := by
    refine h.create ((invariant_backed .v2).waits h.backed hproposes) (hproposes.refunds.2.trans hproposes.refunds.1)
      hproposes.positive rfl (fun j hj => stage_create_of_ne _ _ hj) ?_
    rw [stage_create_self]
    exact not_retired_voting
  executes h hquorum hproposes heffect hfinalized := by
    have hrefunds := hproposes.refunds.2.trans ((hfinalized.refunds_of_executed trivial).trans
      (heffect.refunds.trans hproposes.refunds.1))
    refine h.create ((invariant_backed .v2).executes h.backed hquorum hproposes heffect hfinalized) hrefunds
      hproposes.positive rfl (fun j hj => ?_) ?_
    · rw [stage_finish_of_ne _ hj,stage_create_of_ne _ _ hj]
    · rw [stage_finish_self]
      exact not_retired_executed
  received h amount := ⟨(invariant_backed .v2).received h.backed amount,h.positive,h.refund,h.nodup,h.refunded⟩
  adapter h answers := ⟨(invariant_backed .v2).adapter h.backed answers,h.positive,h.refund,h.nodup,h.refunded⟩
  paysOut h hversion hle :=
    ⟨(invariant_backed .v2).paysOut h.backed hversion hle,h.positive,h.refund,h.nodup,h.refunded⟩

end

/-- The deposits that became refundable to an account. -/
def refundedTo (m : Minter) (a : Address) : ℕ :=
  ((m.refunds.filter (·.2.requester = a)).map (·.2.amount)).sum

/-- What was refunded to an account is refundable or has been claimed. -/
def Credited (m : Minter) : Prop := ∀ a, m.refundableBalance a+m.claimed a=m.refundedTo a

lemma Credited.effect (h : m.Credited) (heffect : m.Effect k m') : m'.Credited := by
  cases heffect <;> exact h

lemma Credited.ended (h : m.Credited) (hended : Ended A id m st m') : m'.Credited := by
  cases hended with
  | retired => exact h
  | effected _ heffect => exact h.effect heffect
  | governed => exact h

lemma Credited.finalized (h : m.Credited) (hfinalized : Finalized version m id executed m') : m'.Credited := by
  cases hfinalized with
  | released => exact h
  | cleared _ hcleared =>
    cases hcleared with
    | none => exact h
    | burned => exact h
    | refunded =>
      intro a
      have ha := h a
      by_cases he : a = (m.burnProposals id).requester
      · subst he
        simp only [refundedTo,released,update_self,List.filter_cons,decide_true,if_true,List.map_cons,List.sum_cons]
          at ha ⊢
        omega
      · simpa [refundedTo,released,update_of_ne he,List.filter_cons,Ne.symm he] using ha

lemma Credited.proposes (h : m.Credited) (hproposes : Proposes A quorum m k m₁ m₂ m') :
    m₁.Credited ∧ (m₂.Credited → m'.Credited) := by
  cases hproposes <;> exact ⟨h,id⟩

lemma Credited.payOut (h : m.Credited) (sender : Address) : (m.payOut sender).Credited := by
  intro a
  have ha := h a
  by_cases he : a=sender
  · subst he
    simp only [Minter.payOut,update_self,refundedTo] at ha ⊢
    omega
  · simpa only [Minter.payOut,update_of_ne he,refundedTo] using ha

lemma invariant_credited (version : MinterVersion) : Invariant version fun _ => Credited where
  ends h _ hended hfinalized := (h.ended hended).finalized hfinalized
  create h := h
  waits h hproposes := (h.proposes hproposes).2 (h.proposes hproposes).1
  executes h _ hproposes heffect hfinalized :=
    (h.proposes hproposes).2 (((h.proposes hproposes).1.effect heffect).finalized hfinalized)
  received h _ := h
  adapter h _ := h
  paysOut h _ _ := h.payOut _

/-- Under the first version nothing is refunded. -/
structure Unrefunded (A : Agenda MinterAction) (m : Minter) : Prop where
  backed : Backed A m
  positive : Positive A
  refunds : m.refunds = []

lemma Finalized.refunds_v1 (h : Finalized .v1 m id executed m') : m'.refunds=m.refunds := by
  cases h with
  | released => rfl
  | cleared hversion => cases hversion

lemma Unrefunded.create (h : Unrefunded A m) {A' : Agenda MinterAction} {k : Option MinterAction}
    (hbacked : Backed A' m') (hrefunds : m'.refunds=m.refunds)
    (hk : ∀ src amount withdrawalId, k = some (.burn src amount withdrawalId) → amount≠0)
    (hcustom : A'.custom = (A.create k).custom) : Unrefunded A' m' where
  backed := hbacked
  positive := h.positive.create hk hcustom
  refunds := hrefunds.trans h.refunds

lemma invariant_unrefunded : Invariant .v1 Unrefunded where
  ends h hopen hended hfinalized := ⟨h.backed.ends hopen hended hfinalized,h.positive,
    hfinalized.refunds_v1.trans (hended.refunds.trans h.refunds)⟩
  create h := h.create ((invariant_backed .v1).create h.backed) rfl (fun _ _ _ hk => by cases hk) rfl
  waits h hproposes := h.create ((invariant_backed .v1).waits h.backed hproposes)
    (hproposes.refunds.2.trans hproposes.refunds.1) hproposes.positive rfl
  executes h hquorum hproposes heffect hfinalized :=
    h.create ((invariant_backed .v1).executes h.backed hquorum hproposes heffect hfinalized)
      (hproposes.refunds.2.trans (hfinalized.refunds_v1.trans (heffect.refunds.trans hproposes.refunds.1)))
      hproposes.positive rfl
  received h amount := ⟨(invariant_backed .v1).received h.backed amount,h.positive,h.refunds⟩
  adapter h answers := ⟨(invariant_backed .v1).adapter h.backed answers,h.positive,h.refunds⟩
  paysOut _ hversion := by cases hversion

lemma unrefunded_initial (balance : ℕ) (answers : AdapterAnswers) : Unrefunded .empty (.initial balance answers) :=
  ⟨backed_initial balance answers,fun _ _ _ _ h => (by cases h),rfl⟩

lemma Unrefunded.refunded (h : Unrefunded A m) : Refunded (fun id => Retired (A.stage id)) A m where
  backed := h.backed
  positive := h.positive
  refund x hx := by
    rw [h.refunds] at hx
    cases hx
  nodup := by
    rw [h.refunds]
    exact List.nodup_nil
  refunded _ _ _ _ _ hearly hretired := absurd hretired hearly

lemma Refunded.filter_eq {early : ℕ → Prop} (h : Refunded early A m)
    (hk : A.custom id = some (.burn src amount withdrawalId))
    (hearly : ¬ early id) (hretired : Retired (A.stage id)) : m.refunds.filter (·.1 = id) = [(id,⟨amount,src⟩)] := by
  obtain ⟨⟨j,data⟩,hx,rfl⟩ := List.mem_map.mp (h.refunded id src amount withdrawalId hk hearly hretired)
  have hdata : data = ⟨amount,src⟩ := (h.refund _ hx).2.trans (congrArg depositOf hk)
  subst hdata
  have hnodup : (m.refunds.filter (·.1 = j)).Nodup := h.nodup.of_map.filter _
  refine List.perm_singleton.mp ((List.perm_ext_iff_of_nodup hnodup (List.nodup_singleton _)).mpr fun y => ?_)
  rw [List.mem_filter,List.mem_singleton]
  constructor
  · rintro ⟨hy,hyj⟩
    exact List.inj_on_of_nodup_map h.nodup hy hx (of_decide_eq_true hyj)
  · rintro rfl
    exact ⟨hx,by simp⟩

end Minter

section
open Genesis

lemma retired_of_isTerminal {st : ProposalStatus} (h : st.isTerminal) (hst : st ≠ .executed) :
    Minter.Retired st.stage := by
  cases st with
  | none | voting | approved => cases h
  | executed => exact absurd rfl hst
  | _ => exact ⟨by decide,by decide,by decide⟩

lemma isTerminal_of_retired {st : ProposalStatus} (h : Minter.Retired st.stage) : st.isTerminal := by
  cases st with
  | none => exact absurd rfl h.1
  | voting | approved => exact absurd rfl h.2.1
  | _ => rfl

/-- In every run, under the first version and then under the second one: the balance covers all burn and
refundable balances; what was burned are the executed burn proposals, each once; a burn proposal that
ended under the second version was either executed and not refunded or refunded once; what was refunded to an
account is refundable to it or was claimed by it; and the deposit of an open proposal can be cleaned up. -/
theorem deposits_settled (codec : ProofCodec) {address : Address} {param : Params} {states : List StateParam}
    (h : initializeMinter address param = .ok states) (balance : ℕ) (answers : AdapterAnswers)
    (calls₁ calls₂ : List (ℕ × Call MinterOp)) :
    let s₁ := runCalls (govMinter codec .v1) calls₁ (genesisMinter address states balance answers)
    let s := runCalls (govMinter codec .v2) calls₂ s₁
    (∀ T : Finset Address, ∑ a ∈ T, (s.own.burnBalance a+s.own.refundableBalance a) ≤ s.own.balance) ∧
    s.own.burned = s.gov.agenda.log MinterAction.burnOf ∧
    (∀ id src amount withdrawalId, (s.gov.proposals id).action = some (.custom (.burn src amount withdrawalId)) →
      ¬ (s₁.gov.proposals id).status.isTerminal → (s.gov.proposals id).status.isTerminal →
      (s.gov.proposals id).status = .executed ∧ s.gov.agenda.effected.count id=1 ∧
          s.own.refunds.filter (·.1 = id) = [] ∨
        (s.gov.proposals id).status ≠ .executed ∧ s.gov.agenda.effected.count id=0 ∧
          s.own.refunds.filter (·.1 = id) = [(id,⟨amount,src⟩)]) ∧
    (∀ a, s.own.refundableBalance a+s.own.claimed a =
      ((s.own.refunds.filter (·.2.requester = a)).map (·.2.amount)).sum) ∧
    ∀ id, (s.gov.proposals id).status.isOpen →
      (s.own.burnProposals id).amount ≤ s.own.burnBalance (s.own.burnProposals id).requester ∧
      (s.own.balance<2^256 → ∀ gov, ∃ m, s.own.cleanupBurnDeposit gov id = .ok m) := by
  intro s₁ s
  obtain ⟨hledger,hunrefunded⟩ :=
    Minter.invariant_unrefunded.runCalls_v1 codec h (Minter.unrefunded_initial balance answers) calls₁
  have hrefunded : Minter.Refunded (fun id => Minter.Retired (s₁.gov.agenda.stage id)) s.gov.agenda s.own :=
    ((Minter.invariant_refunded _).derived codec).runCalls rfl (memberless_govMinter ..) calls₂ hledger
      hunrefunded.refunded
  have hbooked : Minter.Booked s.gov.agenda s.own :=
    ((Minter.invariant_booked .v1).run codec (Minter.invariant_booked .v2) h
      (Minter.booked_initial balance answers) calls₁ calls₂).2
  have hcredited : s.own.Credited :=
    ((Minter.invariant_credited .v1).run codec (Minter.invariant_credited .v2) h (fun _ => rfl) calls₁ calls₂).2
  have hmem := hbooked.effective.mem_iff
  refine ⟨hrefunded.backed.funded.solvent,hbooked.burned,?_,hcredited,?_⟩
  · intro id src amount withdrawalId haction hearly hterminal
    have hstage : s.gov.agenda.stage id = (s.gov.proposals id).status := ProposalStatus.stage_of_isTerminal hterminal
    by_cases hexecuted : (s.gov.proposals id).status = .executed
    · rw [hexecuted] at hstage
      refine .inl ⟨hexecuted,List.count_eq_one_of_mem hbooked.effective.nodup ((hmem id).mpr hstage),?_⟩
      refine List.filter_eq_nil_iff.mpr fun x hx hxid => ?_
      have hretired := (hrefunded.refund x hx).1
      rw [of_decide_eq_true hxid,hstage] at hretired
      exact Minter.not_retired_executed hretired
    · refine .inr ⟨hexecuted,List.count_eq_zero_of_not_mem fun hid => ?_,?_⟩
      · exact hexecuted (hstage.symm.trans ((hmem id).mp hid))
      · exact hrefunded.filter_eq (Base.agenda_custom_of_action haction) (fun he => hearly (isTerminal_of_retired he))
          (retired_of_isTerminal hterminal hexecuted)
  · intro id hopen
    have hstage : s.gov.agenda.stage id = .voting := ProposalStatus.stage_of_isOpen hopen
    exact ⟨hrefunded.backed.amount_le hstage,fun hbalance gov =>
      hrefunded.backed.cleanupBurnDeposit hstage hbalance gov⟩

end

namespace TwoDepositors
open Genesis

def param : Params
  | "members" => some "0x01, 0x02"
  | "quorum" => some "2"
  | "expiry" => some "604800"
  | "memberVersion" => some "1"
  | _ => none

def codec : ProofCodec where
  mintProof _ := none
  burnProof data := some ⟨1,(data.map BitVec.toNat).sum,0,data,[1],[]⟩

/-- Two burn proposals from before the upgrade. -/
def calls₁ : List (ℕ × Call MinterOp) :=
  [(10,.mk 1 (.derived (.proposeBurn 30 [30])) []),(20,.mk 1 (.derived (.proposeBurn 12 [12])) [])]

/-- The first one is approved; the second one is cancelled and its deposit claimed, then a third one is cancelled. -/
def calls₂ : List (ℕ × Call MinterOp) :=
  [(30,.mk 2 (.approveProposal 1) []),(40,.mk 1 (.cancelProposal 2) []),
    (50,.mk 1 (.derived (.claimBurnRefund true)) []),(60,.mk 1 (.derived (.proposeBurn 5 [5])) []),
    (70,.mk 1 (.cancelProposal 3) [])]

def before (states : List StateParam) : Contract MinterAction Minter :=
  runCalls (govMinter codec .v1) calls₁ (genesisMinter 7 states 0 ⟨100,true,true⟩)

def after (states : List StateParam) : Contract MinterAction Minter :=
  runCalls (govMinter codec .v2) calls₂ (before states)

theorem deposits_of_two : ∃ states, initializeMinter 7 param = .ok states ∧
    let s := after states
    s.own.burned = [⟨[30],1,30⟩] ∧ s.own.burned = s.gov.agenda.log MinterAction.burnOf ∧
      s.own.refunds = [(3,⟨5,1⟩),(2,⟨12,1⟩)] ∧ s.own.refundableBalance 1+s.own.claimed 1=5+12 ∧
      s.own.refunds.filter (·.1 = 2) = [(2,⟨12,1⟩)] ∧
      ∀ T : Finset Address, ∑ a ∈ T, (s.own.burnBalance a+s.own.refundableBalance a) ≤ 5 := by
  obtain ⟨states,hstates,h⟩ := exists_of_holds (x := initializeMinter 7 param)
    (P := fun states => (after states).own.burned = [⟨[30],1,30⟩] &&
      (after states).own.refunds = [(3,⟨5,1⟩),(2,⟨12,1⟩)] && (after states).own.balance=5 &&
      ((after states).gov.proposals 2).action = some (.custom (.burn 1 12 [12])) &&
      ¬ ((before states).gov.proposals 2).status.isTerminal && ((after states).gov.proposals 2).status.isTerminal &&
      ((after states).gov.proposals 2).status≠.executed) (by decide +kernel)
  simp only [Bool.and_eq_true,decide_eq_true_eq] at h
  rw [after,before] at h
  obtain ⟨⟨⟨⟨⟨⟨hburned,hrefunds⟩,hbalance⟩,haction⟩,hopen⟩,hended⟩,hcancelled⟩ := h
  obtain ⟨hsolvent,hlog,hsettled,hcredited,-⟩ := deposits_settled codec hstates 0 ⟨100,true,true⟩ calls₁ calls₂
  have hsecond := (hsettled 2 1 12 [12] haction hopen hended).resolve_left fun hexecuted => hcancelled hexecuted.1
  have hone := hcredited 1
  rw [hrefunds] at hone
  rw [hbalance] at hsolvent
  refine ⟨states,hstates,?_⟩
  simp only [after,before]
  exact ⟨hburned,hlog,hrefunds,hone.trans (by decide),hsecond.2.2,hsolvent⟩

end TwoDepositors

end StableNet.Gov
