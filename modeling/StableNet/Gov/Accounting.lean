import StableNet.Gov.Lifecycle
import Mathlib.Data.Finset.Max
import Mathlib.Order.Lattice.Nat
import Mathlib.Order.Interval.Finset.Nat

/-! The accounting of open proposals. A member that changes its address leaves the count of its proposals behind. -/
namespace StableNet.Gov
open Chain (Address)
open Lib Base Contract Finset
open Function
variable {κ ω σ : Type} {now id : ℕ} {msg : Msg} {st : ProposalStatus}
variable {slot : ℕ} {g : Base κ} {action : Action κ} {a : Address} {success : Bool}

namespace Base

/-- The proposals of an address that are voting or approved. -/
def openBy (g : Base κ) (a : Address) : Finset ℕ :=
  {id ∈ Finset.Icc 1 g.currentProposalId | (g.proposals id).status.isOpen ∧ (g.proposals id).proposer = a}

/-- The same proposals are open, and the counts are the same. -/
structure Keeps (g g' : Base κ) : Prop where
  currentProposalId : g'.currentProposalId=g.currentProposalId
  count : g'.memberActiveProposalCount=g.memberActiveProposalCount
  proposer : ∀ id, (g'.proposals id).proposer = (g.proposals id).proposer
  isOpen : ∀ id, (g'.proposals id).status.isOpen = (g.proposals id).status.isOpen

section
variable {g' : Base κ}

lemma mem_openBy : id ∈ g.openBy a ↔
    (1 ≤ id ∧ id ≤ g.currentProposalId) ∧ (g.proposals id).status.isOpen ∧ (g.proposals id).proposer = a := by
  simp [openBy]

lemma isProposal_iff : g.isProposal id ↔ 1 ≤ id ∧ id ≤ g.currentProposalId := by
  simp [isProposal,Nat.one_le_iff_ne_zero]

lemma mem_openBy_proposer (hid : g.isProposal id) (hopen : (g.proposals id).status.isOpen) :
    id ∈ g.openBy (g.proposals id).proposer := mem_openBy.mpr ⟨isProposal_iff.mp hid,hopen,rfl⟩

lemma Keeps.of_eq (hcurrent : g'.currentProposalId=g.currentProposalId)
    (hcount : g'.memberActiveProposalCount=g.memberActiveProposalCount) (hproposals : g'.proposals=g.proposals) :
    g.Keeps g' := ⟨hcurrent,hcount,fun _ => by rw [hproposals],fun _ => by rw [hproposals]⟩

lemma Keeps.openBy (h : g.Keeps g') (a : Address) : g'.openBy a = g.openBy a := by
  ext id
  rw [mem_openBy,mem_openBy,h.currentProposalId,h.isOpen,h.proposer]

lemma keeps_modify {f : Proposal κ → Proposal κ} (hproposer : ∀ p, (f p).proposer = p.proposer)
    (hopen : (f (g.proposals id)).status.isOpen = (g.proposals id).status.isOpen) : g.Keeps (g.modify id f) := by
  refine ⟨rfl,rfl,fun id' => ?_,fun id' => ?_⟩
  all_goals
    by_cases he : id' = id
    · subst he
      simp [modify,hproposer,hopen]
    · simp [modify,update_of_ne he]

lemma keeps_setStatus_approved (hopen : (g.proposals id).status.isOpen) : g.Keeps (g.setStatus id .approved) :=
  keeps_modify (fun _ => rfl) hopen.symm

lemma keeps_count {approval : Bool} : g.Keeps (g.count now id slot approval) := by
  have h : g.Keeps (g.modify id fun p =>
      { p with
        votedBitmap := p.votedBitmap ||| bit slot
        approved := if approval then p.approved+1 else p.approved
        rejected := if approval then p.rejected else p.rejected+1 }) := keeps_modify (fun _ => rfl) rfl
  exact ⟨rfl,rfl,h.proposer,h.isOpen⟩

lemma keeps_changeMember (h : g.changeMember msg a = .ok g') : g.Keeps g' := by
  obtain ⟨-,-,-,-,-,rfl⟩ := changeMember_eq_ok h
  exact .of_eq rfl rfl rfl

end

lemma openBy_create : (g.create msg action).openBy a =
      if a=msg.sender then insert (g.currentProposalId+1) (g.openBy a) else g.openBy a := by
  ext id
  by_cases he : id = g.currentProposalId+1
  · subst he
    split
    · rename_i ha
      simp [mem_openBy,create,ProposalStatus.isOpen,ha]
    · rename_i ha
      simp [mem_openBy,create,ProposalStatus.isOpen,Ne.symm ha]
  · have hle : id ≤ g.currentProposalId+1 ↔ id ≤ g.currentProposalId := by omega
    split <;> simp [mem_openBy,create,hle,he]

lemma openBy_finish (hst : st.isOpen=false) (a : Address) :
    (g.finish now id st).openBy a = (g.openBy a).erase id := by
  ext id'
  by_cases he : id' = id
  · subst he
    simp [mem_openBy,finish,modify,hst]
  · simp [mem_openBy,finish,modify,he]

end Base

/-- The open proposals of the slot that has an address now. -/
def Base.heldBy (g : Base κ) (m : Address) : Finset ℕ :=
  {id ∈ Finset.Icc 1 g.currentProposalId | (g.proposals id).status.isOpen ∧ g.history.holder id=m}

/-- No member has left an address with active proposals. -/
def Base.Careful (g : Base κ) : Prop := ∀ n ∈ g.history.rotations, n=0

/-- One operation of `GovBase` on proposals. -/
inductive Operates : Base κ → Base κ → Prop
  | create {g : Base κ} {msg : Msg} {a : Action κ} (hactive : (g.members msg.sender).isActive)
      (hroom : g.memberActiveProposalCount msg.sender<g.maxActiveProposalsPerMember) : Operates g (g.create msg a)
  | changeMember {g g' : Base κ} {msg : Msg} {newMember : Address} (hgov : g.changeMember msg newMember = .ok g') :
      Operates g g'
  | finish {g : Base κ} {now id : ℕ} {st : ProposalStatus} (hid : g.isProposal id)
      (hopen : (g.proposals id).status.isOpen) (hst : st.isOpen=false) : Operates g (g.finish now id st)
  | keep {g g' : Base κ} (hkeeps : g.Keeps g') (hhistory : g'.history=g.history) : Operates g g'

abbrev Reaches : Base κ → Base κ → Prop := Relation.ReflTransGen Operates

/-- The counts, and the limit for the open proposals of an address up to each of them. -/
structure Accounts (g : Base κ) : Prop where
  count : ∀ a, g.memberActiveProposalCount a = (g.openBy a).card
  limited : ∀ a, ∀ id ∈ g.openBy a, {id' ∈ g.openBy a | id' ≤ id}.card ≤ g.history.limit id

/-- No open proposal has gone to another address with its slot. -/
def InPlace (g : Base κ) : Prop :=
  ∀ a, ∀ id ∈ g.openBy a, g.history.holder id=a

section
variable {g' : Base κ}

lemma Base.Keeps.accounts (hkeeps : g.Keeps g') (hlimit : g'.history.limit=g.history.limit) (hacc : Accounts g) :
    Accounts g' := by
  refine ⟨fun a => ?_,fun a id hid => ?_⟩
  · rw [hkeeps.count,hkeeps.openBy,hacc.count]
  · rw [hkeeps.openBy] at hid ⊢
    rw [hlimit]
    exact hacc.limited a id hid

lemma Base.le_of_mem_openBy (hid : id ∈ g.openBy a) : id ≤ g.currentProposalId := (mem_openBy.mp hid).1.2

lemma Accounts.create (hacc : Accounts g)
    (hroom : g.memberActiveProposalCount msg.sender<g.maxActiveProposalsPerMember) :
    Accounts (g.create msg action) := by
  have hfresh : ∀ a, g.currentProposalId+1 ∉ g.openBy a := fun a hmem =>
    Nat.not_succ_le_self _ (le_of_mem_openBy hmem)
  have hold : ∀ a, ∀ id ∈ g.openBy a, {id' ∈ g.openBy a | id' ≤ id}.card ≤ (g.create msg action).history.limit id := by
    intro a id hid
    have hne : id ≠ g.currentProposalId+1 := fun he => hfresh a (he ▸ hid)
    simpa only [Base.create,History.create,update_of_ne hne] using hacc.limited a id hid
  refine ⟨fun a => ?_,fun a id hid => ?_⟩
  · rw [openBy_create]
    split
    · rename_i ha
      subst ha
      rw [card_insert_of_notMem (hfresh _),← hacc.count]
      exact update_self ..
    · rename_i ha
      rw [← hacc.count]
      exact update_of_ne ha _ _
  · rw [openBy_create] at hid ⊢
    split at hid
    · rename_i ha
      rcases mem_insert.mp hid with rfl | hid
      · -- the new proposal comes after all others of its proposer
        refine (card_filter_le _ _).trans ?_
        rw [if_pos ha,card_insert_of_notMem (hfresh a),← hacc.count,ha]
        simp only [Base.create,History.create,update_self]
        exact hroom
      · have hlt : ¬ g.currentProposalId+1 ≤ id := Nat.not_le_of_lt (Nat.lt_succ_of_le (le_of_mem_openBy hid))
        rw [if_pos ha,filter_insert,if_neg hlt]
        exact hold a id hid
    · rename_i ha
      rw [if_neg ha]
      exact hold a id hid

lemma Accounts.finish (hacc : Accounts g) (hid : g.isProposal id)
    (hopen : (g.proposals id).status.isOpen) (hst : st.isOpen=false) : Accounts (g.finish now id st) := by
  refine ⟨fun a => ?_,fun a id' hid' => ?_⟩
  · rw [openBy_finish hst]
    by_cases ha : a = (g.proposals id).proposer
    · subst ha
      rw [card_erase_of_mem (mem_openBy_proposer hid hopen),← hacc.count]
      exact update_self ..
    · have hmem : id ∉ g.openBy a := fun hmem => ha (mem_openBy.mp hmem).2.2.symm
      rw [erase_eq_of_notMem hmem,← hacc.count]
      exact update_of_ne ha _ _
  · rw [openBy_finish hst] at hid' ⊢
    refine le_trans (card_le_card ?_) (hacc.limited a id' (mem_of_mem_erase hid'))
    exact filter_subset_filter _ (erase_subset _ _)

lemma Accounts.operates (hstep : Operates g g') (hacc : Accounts g) : Accounts g' := by
  cases hstep with
  | create _ hroom => exact hacc.create hroom
  | changeMember hgov =>
    refine (keeps_changeMember hgov).accounts ?_ hacc
    obtain ⟨-,-,-,-,-,rfl⟩ := changeMember_eq_ok hgov
    rfl
  | finish hid hopen hst => exact hacc.finish hid hopen hst
  | keep hkeeps hhistory => exact hkeeps.accounts (congrArg History.limit hhistory) hacc

theorem Base.Careful.of_operates (hstep : Operates g g') (h : g'.Careful) : g.Careful := by
  cases hstep with
  | create => exact h
  | changeMember hgov =>
    obtain ⟨-,-,-,-,-,rfl⟩ := changeMember_eq_ok hgov
    exact fun n hn => h n (List.mem_cons_of_mem _ hn)
  | finish => exact h
  | keep _ hhistory =>
    rw [Careful,hhistory] at h
    exact h

/-- A member that leaves its address has no open proposal to take along. -/
theorem InPlace.operates (hstep : Operates g g') (hacc : Accounts g) (hcareful : g'.Careful) (hplace : InPlace g) :
    InPlace g' := by
  cases hstep with
  | create =>
    intro a id hid
    rw [openBy_create] at hid
    by_cases he : id = g.currentProposalId+1
    · subst he
      split at hid
      · rename_i ha
        rw [ha]
        exact update_self ..
      · exact absurd (le_of_mem_openBy hid) (Nat.not_succ_le_self _)
    · have hmem : id ∈ g.openBy a := by
        split at hid
        · exact (mem_insert.mp hid).resolve_left he
        · exact hid
      exact (update_of_ne he _ _).trans (hplace a id hmem)
  | @changeMember _ msg newMember hgov =>
    intro a id hid
    rw [(keeps_changeMember hgov).openBy] at hid
    obtain ⟨-,-,-,-,-,rfl⟩ := changeMember_eq_ok hgov
    have hidle : g.memberActiveProposalCount msg.sender=0 := hcareful _ List.mem_cons_self
    have hholder : g.history.holder id=a := hplace a id hid
    have hempty : g.openBy msg.sender=∅ := card_eq_zero.mp ((hacc.count msg.sender).symm.trans hidle)
    have hne : g.history.holder id≠msg.sender := fun he => by
      rw [← hholder,he,hempty] at hid
      exact notMem_empty id hid
    exact (if_neg hne).trans hholder
  | finish _ _ hst =>
    intro a id hid
    rw [openBy_finish hst] at hid
    exact hplace a id (mem_of_mem_erase hid)
  | keep hkeeps hhistory =>
    intro a id hid
    rw [hkeeps.openBy] at hid
    rw [hhistory]
    exact hplace a id hid

lemma Accounts.reaches (hreach : Reaches g g') (hacc : Accounts g) (hplace : InPlace g) :
    Accounts g' ∧ (g'.Careful → InPlace g') := by
  induction hreach with
  | refl => exact ⟨hacc,fun _ => hplace⟩
  | tail _ hstep ih =>
    exact ⟨ih.1.operates hstep,fun hcareful => .operates hstep ih.1 hcareful (ih.2 (hcareful.of_operates hstep))⟩

lemma InPlace.heldBy_eq (hplace : InPlace g) (m : Address) : g.heldBy m = g.openBy m := by
  ext id
  simp only [Base.heldBy,Base.openBy,mem_filter,and_congr_right_iff]
  intro hid hopen
  have hmem := mem_openBy.mpr ⟨mem_Icc.mp hid,hopen,rfl⟩
  rw [hplace _ id hmem]

/-- The limit in force when the last of the open proposals was created bounds their number. -/
theorem Accounts.card_openBy_le (hacc : Accounts g) (a : Address) :
    (g.openBy a).card ≤ (g.openBy a).sup g.history.limit := by
  rcases (g.openBy a).eq_empty_or_nonempty with hempty | hne
  · simp [hempty]
  · have hlast := (g.openBy a).max'_mem hne
    have hall : {id ∈ g.openBy a | id ≤ (g.openBy a).max' hne} = g.openBy a :=
      filter_true_of_mem fun id hid => le_max' _ id hid
    calc (g.openBy a).card = {id ∈ g.openBy a | id ≤ (g.openBy a).max' hne}.card := by rw [hall]
      _ ≤ g.history.limit ((g.openBy a).max' hne) := hacc.limited a _ hlast
      _ ≤ (g.openBy a).sup g.history.limit := le_sup hlast

end

section
variable {D : Derived κ ω σ} {s s' : Contract κ σ}

lemma Base.Closes.isOpen_eq_false (h : g.Closes now id st) : st.isOpen=false := by
  cases h <;> rfl

lemma Base.Retires.isOpen_eq_false (h : g.Retires now id st) : st.isOpen=false := by
  cases h <;> rfl

lemma Act.reaches (hact : Act D now s s') : Reaches s.gov s'.gov := by
  cases hact with
  | create hactive hroom => exact .single (.create hactive hroom)
  | count => exact .single (.keep keeps_count rfl)
  | approved _ hopen => exact .single (.keep (keeps_setStatus_approved hopen) rfl)
  | close hid hcloses => exact .single (.finish hid hcloses.isOpen hcloses.isOpen_eq_false)
  | changeMember hgov => exact .single (.changeMember hgov)
  | call => exact .refl
  | resume => exact .refl

lemma Contract.Performs.keeps {a : Option (Action κ)} (h : Contract.Performs D msg s a success s') :
    s.gov.Keeps s'.gov ∧ s'.gov.history=s.gov.history := by
  cases h with
  | none | custom => exact ⟨.of_eq rfl rfl rfl,rfl⟩
  | addMember hgov =>
    obtain ⟨-,-,-,-,rfl⟩ := addMember_eq_ok hgov
    exact ⟨.of_eq rfl rfl rfl,rfl⟩
  | removeMember hgov =>
    obtain ⟨-,-,rfl⟩ := removeMember_eq_ok hgov
    exact ⟨.of_eq rfl rfl rfl,rfl⟩
  | changeQuorum hgov =>
    obtain ⟨-,rfl⟩ := changeQuorum_eq_ok hgov
    exact ⟨.of_eq rfl rfl rfl,rfl⟩
  | changeMaxProposals hgov =>
    cases changeMaxProposals_eq_ok hgov
    exact ⟨.of_eq rfl rfl rfl,rfl⟩

lemma Contract.conclude_reaches {markFailedOnError : Bool} (hid : s.gov.isProposal id)
    (happroved : (s.gov.proposals id).status = .approved)
    (hconclude : s.conclude D now id markFailedOnError success = .ok s') : Reaches s.gov s'.gov := by
  have hopen : (s.gov.proposals id).status.isOpen := by rw [happroved]; rfl
  unfold Contract.conclude at hconclude
  split at hconclude
  · obtain ⟨own,_,rfl⟩ := finalizeProposal_eq_ok hconclude
    have hrecord : s.gov.Keeps (s.gov.record (.effected id now)) := .of_eq rfl rfl rfl
    exact .tail (.single (.keep hrecord rfl)) (.finish hid hopen rfl)
  · split at hconclude
    · obtain ⟨own,_,rfl⟩ := finalizeProposal_eq_ok hconclude
      exact .single (.finish hid hopen rfl)
    · cases hconclude
      exact .single (.keep (keeps_setStatus_approved hopen) rfl)

lemma Run.reaches (hrun : Run D now s s') (hledger : Ledger s.gov.roster s.gov.docket) : Reaches s.gov s'.gov := by
  induction hrun with
  | refl => exact .refl
  | act _ hact ih => exact (ih hledger).trans hact.reaches
  | @retire s₀ s s' id st _ _ hid happroved hretires hfinal ih =>
    obtain ⟨own,_,rfl⟩ := finalizeProposal_eq_ok hfinal
    have hopen : (s.gov.proposals id).status.isOpen := by rw [happroved]; rfl
    have hlock : s.gov.Keeps s.gov.lock := .of_eq rfl rfl rfl
    have hunlock : (s.gov.lock.finish now id st).Keeps (s.gov.lock.finish now id st).unlock := .of_eq rfl rfl rfl
    exact (((ih hledger).tail (.keep hlock rfl)).tail (.finish hid hopen hretires.isOpen_eq_false)).tail
      (.keep hunlock rfl)
  | @perform s₀ s s₁ s₂ s₃ sender id markFailedOnError success hrun _ hready hinner haction hconclude ih ihinner =>
    have hattempted := (hledger.run hrun).1.attempt hready
    have hevolves := (hattempted.run hinner).2
    obtain ⟨hkeeps,hhistory⟩ := (executeInternalAction_performs haction).keeps
    -- the calls back into the contract have left the proposal approved
    have happroved := hevolves.held rfl id hready.isProposal hready.isApproved hready.inTime
    have hdocket := ((hattempted.run hinner).1.executeInternalAction haction).2.1
    have happroved₂ : (s₂.gov.proposals id).status = .approved := by
      rwa [show s₂.gov.proposals = s₁.gov.proposals from congrArg Docket.proposals hdocket]
    have hid : s₂.gov.isProposal id := by
      rw [Base.isProposal,hkeeps.currentProposalId]
      exact hevolves.isProposal id hready.isProposal
    have hlock : s.gov.Keeps (s.gov.lock.attempt now id) := .of_eq rfl rfl rfl
    have hunlock : s₃.gov.Keeps s₃.gov.unlock := .of_eq rfl rfl rfl
    exact (((((ih hledger).tail (.keep hlock rfl)).trans (ihinner hattempted)).tail (.keep hkeeps hhistory)).trans
      (conclude_reaches hid happroved₂ hconclude)).tail (.keep hunlock rfl)

lemma runCalls_reaches (hledger : Ledger s.gov.roster s.gov.docket) (calls : List (ℕ × Call ω)) :
    Reaches s.gov (runCalls D calls s).gov := by
  refine (runCalls_induction (D := D) (I := fun s' => Ledger s'.gov.roster s'.gov.docket ∧ Reaches s.gov s'.gov) ?_
    ⟨hledger,.refl⟩).2
  rintro now s₁ s₂ hrun ⟨hledger,hreach⟩
  exact ⟨(hledger.run hrun).1,hreach.trans (hrun.reaches hledger)⟩

end

section
open Genesis
variable {c : BaseConfig} {address : Address}

lemma openBy_base (a : Address) : (c.base address : Base κ).openBy a=∅ := by
  have hcurrent : (c.base address : Base κ).currentProposalId=0 := BaseConfig.read_unused (by decide)
  simp [Base.openBy,hcurrent]

lemma accounts_base : Accounts (c.base address : Base κ) := by
  refine ⟨fun a => ?_,fun a id hid => ?_⟩
  · rw [openBy_base,card_empty]
    exact BaseConfig.read_unused (by simp)
  · rw [openBy_base] at hid
    exact absurd hid (notMem_empty id)

lemma inPlace_base : InPlace (c.base address : Base κ) := by
  intro a id hid
  rw [openBy_base] at hid
  exact absurd hid (notMem_empty id)

/-- After every history of calls the count of each address is the number of its open proposals; and if no member
changed its address while it had active proposals, no slot has more open ones than the largest limit under which they
were created. -/
theorem open_proposals_accounted (D : Derived κ ω σ) {address : Address} {param : Params} {states : List StateParam}
    (h : initializeBase address param = .ok states) (own : σ) (calls : List (ℕ × Call ω)) :
    let g : Base κ := (runCalls D calls ⟨baseOfStorage (storageOf address states),own⟩).gov
    (∀ a, g.memberActiveProposalCount a = (g.openBy a).card) ∧
      ((∀ n ∈ g.history.rotations, n=0) → ∀ m, (g.heldBy m).card ≤ (g.heldBy m).sup g.history.limit) := by
  intro g
  obtain ⟨c,hc,rfl⟩ := initializeBase_eq_ok h
  have hreach : Reaches (baseOfStorage (storageOf address (c.states address)) : Base κ) g :=
    runCalls_reaches (s := ⟨_,own⟩) (ledger_base hc) calls
  obtain ⟨hacc,hplace⟩ := Accounts.reaches hreach accounts_base inPlace_base
  refine ⟨hacc.count,fun hcareful m => ?_⟩
  rw [(hplace hcareful).heldBy_eq]
  exact hacc.card_openBy_le m

end

namespace OneProposalEach
open Genesis

def param : Params
  | "members" => some "0x01, 0x02"
  | "quorum" => some "2"
  | "expiry" => some "9"
  | "memberVersion" => some "1"
  | "maxProposals" => some "1"
  | _ => none

def propose (now : ℕ) (sender : Address) : ℕ × Call Empty := (now,.mk sender (.proposeChangeMaxProposals 2) [])

def rotate (now : ℕ) (sender newMember : Address) : ℕ × Call Empty := (now,.mk sender (.changeMember newMember) [])

def after (calls : List (ℕ × Call Empty)) (states : List StateParam) : Base Empty :=
  (runCalls Derived.default calls ⟨baseOfStorage (storageOf 7 states),()⟩).gov

/-- A member cancels its only proposal before it changes its address, and then makes another one. -/
def careful : List (ℕ × Call Empty) :=
  [propose 1 1,propose 1 2,(2,.mk 1 (.cancelProposal 1) []),rotate 3 1 5,propose 4 5]

theorem careful_accounted : ∃ states, initializeBase 7 param = .ok states ∧
    let g := after careful states
    g.history.rotations = [0] ∧ g.heldBy 5 = {3} ∧ g.heldBy 2 = {2} ∧
      (∀ a, g.memberActiveProposalCount a = (g.openBy a).card) ∧
        ∀ m, (g.heldBy m).card ≤ (g.heldBy m).sup g.history.limit := by
  obtain ⟨states,hstates,hrun⟩ := exists_of_holds (x := initializeBase 7 param)
    (P := fun states => (after careful states).history.rotations = [0] && (after careful states).heldBy 5 = {3} &&
      (after careful states).heldBy 2 = {2}) (by decide +kernel)
  simp only [Bool.and_eq_true,decide_eq_true_eq] at hrun
  obtain ⟨⟨hrotations,hheld⟩,hheld'⟩ := hrun
  obtain ⟨hcount,hbound⟩ := open_proposals_accounted Derived.default hstates () careful
  have hidle : ∀ n ∈ (after careful states).history.rotations, n=0 := by simp [hrotations]
  exact ⟨states,hstates,hrotations,hheld,hheld',hcount,hbound hidle⟩

/-- A member that has used its only proposal changes its address and creates another one. -/
def careless : List (ℕ × Call Empty) := [propose 1 1,rotate 2 1 5,propose 3 5]

theorem careless_exceeds : ∃ states, initializeBase 7 param = .ok states ∧
    let g := after careless states
    g.history.rotations = [1] ∧ (g.heldBy 5).card = 2 ∧ (g.heldBy 5).sup g.history.limit=1 := by
  obtain ⟨states,hstates,hrun⟩ := exists_of_holds (x := initializeBase 7 param)
    (P := fun states => (after careless states).history.rotations = [1] &&
      ((after careless states).heldBy 5).card = 2 &&
      ((after careless states).heldBy 5).sup (after careless states).history.limit=1) (by decide +kernel)
  simp only [Bool.and_eq_true,decide_eq_true_eq] at hrun
  exact ⟨states,hstates,hrun.1.1,hrun.1.2,hrun.2⟩

end OneProposalEach

end StableNet.Gov
