import StableNet.Gov.Membership
import Mathlib.Data.Finset.Card
import Mathlib.Data.Finset.Range

/-! The life of a proposal: its votes, its status, and that its action takes effect at most once, in time and with
enough approvals. -/
namespace StableNet.Gov
open Chain (Address)
open Lib ProposalStatus Base List
open Function
variable {κ ω σ : Type} {slot id : ℕ} {st : ProposalStatus}
variable {i now : ℕ} {b : BitVec 256} {slots : List ℕ} {r : Record} {p : Proposal κ} {success : Bool}

structure Vote where
  slot : ℕ
  approval : Bool
  time : ℕ

namespace Record

def proposal : Record → ℕ
  | .voted id _ _ _ => id
  | .attempted id _ => id
  | .effected id _ => id

def vote? : Record → Option Vote
  | .voted _ slot approval time => some ⟨slot,approval,time⟩
  | _ => none

def isAttempt : Record → Bool
  | .attempted _ _ => true
  | _ => false

def isEffect : Record → Bool
  | .effected _ _ => true
  | _ => false

end Record

def votes (id : ℕ) (records : List Record) : List Vote :=
  (records.filter (·.proposal = id)).filterMap Record.vote?

def approvals (id : ℕ) (records : List Record) : ℕ := (votes id records).countP (·.approval)

def rejections (id : ℕ) (records : List Record) : ℕ := (votes id records).countP (!·.approval)

def attempts (id : ℕ) (records : List Record) : ℕ :=
  records.countP fun r => r.proposal = id && r.isAttempt

def effects (id : ℕ) (records : List Record) : ℕ :=
  records.countP fun r => r.proposal = id && r.isEffect

section
variable {records : List Record}

lemma votes_cons_of_ne (h : r.proposal ≠ id) : votes id (r::records) = votes id records := by
  simp [votes,h]

lemma attempts_cons_of_ne (h : r.proposal ≠ id) : attempts id (r::records) = attempts id records := by
  simp [attempts,h]

lemma effects_cons_of_ne (h : r.proposal ≠ id) : effects id (r::records) = effects id records := by
  simp [effects,h]

@[simp]
lemma votes_cons_voted (slot time : ℕ) (approval : Bool) :
    votes id (.voted id slot approval time::records) = ⟨slot,approval,time⟩::votes id records := by
  simp [votes,Record.proposal,Record.vote?]

@[simp]
lemma votes_cons_attempted (id' time : ℕ) : votes id (.attempted id' time::records) = votes id records := by
  by_cases h : (Record.attempted id' time).proposal = id
  · rw [votes,filter_cons_of_pos (by simpa using h),filterMap_cons_none rfl]
    rfl
  · exact votes_cons_of_ne h

@[simp]
lemma votes_cons_effected (id' time : ℕ) : votes id (.effected id' time::records) = votes id records := by
  by_cases h : (Record.effected id' time).proposal = id
  · rw [votes,filter_cons_of_pos (by simpa using h),filterMap_cons_none rfl]
    rfl
  · exact votes_cons_of_ne h

@[simp]
lemma attempts_cons_attempted (time : ℕ) : attempts id (.attempted id time::records) = attempts id records+1 := by
  simp [attempts,Record.proposal,Record.isAttempt]

@[simp]
lemma attempts_cons_voted (id' slot time : ℕ) (approval : Bool) :
    attempts id (.voted id' slot approval time::records) = attempts id records := by
  simp [attempts,Record.isAttempt]

@[simp]
lemma attempts_cons_effected (id' time : ℕ) : attempts id (.effected id' time::records) = attempts id records := by
  simp [attempts,Record.isAttempt]

@[simp]
lemma effects_cons_effected (time : ℕ) : effects id (.effected id time::records) = effects id records+1 := by
  simp [effects,Record.proposal,Record.isEffect]

@[simp]
lemma effects_cons_voted (id' slot time : ℕ) (approval : Bool) :
    effects id (.voted id' slot approval time::records) = effects id records := by
  simp [effects,Record.isEffect]

@[simp]
lemma effects_cons_attempted (id' time : ℕ) : effects id (.attempted id' time::records) = effects id records := by
  simp [effects,Record.isEffect]

end

def popCount (b : BitVec 256) : ℕ := (List.range 256).countP b.getLsbD

lemma getLsbD_bit (hi : i<256) (j : ℕ) : (Base.bit i).getLsbD j = decide (j = i) := by
  rw [show Base.bit i = BitVec.twoPow 256 i from rfl,BitVec.getLsbD_twoPow]
  simp [hi,eq_comm]

lemma getLsbD_eq_false_of_and_bit (hi : i<256) (h : b &&& Base.bit i=0) : b.getLsbD i=false := by
  have := congrArg (BitVec.getLsbD · i) h
  simpa [getLsbD_bit hi] using this

lemma popCount_eq_length (hnodup : slots.Nodup) (hlt : ∀ i ∈ slots, i<256)
    (h : ∀ i, b.getLsbD i ↔ i ∈ slots) : popCount b=slots.length := by
  rw [popCount,countP_eq_length_filter]
  refine List.Perm.length_eq ((perm_ext_iff_of_nodup (nodup_range.filter _) hnodup).mpr fun i => ?_)
  rw [mem_filter,mem_range,h]
  exact ⟨fun hi => hi.2,fun hi => ⟨hlt i hi,hi⟩⟩

lemma length_le_of_nodup_of_lt {n : ℕ} (hnodup : slots.Nodup) (hlt : ∀ i ∈ slots, i<n) : slots.length ≤ n := by
  have hsub : slots.toFinset ⊆ Finset.range n := fun i hi =>
    Finset.mem_range.mpr (hlt i (mem_toFinset.mp hi))
  have hcard := Finset.card_le_card hsub
  rwa [toFinset_card_of_nodup hnodup,Finset.card_range] at hcard

/-- A proposal agrees with the records about it. -/
structure Tally (id expiry members executions : ℕ) (records : List Record) (p : Proposal κ) : Prop where
  created : p.status ≠ .none
  required_le : p.requiredApprovals ≤ members
  bits : ∀ i, p.votedBitmap.getLsbD i ↔ i ∈ (votes id records).map Vote.slot
  nodup : ((votes id records).map Vote.slot).Nodup
  slot_lt : ∀ v ∈ votes id records, v.slot < members
  approved_eq : p.approved = approvals id records
  rejected_eq : p.rejected = rejections id records
  inTime : ∀ v ∈ votes id records, v.time ≤ p.createdAt+expiry
  enough : p.status = .approved ∨ p.status = .executed → p.requiredApprovals ≤ p.approved
  attempts_eq : attempts id records=executions
  attempts_le : executions ≤ maxRetryCount
  effects_eq : effects id records = if p.status = .executed then 1 else 0
  effected : ∀ newer older time, records = newer++.effected id time::older →
    p.requiredApprovals ≤ approvals id older ∧ time ≤ p.createdAt+expiry

namespace Tally
variable {expiry members executions : ℕ} {records : List Record}

section
variable (h : Tally id expiry members executions records p)
include h

lemma approved_add_rejected : p.approved+p.rejected = (votes id records).length := by
  rw [h.approved_eq,h.rejected_eq,approvals,rejections,length_eq_countP_add_countP (p := fun v : Vote => v.approval)]
  simp

lemma length_votes_le : (votes id records).length ≤ members := by
  rw [← length_map (f := Vote.slot)]
  refine length_le_of_nodup_of_lt h.nodup fun i hi => ?_
  obtain ⟨v,hv,rfl⟩ := mem_map.mp hi
  exact h.slot_lt v hv

lemma popCount_eq (hmembers : members ≤ 255) : popCount p.votedBitmap = p.approved+p.rejected := by
  rw [h.approved_add_rejected,← length_map (f := Vote.slot)]
  refine popCount_eq_length h.nodup (fun i hi => ?_) h.bits
  obtain ⟨v,hv,rfl⟩ := mem_map.mp hi
  exact (h.slot_lt v hv).trans_le (by omega)

theorem rejected_le (happroved : p.status = .approved) : p.rejected ≤ members-p.requiredApprovals := by
  have hvotes := h.approved_add_rejected
  have hle := h.length_votes_le
  have henough := h.enough (.inl happroved)
  omega

theorem effected_cons (hr : ∀ time, r ≠ .effected id time) {newer older : List Record} {time : ℕ}
    (heq : r::records = newer++.effected id time::older) :
    p.requiredApprovals ≤ approvals id older ∧ time ≤ p.createdAt+expiry := by
  cases newer with
  | nil => exact absurd (List.cons.inj heq).1 (hr time)
  | cons r' newer => exact h.effected newer older time (List.cons.inj heq).2

end

lemma create (hrequired : p.requiredApprovals ≤ members) (hstatus : p.status = .voting)
    (hbitmap : p.votedBitmap=0) (happroved : p.approved=0) (hrejected : p.rejected=0)
    (hvotes : votes id records = []) (hattempts : attempts id records=0) (heffects : effects id records=0) :
    Tally id expiry members 0 records p where
  created := by simp [hstatus]
  required_le := hrequired
  bits i := by simp [hbitmap,hvotes]
  nodup := by simp [hvotes]
  slot_lt := by simp [hvotes]
  approved_eq := by simp [approvals,hvotes,happroved]
  rejected_eq := by simp [rejections,hvotes,hrejected]
  inTime := by simp [hvotes]
  enough := by simp [hstatus]
  attempts_eq := hattempts
  attempts_le := Nat.zero_le _
  effects_eq := by simp [heffects,hstatus]
  effected newer older time heq := by
    rw [heq,effects,countP_append,countP_cons] at heffects
    simp [Record.proposal,Record.isEffect] at heffects

section
variable (h : Tally id expiry members executions records p)
include h

lemma count (approval : Bool)
    (hmembers : members ≤ 255) (hslot : slot < members) (hfresh : p.votedBitmap &&& Base.bit slot=0)
    (htime : now ≤ p.createdAt+expiry) : Tally id expiry members executions (.voted id slot approval now::records)
      { p with
        votedBitmap := p.votedBitmap ||| Base.bit slot
        approved := if approval then p.approved+1 else p.approved
        rejected := if approval then p.rejected else p.rejected+1 } where
  created := h.created
  required_le := h.required_le
  bits i := by
    have hbits := h.bits i
    simp only [BitVec.getLsbD_or,getLsbD_bit (show slot<256 by omega),Bool.or_eq_true,decide_eq_true_eq,
      votes_cons_voted,map_cons,mem_cons,hbits]
    exact or_comm
  nodup := by
    rw [votes_cons_voted,map_cons,nodup_cons]
    refine ⟨fun hmem => ?_,h.nodup⟩
    have hset := (h.bits slot).mpr hmem
    rw [getLsbD_eq_false_of_and_bit (by omega) hfresh] at hset
    cases hset
  slot_lt v hv := by
    rw [votes_cons_voted,mem_cons] at hv
    rcases hv with rfl | hv
    · exact hslot
    · exact h.slot_lt v hv
  approved_eq := by
    have happroved := h.approved_eq
    rw [approvals] at happroved ⊢
    rw [votes_cons_voted,countP_cons]
    cases approval <;> simp [happroved]
  rejected_eq := by
    have hrejected := h.rejected_eq
    rw [rejections] at hrejected ⊢
    rw [votes_cons_voted,countP_cons]
    cases approval <;> simp [hrejected]
  inTime v hv := by
    rw [votes_cons_voted,mem_cons] at hv
    rcases hv with rfl | hv
    · exact htime
    · exact h.inTime v hv
  enough hstatus := by
    have henough := h.enough hstatus
    cases approval
    · exact henough
    · exact Nat.le_succ_of_le henough
  attempts_eq := by rw [attempts_cons_voted,h.attempts_eq]
  attempts_le := h.attempts_le
  effects_eq := by rw [effects_cons_voted,h.effects_eq]
  effected newer older time heq := h.effected_cons (fun _ => by simp) heq

lemma other (hr : r.proposal ≠ id) : Tally id expiry members executions (r::records) p := by
  have hother := h
  obtain ⟨hcreated,hrequired,hbits,hnodup,hslot,happroved,hrejected,htime,henough,hattempts,hle,heffects,_⟩ := h
  refine ⟨hcreated,hrequired,?_,?_,?_,?_,?_,?_,henough,?_,hle,?_,fun newer older time heq => ?_⟩
  · rwa [votes_cons_of_ne hr]
  · rwa [votes_cons_of_ne hr]
  · rwa [votes_cons_of_ne hr]
  · rwa [approvals,votes_cons_of_ne hr]
  · rwa [rejections,votes_cons_of_ne hr]
  · rwa [votes_cons_of_ne hr]
  · rwa [attempts_cons_of_ne hr]
  · rwa [effects_cons_of_ne hr]
  · exact hother.effected_cons (fun t ht => hr (congrArg Record.proposal ht)) heq

lemma setStatus (executedAt : ℕ) (hcreated : st ≠ .none) (henough : st = .approved → p.requiredApprovals ≤ p.approved)
    (hbefore : p.status ≠ .executed) (hafter : st ≠ .executed) :
    Tally id expiry members executions records { p with status := st, executedAt := executedAt } where
  created := hcreated
  required_le := h.required_le
  bits := h.bits
  nodup := h.nodup
  slot_lt := h.slot_lt
  approved_eq := h.approved_eq
  rejected_eq := h.rejected_eq
  inTime := h.inTime
  enough hst := henough (hst.resolve_right hafter)
  attempts_eq := h.attempts_eq
  attempts_le := h.attempts_le
  effects_eq := by rw [h.effects_eq,if_neg hbefore,if_neg hafter]
  effected := h.effected

lemma attempt (now : ℕ) (hlt : executions < maxRetryCount) :
    Tally id expiry members (executions+1) (.attempted id now::records) p where
  created := h.created
  required_le := h.required_le
  bits := by simpa using h.bits
  nodup := by simpa using h.nodup
  slot_lt := by simpa using h.slot_lt
  approved_eq := by simpa [approvals] using h.approved_eq
  rejected_eq := by simpa [rejections] using h.rejected_eq
  inTime := by simpa using h.inTime
  enough := h.enough
  attempts_eq := by rw [attempts_cons_attempted,h.attempts_eq]
  attempts_le := hlt
  effects_eq := by rw [effects_cons_attempted,h.effects_eq]
  effected newer older time heq := h.effected_cons (fun _ => by simp) heq

lemma effect (executedAt : ℕ) (happroved : p.status = .approved) (htime : now ≤ p.createdAt+expiry) :
    Tally id expiry members executions (.effected id now::records)
      { p with status := .executed, executedAt := executedAt } where
  created := by simp
  required_le := h.required_le
  bits := by simpa using h.bits
  nodup := by simpa using h.nodup
  slot_lt := by simpa using h.slot_lt
  approved_eq := by simpa [approvals] using h.approved_eq
  rejected_eq := by simpa [rejections] using h.rejected_eq
  inTime := by simpa using h.inTime
  enough _ := h.enough (.inl happroved)
  attempts_eq := by rw [attempts_cons_effected,h.attempts_eq]
  attempts_le := h.attempts_le
  effects_eq := by rw [effects_cons_effected,h.effects_eq,happroved]; rfl
  effected newer older time heq := by
    cases newer with
    | nil =>
      obtain ⟨hr,rfl⟩ := List.cons.inj heq
      cases hr
      exact ⟨h.approved_eq ▸ h.enough (.inl happroved),htime⟩
    | cons r newer => exact h.effected newer older time (List.cons.inj heq).2

end

end Tally

/-- The part of the storage that says what became of the proposals. -/
structure Docket (κ : Type) where
  proposalExpiry : ℕ
  currentProposalId : ℕ
  proposals : ℕ → Proposal κ
  proposalExecutionCount : ℕ → ℕ
  records : List Record

def Base.docket (g : Base κ) : Docket κ :=
  ⟨g.proposalExpiry,g.currentProposalId,g.proposals,g.proposalExecutionCount,g.records⟩

def Docket.isProposal (d : Docket κ) (id : ℕ) : Bool := id≠0 && id ≤ d.currentProposalId

lemma Docket.isProposal_iff {d : Docket κ} : d.isProposal id ↔ id≠0 ∧ id ≤ d.currentProposalId := by
  simp [Docket.isProposal]

/-- Every proposal agrees with its records, and nothing is recorded of any other number. -/
structure Ledger (r : Roster) (d : Docket κ) : Prop where
  roll : Roll r
  version_le : ∀ id, d.isProposal id → (d.proposals id).memberVersion ≤ r.memberVersion
  fresh : ∀ id, ¬ d.isProposal id → votes id d.records = [] ∧ attempts id d.records=0 ∧
    effects id d.records=0 ∧ d.proposalExecutionCount id=0
  tally : ∀ id, d.isProposal id → Tally id d.proposalExpiry
    (r.versionedMemberList (d.proposals id).memberVersion).length (d.proposalExecutionCount id) d.records
    (d.proposals id)

namespace Ledger
variable {r r' : Roster} {d : Docket κ}

theorem changeRoster (h : Ledger r d) (hroll : Roll r') (hversion : r.memberVersion ≤ r'.memberVersion)
    (hlength : ∀ v, v ≤ r.memberVersion → (r'.versionedMemberList v).length = (r.versionedMemberList v).length) :
    Ledger r' d where
  roll := hroll
  version_le id hid := (h.version_le id hid).trans hversion
  fresh := h.fresh
  tally id hid := by
    rw [hlength _ (h.version_le id hid)]
    exact h.tally id hid

theorem changeProposal (h : Ledger r d) {executions : ℕ} {records : List Record}
    (htally : Tally id d.proposalExpiry (r.versionedMemberList (d.proposals id).memberVersion).length executions
      records p) (hid : d.isProposal id) (hversion : p.memberVersion = (d.proposals id).memberVersion)
    (hrecords : records=d.records ∨ ∃ record, record.proposal = id ∧ records=record::d.records) : Ledger r { d with
      proposals := update d.proposals id p
      proposalExecutionCount := update d.proposalExecutionCount id executions
      records := records } where
  roll := h.roll
  version_le id' hid' := by
    by_cases hne : id' = id
    · subst hne
      simp only [update_self,hversion]
      exact h.version_le id' hid
    · simp only [update_of_ne hne]
      exact h.version_le id' hid'
  fresh id' hid' := by
    have hne : id' ≠ id := fun he => hid' (he ▸ hid)
    have hfresh := h.fresh id' hid'
    simp only [update_of_ne hne]
    rcases hrecords with rfl | ⟨record,hrecord,rfl⟩
    · exact hfresh
    · have hother : record.proposal ≠ id' := fun he => hne (he.symm.trans hrecord)
      rwa [votes_cons_of_ne hother,attempts_cons_of_ne hother,effects_cons_of_ne hother]
  tally id' hid' := by
    by_cases hne : id' = id
    · subst hne
      simp only [update_self,hversion]
      exact htally
    · simp only [update_of_ne hne]
      rcases hrecords with rfl | ⟨record,hrecord,rfl⟩
      · exact h.tally id' hid'
      · exact (h.tally id' hid').other fun he => hne (he.symm.trans hrecord)

end Ledger

section
variable {g : Base κ}

section
variable (h : Ledger g.roster g.docket)
include h

lemma Ledger.snapshot_le (id : ℕ) : (g.snapshot id).length ≤ 255 := h.roll.length_le _

lemma Ledger.create {msg : Msg} (a : Action κ)
    (hactive : (g.members msg.sender).isActive) : Ledger (g.create msg a).roster (g.create msg a).docket := by
  have hnew : ¬ g.docket.isProposal (g.currentProposalId+1) := fun h =>
    Nat.not_succ_le_self _ (Docket.isProposal_iff.mp h).2
  obtain ⟨hvotes,hattempts,heffects,hexecutions⟩ := h.fresh _ hnew
  have hmem : msg.sender ∈ g.memberList := (h.roll.active msg.sender).mp hactive
  have hquorum : g.quorum ≤ g.memberList.length := h.roll.quorum_le (ne_nil_of_mem hmem)
  have hold : ∀ id, (g.create msg a).docket.isProposal id → id ≠ g.currentProposalId+1 →
      g.docket.isProposal id := by
    intro id hid hne
    obtain ⟨hzero,hle⟩ := Docket.isProposal_iff.mp hid
    exact Docket.isProposal_iff.mpr ⟨hzero,Nat.le_of_lt_succ (Nat.lt_of_le_of_ne hle hne)⟩
  have hother : ∀ id, id ≠ g.currentProposalId+1 → (g.create msg a).docket.proposals id = g.docket.proposals id :=
    fun id hne => update_of_ne hne _ _
  refine ⟨h.roll,fun id hid => ?_,fun id hid => ?_,fun id hid => ?_⟩
  · by_cases hne : id = g.currentProposalId+1
    · subst hne
      simp [Base.docket,Base.create,Base.roster]
    · rw [hother id hne]
      exact h.version_le id (hold id hid hne)
  · refine h.fresh id fun hid' => hid ?_
    obtain ⟨hzero,hle⟩ := Docket.isProposal_iff.mp hid'
    exact Docket.isProposal_iff.mpr ⟨hzero,Nat.le_succ_of_le hle⟩
  · by_cases hne : id = g.currentProposalId+1
    · subst hne
      have hversion : ((g.create msg a).proposals (g.currentProposalId+1)).memberVersion = g.memberVersion := by
        simp [Base.create]
      show Tally _ g.proposalExpiry (g.versionedMemberList
        ((g.create msg a).proposals (g.currentProposalId+1)).memberVersion).length
        (g.docket.proposalExecutionCount (g.currentProposalId+1)) g.records
        ((g.create msg a).proposals (g.currentProposalId+1))
      rw [hversion,hexecutions]
      exact Tally.create (by simpa [Base.create,Base.memberList] using hquorum) (by simp [Base.create])
        (by simp [Base.create])
        (by simp [Base.create]) (by simp [Base.create]) hvotes hattempts heffects
    · rw [hother id hne]
      exact h.tally id (hold id hid hne)

lemma Ledger.count {sender : Address} (approval : Bool) (hcast : g.Casts now sender id slot) :
    Ledger (g.count now id slot approval).roster (g.count now id slot approval).docket := by
  have htally := (h.tally id hcast.isProposal).count approval (h.snapshot_le id) hcast.slot_lt hcast.fresh
    hcast.inTime
  have hledger := h.changeProposal htally hcast.isProposal rfl (.inr ⟨_,rfl,rfl⟩)
  rwa [update_eq_self] at hledger

theorem Ledger.setStatus (executedAt : ℕ) (hid : g.isProposal id) (hcreated : st ≠ .none)
    (henough : st = .approved → (g.proposals id).requiredApprovals ≤ (g.proposals id).approved)
    (hbefore : (g.proposals id).status ≠ .executed) (hafter : st ≠ .executed) : Ledger g.roster { g.docket with
      proposals := update g.proposals id { g.proposals id with status := st, executedAt := executedAt } } := by
  have htally := (h.tally id hid).setStatus executedAt hcreated henough hbefore hafter
  have hledger := h.changeProposal htally hid rfl (.inl rfl)
  rwa [update_eq_self] at hledger

end

lemma status_ne_executed_of_isOpen (h : st.isOpen) : st ≠ .executed := by
  rintro rfl
  cases h

lemma Base.Closes.isOpen (h : g.Closes now id st) : (g.proposals id).status.isOpen := by
  cases h with
  | expired hopen => exact hopen
  | cancelled hvoting => simp [ProposalStatus.isOpen,hvoting]
  | rejected hopen => exact hopen

lemma Base.Closes.isTerminal (h : g.Closes now id st) : st.isTerminal ∧ st ≠ .executed := by
  cases h <;> decide

section
variable (h : Ledger g.roster g.docket)
include h

lemma Ledger.close (hid : g.isProposal id)
    (hcloses : g.Closes now id st) : Ledger (g.finish now id st).roster (g.finish now id st).docket := by
  obtain ⟨hterminal,hne⟩ := hcloses.isTerminal
  refine h.setStatus _ hid ?_ ?_ (status_ne_executed_of_isOpen hcloses.isOpen) hne
  · rintro rfl
    cases hterminal
  · rintro rfl
    cases hterminal

lemma Ledger.retire (hid : g.isProposal id)
    (happroved : (g.proposals id).status = .approved) (hretires : g.Retires now id st) :
    Ledger (g.finish now id st).roster (g.finish now id st).docket := by
  have hne : (g.proposals id).status ≠ .executed := by simp [happroved]
  cases hretires with
  | expired | failed => exact h.setStatus _ hid (by decide) (by simp) hne (by decide)

lemma Ledger.attempt (hready : g.Ready now id) : Ledger (g.attempt now id).roster (g.attempt now id).docket := by
  have htally := (h.tally id hready.isProposal).attempt now hready.retries
  have hledger := h.changeProposal htally hready.isProposal rfl (.inr ⟨_,rfl,rfl⟩)
  rwa [update_eq_self] at hledger

lemma Ledger.effect (hid : g.isProposal id)
    (happroved : (g.proposals id).status = .approved) (htime : g.InTime now id) :
    Ledger ((g.record (.effected id now)).finish now id .executed).roster
      ((g.record (.effected id now)).finish now id .executed).docket := by
  have htally := (h.tally id hid).effect now happroved htime
  have hledger := h.changeProposal htally hid rfl (.inr ⟨_,rfl,rfl⟩)
  rwa [update_eq_self] at hledger

end

end

/-- Where a status can get to. -/
def ProposalStatus.leadsTo : ProposalStatus → ProposalStatus → Bool
  | .voting, st => st ≠ .none
  | .approved, st => st = .approved || st = .executed || st = .expired || st = .failed
  | st, st' => st=st'

lemma ProposalStatus.leadsTo_refl (st : ProposalStatus) : st.leadsTo st := by
  cases st <;> decide

lemma ProposalStatus.leadsTo_trans {a b c : ProposalStatus} (hab : a.leadsTo b) (hbc : b.leadsTo c) : a.leadsTo c := by
  cases a <;> cases b <;> cases hab <;> cases c <;> first | decide | cases hbc

/-- What the calls of one transaction leave as it is, or move forward: under the reentrancy guard a
proposal that is approved and in time stays approved. -/
structure Evolves (now : ℕ) (g g' : Base κ) : Prop where
  expiry : g'.proposalExpiry=g.proposalExpiry
  isProposal : ∀ id, g.isProposal id → g'.isProposal id
  createdAt : ∀ id, g.isProposal id → (g'.proposals id).createdAt = (g.proposals id).createdAt
  status : ∀ id, g.isProposal id → (g.proposals id).status.leadsTo (g'.proposals id).status
  guard : g.reentrancyGuard=1 → g'.reentrancyGuard=1
  held : g.reentrancyGuard=1 → ∀ id, g.isProposal id → (g.proposals id).status = .approved → g.InTime now id →
    (g'.proposals id).status = .approved

namespace Evolves
variable {g g' g'' : Base κ}

lemma inTime_iff (h : Evolves now g g') (hid : g.isProposal id) : g'.InTime now id ↔ g.InTime now id := by
  rw [Base.InTime,Base.InTime,h.createdAt id hid,h.expiry]

lemma trans (h : Evolves now g g') (h' : Evolves now g' g'') : Evolves now g g'' where
  expiry := h'.expiry.trans h.expiry
  isProposal id hid := h'.isProposal id (h.isProposal id hid)
  createdAt id hid := (h'.createdAt id (h.isProposal id hid)).trans (h.createdAt id hid)
  status id hid := leadsTo_trans (h.status id hid) (h'.status id (h.isProposal id hid))
  guard hg := h'.guard (h.guard hg)
  held hg id hid happroved htime :=
    h'.held (h.guard hg) id (h.isProposal id hid) (h.held hg id hid happroved htime) ((h.inTime_iff hid).mpr htime)

lemma of_proposals_eq (hexpiry : g'.proposalExpiry=g.proposalExpiry)
    (hcurrent : g'.currentProposalId=g.currentProposalId) (hproposals : g'.proposals=g.proposals)
    (hguard : g.reentrancyGuard=1 → g'.reentrancyGuard=1) : Evolves now g g' := by
  refine ⟨hexpiry,fun id hid => ?_,fun id _ => ?_,fun id _ => ?_,hguard,fun _ id _ happroved _ => ?_⟩
  · rwa [Base.isProposal,hcurrent]
  · rw [hproposals]
  · rw [hproposals]
    exact leadsTo_refl _
  · rwa [hproposals]

lemma unlock (h : Evolves now g g') (hguard : g.reentrancyGuard≠1) : Evolves now g g'.unlock :=
  ⟨h.expiry,h.isProposal,h.createdAt,h.status,fun hg => absurd hg hguard,fun hg => absurd hg hguard⟩

lemma of_update (hexpiry : g'.proposalExpiry=g.proposalExpiry)
    (hcurrent : g'.currentProposalId=g.currentProposalId) (hguard : g.reentrancyGuard=1 → g'.reentrancyGuard=1)
    (hproposals : g'.proposals = update g.proposals id p) (hcreated : p.createdAt = (g.proposals id).createdAt)
    (hstatus : (g.proposals id).status.leadsTo p.status)
    (hheld : g.reentrancyGuard=1 → (g.proposals id).status = .approved → g.InTime now id → p.status = .approved) :
    Evolves now g g' := by
  refine ⟨hexpiry,fun id' hid' => ?_,fun id' _ => ?_,fun id' _ => ?_,hguard,fun hg id' _ happroved htime => ?_⟩
  · rwa [Base.isProposal,hcurrent]
  all_goals
    rw [hproposals]
    by_cases hne : id' = id
  · subst hne
    rwa [update_self]
  · rw [update_of_ne hne]
  · subst hne
    rwa [update_self]
  · rw [update_of_ne hne]
    exact leadsTo_refl _
  · subst hne
    rw [update_self]
    exact hheld hg happroved htime
  · rwa [update_of_ne hne]

end Evolves

section
variable {D : Derived κ ω σ} {s s' : Contract κ σ} {g : Base κ} {msg : Msg}

lemma Base.evolves_count (approval : Bool) : Evolves now g (g.count now id slot approval) :=
  .of_update rfl rfl (fun hg => hg) rfl rfl (leadsTo_refl _) fun _ happroved _ => happroved

lemma Base.evolves_approved (hopen : (g.proposals id).status.isOpen) : Evolves now g (g.setStatus id .approved) := by
  refine .of_update rfl rfl (fun hg => hg) rfl rfl ?_ fun _ _ _ => rfl
  simp only [ProposalStatus.isOpen,Bool.or_eq_true,decide_eq_true_eq] at hopen
  rcases hopen with hopen | hopen
  · rw [hopen]
    rfl
  · rw [hopen]
    rfl

section
variable (h : Ledger g.roster g.docket) (hid : g.isProposal id) (hcloses : g.Closes now id st)
include h hid hcloses

theorem Base.Closes.approved (happroved : (g.proposals id).status = .approved) :
    st = .expired ∧ ¬ g.InTime now id := by
  cases hcloses with
  | expired _ htime => exact ⟨rfl,htime⟩
  | cancelled hvoting =>
    rw [happroved] at hvoting
    cases hvoting
  | rejected _ hmembers hlost =>
    have hle := (h.tally id hid).rejected_le happroved
    have hsnapshot := h.snapshot_le id
    rw [Nat.mod_eq_of_lt (by omega)] at hlost
    exact absurd hle (Nat.not_le_of_lt hlost)

lemma Base.Closes.evolves : Evolves now g (g.finish now id st) := by
  refine .of_update rfl rfl (fun hg => hg) rfl rfl ?_ fun _ happroved htime => ?_
  · have hopen := hcloses.isOpen
    simp only [ProposalStatus.isOpen,Bool.or_eq_true,decide_eq_true_eq] at hopen
    rcases hopen with hopen | hopen
    · rw [hopen]
      cases hcloses <;> rfl
    · rw [hopen,(hcloses.approved h hid hopen).1]
      rfl
  · exact absurd htime (hcloses.approved h hid happroved).2

end

lemma Base.evolves_create {a : Action κ} : Evolves now g (g.create msg a) := by
  have hother : ∀ id, g.isProposal id → (g.create msg a).proposals id = g.proposals id := by
    intro id hid
    refine update_of_ne (fun he => ?_) _ _
    have hle := (Docket.isProposal_iff (d := g.docket)).mp hid
    exact Nat.not_succ_le_self _ (he ▸ hle.2)
  refine ⟨rfl,fun id hid => ?_,fun id hid => ?_,fun id hid => ?_,fun hg => hg,fun _ id hid happroved _ => ?_⟩
  · obtain ⟨hzero,hle⟩ := (Docket.isProposal_iff (d := g.docket)).mp hid
    exact (Docket.isProposal_iff (d := (g.create msg a).docket)).mpr ⟨hzero,Nat.le_succ_of_le hle⟩
  · rw [hother id hid]
  · rw [hother id hid]
    exact leadsTo_refl _
  · rwa [hother id hid]

lemma Ledger.changeMember {g' : Base κ} {a : Address} (h : Ledger g.roster g.docket)
    (hchange : g.changeMember msg a = .ok g') : Ledger g'.roster g'.docket := by
  have hroll := h.roll.changeMember hchange
  rw [roster_changeMember hchange] at hroll ⊢
  obtain ⟨-,-,-,-,-,rfl⟩ := changeMember_eq_ok hchange
  refine h.changeRoster hroll le_rfl fun v _ => ?_
  simp only [Roster.rotate,update_apply]
  split
  · rename_i hv
    rw [hv,length_set]
    rfl
  · rfl

section
variable (h : Ledger s.gov.roster s.gov.docket)
include h

lemma Ledger.act (hact : Act D now s s') : Ledger s'.gov.roster s'.gov.docket ∧ Evolves now s.gov s'.gov := by
  cases hact with
  | create hactive => exact ⟨h.create _ hactive,evolves_create⟩
  | count hcast => exact ⟨h.count _ hcast,evolves_count _⟩
  | approved hid hopen henough =>
    exact ⟨h.setStatus _ hid (by decide) (fun _ => henough) (status_ne_executed_of_isOpen hopen) (by decide),
      evolves_approved hopen⟩
  | close hid hcloses => exact ⟨h.close hid hcloses,hcloses.evolves h hid⟩
  | changeMember hgov =>
    refine ⟨h.changeMember hgov,?_⟩
    obtain ⟨-,-,-,-,-,rfl⟩ := changeMember_eq_ok hgov
    exact .of_proposals_eq rfl rfl rfl fun hg => hg
  | call | resume => exact ⟨h,.of_proposals_eq rfl rfl rfl fun hg => hg⟩

theorem Ledger.executeInternalAction {a : Option (Action κ)}
    (haction : s.executeInternalAction D msg (fun s => s) a = .ok (success,s')) :
    Ledger s'.gov.roster s'.gov.docket ∧ s'.gov.docket=s.gov.docket ∧ s'.gov.reentrancyGuard=s.gov.reentrancyGuard := by
  have hroll := rosterInvariant_roll.executeInternalAction haction h.roll
  cases Contract.executeInternalAction_performs haction with
  | none | custom => exact ⟨h,rfl,rfl⟩
  | addMember hgov =>
    have hroster := roster_addMember h.roll hgov
    obtain ⟨-,-,-,-,rfl⟩ := addMember_eq_ok hgov
    refine ⟨h.changeRoster hroll (Nat.le_succ _) fun v hv => ?_,rfl,rfl⟩
    rw [hroster]
    exact congrArg List.length (update_of_ne (Nat.ne_of_lt (Nat.lt_succ_of_le hv)) _ _)
  | removeMember hgov =>
    have hroster := roster_removeMember h.roll hgov
    obtain ⟨-,-,rfl⟩ := removeMember_eq_ok hgov
    refine ⟨h.changeRoster hroll (Nat.le_succ _) fun v hv => ?_,rfl,rfl⟩
    rw [hroster]
    exact congrArg List.length (update_of_ne (Nat.ne_of_lt (Nat.lt_succ_of_le hv)) _ _)
  | changeQuorum hgov =>
    obtain ⟨-,rfl⟩ := changeQuorum_eq_ok hgov
    exact ⟨h.changeRoster hroll le_rfl fun _ _ => rfl,rfl,rfl⟩
  | changeMaxProposals hgov =>
    cases changeMaxProposals_eq_ok hgov
    exact ⟨h,rfl,rfl⟩

/-- After the action the proposal is still approved and in time, and it is ended at most once. -/
theorem Ledger.conclude {markFailedOnError : Bool}
    (hid : s.gov.isProposal id) (happroved : (s.gov.proposals id).status = .approved) (htime : s.gov.InTime now id)
    (hconclude : s.conclude D now id markFailedOnError success = .ok s') : Ledger s'.gov.roster s'.gov.docket ∧
      ∃ p, s'.gov.proposals = update s.gov.proposals id p ∧ p.createdAt = (s.gov.proposals id).createdAt ∧
        (s.gov.proposals id).status.leadsTo p.status ∧ s'.gov.proposalExpiry=s.gov.proposalExpiry ∧
        s'.gov.currentProposalId=s.gov.currentProposalId := by
  have hne : (s.gov.proposals id).status ≠ .executed := by simp [happroved]
  unfold Contract.conclude at hconclude
  split at hconclude
  · obtain ⟨own,_,rfl⟩ := Contract.finalizeProposal_eq_ok hconclude
    refine ⟨h.effect hid happroved htime,_,rfl,rfl,?_,rfl,rfl⟩
    rw [happroved]
    rfl
  · split at hconclude
    · obtain ⟨own,_,rfl⟩ := Contract.finalizeProposal_eq_ok hconclude
      refine ⟨h.setStatus _ hid (by decide) (by simp) hne (by decide),_,rfl,rfl,?_,rfl,rfl⟩
      rw [happroved]
      rfl
    · cases hconclude
      refine ⟨h.setStatus _ hid (by decide) (fun _ => ?_) hne (by decide),_,rfl,rfl,?_,rfl,rfl⟩
      · exact (h.tally id hid).enough (.inl happroved)
      · rw [happroved]
        rfl

end

lemma Ledger.run (hrun : Run D now s s') (h : Ledger s.gov.roster s.gov.docket) :
    Ledger s'.gov.roster s'.gov.docket ∧ Evolves now s.gov s'.gov := by
  induction hrun with
  | refl => exact ⟨h,.of_proposals_eq rfl rfl rfl fun hg => hg⟩
  | act _ hact ih =>
    obtain ⟨hledger,hevolves⟩ := ih h
    obtain ⟨hledger',hevolves'⟩ := hledger.act hact
    exact ⟨hledger',hevolves.trans hevolves'⟩
  | @retire s₀ s s' id st _ hguard hid happroved hretires hfinal ih =>
    obtain ⟨hledger,hevolves⟩ := ih h
    obtain ⟨own,_,rfl⟩ := Contract.finalizeProposal_eq_ok hfinal
    refine ⟨hledger.retire hid happroved hretires,hevolves.trans ?_⟩
    refine .of_update rfl rfl (fun hg => absurd hg hguard) rfl rfl ?_ fun hg => absurd hg hguard
    rw [happroved]
    cases hretires <;> rfl
  | @perform s₀ s s₁ s₂ s₃ sender id markFailedOnError success _ hguard hready hinner haction hconclude ih ihinner =>
    obtain ⟨hledger,hevolves⟩ := ih h
    have hstart : Evolves now s.gov (s.gov.lock.attempt now id) :=
      .of_proposals_eq rfl rfl rfl fun hg => absurd hg hguard
    obtain ⟨hledger₁,hinner⟩ := ihinner (hledger.attempt hready)
    obtain ⟨hledger₂,hdocket,hguard₂⟩ := hledger₁.executeInternalAction haction
    have hproposals : s₂.gov.proposals=s₁.gov.proposals := congrArg Docket.proposals hdocket
    have haction' : Evolves now s₁.gov s₂.gov :=
      .of_proposals_eq (congrArg Docket.proposalExpiry hdocket) (congrArg Docket.currentProposalId hdocket) hproposals
        fun hg => hguard₂.trans hg
    have hbefore := (hstart.trans hinner).trans haction'
    -- the calls back into the contract have left the proposal approved
    have happroved : (s₂.gov.proposals id).status = .approved := by
      rw [hproposals]
      exact hinner.held rfl id hready.isProposal hready.isApproved hready.inTime
    obtain ⟨hledger₃,p,hp,hcreated,hstatus,hexpiry,hcurrent⟩ := hledger₂.conclude
      (hbefore.isProposal id hready.isProposal) happroved ((hbefore.inTime_iff hready.isProposal).mpr hready.inTime)
      hconclude
    refine ⟨hledger₃,hevolves.trans ((hbefore.unlock hguard).trans ?_)⟩
    exact .of_update hexpiry hcurrent (fun hg => by cases hg) hp hcreated hstatus fun hg => by cases hg

end

section
open Genesis

lemma ledger_base {c : BaseConfig} {param : Params} {address : Address} (hc : c.Valid param) :
    Ledger (c.base address : Base κ).roster (c.base address : Base κ).docket := by
  have hcurrent : (c.base address : Base κ).currentProposalId=0 := BaseConfig.read_unused (by decide)
  have hnone : ∀ id, ¬ (c.base address : Base κ).docket.isProposal id := fun id hid => by
    obtain ⟨hzero,hle⟩ := Docket.isProposal_iff.mp hid
    exact hzero (Nat.le_zero.mp (hcurrent ▸ hle))
  refine ⟨roll_base hc,fun id hid => absurd hid (hnone id),fun id _ => ⟨rfl,rfl,rfl,?_⟩,
    fun id hid => absurd hid (hnone id)⟩
  exact BaseConfig.read_unused (by simp)

structure Lifecycle (g : Base κ) (id : ℕ) : Prop where
  popCount_eq : popCount (g.proposals id).votedBitmap = (g.proposals id).approved+(g.proposals id).rejected
  popCount_le : popCount (g.proposals id).votedBitmap ≤ (g.snapshot id).length
  approved_eq : (g.proposals id).approved = approvals id g.records
  rejected_eq : (g.proposals id).rejected = rejections id g.records
  nodup : ((votes id g.records).map Vote.slot).Nodup
  inTime : ∀ v ∈ votes id g.records, v.slot<(g.snapshot id).length ∧
    v.time ≤ (g.proposals id).createdAt+g.proposalExpiry
  threshold : (g.proposals id).requiredApprovals ≤ (g.snapshot id).length%2^32
  effects_le : effects id g.records ≤ 1
  effected : ∀ newer older time, g.records = newer++.effected id time::older →
    (g.proposals id).requiredApprovals ≤ approvals id older ∧
      time ≤ (g.proposals id).createdAt+g.proposalExpiry
  attempts_le : attempts id g.records ≤ 3

lemma Ledger.lifecycle {g : Base κ} (h : Ledger g.roster g.docket) (hid : g.isProposal id) : Lifecycle g id := by
  have htally := h.tally id hid
  have hsnapshot := h.snapshot_le id
  have hpop := htally.popCount_eq hsnapshot
  refine ⟨hpop,?_,htally.approved_eq,htally.rejected_eq,htally.nodup,
    fun v hv => ⟨htally.slot_lt v hv,htally.inTime v hv⟩,?_,?_,htally.effected,?_⟩
  · rw [show popCount (g.proposals id).votedBitmap = _ from hpop.trans htally.approved_add_rejected]
    exact htally.length_votes_le
  · rw [Nat.mod_eq_of_lt (by omega)]
    exact htally.required_le
  · rw [show effects id g.records = _ from htally.effects_eq]
    split <;> decide
  · rw [show attempts id g.records = _ from htally.attempts_eq]
    exact htally.attempts_le

lemma Ledger.runCalls {D : Derived κ ω σ} {s : Contract κ σ} (h : Ledger s.gov.roster s.gov.docket)
    (calls : List (ℕ × Call ω)) : Ledger (runCalls D calls s).gov.roster (runCalls D calls s).gov.docket ∧
      ∀ id, s.gov.isProposal id → (runCalls D calls s).gov.isProposal id ∧
        (s.gov.proposals id).status.leadsTo ((runCalls D calls s).gov.proposals id).status := by
  refine runCalls_induction (D := D) (I := fun s' => Ledger s'.gov.roster s'.gov.docket ∧
    ∀ id, s.gov.isProposal id → s'.gov.isProposal id ∧
      (s.gov.proposals id).status.leadsTo (s'.gov.proposals id).status) ?_ ?_
  · rintro now s₁ s₂ hrun ⟨hledger,hleads⟩
    obtain ⟨hledger',hevolves⟩ := hledger.run hrun
    refine ⟨hledger',fun id hid => ?_⟩
    obtain ⟨hid₁,hlead⟩ := hleads id hid
    exact ⟨hevolves.isProposal id hid₁,leadsTo_trans hlead (hevolves.status id hid₁)⟩
  · exact ⟨h,fun id hid => ⟨hid,leadsTo_refl _⟩⟩

lemma ProposalStatus.eq_of_isTerminal {st' : ProposalStatus} (hterminal : st.isTerminal)
    (h : st.leadsTo st') : st'=st := by
  cases st <;> cases hterminal <;> exact (of_decide_eq_true h).symm

/-- After every history of calls each proposal is as described, and in every continuation a terminal
status stays and an approved proposal is never rejected. -/
theorem lifecycle_runCalls (D : Derived κ ω σ) {address : Address} {param : Params} {states : List StateParam}
    (h : initializeBase address param = .ok states) (own : σ) (calls calls' : List (ℕ × Call ω)) :
    let s := runCalls D calls ⟨baseOfStorage (storageOf address states),own⟩
    let s' := runCalls D calls' s
    ∀ id, s.gov.isProposal id → Lifecycle s.gov id ∧
      ((s.gov.proposals id).status.isTerminal → (s'.gov.proposals id).status = (s.gov.proposals id).status) ∧
      ((s.gov.proposals id).status = .approved → (s'.gov.proposals id).status ≠ .rejected) := by
  intro s s' id hid
  obtain ⟨c,hc,rfl⟩ := initializeBase_eq_ok h
  have hledger : Ledger s.gov.roster s.gov.docket := (Ledger.runCalls (D := D) (ledger_base hc) calls).1
  have hleads := ((hledger.runCalls (D := D) calls').2 id hid).2
  refine ⟨hledger.lifecycle hid,fun hterminal => ProposalStatus.eq_of_isTerminal hterminal hleads,
    fun happroved hrejected => ?_⟩
  rw [happroved,show (s'.gov.proposals id).status = .rejected from hrejected] at hleads
  cases hleads

end

namespace ThreeMembers
open Genesis

/-- The proposer changes its address and votes again from the same slot, in vain. -/
def rotated : List (ℕ × Call Empty) :=
  [(10,.mk 1 (.proposeChangeQuorum 3) []),(20,.mk 1 (.changeMember 5) []),(30,.mk 5 (.approveProposal 1) []),
    (40,.mk 2 (.approveProposal 1) [])]

theorem lifecycle_rotated : ∃ states, initializeBase 7 (param "1") = .ok states ∧
      Lifecycle (runCalls Derived.default rotated ⟨baseOfStorage (storageOf 7 states),()⟩).gov 1 ∧
      ((runCalls Derived.default rotated ⟨baseOfStorage (storageOf 7 states),()⟩).gov.proposals 1).approved = 2 ∧
      (runCalls Derived.default rotated ⟨baseOfStorage (storageOf 7 states),()⟩).gov.quorum = 3 := by
  obtain ⟨states,hstates,h⟩ := exists_of_holds (x := initializeBase 7 (param "1"))
    (P := fun states =>
      (runCalls Derived.default rotated ⟨baseOfStorage (storageOf 7 states),()⟩).gov.isProposal 1 &&
      (((runCalls Derived.default rotated ⟨baseOfStorage (storageOf 7 states),()⟩).gov.proposals 1).approved = 2 &&
      (runCalls Derived.default rotated ⟨baseOfStorage (storageOf 7 states),()⟩).gov.quorum = 3))
    (by decide +kernel)
  simp only [Bool.and_eq_true,decide_eq_true_eq] at h
  exact ⟨states,hstates,(lifecycle_runCalls Derived.default hstates () rotated [] 1 h.1).1,h.2⟩

end ThreeMembers

end StableNet.Gov
