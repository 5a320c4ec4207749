import StableNet.Gov.Base
import Mathlib.Logic.Relation

/-! What a call can do to the storage: every function is a chain of few kinds of steps, and an invariant of them holds
after every history of calls. -/
namespace StableNet.Gov
open Chain (Address)
open Lib Contract Base
variable {κ ω σ : Type}
variable {g : Base κ} {id d now slot : ℕ} {D : Derived κ ω σ} {st : ProposalStatus} {a : Option (Action κ)}
  {r : Bool × Contract κ σ} {success autoExecute : Bool} {op : Op ω}

namespace Base

def InTime (g : Base κ) (now id : ℕ) : Prop := now ≤ (g.proposals id).createdAt+g.proposalExpiry

/-- A vote from a slot of the snapshot counts. -/
structure Casts (g : Base κ) (now : ℕ) (sender : Address) (id slot : ℕ) : Prop where
  isProposal : g.isProposal id
  isOpen : (g.proposals id).status.isOpen
  inTime : g.InTime now id
  index : g.getMemberIndexAtVersion sender (g.proposals id).memberVersion = slot
  slot_lt : slot<(g.snapshot id).length
  slot_le : slot ≤ maxMemberIndex
  fresh : (g.proposals id).votedBitmap &&& bit slot=0

/-- Why a proposal ends without taking effect. -/
inductive Closes (g : Base κ) (now id : ℕ) : ProposalStatus → Prop
  | expired (hopen : (g.proposals id).status.isOpen) (htime : ¬ g.InTime now id) : Closes g now id .expired
  | cancelled (hvoting : (g.proposals id).status = .voting) (happroved : (g.proposals id).approved ≤ 1)
      (hrejected : (g.proposals id).rejected=0) : Closes g now id .cancelled
  | rejected (hopen : (g.proposals id).status.isOpen)
      (hmembers : (g.proposals id).requiredApprovals ≤ (g.snapshot id).length%2^32)
      (hlost : (g.snapshot id).length%2^32-(g.proposals id).requiredApprovals <
        (g.proposals id).rejected) : Closes g now id .rejected

/-- Why the execution of an approved proposal ends it without another attempt. -/
inductive Retires (g : Base κ) (now id : ℕ) : ProposalStatus → Prop
  | expired (htime : ¬ g.InTime now id) : Retires g now id .expired
  | failed (hretries : maxRetryCount ≤ g.proposalExecutionCount id) : Retires g now id .failed

/-- The action of a proposal may be tried. -/
structure Ready (g : Base κ) (now id : ℕ) : Prop where
  isProposal : g.isProposal id
  isApproved : (g.proposals id).status = .approved
  enough : (g.proposals id).requiredApprovals ≤ (g.proposals id).approved
  inTime : g.InTime now id
  retries : g.proposalExecutionCount id < maxRetryCount

lemma deadline_eq_ok (h : g.deadline id = .ok d) : d = (g.proposals id).createdAt+g.proposalExpiry := by
  unfold deadline at h
  dsimp only at h
  split at h
  · cases h
    rfl
  · cases h

lemma inTime_of_deadline (h : g.deadline id = .ok d) (hd : ¬ d<now) : g.InTime now id := by
  rw [deadline_eq_ok h] at hd
  exact Nat.le_of_not_lt hd

lemma not_inTime_of_deadline (h : g.deadline id = .ok d) (hd : d<now) : ¬ g.InTime now id := by
  rw [deadline_eq_ok h] at hd
  exact Nat.not_le_of_lt hd

lemma status_count (g : Base κ) (now id slot : ℕ) (approval : Bool) :
    ((g.count now id slot approval).proposals id).status = (g.proposals id).status := by
  simp [count,record,modify]

end Base

/-- The execution of an approved proposal. While its action runs, the relation `inner` holds between the
storage before and after the calls back into the contract. -/
inductive Executes (D : Derived κ ω σ) (now : ℕ) (inner : Contract κ σ → Contract κ σ → Prop) (id : ℕ)
    (markFailedOnError : Bool) : Contract κ σ → Contract κ σ → Prop
  | retire {s s' : Contract κ σ} {st : ProposalStatus}
      (hguard : s.gov.reentrancyGuard≠1) (hid : s.gov.isProposal id)
      (happroved : (s.gov.proposals id).status = .approved) (hretires : s.gov.Retires now id st)
      (hfinal : (s.mapGov Base.lock).finalizeProposal D now id st = .ok s') :
      Executes D now inner id markFailedOnError s (s'.mapGov Base.unlock)
  | perform {s s₁ s₂ s₃ : Contract κ σ} {sender : Address} {success : Bool}
      (hguard : s.gov.reentrancyGuard≠1) (hready : s.gov.Ready now id)
      (hinner : inner (s.mapGov fun g => g.lock.attempt now id) s₁)
      (haction : s₁.executeInternalAction D ⟨sender,now⟩ (fun s => s) (s.gov.proposals id).action =
        .ok (success,s₂))
      (hconclude : s₂.conclude D now id markFailedOnError success = .ok s₃) :
      Executes D now inner id markFailedOnError s (s₃.mapGov Base.unlock)

/-- What happens to proposals and members: a step of voting or execution. -/
inductive Move (D : Derived κ ω σ) (now : ℕ) (inner : Contract κ σ → Contract κ σ → Prop) :
    Contract κ σ → Contract κ σ → Prop
  | count {s : Contract κ σ} {sender : Address} {id slot : ℕ} {approval : Bool}
      (hcast : s.gov.Casts now sender id slot) : Move D now inner s (s.mapGov (·.count now id slot approval))
  | approved {s : Contract κ σ} {id : ℕ} (hid : s.gov.isProposal id)
      (hopen : (s.gov.proposals id).status.isOpen)
      (henough : (s.gov.proposals id).requiredApprovals ≤ (s.gov.proposals id).approved) :
      Move D now inner s (s.mapGov (·.setStatus id .approved))
  | close {s : Contract κ σ} {id : ℕ} {st : ProposalStatus} {own : σ} (hid : s.gov.isProposal id)
      (hcloses : s.gov.Closes now id st)
      (hown : D.onProposalFinalized (s.gov.finish now id st) id s.own = .ok own) :
      Move D now inner s ⟨s.gov.finish now id st,own⟩
  | changeMember {s : Contract κ σ} {sender newMember : Address} {gov : Base κ} {own : σ}
      (hgov : s.gov.changeMember ⟨sender,now⟩ newMember = .ok gov)
      (hown : D.onMemberChanged gov sender newMember s.own = .ok own) : Move D now inner s ⟨gov,own⟩
  | execute {s s' : Contract κ σ} {id : ℕ} {markFailedOnError : Bool}
      (h : Executes D now inner id markFailedOnError s s') : Move D now inner s s'

abbrev Moves (D : Derived κ ω σ) (now : ℕ) (inner : Contract κ σ → Contract κ σ → Prop) :
    Contract κ σ → Contract κ σ → Prop := Relation.ReflTransGen (Move D now inner)

/-- A single change of the storage outside the execution of a proposal. -/
inductive Act (D : Derived κ ω σ) (now : ℕ) : Contract κ σ → Contract κ σ → Prop
  | create {s : Contract κ σ} {sender : Address} {a : Action κ} (hactive : (s.gov.members sender).isActive)
      (hroom : s.gov.memberActiveProposalCount sender<s.gov.maxActiveProposalsPerMember) :
      Act D now s (s.mapGov (·.create ⟨sender,now⟩ a))
  | count {s : Contract κ σ} {sender : Address} {id slot : ℕ} {approval : Bool}
      (hcast : s.gov.Casts now sender id slot) : Act D now s (s.mapGov (·.count now id slot approval))
  | approved {s : Contract κ σ} {id : ℕ} (hid : s.gov.isProposal id)
      (hopen : (s.gov.proposals id).status.isOpen)
      (henough : (s.gov.proposals id).requiredApprovals ≤ (s.gov.proposals id).approved) :
      Act D now s (s.mapGov (·.setStatus id .approved))
  | close {s : Contract κ σ} {id : ℕ} {st : ProposalStatus} {own : σ} (hid : s.gov.isProposal id)
      (hcloses : s.gov.Closes now id st)
      (hown : D.onProposalFinalized (s.gov.finish now id st) id s.own = .ok own) :
      Act D now s ⟨s.gov.finish now id st,own⟩
  | changeMember {s : Contract κ σ} {sender newMember : Address} {gov : Base κ} {own : σ}
      (hgov : s.gov.changeMember ⟨sender,now⟩ newMember = .ok gov)
      (hown : D.onMemberChanged gov sender newMember s.own = .ok own) : Act D now s ⟨gov,own⟩
  | call {s : Contract κ σ} {sender : Address} {o : ω} {own : σ} {next : Next κ}
      (hown : D.call o ⟨sender,now⟩ s.gov s.own = .ok (own,next)) : Act D now s ⟨s.gov,own⟩
  | resume {s : Contract κ σ} {sender : Address} {o : ω} {id : ℕ} {own : σ}
      (hown : D.resume o id ⟨sender,now⟩ s.gov s.own = .ok own) : Act D now s ⟨s.gov,own⟩

/-- What the calls of one transaction can do to the storage. -/
inductive Run (D : Derived κ ω σ) (now : ℕ) : Contract κ σ → Contract κ σ → Prop
  | refl (s : Contract κ σ) : Run D now s s
  | act {s₀ s s' : Contract κ σ} (hrun : Run D now s₀ s) (hact : Act D now s s') : Run D now s₀ s'
  | retire {s₀ s s' : Contract κ σ} {id : ℕ} {st : ProposalStatus} (hrun : Run D now s₀ s)
      (hguard : s.gov.reentrancyGuard≠1) (hid : s.gov.isProposal id)
      (happroved : (s.gov.proposals id).status = .approved) (hretires : s.gov.Retires now id st)
      (hfinal : (s.mapGov Base.lock).finalizeProposal D now id st = .ok s') :
      Run D now s₀ (s'.mapGov Base.unlock)
  | perform {s₀ s s₁ s₂ s₃ : Contract κ σ} {sender : Address} {id : ℕ} {markFailedOnError success : Bool}
      (hrun : Run D now s₀ s) (hguard : s.gov.reentrancyGuard≠1) (hready : s.gov.Ready now id)
      (hinner : Run D now (s.mapGov fun g => g.lock.attempt now id) s₁)
      (haction : s₁.executeInternalAction D ⟨sender,now⟩ (fun s => s) (s.gov.proposals id).action =
        .ok (success,s₂))
      (hconclude : s₂.conclude D now id markFailedOnError success = .ok s₃) :
      Run D now s₀ (s₃.mapGov Base.unlock)

namespace Run
variable {s s' : Contract κ σ}

lemma of_act (h : Act D now s s') : Run D now s s' := .act (.refl s) h

lemma trans {s'' : Contract κ σ} (h : Run D now s s') (h' : Run D now s' s'') : Run D now s s'' := by
  induction h' with
  | refl => exact h
  | act _ hact ih => exact .act (ih h) hact
  | retire _ hguard hid happroved hretires hfinal ih =>
    exact .retire (ih h) hguard hid happroved hretires hfinal
  | perform _ hguard hready hinner haction hconclude ih _ =>
    exact .perform (ih h) hguard hready hinner haction hconclude

end Run

/-- The calls back into the contract are covered by the relation `inner`. -/
structure Admits (D : Derived κ ω σ) (inner : Contract κ σ → Contract κ σ → Prop)
    (reenter : Contract κ σ → Contract κ σ) : Prop where
  refl : ∀ s, inner s s
  reenter : D.reenters → ∀ s, inner s (reenter s)

lemma Admits.eq (h : D.reenters=false) (reenter : Contract κ σ → Contract κ σ) :
    Admits D Eq reenter := ⟨fun _ => rfl,fun hr => by simp [h] at hr⟩

lemma Moves.run {s s' : Contract κ σ} (h : Moves D now (Run D now) s s') : Run D now s s' := by
  induction h with
  | refl => exact .refl s
  | tail _ hmove ih =>
    cases hmove with
    | count hcast => exact .act ih (.count hcast)
    | approved hid hopen henough => exact .act ih (.approved hid hopen henough)
    | close hid hcloses hown => exact .act ih (.close hid hcloses hown)
    | changeMember hgov hown => exact .act ih (.changeMember hgov hown)
    | execute h =>
      cases h with
      | retire hguard hid happroved hretires hfinal => exact .retire ih hguard hid happroved hretires hfinal
      | perform hguard hready hinner haction hconclude => exact .perform ih hguard hready hinner haction hconclude

namespace Contract
variable {inner : Contract κ σ → Contract κ σ → Prop} {s s' : Contract κ σ} {sender : Address}
  {reenter : Contract κ σ → Contract κ σ}
variable {msg : Msg}

lemma finalizeProposal_eq_ok (h : s.finalizeProposal D now id st = .ok s') :
    ∃ own, D.onProposalFinalized (s.gov.finish now id st) id s.own = .ok own ∧ s' = ⟨s.gov.finish now id st,own⟩ := by
  obtain ⟨own,hown,h⟩ := bind_eq_ok.mp h
  cases h
  exact ⟨own,hown,rfl⟩

lemma finalizeProposal_move (hid : s.gov.isProposal id)
    (hcloses : s.gov.Closes now id st) (h : s.finalizeProposal D now id st = .ok s') : Move D now inner s s' := by
  obtain ⟨own,hown,rfl⟩ := finalizeProposal_eq_ok h
  exact .close hid hcloses hown

theorem executeInternalAction_eq_ok (hinner : Admits D inner reenter)
    (h : s.executeInternalAction D msg reenter a = .ok r) :
    ∃ s₁, inner s s₁ ∧ s₁.executeInternalAction D msg (fun s => s) a = .ok r := by
  cases a with
  | none => exact ⟨s,hinner.refl s,h⟩
  | some a =>
    cases a with
    | addMember | removeMember | changeQuorum | changeMaxProposals => exact ⟨s,hinner.refl s,h⟩
    | custom k =>
      simp only [executeInternalAction] at h ⊢
      split at h
      · rename_i hr
        exact ⟨reenter s,hinner.reenter hr s,by simpa using h⟩
      · exact ⟨s,hinner.refl s,by simpa using h⟩

lemma executeCustom_eq_ok {k : κ}
    (h : s.executeInternalAction D msg (fun s => s) (some (.custom k)) = .ok (success,s')) :
    ∃ own, D.executeCustomAction msg s.gov k s.own = .ok (success,own) ∧ s' = ⟨s.gov,own⟩ := by
  simp only [executeInternalAction,ite_self] at h
  obtain ⟨⟨success',own⟩,hown,h⟩ := bind_eq_ok.mp h
  cases h
  exact ⟨own,hown,rfl⟩

/-- What an action does, after the calls back into the contract. -/
inductive Performs (D : Derived κ ω σ) (msg : Msg) (s : Contract κ σ) :
    Option (Action κ) → Bool → Contract κ σ → Prop
  | none : Performs D msg s none false s
  | addMember {newMember : Address} {newQuorum : ℕ} {gov : Base κ} {own : σ}
      (hgov : s.gov.addMember msg.timestamp newMember newQuorum = .ok gov)
      (hown : D.onMemberAdded gov newMember s.own = .ok own) :
      Performs D msg s (some (.addMember newMember newQuorum)) true ⟨gov.snapshotQuorum newQuorum,own⟩
  | removeMember {member : Address} {newQuorum : ℕ} {gov : Base κ} {own : σ}
      (hgov : s.gov.removeMember member newQuorum = .ok gov) (hown : D.onMemberRemoved gov member s.own = .ok own) :
      Performs D msg s (some (.removeMember member newQuorum)) true ⟨gov.snapshotQuorum newQuorum,own⟩
  | changeQuorum {newQuorum : ℕ} {gov : Base κ} (hgov : s.gov.changeQuorum newQuorum = .ok gov) :
      Performs D msg s (some (.changeQuorum newQuorum)) true ⟨gov,s.own⟩
  | changeMaxProposals {newMax : ℕ} {gov : Base κ} (hgov : s.gov.changeMaxProposals newMax = .ok gov) :
      Performs D msg s (some (.changeMaxProposals newMax)) true ⟨gov,s.own⟩
  | custom {k : κ} {success : Bool} {own : σ} (hown : D.executeCustomAction msg s.gov k s.own = .ok (success,own)) :
      Performs D msg s (some (.custom k)) success ⟨s.gov,own⟩

lemma executeInternalAction_performs (h : s.executeInternalAction D msg (fun s => s) a = .ok (success,s')) :
    Performs D msg s a success s' := by
  cases a with
  | none =>
    cases h
    exact .none
  | some a =>
    cases a with
    | addMember newMember newQuorum =>
      obtain ⟨gov,hgov,h⟩ := bind_eq_ok.mp h
      obtain ⟨own,hown,h⟩ := bind_eq_ok.mp h
      cases h
      exact .addMember hgov hown
    | removeMember member newQuorum =>
      obtain ⟨gov,hgov,h⟩ := bind_eq_ok.mp h
      obtain ⟨own,hown,h⟩ := bind_eq_ok.mp h
      cases h
      exact .removeMember hgov hown
    | changeQuorum newQuorum =>
      obtain ⟨gov,hgov,h⟩ := bind_eq_ok.mp h
      cases h
      exact .changeQuorum hgov
    | changeMaxProposals newMax =>
      obtain ⟨gov,hgov,h⟩ := bind_eq_ok.mp h
      cases h
      exact .changeMaxProposals hgov
    | custom k =>
      obtain ⟨own,hown,rfl⟩ := executeCustom_eq_ok h
      exact .custom hown

lemma executeProposal_executes {markFailedOnError : Bool} (hinner : Admits D inner reenter)
    (h : s.executeProposal D ⟨sender,now⟩ reenter id markFailedOnError = .ok r) :
    Executes D now inner id markFailedOnError s r.2 := by
  obtain ⟨_,hguard,h⟩ := bind_eq_ok.mp h
  have hguard : s.gov.reentrancyGuard≠1 := by simpa using require_eq_ok.mp hguard
  obtain ⟨done,hdone,h⟩ := bind_eq_ok.mp h
  cases h
  obtain ⟨_,hid,h⟩ := bind_eq_ok.mp hdone
  obtain ⟨_,happroved,h⟩ := bind_eq_ok.mp h
  obtain ⟨_,henough,h⟩ := bind_eq_ok.mp h
  obtain ⟨deadline,hdeadline,h⟩ := bind_eq_ok.mp h
  have hid := require_eq_ok.mp hid
  have happroved := of_decide_eq_true (require_eq_ok.mp happroved)
  have henough := of_decide_eq_true (require_eq_ok.mp henough)
  split at h
  · rename_i hexpired
    obtain ⟨s₁,hs₁,h⟩ := bind_eq_ok.mp h
    cases h
    exact .retire hguard hid happroved (.expired (not_inTime_of_deadline hdeadline hexpired)) hs₁
  · rename_i hexpired
    split at h
    · rename_i hretries
      obtain ⟨s₁,hs₁,h⟩ := bind_eq_ok.mp h
      cases h
      exact .retire hguard hid happroved (.failed hretries) hs₁
    · rename_i hretries
      obtain ⟨⟨success,s₂⟩,haction,h⟩ := bind_eq_ok.mp h
      obtain ⟨s₃,hconclude,h⟩ := bind_eq_ok.mp h
      cases h
      obtain ⟨s₁,hs₁,haction⟩ := executeInternalAction_eq_ok hinner haction
      exact .perform hguard
        ⟨hid,happroved,henough,inTime_of_deadline hdeadline hexpired,Nat.lt_of_not_le hretries⟩
        hs₁ haction hconclude

lemma map_snd_eq_ok {x : Except Revert (Bool × Contract κ σ)} (h : x.map Prod.snd = .ok s') : ∃ b, x = .ok (b,s') := by
  cases x with
  | error e => cases h
  | ok r =>
    cases h
    exact ⟨r.1,rfl⟩

lemma approve_moves (hinner : Admits D inner reenter) (hcast : s.gov.Casts now sender id slot)
    (h : s.approve D ⟨sender,now⟩ reenter id slot autoExecute = .ok s') : Moves D now inner s s' := by
  have hcounted : Moves D now inner s (s.mapGov (·.count now id slot true)) := .single (.count hcast)
  unfold approve at h
  dsimp only at h
  split at h
  · rename_i henough
    have hopen : ((s.gov.count now id slot true).proposals id).status.isOpen := by
      rw [status_count]
      exact hcast.isOpen
    have happroved := hcounted.tail (.approved hcast.isProposal hopen henough)
    split at h
    · obtain ⟨b,hexecute⟩ := map_snd_eq_ok h
      exact happroved.tail (.execute (executeProposal_executes hinner hexecute))
    · cases h
      exact happroved
  · cases h
    exact hcounted

lemma reject_moves (hcast : s.gov.Casts now sender id slot)
    (h : s.reject D now id slot = .ok s') : Moves D now inner s s' := by
  have hcounted : Moves D now inner s (s.mapGov (·.count now id slot false)) := .single (.count hcast)
  obtain ⟨_,hmembers,h⟩ := bind_eq_ok.mp h
  split at h
  · rename_i hlost
    have hopen : ((s.gov.count now id slot false).proposals id).status.isOpen := by
      rw [status_count]
      exact hcast.isOpen
    exact hcounted.tail (finalizeProposal_move hcast.isProposal
      (.rejected hopen (of_decide_eq_true (require_eq_ok.mp hmembers)) hlost) h)
  · cases h
    exact hcounted

lemma vote_moves {approved : Bool} (hinner : Admits D inner reenter)
    (h : s.vote D ⟨sender,now⟩ reenter id approved autoExecute = .ok s') : Moves D now inner s s' := by
  obtain ⟨_,hid,h⟩ := bind_eq_ok.mp h
  obtain ⟨_,hopen,h⟩ := bind_eq_ok.mp h
  obtain ⟨deadline,hdeadline,h⟩ := bind_eq_ok.mp h
  have hid := require_eq_ok.mp hid
  have hopen := require_eq_ok.mp hopen
  split at h
  · rename_i hexpired
    exact .single (finalizeProposal_move hid (.expired hopen (not_inTime_of_deadline hdeadline hexpired)) h)
  · rename_i hexpired
    obtain ⟨_,hslot,h⟩ := bind_eq_ok.mp h
    obtain ⟨_,hmax,h⟩ := bind_eq_ok.mp h
    obtain ⟨_,hfresh,h⟩ := bind_eq_ok.mp h
    have hcast : s.gov.Casts now sender id _ :=
      ⟨hid,hopen,inTime_of_deadline hdeadline hexpired,rfl,of_decide_eq_true (require_eq_ok.mp hslot),
        of_decide_eq_true (require_eq_ok.mp hmax),of_decide_eq_true (require_eq_ok.mp hfresh)⟩
    split at h
    · exact approve_moves hinner hcast h
    · exact reject_moves hcast h

lemma createProposal_moves {a : Action κ} (hinner : Admits D inner reenter)
    (h : s.createProposal D ⟨sender,now⟩ reenter a = .ok s') : Act D now s (s.mapGov (·.create ⟨sender,now⟩ a)) ∧
      Moves D now inner (s.mapGov (·.create ⟨sender,now⟩ a)) s' := by
  obtain ⟨_,hactive,h⟩ := bind_eq_ok.mp h
  obtain ⟨_,h⟩ := ok_of_bind h
  obtain ⟨_,hroom,h⟩ := bind_eq_ok.mp h
  exact ⟨.create (require_eq_ok.mp hactive) (of_decide_eq_true (require_eq_ok.mp hroom)),vote_moves hinner h⟩

lemma cancelProposal_move (hid : s.gov.isProposal id)
    (h : s.cancelProposal D ⟨sender,now⟩ id = .ok s') : Move D now inner s s' := by
  obtain ⟨_,hvoting,h⟩ := bind_eq_ok.mp h
  obtain ⟨_,h⟩ := ok_of_bind h
  obtain ⟨_,hvotes,h⟩ := bind_eq_ok.mp h
  have hvotes := of_decide_eq_true (require_eq_ok.mp hvotes)
  exact finalizeProposal_move hid
    (.cancelled (of_decide_eq_true (require_eq_ok.mp hvoting)) hvotes.1 hvotes.2) h

lemma expireProposal_moves (hid : s.gov.isProposal id)
    (h : s.expireProposal D ⟨sender,now⟩ id = .ok s') : Moves D now inner s s' := by
  unfold expireProposal at h
  split at h
  · rename_i hopen
    obtain ⟨deadline,hdeadline,h⟩ := bind_eq_ok.mp h
    split at h
    · cases h
      exact .refl
    · rename_i hexpired
      exact .single (finalizeProposal_move hid
        (.expired hopen (not_inTime_of_deadline hdeadline (Nat.lt_of_not_le hexpired))) h)
  · cases h
    exact .refl

lemma changeMember_move {newMember : Address} (h : s.changeMember D ⟨sender,now⟩ newMember = .ok s') :
    Move D now inner s s' := by
  obtain ⟨gov,hgov,h⟩ := bind_eq_ok.mp h
  obtain ⟨own,hown,h⟩ := bind_eq_ok.mp h
  cases h
  exact .changeMember hgov hown

end Contract

variable {inner : Contract κ σ → Contract κ σ → Prop}

namespace Op
variable {s s' : Contract κ σ} {sender : Address} {reenter : Contract κ σ → Contract κ σ}

/-- What a function of `GovBase` does: it votes, executes or ends proposals, or it first creates one for a
change of the governance itself. -/
inductive Leads (D : Derived κ ω σ) (now : ℕ) (inner : Contract κ σ → Contract κ σ → Prop) (s s' : Contract κ σ) : Prop
  | moves (h : Moves D now inner s s')
  | proposes {sender : Address} {a : Action κ} (hown : ∀ k, a ≠ .custom k)
      (hcreate : Act D now s (s.mapGov (·.create ⟨sender,now⟩ a)))
      (h : Moves D now inner (s.mapGov (·.create ⟨sender,now⟩ a)) s')

lemma propose_leads {a : Action κ} (hown : ∀ k, a ≠ .custom k) (hinner : Admits D inner reenter)
    (h : propose D ⟨sender,now⟩ reenter a s = .ok s') : Leads D now inner s s' := by
  obtain ⟨_,h⟩ := ok_of_bind h
  obtain ⟨_,h⟩ := ok_of_bind h
  obtain ⟨hcreate,hmoves⟩ := createProposal_moves hinner h
  exact .proposes hown hcreate hmoves

lemma isProposal_of_checkProposalMembership {u : Unit}
    (h : g.checkProposalMembership sender id = .ok u) : g.isProposal id := by
  obtain ⟨_,hid,_⟩ := bind_eq_ok.mp h
  exact require_eq_ok.mp hid

lemma run_leads (hop : ∀ o, op ≠ .derived o) (hinner : Admits D inner reenter)
    (h : op.run D ⟨sender,now⟩ reenter s = .ok s') : Leads D now inner s s' := by
  cases op with
  | approveProposal | disapproveProposal =>
    obtain ⟨_,h⟩ := ok_of_bind h
    exact .moves (vote_moves hinner h)
  | executeProposal | executeWithFailure =>
    obtain ⟨_,h⟩ := ok_of_bind h
    obtain ⟨b,h⟩ := map_snd_eq_ok h
    exact .moves (.single (.execute (executeProposal_executes hinner h)))
  | cancelProposal id =>
    obtain ⟨_,hid,h⟩ := bind_eq_ok.mp h
    exact .moves (.single (cancelProposal_move (isProposal_of_checkProposalMembership hid) h))
  | expireProposal id =>
    obtain ⟨_,hid,h⟩ := bind_eq_ok.mp h
    exact .moves (expireProposal_moves (isProposal_of_checkProposalMembership hid) h)
  | proposeAddMember | proposeRemoveMember | proposeChangeQuorum | proposeChangeMaxProposals =>
    exact propose_leads (fun k hk => by cases hk) hinner h
  | changeMember newMember => exact .moves (.single (changeMember_move h))
  | derived o => exact absurd rfl (hop o)

lemma derive_run {o : ω} (hreenter : ∀ s, Run D now s (reenter s))
    (h : derive D ⟨sender,now⟩ reenter o s = .ok s') : Run D now s s' := by
  obtain ⟨⟨own,next⟩,hown,h⟩ := bind_eq_ok.mp h
  have hcalled : Run D now s ⟨s.gov,own⟩ := .of_act (.call hown)
  cases next with
  | stop =>
    cases h
    exact hcalled
  | propose k =>
    obtain ⟨s₁,hs₁,h⟩ := bind_eq_ok.mp h
    obtain ⟨own',hown',h⟩ := bind_eq_ok.mp h
    cases h
    obtain ⟨hcreate,hmoves⟩ := createProposal_moves (⟨.refl,fun _ => hreenter⟩ : Admits D (Run D now) reenter) hs₁
    exact ((hcalled.act hcreate).trans hmoves.run).act (.resume hown')
  | callOut =>
    obtain ⟨own',hown',h⟩ := bind_eq_ok.mp h
    cases h
    exact (hcalled.trans (hreenter _)).act (.resume hown')

lemma run_run (hreenter : ∀ s, Run D now s (reenter s))
    (h : op.run D ⟨sender,now⟩ reenter s = .ok s') : Run D now s s' := by
  by_cases hop : ∃ o, op = .derived o
  · obtain ⟨o,rfl⟩ := hop
    exact derive_run hreenter h
  · cases run_leads (fun o ho => hop ⟨o,ho⟩) ⟨.refl,fun _ => hreenter⟩ h with
    | moves hmoves => exact hmoves.run
    | proposes _ hcreate hmoves => exact (Run.of_act hcreate).trans hmoves.run

end Op

mutual

lemma Call.run_run (c : Call ω) (s s' : Contract κ σ) (h : c.run D now s = .ok s') : Run D now s s' := by
  match c with
  | .mk sender op inner =>
    rw [Call.run] at h
    exact Op.run_run (Call.runAll_run inner) h

lemma Call.runAll_run (cs : List (Call ω)) (s : Contract κ σ) : Run D now s (Call.runAll D now cs s) := by
  match cs with
  | [] =>
    rw [Call.runAll]
    exact .refl s
  | c::cs =>
    rw [Call.runAll]
    refine Run.trans ?_ (Call.runAll_run cs _)
    cases h : Call.run D now c s with
    | error e => exact .refl s
    | ok s' => exact Call.run_run c s s' h

end

/-- Whatever every transaction preserves holds after every history of calls. -/
theorem runCalls_induction {I : Contract κ σ → Prop} {calls : List (ℕ × Call ω)} {s : Contract κ σ}
    (hstep : ∀ now s s', Run D now s s' → I s → I s') (h : I s) : I (runCalls D calls s) := by
  induction calls generalizing s with
  | nil => exact h
  | cons c calls ih =>
    refine ih (s := (c.2.run D c.1 s).toOption.getD s) ?_
    cases hc : c.2.run D c.1 s with
    | error e => exact h
    | ok s' => exact hstep c.1 s s' (Call.run_run c.2 s s' hc) h

end StableNet.Gov
