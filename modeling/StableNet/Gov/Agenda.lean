import StableNet.Gov.Lifecycle
import Mathlib.Algebra.BigOperators.Intervals
import Mathlib.Algebra.Order.BigOperators.Group.Finset

/-! The proposals as a derived contract sees them. Every call moves the agenda and its storage by few kinds of turns,
if its actions are not called back. -/
namespace StableNet.Gov
open Chain (Address)
open Lib Base Contract
open Function
variable {κ ω σ : Type} {id : ℕ} {st : ProposalStatus} {msg : Msg} {success : Bool} {β : Type}
variable {g : Base κ} {k : κ} {a : Option (Action κ)} {j : ℕ}

/-- An approved proposal is still open. -/
def ProposalStatus.stage : ProposalStatus → ProposalStatus
  | .approved => .voting
  | st => st

def Action.custom? : Action κ → Option κ
  | .custom k => some k
  | _ => none

def Record.effected? : Record → Option ℕ
  | .effected id _ => some id
  | _ => none

/-- The proposals with their custom actions and stages, and those that took effect, newest first. -/
structure Agenda (κ : Type) where
  current : ℕ
  custom : ℕ → Option κ
  stage : ℕ → ProposalStatus
  effected : List ℕ

namespace Agenda

def empty : Agenda κ := ⟨0,fun _ => none,fun _ => .none,[]⟩

def create (A : Agenda κ) (k : Option κ) : Agenda κ where
  current := A.current+1
  custom := update A.custom (A.current+1) k
  stage := update A.stage (A.current+1) .voting
  effected := A.effected

def finish (A : Agenda κ) (id : ℕ) (st : ProposalStatus) : Agenda κ :=
  { A with
    stage := update A.stage id st
    effected := if st = .executed then id::A.effected else A.effected }

end Agenda

def Base.agenda (g : Base κ) : Agenda κ where
  current := g.currentProposalId
  custom id := (g.proposals id).action.bind Action.custom?
  stage id := (g.proposals id).status.stage
  effected := g.records.filterMap Record.effected?

lemma Base.agenda_custom_of_action (h : (g.proposals id).action = some (.custom k)) :
    g.agenda.custom id = some k := by
  rw [show g.agenda.custom id = (g.proposals id).action.bind Action.custom? from rfl,h]
  rfl

namespace ProposalStatus

lemma stage_of_isOpen (h : st.isOpen) : st.stage = .voting := by
  cases st <;> first | rfl | cases h

lemma isOpen_iff_stage : st.isOpen ↔ st.stage = .voting := by
  cases st <;> simp [isOpen,stage]

lemma stage_of_isTerminal (h : st.isTerminal) : st.stage=st := by
  cases st <;> first | rfl | cases h

lemma eq_of_stage {st' : ProposalStatus} (h : st.stage=st') (hopen : st' ≠ .voting) : st=st' := by
  cases st <;> first | exact h | exact absurd h.symm hopen

end ProposalStatus

namespace Base
variable {g' : Base κ} {now : ℕ}

lemma agenda_create (g : Base κ) (msg : Msg) (a : Action κ) : (g.create msg a).agenda = g.agenda.create a.custom? := by
  simp only [agenda,create,Agenda.create,Agenda.mk.injEq,true_and,and_true]
  constructor
  · funext id
    by_cases hid : id = g.currentProposalId+1
    · simp [hid]
    · simp [update_of_ne hid]
  · funext id
    by_cases hid : id = g.currentProposalId+1
    · simp [hid,ProposalStatus.stage]
    · simp [update_of_ne hid]

lemma agenda_modify (g : Base κ) (id : ℕ) (f : Proposal κ → Proposal κ) (haction : ∀ p, (f p).action = p.action) :
    (g.modify id f).agenda = { g.agenda with stage := update g.agenda.stage id (f (g.proposals id)).status.stage } := by
  simp only [agenda,modify,Agenda.mk.injEq,true_and,and_true]
  constructor
  · funext j
    by_cases hj : j = id
    · simp [hj,haction]
    · simp [update_of_ne hj]
  · funext j
    by_cases hj : j = id
    · simp [hj]
    · simp [update_of_ne hj]

lemma agenda_count (g : Base κ) (now id slot : ℕ) (approval : Bool) :
    (g.count now id slot approval).agenda = g.agenda := by
  have hmodify := g.agenda_modify id (fun p => { p with
    votedBitmap := p.votedBitmap ||| bit slot
    approved := if approval then p.approved+1 else p.approved
    rejected := if approval then p.rejected else p.rejected+1 }) fun _ => rfl
  rw [show (g.proposals id).status.stage = g.agenda.stage id from rfl,update_eq_self] at hmodify
  exact hmodify

lemma agenda_approved (hopen : (g.proposals id).status.isOpen) : (g.setStatus id .approved).agenda = g.agenda := by
  rw [setStatus,agenda_modify g id ({ · with status := .approved }) fun _ => rfl]
  rw [show ProposalStatus.approved.stage = g.agenda.stage id from (ProposalStatus.stage_of_isOpen hopen).symm,
    update_eq_self]

lemma agenda_finish (hterminal : st.isTerminal) (hst : st ≠ .executed) :
    (g.finish now id st).agenda = g.agenda.finish id st := by
  have hmodify := g.agenda_modify id (fun p => { p with
    status := st
    executedAt := if st = .executed then now else p.executedAt }) fun _ => rfl
  simp only [ProposalStatus.stage_of_isTerminal hterminal] at hmodify
  rw [Agenda.finish,if_neg hst]
  exact hmodify

lemma agenda_effect (g : Base κ) (now id : ℕ) :
    ((g.record (.effected id now)).finish now id .executed).agenda = g.agenda.finish id .executed := by
  have hmodify := (g.record (.effected id now)).agenda_modify id (fun p => { p with
    status := .executed
    executedAt := if ProposalStatus.executed = .executed then now else p.executedAt }) fun _ => rfl
  exact hmodify

lemma agenda_changeMember {a : Address} (h : g.changeMember msg a = .ok g') : g'.agenda=g.agenda := by
  obtain ⟨-,-,-,-,-,rfl⟩ := changeMember_eq_ok h
  rfl

end Base

/-- A contract that does not keep track of the members. -/
structure Derived.Memberless (D : Derived κ ω σ) : Prop where
  onMemberAdded : ∀ {g a own own'}, D.onMemberAdded g a own = .ok own' → own' = own
  onMemberRemoved : ∀ {g a own own'}, D.onMemberRemoved g a own = .ok own' → own' = own
  onMemberChanged : ∀ {g a b own own'}, D.onMemberChanged g a b own = .ok own' → own' = own

/-- What happens to an open proposal: its action fails, it ends without effect, or it takes effect, either
in the derived contract or in the governance. -/
inductive Turn (D : Derived κ ω σ) : Agenda κ × σ → Agenda κ × σ → Prop
  | fails {A : Agenda κ} {own own' : σ} {id : ℕ} {k : κ} {msg : Msg} {g : Base κ} (hopen : A.stage id = .voting)
      (hk : A.custom id = some k) (hg : g.agenda=A) (hact : D.executeCustomAction msg g k own = .ok (false,own')) :
      Turn D (A,own) (A,own')
  | ends {A : Agenda κ} {own own' : σ} {id : ℕ} {st : ProposalStatus} {g : Base κ} (hopen : A.stage id = .voting)
      (hterminal : st.isTerminal) (hst : st ≠ .executed) (hg : g.agenda = A.finish id st)
      (hown : D.onProposalFinalized g id own = .ok own') : Turn D (A,own) (A.finish id st,own')
  | effects {A : Agenda κ} {own own₁ own' : σ} {id : ℕ} {k : κ} {msg : Msg} {g g' : Base κ}
      (hopen : A.stage id = .voting) (hk : A.custom id = some k) (hg : g.agenda=A)
      (hact : D.executeCustomAction msg g k own = .ok (true,own₁)) (hg' : g'.agenda = A.finish id .executed)
      (hown : D.onProposalFinalized g' id own₁ = .ok own') : Turn D (A,own) (A.finish id .executed,own')
  | governs {A : Agenda κ} {own own' : σ} {id : ℕ} {g : Base κ} (hopen : A.stage id = .voting)
      (hk : A.custom id=none) (hg : g.agenda = A.finish id .executed)
      (hown : D.onProposalFinalized g id own = .ok own') : Turn D (A,own) (A.finish id .executed,own')

abbrev Turns (D : Derived κ ω σ) : Agenda κ × σ → Agenda κ × σ → Prop := Relation.ReflTransGen (Turn D)

/-- A new proposal with a custom action: it waits for more votes, or it is executed at once. -/
inductive Created (D : Derived κ ω σ) (quorum : ℕ) (k : κ) : Agenda κ × σ → Agenda κ × σ → Prop
  | waits {A : Agenda κ} {own : σ} : Created D quorum k (A,own) (A.create (some k),own)
  | fails {A : Agenda κ} {own own' : σ} {msg : Msg} {g : Base κ} (hquorum : quorum ≤ 1)
      (hg : g.agenda = A.create (some k)) (hact : D.executeCustomAction msg g k own = .ok (false,own')) :
      Created D quorum k (A,own) (A.create (some k),own')
  | effects {A : Agenda κ} {own own₁ own' : σ} {msg : Msg} {g g' : Base κ} (hquorum : quorum ≤ 1)
      (hg : g.agenda = A.create (some k)) (hact : D.executeCustomAction msg g k own = .ok (true,own₁))
      (hg' : g'.agenda = (A.create (some k)).finish (A.current+1) .executed)
      (hown : D.onProposalFinalized g' (A.current+1) own₁ = .ok own') :
      Created D quorum k (A,own) ((A.create (some k)).finish (A.current+1) .executed,own')

def Contract.view (s : Contract κ σ) : Agenda κ × σ := (s.gov.agenda,s.own)

section
variable {D : Derived κ ω σ} {now : ℕ} {s s' s₂ : Contract κ σ}

lemma stage_of_approved (h : (g.proposals id).status = .approved) : g.agenda.stage id = .voting := by
  rw [show g.agenda.stage id = (g.proposals id).status.stage from rfl,h]
  rfl

lemma agenda_executeInternalAction (h : s.executeInternalAction D msg (fun s => s) a = .ok (success,s')) :
    s'.gov.agenda=s.gov.agenda := by
  cases executeInternalAction_performs h with
  | none => rfl
  | addMember hgov =>
    obtain ⟨-,-,-,-,rfl⟩ := addMember_eq_ok hgov
    rfl
  | removeMember hgov =>
    obtain ⟨-,-,rfl⟩ := removeMember_eq_ok hgov
    rfl
  | changeQuorum hgov =>
    obtain ⟨-,rfl⟩ := changeQuorum_eq_ok hgov
    rfl
  | changeMaxProposals hgov =>
    cases changeMaxProposals_eq_ok hgov
    rfl
  | custom => rfl

theorem own_executeInternalAction (hD : D.Memberless) (ha : a.bind Action.custom?=none)
    (h : s.executeInternalAction D msg (fun s => s) a = .ok (success,s')) : s'.own=s.own := by
  cases executeInternalAction_performs h with
  | none => rfl
  | addMember _ hown => exact hD.onMemberAdded hown
  | removeMember _ hown => exact hD.onMemberRemoved hown
  | changeQuorum => rfl
  | changeMaxProposals => rfl
  | custom => cases ha

/-- What is done with the proposal after its action. -/
inductive Concluded (D : Derived κ ω σ) (id : ℕ) (markFailedOnError : Bool) (A : Agenda κ) (own : σ) :
    Bool → Agenda κ × σ → Prop
  | effected {own' : σ} {g : Base κ} (hg : g.agenda = A.finish id .executed)
      (hown : D.onProposalFinalized g id own = .ok own') :
      Concluded D id markFailedOnError A own true (A.finish id .executed,own')
  | failed {own' : σ} {g : Base κ} (hmark : markFailedOnError=true) (hg : g.agenda = A.finish id .failed)
      (hown : D.onProposalFinalized g id own = .ok own') :
      Concluded D id markFailedOnError A own false (A.finish id .failed,own')
  | kept : Concluded D id markFailedOnError A own false (A,own)

lemma concluded_of_conclude {markFailedOnError : Bool}
    (hopen : (s.gov.proposals id).status.isOpen) (h : s.conclude D now id markFailedOnError success = .ok s') :
    Concluded D id markFailedOnError s.gov.agenda s.own success s'.view := by
  unfold Contract.conclude at h
  cases success with
  | true =>
    obtain ⟨own,hown,rfl⟩ := finalizeProposal_eq_ok h
    have hagenda := agenda_effect s.gov now id
    have hview : (Contract.mk ((s.gov.record (.effected id now)).finish now id .executed) own).view =
        (s.gov.agenda.finish id .executed,own) := Prod.ext hagenda rfl
    rw [show (s.mapGov (·.record (.effected id now))).gov = s.gov.record (.effected id now) from rfl,hview]
    exact .effected hagenda hown
  | false =>
    simp only [Bool.false_eq_true,if_false] at h
    split at h
    · rename_i hmark
      obtain ⟨own,hown,rfl⟩ := finalizeProposal_eq_ok h
      have hagenda : (s.gov.finish now id .failed).agenda = s.gov.agenda.finish id .failed :=
        agenda_finish rfl (by decide)
      have hview : (Contract.mk (s.gov.finish now id .failed) own).view = (s.gov.agenda.finish id .failed,own) :=
        Prod.ext hagenda rfl
      rw [hview]
      exact .failed hmark hagenda hown
    · cases h
      have hview : (s.mapGov (·.setStatus id .approved)).view = (s.gov.agenda,s.own) :=
        Prod.ext (agenda_approved hopen) rfl
      rw [hview]
      exact .kept

section
variable {markFailedOnError : Bool} {sender : Address}

theorem concluded_of_custom (hready : s.gov.Ready now id) (hk : s.gov.agenda.custom id = some k)
    (haction : (s.mapGov fun g => g.lock.attempt now id).executeInternalAction D ⟨sender,now⟩ (fun s => s)
      (s.gov.proposals id).action = .ok (success,s₂))
    (hconclude : s₂.conclude D now id markFailedOnError success = .ok s') :
    ∃ (msg : Msg) (g : Base κ) (own : σ), g.agenda=s.gov.agenda ∧
      D.executeCustomAction msg g k s.own = .ok (success,own) ∧
      Concluded D id markFailedOnError s.gov.agenda own success s'.view := by
  obtain ⟨a,ha,hcustom⟩ := Option.bind_eq_some_iff.mp hk
  cases a <;> cases hcustom
  rw [ha] at haction
  obtain ⟨own,hown,rfl⟩ := executeCustom_eq_ok haction
  refine ⟨⟨sender,now⟩,s.gov.lock.attempt now id,own,rfl,hown,concluded_of_conclude ?_ hconclude⟩
  simp [Contract.mapGov,Base.attempt,Base.lock,hready.isApproved,ProposalStatus.isOpen]

theorem concluded_of_not_custom (hD : D.Memberless) (hready : s.gov.Ready now id) (hk : s.gov.agenda.custom id=none)
    (haction : (s.mapGov fun g => g.lock.attempt now id).executeInternalAction D ⟨sender,now⟩ (fun s => s)
      (s.gov.proposals id).action = .ok (success,s₂))
    (hconclude : s₂.conclude D now id markFailedOnError success = .ok s') :
    Concluded D id markFailedOnError s.gov.agenda s.own success s'.view := by
  have hagenda : s₂.gov.agenda=s.gov.agenda := (agenda_executeInternalAction haction).trans rfl
  have hown : s₂.own=s.own := (own_executeInternalAction hD hk haction).trans rfl
  rw [← hagenda,← hown]
  refine concluded_of_conclude (ProposalStatus.isOpen_iff_stage.mpr ?_) hconclude
  rw [show (s₂.gov.proposals id).status.stage = s₂.gov.agenda.stage id from rfl,hagenda]
  exact stage_of_approved hready.isApproved

lemma Executes.turns (hD : D.Memberless) (h : Executes D now Eq id markFailedOnError s s') :
    Turns D s.view s'.view := by
  cases h with
  | @retire s' st hguard hid happroved hretires hfinal =>
    obtain ⟨own,hown,rfl⟩ := finalizeProposal_eq_ok hfinal
    have hst : st.isTerminal ∧ st ≠ .executed := by cases hretires <;> decide
    have hagenda : (s.gov.lock.finish now id st).agenda = s.gov.agenda.finish id st := agenda_finish hst.1 hst.2
    have hview : (Contract.mapGov ⟨(s.mapGov Base.lock).gov.finish now id st,own⟩ Base.unlock).view =
      (s.gov.agenda.finish id st,own) := Prod.ext hagenda rfl
    rw [hview]
    exact .single (.ends (stage_of_approved happroved) hst.1 hst.2 hagenda hown)
  | @perform s₁ s₂ s₃ sender success hguard hready hinner haction hconclude =>
    subst hinner
    have hopen := stage_of_approved hready.isApproved
    rw [show (s₃.mapGov Base.unlock).view = s₃.view from rfl]
    cases hk : s.gov.agenda.custom id with
    | none =>
      cases hview : s₃.view with
      | mk A own =>
        have hconcluded := concluded_of_not_custom hD hready hk haction hconclude
        rw [hview] at hconcluded
        cases hconcluded with
        | effected hg hown => exact .single (.governs hopen hk hg hown)
        | failed _ hg hown => exact .single (.ends hopen rfl (by decide) hg hown)
        | kept => exact .refl
    | some k =>
      obtain ⟨msg,g,own₁,hg₁,hact,hconcluded⟩ := concluded_of_custom hready hk haction hconclude
      cases hview : s₃.view with
      | mk A own =>
        rw [hview] at hconcluded
        cases hconcluded with
        | effected hg hown => exact .single (.effects hopen hk hg₁ hact hg hown)
        | failed _ hg hown =>
          exact .tail (.single (.fails hopen hk hg₁ hact)) (.ends hopen rfl (by decide) hg hown)
        | kept => exact .single (.fails hopen hk hg₁ hact)

end

lemma Move.turns (hD : D.Memberless) (h : Move D now Eq s s') : Turns D s.view s'.view := by
  cases h with
  | @count sender id slot approval hcast =>
    rw [show (s.mapGov (·.count now id slot approval)).view = s.view from Prod.ext (agenda_count _ _ _ _ _) rfl]
  | @approved id hid hopen =>
    rw [show (s.mapGov (·.setStatus id .approved)).view = s.view from Prod.ext (agenda_approved hopen) rfl]
  | @close id st own hid hcloses hown =>
    obtain ⟨hterminal,hst⟩ := hcloses.isTerminal
    have hagenda : (s.gov.finish now id st).agenda = s.gov.agenda.finish id st := agenda_finish hterminal hst
    have hview : (Contract.mk (s.gov.finish now id st) own).view = (s.gov.agenda.finish id st,own) :=
      Prod.ext hagenda rfl
    rw [hview]
    exact .single (.ends (ProposalStatus.stage_of_isOpen hcloses.isOpen) hterminal hst hagenda hown)
  | changeMember hgov hown =>
    rw [show (Contract.mk _ _).view = s.view from Prod.ext (agenda_changeMember hgov) (hD.onMemberChanged hown)]
  | execute h => exact h.turns hD

lemma Moves.turns (hD : D.Memberless) (h : Moves D now Eq s s') : Turns D s.view s'.view := by
  induction h with
  | refl => exact .refl
  | tail _ hmove ih => exact ih.trans (hmove.turns hD)

theorem Executes.created {A : Agenda κ} {quorum : ℕ} (h : Executes D now Eq (A.current+1) false s s')
    (hagenda : s.gov.agenda = A.create (some k)) (htime : s.gov.InTime now (A.current+1))
    (hretries : s.gov.proposalExecutionCount (A.current+1) < maxRetryCount) (hquorum : quorum ≤ 1) :
    Created D quorum k (A,s.own) s'.view := by
  cases h with
  | retire _ _ _ hretires _ =>
    cases hretires with
    | expired hexpired => exact absurd htime hexpired
    | failed hfailed => exact absurd hretries (Nat.not_lt_of_le hfailed)
  | @perform s₁ s₂ s₃ sender success hguard hready hinner haction hconclude =>
    subst hinner
    have hk : s.gov.agenda.custom (A.current+1) = some k := by simp [hagenda,Agenda.create]
    obtain ⟨msg,g,own₁,hg₁,hact,hconcluded⟩ := concluded_of_custom hready hk haction hconclude
    rw [hagenda] at hg₁ hconcluded
    rw [show (s₃.mapGov Base.unlock).view = s₃.view from rfl]
    cases hview : s₃.view with
    | mk A' own =>
      rw [hview] at hconcluded
      cases hconcluded with
      | effected hg hown => exact .effects hquorum hg₁ hact hg hown
      | failed hmark => cases hmark
      | kept => exact .fails hquorum hg₁ hact

/-- A proposal with a custom action, from its creation to the end of the call. -/
theorem createProposal_created (hD : D.reenters=false) {sender : Address} {reenter : Contract κ σ → Contract κ σ}
    (hfresh : s.gov.proposalExecutionCount (s.gov.currentProposalId+1)=0)
    (h : s.createProposal D ⟨sender,now⟩ reenter (.custom k) = .ok s') : Created D s.gov.quorum k s.view s'.view := by
  have hcreate : (s.gov.create ⟨sender,now⟩ (.custom k)).agenda = s.gov.agenda.create (some k) := agenda_create ..
  have hnew : (s.gov.create ⟨sender,now⟩ (.custom k)).proposals (s.gov.currentProposalId+1) =
      { action := some (.custom k), memberVersion := s.gov.memberVersion, votedBitmap := 0, createdAt := now,
        executedAt := 0, proposer := sender, requiredApprovals := s.gov.quorum, approved := 0,
        rejected := 0, status := .voting } := update_self ..
  obtain ⟨_,h⟩ := ok_of_bind h
  obtain ⟨_,h⟩ := ok_of_bind h
  obtain ⟨_,h⟩ := ok_of_bind h
  obtain ⟨_,h⟩ := ok_of_bind h
  obtain ⟨_,h⟩ := ok_of_bind h
  obtain ⟨deadline,hdeadline,h⟩ := bind_eq_ok.mp h
  have hdeadline : deadline = now+s.gov.proposalExpiry := by
    have hd := deadline_eq_ok hdeadline
    rwa [show (s.mapGov (·.create ⟨sender,now⟩ (.custom k))).gov = s.gov.create ⟨sender,now⟩ (.custom k) from rfl,
      hnew] at hd
  split at h
  · rename_i hexpired
    exact absurd (hdeadline ▸ hexpired) (by simp)
  obtain ⟨_,h⟩ := ok_of_bind h
  obtain ⟨_,h⟩ := ok_of_bind h
  obtain ⟨_,h⟩ := ok_of_bind h
  simp only [if_true] at h
  unfold Contract.approve at h
  dsimp only at h
  generalize (s.mapGov (·.create ⟨sender,now⟩ (.custom k))).gov.getMemberIndexAtVersion sender _ = slot at h
  let g := (s.gov.create ⟨sender,now⟩ (.custom k)).count now (s.gov.currentProposalId+1) slot true
  have hg : g.agenda = s.gov.agenda.create (some k) := (agenda_count _ _ _ _ _).trans hcreate
  have hcounted : g.proposals (s.gov.currentProposalId+1) =
      { action := some (.custom k), memberVersion := s.gov.memberVersion, votedBitmap := 0 ||| Base.bit slot,
        createdAt := now, executedAt := 0, proposer := sender, requiredApprovals := s.gov.quorum, approved := 1,
        rejected := 0, status := .voting } := by
    simp [g,Base.count,Base.record,Base.modify,hnew]
  split at h
  · rename_i henough
    have hquorum : s.gov.quorum ≤ 1 := by
      have henough : (g.proposals (s.gov.currentProposalId+1)).requiredApprovals ≤
        (g.proposals (s.gov.currentProposalId+1)).approved := henough
      rwa [hcounted] at henough
    have hopen : (g.proposals (s.gov.currentProposalId+1)).status.isOpen := by
      rw [hcounted]
      rfl
    obtain ⟨b,hexecute⟩ := map_snd_eq_ok h
    have hexecutes : Executes D now Eq (s.gov.agenda.current+1) false
        (Contract.mk (g.setStatus (s.gov.currentProposalId+1) .approved) s.own) s' :=
      executeProposal_executes (Admits.eq hD reenter) hexecute
    refine hexecutes.created ((agenda_approved hopen).trans hg) ?_ ?_ hquorum
    · show now ≤ ((g.setStatus (s.gov.currentProposalId+1) .approved).proposals (s.gov.currentProposalId+1)).createdAt+_
      simp [Base.setStatus,Base.modify,hcounted]
    · show s.gov.proposalExecutionCount (s.gov.currentProposalId+1) < maxRetryCount
      rw [hfresh]
      decide
  · cases h
    rw [show (Contract.mapGov (s.mapGov (·.create ⟨sender,now⟩ (.custom k)))
      (·.count now (s.gov.currentProposalId+1) slot true)).view = (s.gov.agenda.create (some k),s.own) from
      Prod.ext hg rfl]
    exact .waits

end

namespace Agenda
variable {A : Agenda κ} {f : κ → ℕ}

/-- Only proposals that were created have a stage. -/
structure Proper (A : Agenda κ) : Prop where
  zero : A.stage 0 = .none
  unborn : ∀ id, A.current < id → A.stage id = .none

lemma proper_empty : (empty : Agenda κ).Proper := ⟨rfl,fun _ _ => rfl⟩

lemma Proper.le_current (h : A.Proper) (hid : A.stage id ≠ .none) : id ≤ A.current :=
  Nat.le_of_not_lt fun hlt => hid (h.unborn id hlt)

lemma Proper.create (h : A.Proper) (k : Option κ) : (A.create k).Proper where
  zero := h.zero
  unborn id hid := by
    have hid : A.current+1 < id := hid
    rw [show (A.create k).stage id = A.stage id from update_of_ne (by omega) _ _]
    exact h.unborn id (by omega)

lemma Proper.finish (h : A.Proper) (hid : A.stage id ≠ .none) (st : ProposalStatus) : (A.finish id st).Proper := by
  have hle := h.le_current hid
  refine ⟨?_,fun j hj => ?_⟩
  · have hne : 0 ≠ id := by
      rintro rfl
      exact hid h.zero
    rw [show (A.finish id st).stage 0 = A.stage 0 from update_of_ne hne _ _]
    exact h.zero
  · have hj : A.current<j := hj
    rw [show (A.finish id st).stage j = A.stage j from update_of_ne (by omega) _ _]
    exact h.unborn j hj

lemma Proper.ne_current_succ (h : A.Proper) (hid : A.stage id ≠ .none) : id ≠ A.current+1 := by
  have := h.le_current hid
  omega

lemma stage_create_self (A : Agenda κ) (k : Option κ) : (A.create k).stage (A.current+1) = .voting := update_self ..

lemma stage_create_of_ne (A : Agenda κ) (k : Option κ) (h : id ≠ A.current+1) :
    (A.create k).stage id = A.stage id := update_of_ne h ..

lemma custom_create_self (A : Agenda κ) (k : Option κ) : (A.create k).custom (A.current+1) = k := update_self ..

lemma custom_create_of_ne (A : Agenda κ) (k : Option κ) (h : id ≠ A.current+1) :
    (A.create k).custom id = A.custom id := update_of_ne h ..

lemma stage_finish_self (A : Agenda κ) (id : ℕ) (st : ProposalStatus) : (A.finish id st).stage id=st := update_self ..

lemma stage_finish_of_ne (A : Agenda κ) (h : j ≠ id) : (A.finish id st).stage j = A.stage j := update_of_ne h ..

/-- The proposals that took effect are the executed ones, each once. -/
structure Effective (A : Agenda κ) : Prop extends A.Proper where
  nodup : A.effected.Nodup
  mem_iff : ∀ id, id ∈ A.effected ↔ A.stage id = .executed

lemma effective_empty : (empty : Agenda κ).Effective where
  toProper := proper_empty
  nodup := List.nodup_nil
  mem_iff _ := by simp [empty]

lemma Effective.create (h : A.Effective) (k : Option κ) : (A.create k).Effective where
  toProper := h.toProper.create k
  nodup := h.nodup
  mem_iff id := by
    by_cases hid : id = A.current+1
    · have hstage : A.stage (A.current+1) = .none := h.unborn _ (Nat.lt_succ_self _)
      rw [hid,stage_create_self,show (A.create k).effected = A.effected from rfl,h.mem_iff,hstage]
      decide
    · rw [stage_create_of_ne A k hid]
      exact h.mem_iff id

lemma Effective.finish (h : A.Effective) (hopen : A.stage id = .voting) (st : ProposalStatus) :
    (A.finish id st).Effective := by
  have hnotMem : id ∉ A.effected := by
    rw [h.mem_iff,hopen]
    decide
  refine ⟨h.toProper.finish (by rw [hopen]; decide) st,?_,fun j => ?_⟩
  · by_cases hst : st = .executed
    · simpa [Agenda.finish,hst] using ⟨hnotMem,h.nodup⟩
    · simpa [Agenda.finish,hst] using h.nodup
  · by_cases hj : j = id
    · rw [hj,stage_finish_self]
      by_cases hst : st = .executed <;> simp [Agenda.finish,hst,hnotMem]
    · rw [stage_finish_of_ne A hj,← h.mem_iff]
      by_cases hst : st = .executed <;> simp [Agenda.finish,hst,hj]

/-- What the actions that took effect leave behind, newest first. -/
def log {β : Type} (A : Agenda κ) (f : κ → Option β) : List β := A.effected.filterMap fun id => (A.custom id).bind f

lemma Effective.log_create (h : A.Effective) (k : Option κ) (f : κ → Option β) : (A.create k).log f = A.log f := by
  refine List.filterMap_congr fun id hid => ?_
  rw [custom_create_of_ne A k]
  refine h.toProper.ne_current_succ ?_
  rw [(h.mem_iff id).mp hid]
  decide

lemma log_finish_of_ne (A : Agenda κ) (f : κ → Option β) (hst : st ≠ .executed) : (A.finish id st).log f = A.log f := by
  simp [log,Agenda.finish,hst]

lemma log_finish (A : Agenda κ) (f : κ → Option β) :
    (A.finish id .executed).log f = ((A.custom id).bind f).toList++A.log f := by
  cases hf : (A.custom id).bind f <;> simp [log,Agenda.finish,hf]

/-- The amount of a proposal while it is open. -/
def pending (A : Agenda κ) (f : κ → ℕ) (id : ℕ) : ℕ := if A.stage id = .voting then ((A.custom id).map f).getD 0 else 0

/-- The amounts of all open proposals. -/
def total (A : Agenda κ) (f : κ → ℕ) : ℕ := ∑ id ∈ Finset.range (A.current+1), A.pending f id

lemma pending_create_self (A : Agenda κ) (f : κ → ℕ) (k : Option κ) :
    (A.create k).pending f (A.current+1) = (k.map f).getD 0 := by
  simp [pending,create]

lemma pending_create_of_ne (A : Agenda κ) (f : κ → ℕ) (k : Option κ) (h : id ≠ A.current+1) :
    (A.create k).pending f id = A.pending f id := by
  simp [pending,create,update_of_ne h]

lemma pending_finish_self (A : Agenda κ) (f : κ → ℕ) (h : st ≠ .voting) : (A.finish id st).pending f id=0 := by
  simp [pending,finish,h]

lemma pending_finish_of_ne (A : Agenda κ) (f : κ → ℕ) (h : j ≠ id) :
    (A.finish id st).pending f j = A.pending f j := by
  simp [pending,finish,update_of_ne h]

lemma pending_eq_zero (h : A.stage id ≠ .voting) : A.pending f id=0 := if_neg h

lemma pending_of_custom (h : A.stage id = .voting) (hk : A.custom id = some k) : A.pending f id = f k := by
  simp [pending,h,hk]

lemma total_create (A : Agenda κ) (f : κ → ℕ) (k : Option κ) : (A.create k).total f = A.total f+(k.map f).getD 0 := by
  rw [total,show (A.create k).current = A.current+1 from rfl,Finset.sum_range_succ,pending_create_self]
  congr 1
  refine Finset.sum_congr rfl fun id hid => pending_create_of_ne A f k ?_
  have := Finset.mem_range.mp hid
  omega

lemma total_finish (hle : id ≤ A.current) (h : st ≠ .voting) : (A.finish id st).total f+A.pending f id = A.total f := by
  have hmem : id ∈ Finset.range (A.current+1) := Finset.mem_range.mpr (by omega)
  rw [total,total,show (A.finish id st).current = A.current from rfl,← Finset.sum_erase_add _ _ hmem,
    ← Finset.sum_erase_add (Finset.range (A.current+1)) (A.pending f) hmem,pending_finish_self A f h,Nat.add_zero]
  congr 1
  exact Finset.sum_congr rfl fun j hj => pending_finish_of_ne A f (Finset.ne_of_mem_erase hj)

lemma pending_le_total (hle : id ≤ A.current) : A.pending f id ≤ A.total f :=
  Finset.single_le_sum_of_canonicallyOrdered (Finset.mem_range.mpr (Nat.lt_succ_of_le hle))

end Agenda

lemma agenda_base (c : Genesis.BaseConfig) (address : Address) : (c.base address : Base κ).agenda = .empty := by
  have hcurrent : (c.base address : Base κ).currentProposalId=0 := Genesis.BaseConfig.read_unused (by decide)
  rw [Base.agenda,hcurrent]
  rfl

/-- A property of the agenda and the storage of the derived contract that holds between the calls: turns
and new proposals keep it, and so does every function of the derived contract as a whole. -/
structure Derived.Invariant (D : Derived κ ω σ) (I : Agenda κ → σ → Prop) : Prop where
  turn : ∀ {A A' own own'}, Turn D (A,own) (A',own') → I A own → I A' own'
  create : ∀ {A own}, I A own → I (A.create none) own
  stop : ∀ {o msg g own own'}, D.call o msg g own = .ok (own',.stop) → I g.agenda own → I g.agenda own'
  propose : ∀ {o msg g k own own₁ A' own₂ g' own'}, D.call o msg g own = .ok (own₁,.propose k) →
    Created D g.quorum k (g.agenda,own₁) (A',own₂) → g'.agenda=A' →
    D.resume o (g.agenda.current+1) msg g' own₂ = .ok own' → I g.agenda own → I A' own'
  callOut : ∀ {o msg g own own'}, D.call o msg g own = .ok (own',.callOut) → I g.agenda own → I g.agenda own'
  resume : ∀ {o msg g g' own own₁ own₂ own'}, D.call o msg g own = .ok (own₁,.callOut) →
    D.resume o 0 msg g' own₂ = .ok own' → I g'.agenda own₂ → I g'.agenda own'

namespace Derived.Invariant
variable {D : Derived κ ω σ} {I : Agenda κ → σ → Prop} {now : ℕ} {s s' : Contract κ σ} {sender : Address}
  {reenter : Contract κ σ → Contract κ σ}

section
variable (hI : D.Invariant I)
include hI

lemma turns (h : Turns D s.view s'.view) (hs : I s.gov.agenda s.own) : I s'.gov.agenda s'.own := by
  suffices ∀ v, Turns D s.view v → I v.1 v.2 from this _ h
  intro v hv
  induction hv with
  | refl => exact hs
  | tail _ hturn ih => exact hI.turn hturn ih

lemma moves (hm : D.Memberless) (h : Moves D now Eq s s') (hs : I s.gov.agenda s.own) :
    I s'.gov.agenda s'.own := hI.turns (h.turns hm) hs

lemma leads (hm : D.Memberless) (h : Op.Leads D now Eq s s') (hs : I s.gov.agenda s.own) :
    I s'.gov.agenda s'.own := by
  cases h with
  | moves h => exact hI.moves hm h hs
  | @proposes sender a hcustom hcreate h =>
    refine hI.moves hm h ?_
    show I (s.gov.create ⟨sender,now⟩ a).agenda s.own
    rw [agenda_create,show a.custom?=none by cases a <;> first | rfl | exact absurd rfl (hcustom _)]
    exact hI.create hs

lemma derive (hr : D.reenters=false) {o : ω} (hledger : Ledger s.gov.roster s.gov.docket)
    (hreenter : ∀ s : Contract κ σ, Ledger s.gov.roster s.gov.docket → I s.gov.agenda s.own →
      I (reenter s).gov.agenda (reenter s).own)
    (h : Op.derive D ⟨sender,now⟩ reenter o s = .ok s') (hs : I s.gov.agenda s.own) : I s'.gov.agenda s'.own := by
  obtain ⟨⟨own,next⟩,hown,h⟩ := bind_eq_ok.mp h
  cases next with
  | stop =>
    cases h
    exact hI.stop hown hs
  | propose k =>
    obtain ⟨s₁,hs₁,h⟩ := bind_eq_ok.mp h
    obtain ⟨own',hown',h⟩ := bind_eq_ok.mp h
    cases h
    have hnew : ¬ s.gov.docket.isProposal (s.gov.currentProposalId+1) := fun h =>
      Nat.not_succ_le_self _ (Docket.isProposal_iff.mp h).2
    have hfresh : s.gov.proposalExecutionCount (s.gov.currentProposalId+1)=0 := (hledger.fresh _ hnew).2.2.2
    have hcreated : Created D s.gov.quorum k (s.gov.agenda,own) (s₁.gov.agenda,s₁.own) :=
      createProposal_created (s := ⟨s.gov,own⟩) hr hfresh hs₁
    have hresume : D.resume o (s.gov.agenda.current+1) ⟨sender,now⟩ s₁.gov s₁.own = .ok own' := hown'
    exact hI.propose hown hcreated rfl hresume hs
  | callOut =>
    obtain ⟨own',hown',h⟩ := bind_eq_ok.mp h
    cases h
    exact hI.resume hown hown' (hreenter ⟨s.gov,own⟩ hledger (hI.callOut hown hs))

lemma op (hr : D.reenters=false) (hm : D.Memberless) {op : Op ω} (hledger : Ledger s.gov.roster s.gov.docket)
    (hreenter : ∀ s : Contract κ σ, Ledger s.gov.roster s.gov.docket → I s.gov.agenda s.own →
      I (reenter s).gov.agenda (reenter s).own)
    (h : op.run D ⟨sender,now⟩ reenter s = .ok s') (hs : I s.gov.agenda s.own) : I s'.gov.agenda s'.own := by
  by_cases hop : ∃ o, op = .derived o
  · obtain ⟨o,rfl⟩ := hop
    exact hI.derive hr hledger hreenter h hs
  · exact hI.leads hm (Op.run_leads (fun o ho => hop ⟨o,ho⟩) (.eq hr reenter) h) hs

end

mutual

lemma call (hI : D.Invariant I) (hr : D.reenters=false) (hm : D.Memberless) (c : Call ω) (s s' : Contract κ σ)
    (h : c.run D now s = .ok s') (hledger : Ledger s.gov.roster s.gov.docket) (hs : I s.gov.agenda s.own) :
    I s'.gov.agenda s'.own := by
  match c with
  | .mk sender op inner =>
    rw [Call.run] at h
    exact hI.op hr hm hledger (fun s hledger hs => callAll hI hr hm inner s hledger hs) h hs

lemma callAll (hI : D.Invariant I) (hr : D.reenters=false) (hm : D.Memberless) (cs : List (Call ω))
    (s : Contract κ σ) (hledger : Ledger s.gov.roster s.gov.docket) (hs : I s.gov.agenda s.own) :
    I (Call.runAll D now cs s).gov.agenda (Call.runAll D now cs s).own := by
  match cs with
  | [] =>
    rw [Call.runAll]
    exact hs
  | c::cs =>
    rw [Call.runAll]
    cases h : Call.run D now c s with
    | error e => exact callAll hI hr hm cs s hledger hs
    | ok s' =>
      exact callAll hI hr hm cs s' (hledger.run (Call.run_run c s s' h)).1 (call hI hr hm c s s' h hledger hs)

end

lemma runCalls (hI : D.Invariant I) (hr : D.reenters=false) (hm : D.Memberless) (calls : List (ℕ × Call ω))
    (hledger : Ledger s.gov.roster s.gov.docket) (hs : I s.gov.agenda s.own) :
    I (runCalls D calls s).gov.agenda (runCalls D calls s).own := by
  induction calls generalizing s with
  | nil => exact hs
  | cons c calls ih =>
    have hrun : Gov.runCalls D (c::calls) s = Gov.runCalls D calls ((c.2.run D c.1 s).toOption.getD s) := rfl
    rw [hrun]
    cases h : c.2.run D c.1 s with
    | error e => exact ih hledger hs
    | ok s' => exact ih (hledger.run (Call.run_run c.2 s s' h)).1 (hI.call hr hm c.2 s s' h hledger hs)

end Derived.Invariant

end StableNet.Gov
