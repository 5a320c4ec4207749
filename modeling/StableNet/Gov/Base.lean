import StableNet.Chain.Header
import StableNet.Lib.Except
import Mathlib.Logic.Function.Basic

/-! The `GovBase` contract. A derived contract keeps its own storage next to it; its external calls may call back into
the contract. -/
namespace StableNet.Gov
open Chain (Address)
open Lib
open Function

inductive ProposalStatus where
  | none
  | voting
  | approved
  | executed
  | cancelled
  | expired
  | failed
  | rejected
  deriving DecidableEq

def ProposalStatus.isOpen (st : ProposalStatus) : Bool := st = .voting || st = .approved

def ProposalStatus.isTerminal : ProposalStatus → Bool
  | .none | .voting | .approved => false
  | _ => true

/-- The errors of `GovBase`; `arithmetic` is the panic of checked arithmetic. -/
inductive Revert where
  | alreadyAMember
  | alreadyApproved
  | insufficientApprovals
  | invalidMemberAddress
  | invalidMaxProposals
  | invalidProposal
  | invalidProposalExpiry
  | invalidQuorum
  | memberIndexOverflow
  | notAMember
  | notProposer
  | proposalAlreadyInVoting
  | proposalNotExecutable
  | proposalNotInVoting
  | reentrantCall
  | tooManyActiveProposals
  | arithmetic
  | derived (name : String)
  deriving DecidableEq

structure Member where
  isActive : Bool
  joinedAt : ℕ
  deriving DecidableEq

/-- An action type with its decoded call data; `κ` are the custom actions of the derived contract. -/
inductive Action (κ : Type) where
  | addMember (newMember : Address) (newQuorum : ℕ)
  | removeMember (member : Address) (newQuorum : ℕ)
  | changeQuorum (newQuorum : ℕ)
  | changeMaxProposals (newMax : ℕ)
  | custom (k : κ)
  deriving DecidableEq

/-- A proposal that was never created has no action. -/
structure Proposal (κ : Type) where
  action : Option (Action κ)
  memberVersion : ℕ
  votedBitmap : BitVec 256
  createdAt : ℕ
  executedAt : ℕ
  proposer : Address
  requiredApprovals : ℕ
  approved : ℕ
  rejected : ℕ
  status : ProposalStatus

def Proposal.empty {κ : Type} : Proposal κ := ⟨none,0,0,0,0,0,0,0,0,.none⟩

/-- What a run leaves behind besides the storage: the votes by the slot they were cast from, the
execution attempts and the actions that took effect, each with its time. -/
inductive Record where
  | voted (id slot : ℕ) (approval : Bool) (time : ℕ)
  | attempted (id time : ℕ)
  | effected (id time : ℕ)
  deriving DecidableEq

/-- What a run leaves behind about its proposals: the limit under which each was created, the address that the slot of
its proposer has now, and how many active ones each member had that changed its address. -/
structure History where
  limit : ℕ → ℕ
  holder : ℕ → Address
  rotations : List ℕ

namespace History

def start : History := ⟨fun _ => 0,fun _ => 0,[]⟩

def create (h : History) (id limit : ℕ) (sender : Address) : History :=
  { h with limit := update h.limit id limit, holder := update h.holder id sender }

/-- The slot moves to a new address with all that its member has proposed. -/
def rotate (h : History) (old new : Address) (active : ℕ) : History :=
  { h with holder := fun id => if h.holder id = old then new else h.holder id, rotations := active::h.rotations }

end History

def maxMemberIndex : ℕ := 255
def maxRetryCount : ℕ := 3

/-- The storage of `GovBase`; the records stand newest first. -/
structure Base (κ : Type) where
  proposalExpiry : ℕ
  memberVersion : ℕ
  currentProposalId : ℕ
  reentrancyGuard : ℕ
  quorum : ℕ
  members : Address → Member
  versionedMemberList : ℕ → List Address
  proposals : ℕ → Proposal κ
  memberIndexByVersion : ℕ → Address → ℕ
  quorumByVersion : ℕ → ℕ
  proposalExecutionCount : ℕ → ℕ
  memberActiveProposalCount : Address → ℕ
  maxActiveProposalsPerMember : ℕ
  records : List Record
  history : History

structure Msg where
  sender : Address
  timestamp : ℕ

structure Contract (κ σ : Type) where
  gov : Base κ
  own : σ

/-- What a function of a derived contract does after its first writes: it ends, it creates a proposal,
or it makes an external call. -/
inductive Next (κ : Type) where
  | stop
  | propose (k : κ)
  | callOut

/-- A derived contract: its functions `ω`, which go on with `resume` after a proposal or an external
call, and the hooks. None of them writes to the storage of `GovBase`. Its custom actions may call
contracts that call back. -/
structure Derived (κ ω σ : Type) where
  reenters : Bool
  call : ω → Msg → Base κ → σ → Except Revert (σ × Next κ)
  resume : ω → ℕ → Msg → Base κ → σ → Except Revert σ
  executeCustomAction : Msg → Base κ → κ → σ → Except Revert (Bool × σ)
  onMemberAdded : Base κ → Address → σ → Except Revert σ
  onMemberRemoved : Base κ → Address → σ → Except Revert σ
  onMemberChanged : Base κ → Address → Address → σ → Except Revert σ
  onProposalFinalized : Base κ → ℕ → σ → Except Revert σ

/-- The events of the contracts that can be paused. -/
inductive PauseEvent where
  | emergencyPaused (proposalId : ℕ)
  | emergencyUnpaused (proposalId : ℕ)
  deriving DecidableEq

def PauseEvent.proposalId : PauseEvent → ℕ
  | .emergencyPaused proposalId => proposalId
  | .emergencyUnpaused proposalId => proposalId

variable {κ ω σ : Type}

/-- Single-member governance has quorum 1, any other at least 2. -/
def checkQuorum (newQuorum memberCount : ℕ) : Except Revert Unit :=
  if memberCount=1 then require (newQuorum=1) .invalidQuorum
  else require (2 ≤ newQuorum ∧ newQuorum ≤ memberCount) .invalidQuorum

/-- The index map after the loop over a new snapshot. -/
def setIndices (m : Address → ℕ) (list : List Address) : Address → ℕ :=
  list.zipIdx.foldl (fun m e => update m e.1 ((e.2+1)%2^32)) m

namespace Base

def isProposal (g : Base κ) (id : ℕ) : Bool := id≠0 && id ≤ g.currentProposalId

/-- The members a proposal was created under. -/
def snapshot (g : Base κ) (id : ℕ) : List Address := g.versionedMemberList (g.proposals id).memberVersion

def memberList (g : Base κ) : List Address := g.versionedMemberList g.memberVersion

/-- The index of a member in a snapshot, `type(uint256).max` if it is none. -/
def getMemberIndexAtVersion (g : Base κ) (member : Address) (version : ℕ) : ℕ :=
  let indexPlusOne := g.memberIndexByVersion version member
  if indexPlusOne=0 then 2^256-1 else indexPlusOne-1

/-- The last second in which a proposal has not expired. -/
def deadline (g : Base κ) (id : ℕ) : Except Revert ℕ :=
  let time := (g.proposals id).createdAt+g.proposalExpiry
  if time<2^256 then .ok time else .error .arithmetic

def checkProposalMembership (g : Base κ) (sender : Address) (id : ℕ) : Except Revert Unit := do
  require (g.isProposal id) .invalidProposal
  let memberIndex := g.getMemberIndexAtVersion sender (g.proposals id).memberVersion
  require (memberIndex<(g.snapshot id).length) .notAMember
  require ((g.snapshot id)[memberIndex]? = some sender) .notAMember

def onlyActiveMember (g : Base κ) (sender : Address) : Except Revert Unit :=
  require (g.members sender).isActive .notAMember

def record (g : Base κ) (r : Record) : Base κ := { g with records := r::g.records }

def modify (g : Base κ) (id : ℕ) (f : Proposal κ → Proposal κ) : Base κ :=
  { g with proposals := update g.proposals id (f (g.proposals id)) }

def setStatus (g : Base κ) (id : ℕ) (st : ProposalStatus) : Base κ := g.modify id ({ · with status := st })

def create (g : Base κ) (msg : Msg) (a : Action κ) : Base κ :=
  let id := g.currentProposalId+1
  { g with
    currentProposalId := id
    proposals := update g.proposals id
      { action := some a, memberVersion := g.memberVersion, votedBitmap := 0, createdAt := msg.timestamp,
        executedAt := 0, proposer := msg.sender, requiredApprovals := g.quorum, approved := 0,
        rejected := 0, status := .voting }
    memberActiveProposalCount := update g.memberActiveProposalCount msg.sender
      (g.memberActiveProposalCount msg.sender+1)
    history := g.history.create id g.maxActiveProposalsPerMember msg.sender }

def bit (slot : ℕ) : BitVec 256 := 1 <<< slot

def count (g : Base κ) (now id slot : ℕ) (approval : Bool) : Base κ :=
  (g.modify id fun p =>
    { p with
      votedBitmap := p.votedBitmap ||| bit slot
      approved := if approval then p.approved+1 else p.approved
      rejected := if approval then p.rejected else p.rejected+1 }).record (.voted id slot approval now)

/-- The writes of `_finalizeProposal`: the guard of `_decrementActiveProposalCount` is truncated
subtraction. -/
def finish (g : Base κ) (now id : ℕ) (finalStatus : ProposalStatus) : Base κ :=
  let proposer := (g.proposals id).proposer
  { g.modify id (fun p =>
      { p with
        status := finalStatus
        executedAt := if finalStatus = .executed then now else p.executedAt }) with
    memberActiveProposalCount := update g.memberActiveProposalCount proposer
      (g.memberActiveProposalCount proposer-1) }

def attempt (g : Base κ) (now id : ℕ) : Base κ :=
  { g with
    proposalExecutionCount := update g.proposalExecutionCount id (g.proposalExecutionCount id+1)
    records := .attempted id now::g.records }

def lock (g : Base κ) : Base κ := { g with reentrancyGuard := 1 }
def unlock (g : Base κ) : Base κ := { g with reentrancyGuard := 0 }

/-- `_prepareNextMemberVersion` with the members that are pushed to the new snapshot. -/
def nextVersion (g : Base κ) (list : List Address) : Base κ :=
  let v := g.memberVersion+1
  { g with
    memberVersion := v
    versionedMemberList := update g.versionedMemberList v (g.versionedMemberList v++list)
    memberIndexByVersion := update g.memberIndexByVersion v
      (setIndices (g.memberIndexByVersion v) list) }

/-- The writes of `_addMember` before its hook. -/
def addMember (g : Base κ) (now : ℕ) (newMember : Address) (newQuorum : ℕ) : Except Revert (Base κ) := do
  require (!(g.members newMember).isActive) .alreadyAMember
  require (newMember≠0) .invalidMemberAddress
  require (g.memberList.length < maxMemberIndex) .memberIndexOverflow
  checkQuorum newQuorum (g.memberList.length+1)
  return { g.nextVersion (g.memberList++[newMember]) with
    members := update g.members newMember ⟨true,now%2^32⟩
    quorum := newQuorum }

/-- The writes of `_removeMember` before its hook. -/
def removeMember (g : Base κ) (member : Address) (newQuorum : ℕ) : Except Revert (Base κ) := do
  require (g.members member).isActive .notAMember
  require (g.memberList.length≠0) .arithmetic
  require (g.memberList.length-1≠0) .invalidQuorum
  checkQuorum newQuorum (g.memberList.length-1)
  let next := g.nextVersion (g.memberList.filter (· ≠ member))
  return { next with
    memberIndexByVersion := update next.memberIndexByVersion next.memberVersion
      (update (next.memberIndexByVersion next.memberVersion) member 0)
    members := update g.members member { g.members member with isActive := false }
    quorum := newQuorum }

/-- The last write of `_addMember` and `_removeMember`, after the hook. -/
def snapshotQuorum (g : Base κ) (newQuorum : ℕ) : Base κ :=
  { g with quorumByVersion := update g.quorumByVersion g.memberVersion newQuorum }

def changeQuorum (g : Base κ) (newQuorum : ℕ) : Except Revert (Base κ) := do
  checkQuorum newQuorum g.memberList.length
  return { g with quorum := newQuorum }.snapshotQuorum newQuorum

def changeMaxProposals (g : Base κ) (newMax : ℕ) : Except Revert (Base κ) := do
  require (1 ≤ newMax ∧ newMax ≤ 50) .invalidMaxProposals
  return { g with maxActiveProposalsPerMember := newMax }

/-- The writes of `changeMember` before its hook: the member keeps its place in the current list. -/
def changeMember (g : Base κ) (msg : Msg) (newMember : Address) : Except Revert (Base κ) := do
  g.onlyActiveMember msg.sender
  require (newMember≠0) .invalidMemberAddress
  require (msg.sender≠newMember) .invalidMemberAddress
  require (!(g.members newMember).isActive) .alreadyAMember
  require (msg.sender ∈ g.memberList) .notAMember
  let v := g.memberVersion
  let index := g.memberIndexByVersion v msg.sender
  return { g with
    versionedMemberList := update g.versionedMemberList v
      (g.memberList.set (g.memberList.idxOf msg.sender) newMember)
    memberIndexByVersion := update g.memberIndexByVersion v
      (update (update (g.memberIndexByVersion v) newMember index) msg.sender 0)
    members := update (update g.members newMember ⟨true,msg.timestamp%2^32⟩) msg.sender
      { g.members msg.sender with isActive := false }
    history := g.history.rotate msg.sender newMember (g.memberActiveProposalCount msg.sender) }

end Base

namespace Contract
variable (D : Derived κ ω σ)

/-- Write to the storage of `GovBase` only. -/
def mapGov (s : Contract κ σ) (f : Base κ → Base κ) : Contract κ σ := { s with gov := f s.gov }

/-- The derived contract cleans up. -/
def finalizeProposal (now id : ℕ) (finalStatus : ProposalStatus) (s : Contract κ σ) : Except Revert (Contract κ σ) := do
  let gov := s.gov.finish now id finalStatus
  let own ← D.onProposalFinalized gov id s.own
  return ⟨gov,own⟩

/-- `_executeInternalAction`. A custom action runs after the calls that its external calls make back into
the contract, if they make any. -/
def executeInternalAction (msg : Msg) (reenter : Contract κ σ → Contract κ σ) :
    Option (Action κ) → Contract κ σ → Except Revert (Bool × Contract κ σ)
  | some (.addMember newMember newQuorum), s => do
    let gov ← s.gov.addMember msg.timestamp newMember newQuorum
    let own ← D.onMemberAdded gov newMember s.own
    return (true,⟨gov.snapshotQuorum newQuorum,own⟩)
  | some (.removeMember member newQuorum), s => do
    let gov ← s.gov.removeMember member newQuorum
    let own ← D.onMemberRemoved gov member s.own
    return (true,⟨gov.snapshotQuorum newQuorum,own⟩)
  | some (.changeQuorum newQuorum), s => do
    let gov ← s.gov.changeQuorum newQuorum
    return (true,⟨gov,s.own⟩)
  | some (.changeMaxProposals newMax), s => do
    let gov ← s.gov.changeMaxProposals newMax
    return (true,⟨gov,s.own⟩)
  | some (.custom k), s => do
    let s := if D.reenters then reenter s else s
    let (success,own) ← D.executeCustomAction msg s.gov k s.own
    return (success,⟨s.gov,own⟩)
  | none, s => return (false,s)

/-- What `_executeProposal` does after the action. -/
def conclude (now id : ℕ) (markFailedOnError success : Bool) (s : Contract κ σ) : Except Revert (Contract κ σ) :=
  if success then (s.mapGov (·.record (.effected id now))).finalizeProposal D now id .executed
  else if markFailedOnError then s.finalizeProposal D now id .failed
  else return s.mapGov (·.setStatus id .approved)

/-- The body of `_executeProposal`, under the reentrancy guard. -/
def executeGuarded (msg : Msg) (reenter : Contract κ σ → Contract κ σ) (id : ℕ) (markFailedOnError : Bool)
    (s : Contract κ σ) : Except Revert (Bool × Contract κ σ) := do
  require (s.gov.isProposal id) .invalidProposal
  require ((s.gov.proposals id).status = .approved) .proposalNotExecutable
  require ((s.gov.proposals id).requiredApprovals ≤ (s.gov.proposals id).approved) .insufficientApprovals
  let deadline ← s.gov.deadline id
  if deadline < msg.timestamp then
    return (false,← s.finalizeProposal D msg.timestamp id .expired)
  else if maxRetryCount ≤ s.gov.proposalExecutionCount id then
    return (false,← s.finalizeProposal D msg.timestamp id .failed)
  else
    let done ← (s.mapGov (·.attempt msg.timestamp id)).executeInternalAction D msg reenter
      (s.gov.proposals id).action
    return (done.1,← done.2.conclude D msg.timestamp id markFailedOnError done.1)

/-- `_executeProposal`, with the reentrancy guard around its body. -/
def executeProposal (msg : Msg) (reenter : Contract κ σ → Contract κ σ) (id : ℕ) (markFailedOnError : Bool)
    (s : Contract κ σ) : Except Revert (Bool × Contract κ σ) := do
  require (s.gov.reentrancyGuard≠1) .reentrantCall
  let done ← (s.mapGov Base.lock).executeGuarded D msg reenter id markFailedOnError
  return (done.1,done.2.mapGov Base.unlock)

/-- The approval branch of `_vote`. -/
def approve (msg : Msg) (reenter : Contract κ σ → Contract κ σ) (id slot : ℕ) (autoExecute : Bool)
    (s : Contract κ σ) : Except Revert (Contract κ σ) :=
  let s := s.mapGov (·.count msg.timestamp id slot true)
  if (s.gov.proposals id).requiredApprovals ≤ (s.gov.proposals id).approved then
    let s := s.mapGov (·.setStatus id .approved)
    if autoExecute then (s.executeProposal D msg reenter id false).map Prod.snd else return s
  else return s

/-- The rejection branch of `_vote`. -/
def reject (now id slot : ℕ) (s : Contract κ σ) : Except Revert (Contract κ σ) := do
  let s := s.mapGov (·.count now id slot false)
  let members := (s.gov.snapshot id).length%2^32
  require ((s.gov.proposals id).requiredApprovals ≤ members) .arithmetic
  if members-(s.gov.proposals id).requiredApprovals<(s.gov.proposals id).rejected then
    s.finalizeProposal D now id .rejected
  else return s

def vote (msg : Msg) (reenter : Contract κ σ → Contract κ σ) (id : ℕ) (approved autoExecute : Bool)
    (s : Contract κ σ) : Except Revert (Contract κ σ) := do
  require (s.gov.isProposal id) .invalidProposal
  require (s.gov.proposals id).status.isOpen .proposalNotInVoting
  let deadline ← s.gov.deadline id
  if deadline < msg.timestamp then s.finalizeProposal D msg.timestamp id .expired
  else do
    let memberIndex := s.gov.getMemberIndexAtVersion msg.sender (s.gov.proposals id).memberVersion
    require (memberIndex<(s.gov.snapshot id).length) .notAMember
    require (memberIndex ≤ maxMemberIndex) .memberIndexOverflow
    require ((s.gov.proposals id).votedBitmap &&& Base.bit memberIndex=0) .alreadyApproved
    if approved then s.approve D msg reenter id memberIndex autoExecute
    else s.reject D msg.timestamp id memberIndex

/-- `_createProposal`; the new proposal is the current one. -/
def createProposal (msg : Msg) (reenter : Contract κ σ → Contract κ σ) (a : Action κ) (s : Contract κ σ) :
    Except Revert (Contract κ σ) := do
  s.gov.onlyActiveMember msg.sender
  require (s.gov.proposalExpiry≠0) .invalidProposalExpiry
  require (s.gov.memberActiveProposalCount msg.sender<s.gov.maxActiveProposalsPerMember)
    .tooManyActiveProposals
  (s.mapGov (·.create msg a)).vote D msg reenter (s.gov.currentProposalId+1) true true

def cancelProposal (msg : Msg) (id : ℕ) (s : Contract κ σ) : Except Revert (Contract κ σ) := do
  require ((s.gov.proposals id).status = .voting) .proposalNotInVoting
  require ((s.gov.proposals id).proposer = msg.sender) .notProposer
  require ((s.gov.proposals id).approved ≤ 1 ∧ (s.gov.proposals id).rejected=0) .proposalAlreadyInVoting
  s.finalizeProposal D msg.timestamp id .cancelled

def expireProposal (msg : Msg) (id : ℕ) (s : Contract κ σ) : Except Revert (Contract κ σ) :=
  if (s.gov.proposals id).status.isOpen then do
    let deadline ← s.gov.deadline id
    if msg.timestamp ≤ deadline then return s else s.finalizeProposal D msg.timestamp id .expired
  else return s

/-- The derived contract may veto the change. -/
def changeMember (msg : Msg) (newMember : Address) (s : Contract κ σ) : Except Revert (Contract κ σ) := do
  let gov ← s.gov.changeMember msg newMember
  let own ← D.onMemberChanged gov msg.sender newMember s.own
  return ⟨gov,own⟩

end Contract

/-- The public functions of `GovBase` and of the derived contract. -/
inductive Op (ω : Type) where
  | approveProposal (id : ℕ)
  | disapproveProposal (id : ℕ)
  | executeProposal (id : ℕ)
  | executeWithFailure (id : ℕ)
  | cancelProposal (id : ℕ)
  | expireProposal (id : ℕ)
  | proposeAddMember (newMember : Address) (newQuorum : ℕ)
  | proposeRemoveMember (member : Address) (newQuorum : ℕ)
  | proposeChangeQuorum (newQuorum : ℕ)
  | proposeChangeMaxProposals (newMax : ℕ)
  | changeMember (newMember : Address)
  | derived (o : ω)

/-- What the functions that propose a change of the members check first. -/
def Action.check (g : Base κ) : Action κ → Except Revert Unit
  | .addMember newMember newQuorum => do
    require (newMember≠0) .invalidMemberAddress
    require (!(g.members newMember).isActive) .alreadyAMember
    require (g.memberList.length < maxMemberIndex) .memberIndexOverflow
    checkQuorum newQuorum (g.memberList.length+1)
  | .removeMember member newQuorum => do
    require (g.members member).isActive .notAMember
    require (1<g.memberList.length) .invalidQuorum
    checkQuorum newQuorum (g.memberList.length-1)
  | .changeQuorum newQuorum => checkQuorum newQuorum g.memberList.length
  | .changeMaxProposals newMax => require (1 ≤ newMax ∧ newMax ≤ 50) .invalidMaxProposals
  | .custom _ => return ()

namespace Op
variable (D : Derived κ ω σ)

def propose (msg : Msg) (reenter : Contract κ σ → Contract κ σ) (a : Action κ) (s : Contract κ σ) :
    Except Revert (Contract κ σ) := do
  s.gov.onlyActiveMember msg.sender
  a.check s.gov
  s.createProposal D msg reenter a

/-- A function of the derived contract; the new proposal is the one after the current one. -/
def derive (msg : Msg) (reenter : Contract κ σ → Contract κ σ) (o : ω) (s : Contract κ σ) :
    Except Revert (Contract κ σ) := do
  let first ← D.call o msg s.gov s.own
  match first.2 with
  | .stop => return ⟨s.gov,first.1⟩
  | .propose k =>
    let s' ← (⟨s.gov,first.1⟩ : Contract κ σ).createProposal D msg reenter (.custom k)
    let own ← D.resume o (s.gov.currentProposalId+1) msg s'.gov s'.own
    return ⟨s'.gov,own⟩
  | .callOut =>
    let s' := reenter ⟨s.gov,first.1⟩
    let own ← D.resume o 0 msg s'.gov s'.own
    return ⟨s'.gov,own⟩

def run (msg : Msg) (reenter : Contract κ σ → Contract κ σ) (s : Contract κ σ) : Op ω → Except Revert (Contract κ σ)
  | .approveProposal id => do
    s.gov.checkProposalMembership msg.sender id
    s.vote D msg reenter id true true
  | .disapproveProposal id => do
    s.gov.checkProposalMembership msg.sender id
    s.vote D msg reenter id false false
  | .executeProposal id => do
    s.gov.checkProposalMembership msg.sender id
    (s.executeProposal D msg reenter id false).map Prod.snd
  | .executeWithFailure id => do
    s.gov.checkProposalMembership msg.sender id
    (s.executeProposal D msg reenter id true).map Prod.snd
  | .cancelProposal id => do
    s.gov.checkProposalMembership msg.sender id
    s.cancelProposal D msg id
  | .expireProposal id => do
    s.gov.checkProposalMembership msg.sender id
    s.expireProposal D msg id
  | .proposeAddMember newMember newQuorum => propose D msg reenter (.addMember newMember newQuorum) s
  | .proposeRemoveMember member newQuorum => propose D msg reenter (.removeMember member newQuorum) s
  | .proposeChangeQuorum newQuorum => propose D msg reenter (.changeQuorum newQuorum) s
  | .proposeChangeMaxProposals newMax => propose D msg reenter (.changeMaxProposals newMax) s
  | .changeMember newMember => s.changeMember D msg newMember
  | .derived o => derive D msg reenter o s

end Op

/-- A call, with the calls back into the contract that are made by its external calls. -/
inductive Call (ω : Type) where
  | mk (sender : Address) (op : Op ω) (inner : List (Call ω))

mutual

/-- One call at a time; a call that reverts changes nothing. -/
def Call.run (D : Derived κ ω σ) (now : ℕ) : Call ω → Contract κ σ → Except Revert (Contract κ σ)
  | .mk sender op inner, s => op.run D ⟨sender,now⟩ (Call.runAll D now inner) s

/-- A call that reverts changes nothing. -/
def Call.runAll (D : Derived κ ω σ) (now : ℕ) : List (Call ω) → Contract κ σ → Contract κ σ
  | [], s => s
  | c::cs, s => Call.runAll D now cs ((Call.run D now c s).toOption.getD s)

end

def runCalls (D : Derived κ ω σ) (calls : List (ℕ × Call ω)) (s : Contract κ σ) : Contract κ σ :=
  calls.foldl (fun s c => ((c.2.run D c.1 s).toOption.getD s)) s

end StableNet.Gov
