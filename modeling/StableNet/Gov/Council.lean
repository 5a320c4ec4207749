import StableNet.Gov.AddressSet
import StableNet.Gov.Membership

/-! The `GovCouncil` contract: the blacklist and the authorized accounts. Whether a call to the account manager
succeeds is left open. -/
namespace StableNet.Gov
open Chain (Address)
open Lib

inductive CouncilList where
  | blacklist
  | authorizedAccounts
  deriving DecidableEq

inductive CouncilAction where
  | addBlacklist (account : Address)
  | removeBlacklist (account : Address)
  | addAuthorizedAccount (account : Address)
  | removeAuthorizedAccount (account : Address)
  | addBlacklistBatch (accounts : List Address)
  | removeBlacklistBatch (accounts : List Address)
  | addAuthorizedAccountBatch (accounts : List Address)
  | removeAuthorizedAccountBatch (accounts : List Address)
  deriving DecidableEq

/-- The functions of the contract. Besides, the account manager may change its answers. -/
inductive CouncilOp where
  | proposeAddBlacklist (account : Address)
  | proposeRemoveBlacklist (account : Address)
  | proposeAddAuthorizedAccount (account : Address)
  | proposeRemoveAuthorizedAccount (account : Address)
  | proposeAddBlacklistBatch (accounts : List Address)
  | proposeRemoveBlacklistBatch (accounts : List Address)
  | proposeAddAuthorizedAccountBatch (accounts : List Address)
  | proposeRemoveAuthorizedAccountBatch (accounts : List Address)
  | accountManager (answers : Address → Bool)

inductive CouncilEvent where
  | addressBlacklisted (account : Address) (proposalId : ℕ)
  | addressUnblacklisted (account : Address) (proposalId : ℕ)
  | authorizedAccountAdded (account : Address) (proposalId : ℕ)
  | authorizedAccountRemoved (account : Address) (proposalId : ℕ)
  | proposalExecutionSkipped (account : Address) (proposalId : ℕ) (reason : String)
  deriving DecidableEq

def CouncilEvent.proposalId : CouncilEvent → ℕ
  | .addressBlacklisted _ proposalId => proposalId
  | .addressUnblacklisted _ proposalId => proposalId
  | .authorizedAccountAdded _ proposalId => proposalId
  | .authorizedAccountRemoved _ proposalId => proposalId
  | .proposalExecutionSkipped _ proposalId _ => proposalId

/-- The storage of `GovCouncil` with the bits of the accounts, the answers of the account manager and the
events that were emitted. -/
structure Council where
  lists : CouncilList → AddressSet
  bits : CouncilList → Address → Bool
  answers : Address → Bool
  events : List CouncilEvent

namespace Council

def emit (c : Council) (e : CouncilEvent) : Council := { c with events := c.events++[e] }

def checkAdd (c : Council) (list : CouncilList) (already : String) (accounts : List Address) : Except Revert Unit :=
  accounts.forM fun account => do
    require (account≠0) (.derived "ZeroAddressNotAllowed")
    require (!(c.lists list).contains account) (.derived already)

def checkRemove (c : Council) (list : CouncilList) (missing : String) (accounts : List Address) : Except Revert Unit :=
  accounts.forM fun account => require ((c.lists list).contains account) (.derived missing)

def propose (msg : Msg) (gov : Base CouncilAction) (check : Except Revert Unit) (k : CouncilAction) :
    Except Revert (Next CouncilAction) := do
  gov.onlyActiveMember msg.sender
  check
  return .propose k

/-- An account is added to a list, or the execution is skipped. -/
def addTo (list : CouncilList) (already failed : String) (added : Address → ℕ → CouncilEvent) (proposalId : ℕ)
    (c : Council) (account : Address) : Except Revert (Bool × Council) :=
  if (c.lists list).contains account then
    return (false,c.emit (.proposalExecutionSkipped account proposalId already))
  else if !c.answers account then
    return (false,c.emit (.proposalExecutionSkipped account proposalId failed))
  else do
    require (account≠0) (.derived "ZeroAddressNotAllowed")
    return (true,{ c with
      lists := Function.update c.lists list ((c.lists list).add account)
      bits := Function.update c.bits list (Function.update (c.bits list) account true) }.emit
        (added account proposalId))

def removeFrom (list : CouncilList) (missing failed : String) (removed : Address → ℕ → CouncilEvent) (proposalId : ℕ)
    (c : Council) (account : Address) : Except Revert (Bool × Council) :=
  if !(c.lists list).contains account then
    return (false,c.emit (.proposalExecutionSkipped account proposalId missing))
  else if !c.answers account then
    return (false,c.emit (.proposalExecutionSkipped account proposalId failed))
  else
    return (true,{ c with
      lists := Function.update c.lists list ((c.lists list).remove account)
      bits := Function.update c.bits list (Function.update (c.bits list) account false) }.emit
        (removed account proposalId))

def addToBlacklist : ℕ → Council → Address → Except Revert (Bool × Council) :=
  addTo .blacklist "ALREADY_BLACKLISTED" "GovCouncil: blacklist call failed" .addressBlacklisted

def removeFromBlacklist : ℕ → Council → Address → Except Revert (Bool × Council) :=
  removeFrom .blacklist "NOT_IN_BLACKLIST" "GovCouncil: unBlacklist call failed" .addressUnblacklisted

def addToAuthorizedAccount : ℕ → Council → Address → Except Revert (Bool × Council) :=
  addTo .authorizedAccounts "ALREADY_AUTHORIZED" "GovCouncil: authorize call failed" .authorizedAccountAdded

def removeFromAuthorizedAccount : ℕ → Council → Address → Except Revert (Bool × Council) :=
  removeFrom .authorizedAccounts "NOT_AUTHORIZED" "GovCouncil: unAuthorize call failed" .authorizedAccountRemoved

/-- A batch goes on after an account that is skipped. -/
def batch (f : Council → Address → Except Revert (Bool × Council)) (accounts : List Address) (c : Council) :
    Except Revert (Bool × Council) := do
  return (true,← accounts.foldlM (fun c account => do return (← f c account).2) c)

def executeCustomAction (gov : Base CouncilAction) (c : Council) : CouncilAction → Except Revert (Bool × Council)
  | .addBlacklist account => addToBlacklist gov.currentProposalId c account
  | .addBlacklistBatch accounts => batch (addToBlacklist gov.currentProposalId) accounts c
  | .removeBlacklist account => removeFromBlacklist gov.currentProposalId c account
  | .removeBlacklistBatch accounts => batch (removeFromBlacklist gov.currentProposalId) accounts c
  | .addAuthorizedAccount account => addToAuthorizedAccount gov.currentProposalId c account
  | .addAuthorizedAccountBatch accounts => batch (addToAuthorizedAccount gov.currentProposalId) accounts c
  | .removeAuthorizedAccount account => removeFromAuthorizedAccount gov.currentProposalId c account
  | .removeAuthorizedAccountBatch accounts => batch (removeFromAuthorizedAccount gov.currentProposalId) accounts c

def call (msg : Msg) (gov : Base CouncilAction) (c : Council) : CouncilOp → Except Revert (Council × Next CouncilAction)
  | .proposeAddBlacklist account => do
    return (c,← propose msg gov (c.checkAdd .blacklist "AlreadyInBlacklist" [account]) (.addBlacklist account))
  | .proposeRemoveBlacklist account => do
    return (c,← propose msg gov (c.checkRemove .blacklist "NotInBlacklist" [account]) (.removeBlacklist account))
  | .proposeAddAuthorizedAccount account => do
    return (c,← propose msg gov (c.checkAdd .authorizedAccounts "AlreadyInAuthorizedAccountList" [account])
      (.addAuthorizedAccount account))
  | .proposeRemoveAuthorizedAccount account => do
    return (c,← propose msg gov (c.checkRemove .authorizedAccounts "NotInAuthorizedAccountList" [account])
      (.removeAuthorizedAccount account))
  | .proposeAddBlacklistBatch accounts => do
    return (c,← propose msg gov (c.checkAdd .blacklist "AlreadyInBlacklist" accounts) (.addBlacklistBatch accounts))
  | .proposeRemoveBlacklistBatch accounts => do
    return (c,← propose msg gov (c.checkRemove .blacklist "NotInBlacklist" accounts) (.removeBlacklistBatch accounts))
  | .proposeAddAuthorizedAccountBatch accounts => do
    return (c,← propose msg gov (c.checkAdd .authorizedAccounts "AlreadyInAuthorizedAccountList" accounts)
      (.addAuthorizedAccountBatch accounts))
  | .proposeRemoveAuthorizedAccountBatch accounts => do
    return (c,← propose msg gov (c.checkRemove .authorizedAccounts "NotInAuthorizedAccountList" accounts)
      (.removeAuthorizedAccountBatch accounts))
  | .accountManager answers => return ({ c with answers := answers },.stop)

end Council

def govCouncil : Derived CouncilAction CouncilOp Council where
  reenters := false
  call o msg gov c := c.call msg gov o
  resume _ _ _ _ c := return c
  executeCustomAction _ gov k c := c.executeCustomAction gov k
  onMemberAdded _ _ c := return c
  onMemberRemoved _ _ c := return c
  onMemberChanged _ _ _ c := return c
  onProposalFinalized _ _ c := return c

namespace Council
variable {c : Council} {list : CouncilList} {account : Address} {id : ℕ} {text failed : String}
  {event : Address → ℕ → CouncilEvent}

/-- The accounts in a list are those with its bit; the zero address is none of them. -/
def Fits (s : AddressSet) (bits : Address → Bool) : Prop := ∀ a, (a ∈ s.values ↔ bits a=true) ∧ (a ∈ s.values → a≠0)

def Agrees (c : Council) : Prop := ∀ list, Fits (c.lists list) (c.bits list)

namespace Agrees

lemma write (h : c.Agrees) {s : AddressSet} {bits : Address → Bool} (hs : Fits s bits) (e : CouncilEvent) :
    ({ c with lists := Function.update c.lists list s, bits := Function.update c.bits list bits }.emit e).Agrees := by
  intro l
  by_cases hl : l=list
  · subst hl
    simpa [emit] using hs
  · simpa [emit,hl] using h l

lemma addTo (h : c.Agrees) : Post (fun _ => True) (·.2.Agrees) (addTo list text failed event id c account) := by
  rw [Council.addTo]
  split
  · exact h
  split
  · exact h
  rw [require]
  split
  · refine h.write (fun a => ?_) _
    have ha := h list a
    by_cases heq : a=account <;> simp_all [AddressSet.mem_add]
  · trivial

lemma removeFrom (h : c.Agrees) :
    Post (fun _ => True) (·.2.Agrees) (removeFrom list text failed event id c account) := by
  rw [Council.removeFrom]
  split
  · exact h
  split
  · exact h
  refine h.write (fun a => ?_) _
  have ha := h list a
  by_cases heq : a=account <;> simp_all [AddressSet.mem_remove]

lemma batch {f : Council → Address → Except Revert (Bool × Council)} (h : c.Agrees)
    (hf : ∀ {c a}, c.Agrees → Post (fun _ => True) (·.2.Agrees) (f c a)) (accounts : List Address) :
    Post (fun _ => True) (·.2.Agrees) (batch f accounts c) := by
  refine Post.bind (P := Agrees) (Post.foldlM (fun c a hc => ?_) accounts h) fun _ hc => hc
  exact (hf hc).bind fun _ hr => hr

end Agrees

end Council

lemma preserves_council : govCouncil.Preserves Council.Agrees where
  call {o _ _ _ _ _} hcall h := by
    cases o with
    | accountManager answers =>
      cases hcall
      exact h
    | _ =>
      obtain ⟨_,hcall⟩ := ok_of_bind hcall
      cases hcall
      exact h
  resume hr h := by
    cases hr
    exact h
  executeCustomAction {_ _ k _ _ _} hr h := by
    refine Post.of_ok (E := fun _ => True) (P := (·.2.Agrees)) ?_ hr
    cases k with
    | addBlacklist | addAuthorizedAccount => exact h.addTo
    | removeBlacklist | removeAuthorizedAccount => exact h.removeFrom
    | addBlacklistBatch | addAuthorizedAccountBatch => exact h.batch (·.addTo) _
    | removeBlacklistBatch | removeAuthorizedAccountBatch => exact h.batch (·.removeFrom) _
  onMemberAdded hr _ _ h := by
    cases hr
    exact h
  onMemberRemoved hr _ h := by
    cases hr
    exact h
  onMemberChanged hr _ _ _ _ h := by
    cases hr
    exact h
  onProposalFinalized hr h := by
    cases hr
    exact h

/-- Whatever the members do and the account manager answers, the lists of the council stay those of the bits. -/
theorem council_agrees (calls : List (ℕ × Call CouncilOp)) (s : Contract CouncilAction Council) (h : s.own.Agrees) :
    (runCalls govCouncil calls s).own.Agrees :=
  preserves_council.runCalls calls h

/-- A single member puts an account on the blacklist. -/
theorem council_agrees_single : (runCalls govCouncil [(1,.mk 0xa1 (.derived (.proposeAddBlacklist 0xc1)) [])]
    ⟨.founded [0xa1] 1,⟨fun _ => .empty,fun _ _ => false,fun _ => true,[]⟩⟩).own.bits .blacklist 0xc1=true :=
  (council_agrees _ _ (fun _ _ => by simp [AddressSet.empty]) .blacklist 0xc1).1.mp (by decide +kernel)

end StableNet.Gov
