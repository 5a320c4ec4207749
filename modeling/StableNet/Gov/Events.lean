import StableNet.Gov.Council
import StableNet.Gov.MasterMinter
import StableNet.Gov.MinterSteps

/-! The events that name a proposal. The contracts take the number from `currentProposalId`, that of the newest
proposal. -/
namespace StableNet.Gov
open Chain (Address)
open Lib Council
variable {κ ω σ ε : Type}
variable {sender : Address} {reenter : Contract κ σ → Contract κ σ} {list : CouncilList} {failed : String}
  {f : Council → Address → Except Revert (Bool × Council)}

/-- The events of a derived contract come from its actions only, and they name the newest proposal; `announces`
are the actions that emit any. -/
structure Derived.Stamps (D : Derived κ ω σ) (events : σ → List ε) (proposalId : ε → ℕ) (announces : κ → Bool) :
    Prop where
  reenters : D.reenters=false
  executeCustomAction : ∀ {msg g k own success own'}, D.executeCustomAction msg g k own = .ok (success,own') →
    ∃ new, events own' = events own++new ∧ (∀ e ∈ new, proposalId e=g.currentProposalId) ∧
      (new ≠ [] ↔ announces k)
  onMemberAdded : ∀ {g a own own'}, D.onMemberAdded g a own = .ok own' → events own' = events own
  onMemberRemoved : ∀ {g a own own'}, D.onMemberRemoved g a own = .ok own' → events own' = events own
  onProposalFinalized : ∀ {g id own own'}, D.onProposalFinalized g id own = .ok own' → events own' = events own

/-- The execution of a proposal comes to an action that emits an event. -/
structure Base.Announces (announces : κ → Bool) (g : Base κ) (now id : ℕ) : Prop where
  inTime : g.InTime now id
  retries : g.proposalExecutionCount id < maxRetryCount
  action : ∃ k, (g.proposals id).action = some (.custom k) ∧ announces k

/-- The events of an execution name its proposal exactly if it is the newest one, or the execution does not come to an
action that emits any. -/
def Derived.NamesNewest (D : Derived κ ω σ) (events : σ → List ε) (proposalId : ε → ℕ) (announces : κ → Bool) : Prop :=
  ∀ (sender : Address) (now id : ℕ) (markFailedOnError success : Bool) (reenter : Contract κ σ → Contract κ σ)
    (s s' : Contract κ σ), s.executeProposal D ⟨sender,now⟩ reenter id markFailedOnError = .ok (success,s') →
    ((∀ e ∈ (events s'.own).drop (events s.own).length, proposalId e = id) ↔
      (id=s.gov.currentProposalId ∨ ¬ s.gov.Announces announces now id))

lemma exists_silent {events events' : List ε} {proposalId : ε → ℕ} {n : ℕ} (h : events'=events) :
    ∃ new, events' = events++new ∧ (∀ e ∈ new, proposalId e=n) ∧ (new ≠ [] ↔ (false : Bool)) :=
  ⟨[],by rw [h,List.append_nil],by simp,by simp⟩

section
variable {D : Derived κ ω σ} {events : σ → List ε} {proposalId : ε → ℕ} {announces : κ → Bool} {now id : ℕ}
  {s s' : Contract κ σ} {msg : Msg} {a : Option (Action κ)} {success markFailedOnError : Bool}

section
variable (hD : D.Stamps events proposalId announces)
include hD

lemma Derived.Stamps.executeInternalAction (h : s.executeInternalAction D msg (fun s => s) a = .ok (success,s')) :
    ∃ new, events s'.own = events s.own++new ∧ (∀ e ∈ new, proposalId e=s.gov.currentProposalId) ∧
      (new ≠ [] ↔ ∃ k, a = some (.custom k) ∧ announces k) := by
  have hsilent : ∀ {own : σ} {a : Option (Action κ)}, events own = events s.own → (∀ k, a ≠ some (.custom k)) →
      ∃ new, events own = events s.own++new ∧ (∀ e ∈ new, proposalId e=s.gov.currentProposalId) ∧
        (new ≠ [] ↔ ∃ k, a = some (.custom k) ∧ announces k) := fun hown ha =>
    ⟨[],by rw [hown,List.append_nil],by simp,iff_of_false (by simp) fun ⟨k,hk,_⟩ => ha k hk⟩
  cases Contract.executeInternalAction_performs h with
  | none | changeQuorum | changeMaxProposals => exact hsilent rfl (by simp)
  | addMember _ hown => exact hsilent (hD.onMemberAdded hown) (by simp)
  | removeMember _ hown => exact hsilent (hD.onMemberRemoved hown) (by simp)
  | custom hown =>
    obtain ⟨new,hnew,hstamp,hne⟩ := hD.executeCustomAction hown
    refine ⟨new,hnew,hstamp,hne.trans ?_⟩
    simp

lemma Derived.Stamps.finalizeProposal {st : ProposalStatus}
    (h : s.finalizeProposal D now id st = .ok s') : events s'.own = events s.own := by
  obtain ⟨own,hown,rfl⟩ := Contract.finalizeProposal_eq_ok h
  exact hD.onProposalFinalized hown

lemma Derived.Stamps.conclude
    (h : s.conclude D now id markFailedOnError success = .ok s') : events s'.own = events s.own := by
  unfold Contract.conclude at h
  split at h
  · exact hD.finalizeProposal (s := s.mapGov _) h
  · split at h
    · exact hD.finalizeProposal h
    · cases h
      rfl

lemma Derived.Stamps.executeProposal
    (h : s.executeProposal D ⟨sender,now⟩ reenter id markFailedOnError = .ok (success,s')) :
    ∃ new, events s'.own = events s.own++new ∧ (∀ e ∈ new, proposalId e=s.gov.currentProposalId) ∧
      (new ≠ [] ↔ s.gov.Announces announces now id) := by
  cases Contract.executeProposal_executes (Admits.eq hD.reenters reenter) h with
  | retire _ _ _ hretires hfinal =>
    refine ⟨[],?_,by simp,iff_of_false (by simp) fun ha => ?_⟩
    · rw [List.append_nil]
      have hlocked := hD.finalizeProposal hfinal
      exact hlocked
    · cases hretires with
      | expired htime => exact htime ha.inTime
      | failed hretries => exact absurd ha.retries (Nat.not_lt.mpr hretries)
  | perform _ hready hinner haction hconclude =>
    subst hinner
    obtain ⟨new,hnew,hstamp,hne⟩ := hD.executeInternalAction haction
    refine ⟨new,(hD.conclude hconclude).trans hnew,hstamp,hne.trans ?_⟩
    exact ⟨fun hk => ⟨hready.inTime,hready.retries,hk⟩,fun ha => ha.action⟩

lemma Derived.Stamps.namesNewest : D.NamesNewest events proposalId announces := by
  intro _ now id _ _ _ s s' h
  obtain ⟨new,hnew,hstamp,hne⟩ := hD.executeProposal h
  rw [hnew,List.drop_left]
  constructor
  · intro hnamed
    by_cases hnil : new = []
    · exact .inr fun ha => hne.mpr ha hnil
    · obtain ⟨e,he⟩ := List.exists_mem_of_ne_nil new hnil
      exact .inl ((hnamed e he).symm.trans (hstamp e he))
  · rintro (rfl | hsilent) e he
    · exact hstamp e he
    · exact absurd (hne.mp (List.ne_nil_of_mem he)) hsilent

end

end

/-- Every account of an action is announced. -/
def CouncilAction.announces : CouncilAction → Bool
  | .addBlacklistBatch accounts => accounts ≠ []
  | .removeBlacklistBatch accounts => accounts ≠ []
  | .addAuthorizedAccountBatch accounts => accounts ≠ []
  | .removeAuthorizedAccountBatch accounts => accounts ≠ []
  | _ => true

namespace Council
variable {c c' : Council} {proposalId : ℕ} {account : Address} {success : Bool}

/-- What is done with one account emits one event. -/
def Announced (proposalId : ℕ) (f : Council → Address → Except Revert (Bool × Council)) : Prop :=
  ∀ c account success c', f c account = .ok (success,c') →
    ∃ e : CouncilEvent, c'.events = c.events++[e] ∧ e.proposalId=proposalId

lemma announced_addTo {already : String} {added : Address → ℕ → CouncilEvent}
    (hadded : ∀ account id, (added account id).proposalId = id) :
    Announced proposalId (addTo list already failed added proposalId) := by
  intro c account success c' h
  unfold addTo at h
  split at h
  · cases h
    exact ⟨_,rfl,rfl⟩
  · split at h
    · cases h
      exact ⟨_,rfl,rfl⟩
    · obtain ⟨_,h⟩ := ok_of_bind h
      cases h
      exact ⟨_,rfl,hadded _ _⟩

lemma announced_removeFrom {missing : String} {removed : Address → ℕ → CouncilEvent}
    (hremoved : ∀ account id, (removed account id).proposalId = id) :
    Announced proposalId (removeFrom list missing failed removed proposalId) := by
  intro c account success c' h
  unfold removeFrom at h
  split at h
  · cases h
    exact ⟨_,rfl,rfl⟩
  · split at h
    · cases h
      exact ⟨_,rfl,rfl⟩
    · cases h
      exact ⟨_,rfl,hremoved _ _⟩

lemma announced_addToBlacklist : Announced proposalId (addToBlacklist proposalId) := announced_addTo fun _ _ => rfl

lemma announced_removeFromBlacklist : Announced proposalId (removeFromBlacklist proposalId) :=
  announced_removeFrom fun _ _ => rfl

lemma announced_addToAuthorizedAccount : Announced proposalId (addToAuthorizedAccount proposalId) :=
  announced_addTo fun _ _ => rfl

lemma announced_removeFromAuthorizedAccount : Announced proposalId (removeFromAuthorizedAccount proposalId) :=
  announced_removeFrom fun _ _ => rfl

lemma Announced.single (hf : Announced proposalId f) (h : f c account = .ok (success,c')) :
    ∃ new, c'.events = c.events++new ∧ (∀ e ∈ new, e.proposalId=proposalId) ∧ (new ≠ [] ↔ (true : Bool)) := by
  obtain ⟨e,he,hid⟩ := hf _ _ _ _ h
  exact ⟨[e],he,by simpa using hid,by simp⟩

lemma Announced.batch (hf : Announced proposalId f)
    {accounts : List Address} (h : batch f accounts c = .ok (success,c')) :
    ∃ new, c'.events = c.events++new ∧ (∀ e ∈ new, e.proposalId=proposalId) ∧ (new ≠ [] ↔ decide (accounts ≠ [])) := by
  obtain ⟨last,hlast,h⟩ := bind_eq_ok.mp h
  cases h
  clear h
  induction accounts generalizing c with
  | nil =>
    cases hlast
    exact ⟨[],by simp,by simp,by simp⟩
  | cons account accounts ih =>
    rw [List.foldlM_cons] at hlast
    obtain ⟨next,hnext,hlast⟩ := bind_eq_ok.mp hlast
    obtain ⟨⟨ok,done⟩,hdone,hnext⟩ := bind_eq_ok.mp hnext
    cases hnext
    obtain ⟨e,he,hid⟩ := hf _ _ _ _ hdone
    obtain ⟨new,hnew,hstamp,-⟩ := ih hlast
    refine ⟨e::new,by rw [hnew,he,List.append_assoc,List.singleton_append],?_,by simp⟩
    intro e' he'
    rcases List.mem_cons.mp he' with rfl | he'
    · exact hid
    · exact hstamp e' he'

end Council

lemma stamps_govCouncil : govCouncil.Stamps Council.events CouncilEvent.proposalId CouncilAction.announces where
  reenters := rfl
  executeCustomAction {_ _ k _ _ _} h := by
    cases k with
    | addBlacklist account => exact announced_addToBlacklist.single h
    | removeBlacklist account => exact announced_removeFromBlacklist.single h
    | addAuthorizedAccount account => exact announced_addToAuthorizedAccount.single h
    | removeAuthorizedAccount account => exact announced_removeFromAuthorizedAccount.single h
    | addBlacklistBatch accounts => exact announced_addToBlacklist.batch h
    | removeBlacklistBatch accounts => exact announced_removeFromBlacklist.batch h
    | addAuthorizedAccountBatch accounts => exact announced_addToAuthorizedAccount.batch h
    | removeAuthorizedAccountBatch accounts => exact announced_removeFromAuthorizedAccount.batch h
  onMemberAdded h := by
    cases h
    rfl
  onMemberRemoved h := by
    cases h
    rfl
  onProposalFinalized h := by
    cases h
    rfl

def MasterMinterAction.announces : MasterMinterAction → Bool
  | .pause => true
  | .unpause => true
  | _ => false

lemma MasterMinter.events_swapAndPop {m m' : MasterMinter} {minter : Address} (h : m.swapAndPop minter = .ok m') :
    m'.events=m.events := by
  unfold swapAndPop at h
  dsimp only at h
  split at h
  · split at h
    · cases h
    · obtain ⟨_,h⟩ := ok_of_bind h
      cases h
      dsimp only
      split
      · rfl
      · rfl
  · cases h
    rfl

lemma stamps_govMasterMinter (self : Address) :
    (govMasterMinter self).Stamps MasterMinter.events PauseEvent.proposalId MasterMinterAction.announces where
  reenters := rfl
  executeCustomAction {_ _ k _ _ _} h := by
    cases k with
    | configureMinter minter allowance =>
      obtain ⟨_,h⟩ := ok_of_bind h
      obtain ⟨_,h⟩ := ok_of_bind h
      obtain ⟨_,h⟩ := ok_of_bind h
      obtain ⟨_,h⟩ := ok_of_bind h
      obtain ⟨_,h⟩ := ok_of_bind h
      cases h
      refine exists_silent ?_
      unfold MasterMinter.track
      dsimp only
      split
      · rfl
      · rfl
    | removeMinter minter =>
      obtain ⟨_,h⟩ := ok_of_bind h
      obtain ⟨_,h⟩ := ok_of_bind h
      obtain ⟨_,h⟩ := ok_of_bind h
      obtain ⟨popped,hpopped,h⟩ := bind_eq_ok.mp h
      obtain ⟨_,h⟩ := ok_of_bind h
      cases h
      have hevents := MasterMinter.events_swapAndPop hpopped
      exact exists_silent hevents
    | updateMaxMinterAllowance newLimit =>
      obtain ⟨_,h⟩ := ok_of_bind h
      cases h
      exact exists_silent rfl
    | pause | unpause =>
      obtain ⟨_,h⟩ := ok_of_bind h
      cases h
      exact ⟨_,rfl,by simp [PauseEvent.proposalId],by simp [MasterMinterAction.announces]⟩
  onMemberAdded h := by
    cases h
    rfl
  onMemberRemoved h := by
    cases h
    rfl
  onProposalFinalized h := by
    cases h
    rfl

/-- The actions whose events name a proposal. -/
def MinterAction.announces : MinterAction → Bool
  | .pause => true
  | .unpause => true
  | _ => false

lemma Minter.Finalized.events {version : MinterVersion} {m m' : Minter} {id : ℕ} {executed : Prop}
    (h : Finalized version m id executed m') : m'.events=m.events := by
  cases h with
  | released => rfl
  | cleared _ h => cases h <;> rfl

lemma stamps_govMinter (codec : ProofCodec) (version : MinterVersion) :
    (govMinter codec version).Stamps Minter.events PauseEvent.proposalId MinterAction.announces where
  reenters := rfl
  executeCustomAction {_ _ k _ success _} h := by
    cases k with
    | mint beneficiary amount depositId =>
      obtain ⟨_,h⟩ := ok_of_bind h
      split at h <;> cases h <;> exact exists_silent rfl
    | burn src amount withdrawalId =>
      obtain ⟨_,h⟩ := ok_of_bind h
      split at h
      · obtain ⟨_,h⟩ := ok_of_bind h
        cases h
        exact exists_silent rfl
      · cases h
        exact exists_silent rfl
    | pause | unpause =>
      cases h
      exact ⟨_,rfl,by simp [PauseEvent.proposalId],by simp [MinterAction.announces]⟩
  onMemberAdded h := congrArg Minter.events ((memberless_govMinter codec version).onMemberAdded h)
  onMemberRemoved h := congrArg Minter.events ((memberless_govMinter codec version).onMemberRemoved h)
  onProposalFinalized h := (Minter.onProposalFinalized_eq_ok h).events

/-- In all contracts whose events name a proposal, and both versions of the minter, they name the newest one. -/
theorem events_name_newest (self : Address) (codec : ProofCodec) (version : MinterVersion) :
    govCouncil.NamesNewest Council.events CouncilEvent.proposalId CouncilAction.announces ∧
    (govMasterMinter self).NamesNewest MasterMinter.events PauseEvent.proposalId MasterMinterAction.announces ∧
    (govMinter codec version).NamesNewest Minter.events PauseEvent.proposalId MinterAction.announces :=
  ⟨stamps_govCouncil.namesNewest,(stamps_govMasterMinter self).namesNewest,
    (stamps_govMinter codec version).namesNewest⟩

namespace TwoProposals

def council : Contract CouncilAction Council :=
  ⟨.founded [0xa1,0xa2] 2,⟨fun _ => .empty,fun _ _ => false,fun _ => true,[]⟩⟩

def masterMinter : Contract MasterMinterAction MasterMinter :=
  ⟨.founded [0xa1,0xa2] 2,⟨⟨0x1002,fun _ => false,fun _ => 0⟩,1000,fun _ => false,[],fun _ => 0,false,[]⟩⟩

def codec : ProofCodec := ⟨fun _ => none,fun _ => none⟩

def minter : Contract MinterAction Minter := ⟨.founded [0xa1,0xa2] 2,.initial 0 ⟨0,true,true⟩⟩

/-- A proposal that has both votes and is not executed yet. -/
def decided {κ σ : Type} (s : Contract κ σ) : Contract κ σ :=
  s.mapGov fun g => (g.count 1 1 1 true).setStatus 1 .approved

def councilDecided : Contract CouncilAction Council :=
  decided (runCalls govCouncil [(1,.mk 0xa1 (.derived (.proposeAddBlacklistBatch [0xc1,0xc2])) [])] council)

def masterMinterDecided : Contract MasterMinterAction MasterMinter :=
  decided (runCalls (govMasterMinter 0x1002) [(1,.mk 0xa1 (.derived .proposePause) [])] masterMinter)

def minterDecided (version : MinterVersion) : Contract MinterAction Minter :=
  decided (runCalls (govMinter codec version) [(1,.mk 0xa1 (.derived .proposePause) [])] minter)

/-- The only proposal is the newest one. -/
theorem newest_named : (∃ s', councilDecided.executeProposal govCouncil ⟨0xa2,1⟩ id 1 false = .ok (true,s') ∧
      s'.own.events.length=2 ∧ ∀ e ∈ s'.own.events, e.proposalId=1) ∧
    (∃ s', masterMinterDecided.executeProposal (govMasterMinter 0x1002) ⟨0xa2,1⟩ id 1 false = .ok (true,s') ∧
      ∀ e ∈ s'.own.events, e.proposalId=1) ∧
    ∃ s', (minterDecided .v2).executeProposal (govMinter codec .v2) ⟨0xa2,1⟩ id 1 false = .ok (true,s') ∧
      ∀ e ∈ s'.own.events, e.proposalId=1 := by
  obtain ⟨⟨_,s'⟩,h,hs⟩ := exists_of_holds (x := councilDecided.executeProposal govCouncil ⟨0xa2,1⟩ id 1 false)
    (P := fun r => r.1 && r.2.own.events.length=2) (by decide +kernel)
  obtain ⟨⟨_,t'⟩,h',ht⟩ := exists_of_holds
    (x := masterMinterDecided.executeProposal (govMasterMinter 0x1002) ⟨0xa2,1⟩ id 1 false) (P := fun r => r.1)
    (by decide +kernel)
  obtain ⟨⟨_,u'⟩,h'',hu⟩ := exists_of_holds
    (x := (minterDecided .v2).executeProposal (govMinter codec .v2) ⟨0xa2,1⟩ id 1 false) (P := fun r => r.1)
    (by decide +kernel)
  rw [Bool.and_eq_true,decide_eq_true_eq] at hs
  cases hs.1
  cases ht
  cases hu
  obtain ⟨hcouncil,hmaster,hminter⟩ := events_name_newest 0x1002 codec .v2
  exact ⟨⟨s',h,hs.2,(hcouncil _ _ _ _ _ _ _ _ h).mpr (.inl (by decide +kernel))⟩,
    ⟨t',h',(hmaster _ _ _ _ _ _ _ _ h').mpr (.inl (by decide +kernel))⟩,
    u',h'',(hminter _ _ _ _ _ _ _ _ h'').mpr (.inl (by decide +kernel))⟩

/-- A second proposal is made before the first one is approved. -/
def councilAfter : Contract CouncilAction Council :=
  runCalls govCouncil [(1,.mk 0xa1 (.derived (.proposeAddBlacklist 0xc1)) []),
    (2,.mk 0xa1 (.derived (.proposeAddBlacklist 0xc2)) []),(3,.mk 0xa2 (.approveProposal 1) [])] council

def masterMinterAfter : Contract MasterMinterAction MasterMinter :=
  runCalls (govMasterMinter 0x1002) [(1,.mk 0xa1 (.derived .proposePause) []),
    (2,.mk 0xa1 (.derived (.proposeConfigureMinter 0xd1 10)) []),(3,.mk 0xa2 (.approveProposal 1) [])] masterMinter

def minterAfter (version : MinterVersion) : Contract MinterAction Minter :=
  runCalls (govMinter codec version) [(1,.mk 0xa1 (.derived .proposePause) []),
    (2,.mk 0xa1 (.derived .proposePause) []),(3,.mk 0xa2 (.approveProposal 1) [])] minter

/-- The first proposal is executed and the second one is still open, but the events name the second one. -/
theorem older_misnamed :
    ((councilAfter.gov.proposals 1).status = .executed ∧ (councilAfter.gov.proposals 2).status = .voting ∧
      councilAfter.own.events = [.addressBlacklisted 0xc1 2]) ∧
    ((masterMinterAfter.gov.proposals 1).status = .executed ∧ (masterMinterAfter.gov.proposals 2).status = .voting ∧
      masterMinterAfter.own.events = [.emergencyPaused 2]) ∧
    ∀ version ∈ [MinterVersion.v1,.v2], ((minterAfter version).gov.proposals 1).status = .executed ∧
      ((minterAfter version).gov.proposals 2).status = .voting ∧
      (minterAfter version).own.events = [.emergencyPaused 2] := by
  decide +kernel

end TwoProposals

end StableNet.Gov
