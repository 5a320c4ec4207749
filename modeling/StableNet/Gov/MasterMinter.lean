import StableNet.Gov.Membership

/-! The `GovMasterMinter` contract: the registry of the minters, which the coin adapter repeats. -/
namespace StableNet.Gov
open Chain (Address)
open Lib
open Function

structure Mintable where
  masterMinter : Address
  minters : Address → Bool
  minterAllowed : Address → ℕ

namespace Mintable

def onlyMasterMinter (t : Mintable) (sender : Address) : Except Revert Unit :=
  require (sender=t.masterMinter) (.derived "NativeCoinAdapter: caller is not the masterMinter")

def configureMinter (t : Mintable) (sender minter : Address) (minterAllowedAmount : ℕ) : Except Revert Mintable := do
  t.onlyMasterMinter sender
  return { t with
    minters := update t.minters minter true
    minterAllowed := update t.minterAllowed minter minterAllowedAmount }

def removeMinter (t : Mintable) (sender minter : Address) : Except Revert Mintable := do
  t.onlyMasterMinter sender
  return { t with
    minters := update t.minters minter false
    minterAllowed := update t.minterAllowed minter 0 }

def updateMasterMinter (t : Mintable) (sender newMasterMinter : Address) : Except Revert Mintable := do
  t.onlyMasterMinter sender
  require (newMasterMinter≠0) (.derived "NativeCoinAdapter: new masterMinter is the zero address")
  return { t with masterMinter := newMasterMinter }

/-- The allowance that a mint uses up; whether it succeeds is left open. -/
def mint (t : Mintable) (sender : Address) (amount : ℕ) (success : Bool) : Except Revert Mintable := do
  require (t.minters sender) (.derived "NativeCoinAdapter: caller is not a minter")
  require (0<amount) (.derived "NativeCoinAdapter: mint amount not greater than 0")
  require (amount ≤ t.minterAllowed sender) (.derived "NativeCoinAdapter: mint amount exceeds minterAllowance")
  require success (.derived "NativeCoinAdapter: mint failed")
  return { t with minterAllowed := update t.minterAllowed sender (t.minterAllowed sender-amount) }

end Mintable

/-- The functions of the adapter that write to the storage of `Mintable`. -/
inductive MintableOp where
  | configureMinter (minter : Address) (minterAllowedAmount : ℕ)
  | removeMinter (minter : Address)
  | updateMasterMinter (newMasterMinter : Address)
  | mint (amount : ℕ) (success : Bool)

def MintableOp.run (o : MintableOp) (sender : Address) (t : Mintable) : Except Revert Mintable :=
  match o with
  | .configureMinter minter minterAllowedAmount => t.configureMinter sender minter minterAllowedAmount
  | .removeMinter minter => t.removeMinter sender minter
  | .updateMasterMinter newMasterMinter => t.updateMasterMinter sender newMasterMinter
  | .mint amount success => t.mint sender amount success

inductive MasterMinterAction where
  | configureMinter (minter : Address) (allowance : ℕ)
  | removeMinter (minter : Address)
  | updateMaxMinterAllowance (newLimit : ℕ)
  | pause
  | unpause
  deriving DecidableEq

/-- The functions of the contract. Besides, others call the adapter. -/
inductive MasterMinterOp where
  | proposeConfigureMinter (minter : Address) (minterAllowedAmount : ℕ)
  | proposeRemoveMinter (minter : Address)
  | proposeUpdateMaxMinterAllowance (newLimit : ℕ)
  | proposePause
  | proposeUnpause
  | adapter (o : MintableOp)

/-- The storage of `GovMasterMinter` with that of its token, and the events it has emitted. -/
structure MasterMinter where
  fiatToken : Mintable
  maxMinterAllowance : ℕ
  isMinter : Address → Bool
  minterList : List Address
  minterIndex : Address → ℕ
  emergencyPaused : Bool
  events : List PauseEvent

namespace MasterMinter

def whenNotPaused (m : MasterMinter) : Except Revert Unit := require (!m.emergencyPaused) (.derived "ContractPaused")

def proposeConfigureMinter (msg : Msg) (gov : Base MasterMinterAction) (minter : Address)
    (minterAllowedAmount : ℕ) (m : MasterMinter) : Except Revert (Next MasterMinterAction) := do
  gov.onlyActiveMember msg.sender
  m.whenNotPaused
  require (minter≠0) (.derived "InvalidMinterAddress")
  require (minterAllowedAmount≠0) (.derived "InvalidAllowance")
  require (minterAllowedAmount ≤ m.maxMinterAllowance) (.derived "InvalidAllowance")
  return .propose (.configureMinter minter minterAllowedAmount)

def proposeRemoveMinter (msg : Msg) (gov : Base MasterMinterAction) (minter : Address) (m : MasterMinter) :
    Except Revert (Next MasterMinterAction) := do
  gov.onlyActiveMember msg.sender
  m.whenNotPaused
  require (minter≠0) (.derived "InvalidMinterAddress")
  require (m.isMinter minter) (.derived "NotAMinter")
  return .propose (.removeMinter minter)

def proposeUpdateMaxMinterAllowance (msg : Msg) (gov : Base MasterMinterAction) (newLimit : ℕ) :
    Except Revert (Next MasterMinterAction) := do
  gov.onlyActiveMember msg.sender
  require (newLimit≠0) (.derived "InvalidAllowance")
  return .propose (.updateMaxMinterAllowance newLimit)

def proposePause (msg : Msg) (gov : Base MasterMinterAction) (m : MasterMinter) :
    Except Revert (Next MasterMinterAction) := do
  gov.onlyActiveMember msg.sender
  m.whenNotPaused
  return .propose .pause

def proposeUnpause (msg : Msg) (gov : Base MasterMinterAction) (m : MasterMinter) :
    Except Revert (Next MasterMinterAction) := do
  gov.onlyActiveMember msg.sender
  require m.emergencyPaused (.derived "ContractNotPaused")
  return .propose .unpause

/-- The registry with a minter; one that is already there stays in its place. -/
def track (m : MasterMinter) (minter : Address) : MasterMinter :=
  if m.isMinter minter then m
  else { m with
    minterList := m.minterList++[minter]
    minterIndex := update m.minterIndex minter (m.minterList.length+1)
    isMinter := update m.isMinter minter true }

/-- The list and the index without a minter: the last one takes its place. -/
def swapAndPop (m : MasterMinter) (minter : Address) : Except Revert MasterMinter :=
  let index := m.minterIndex minter
  if 0 < index then
    match m.minterList.getLast? with
    | none => .error .arithmetic
    | some lastMinter => do
      let arrayIndex := index-1
      let moved := if arrayIndex ≠ m.minterList.length-1 then
          { m with
            minterList := m.minterList.set arrayIndex lastMinter
            minterIndex := update m.minterIndex lastMinter index }
        else m
      require (arrayIndex < m.minterList.length) .arithmetic
      return { moved with
        minterList := moved.minterList.dropLast
        minterIndex := update moved.minterIndex minter 0 }
  else return m

section
variable (self : Address)

/-- The call to the token reverts everything if it fails. -/
def safeConfigureMinter (m : MasterMinter) (minter : Address) (allowance : ℕ) :
    Except Revert (Bool × MasterMinter) := do
  m.whenNotPaused
  let fiatToken ← (m.fiatToken.configureMinter self minter allowance).mapError fun _ =>
    .derived "MinterConfigurationFailed"
  return (true,{ m.track minter with fiatToken := fiatToken })

def safeRemoveMinter (m : MasterMinter) (minter : Address) : Except Revert (Bool × MasterMinter) := do
  m.whenNotPaused
  let popped ← m.swapAndPop minter
  let fiatToken ← (m.fiatToken.removeMinter self minter).mapError fun _ => .derived "MinterRemovalFailed"
  return (true,{ popped with isMinter := update popped.isMinter minter false, fiatToken := fiatToken })

def executePause (gov : Base MasterMinterAction) (m : MasterMinter) : Except Revert (Bool × MasterMinter) := do
  require (!m.emergencyPaused) (.derived "ContractPaused")
  return (true,{ m with
    emergencyPaused := true
    events := m.events++[.emergencyPaused gov.currentProposalId] })

def executeUnpause (gov : Base MasterMinterAction) (m : MasterMinter) : Except Revert (Bool × MasterMinter) := do
  require m.emergencyPaused (.derived "ContractNotPaused")
  return (true,{ m with
    emergencyPaused := false
    events := m.events++[.emergencyUnpaused gov.currentProposalId] })

/-- The parameters are checked again when the proposal is executed. -/
def executeCustomAction (gov : Base MasterMinterAction) (m : MasterMinter) :
    MasterMinterAction → Except Revert (Bool × MasterMinter)
  | .configureMinter minter allowance => do
    require (minter≠0) (.derived "InvalidMinterAddress")
    require (allowance≠0) (.derived "InvalidAllowance")
    require (allowance ≤ m.maxMinterAllowance) (.derived "InvalidAllowance")
    m.safeConfigureMinter self minter allowance
  | .removeMinter minter => do
    require (minter≠0) (.derived "InvalidMinterAddress")
    require (m.isMinter minter) (.derived "NotAMinter")
    m.safeRemoveMinter self minter
  | .updateMaxMinterAllowance newLimit => do
    require (newLimit≠0) (.derived "InvalidAllowance")
    return (true,{ m with maxMinterAllowance := newLimit })
  | .pause => m.executePause gov
  | .unpause => m.executeUnpause gov

end

end MasterMinter

/-- The contract at the address `self`. Nobody else calls the adapter from this address. -/
def govMasterMinter (self : Address) : Derived MasterMinterAction MasterMinterOp MasterMinter where
  reenters := false
  call o msg gov m :=
    match o with
    | .proposeConfigureMinter minter minterAllowedAmount => do
      return (m,← m.proposeConfigureMinter msg gov minter minterAllowedAmount)
    | .proposeRemoveMinter minter => do return (m,← m.proposeRemoveMinter msg gov minter)
    | .proposeUpdateMaxMinterAllowance newLimit => do
      return (m,← MasterMinter.proposeUpdateMaxMinterAllowance msg gov newLimit)
    | .proposePause => do return (m,← m.proposePause msg gov)
    | .proposeUnpause => do return (m,← m.proposeUnpause msg gov)
    | .adapter o => do
      require (msg.sender≠self) (.derived "not a sender")
      let fiatToken ← o.run msg.sender m.fiatToken
      return ({ m with fiatToken := fiatToken },.stop)
  resume _ _ _ _ m := return m
  executeCustomAction _ gov k m := m.executeCustomAction self gov k
  onMemberAdded _ _ m := return m
  onMemberRemoved _ _ m := return m
  onMemberChanged _ _ _ m := return m
  onProposalFinalized _ _ m := return m

/-- The list, the index and the flags of the registry fit together. -/
structure MasterMinter.Consistent (m : MasterMinter) : Prop where
  indexed : Indexed m.minterList m.minterIndex
  listed : ∀ a, m.isMinter a ↔ a ∈ m.minterList

/-- The registry is consistent, and the adapter has the same minters. -/
structure MasterMinter.Agrees (address : Address) (m : MasterMinter) : Prop extends m.Consistent where
  minters : ∀ a, m.isMinter a = m.fiatToken.minters a
  masterMinter : m.fiatToken.masterMinter=address

namespace MasterMinter
variable {m m' : MasterMinter} {self minter a : Address} {allowance : ℕ} {success : Bool}

lemma consistent_track (h : m.Consistent) (minter : Address) : (m.track minter).Consistent := by
  unfold track
  split
  · exact h
  · rename_i hnew
    have hmem : minter ∉ m.minterList := fun hmem => hnew ((h.listed minter).mpr hmem)
    refine ⟨h.indexed.push hmem,fun a => ?_⟩
    by_cases ha : a=minter
    · simp [ha]
    · simpa [ha] using h.listed a

lemma isMinter_track (m : MasterMinter) (minter : Address) :
    (m.track minter).isMinter = update m.isMinter minter true := by
  unfold track
  split
  · rename_i hold
    exact (update_eq_self_iff.mpr hold.symm).symm
  · rfl

theorem swapAndPop_eq_ok (h : m.Consistent) (hminter : m.isMinter minter) (hpop : m.swapAndPop minter = .ok m') :
    ∃ last, m.minterList.getLast? = some last ∧ m' = { m with
      minterList := (m.minterList.set (m.minterIndex minter-1) last).dropLast
      minterIndex := update (update m.minterIndex last (m.minterIndex minter)) minter 0 } := by
  have hindex : m.minterIndex minter≠0 := h.indexed.index_ne_zero_iff.mpr ((h.listed minter).mp hminter)
  unfold swapAndPop at hpop
  dsimp only at hpop
  rw [if_pos (Nat.pos_of_ne_zero hindex)] at hpop
  split at hpop
  · cases hpop
  · rename_i last hlast
    refine ⟨last,hlast,?_⟩
    obtain ⟨_,hpop⟩ := ok_of_bind hpop
    split at hpop
    · cases hpop
      rfl
    · rename_i hplace
      cases hpop
      -- the minter is the last one itself
      have hat := (h.indexed.index_eq minter (m.minterIndex minter-1)).mp (by omega)
      rw [not_not.mp hplace,← List.getLast?_eq_getElem?,hlast] at hat
      cases hat
      rw [not_not.mp hplace,update_idem]
      congr 2
      refine List.ext_getElem? fun i => ?_
      rw [List.getElem?_set]
      split
      · rename_i hi
        have hpos := List.length_pos_of_mem (List.mem_of_getLast? hlast)
        rw [← hi,← List.getLast?_eq_getElem?,hlast,if_pos (by omega)]
      · rfl

lemma Agrees.safeConfigureMinter (h : m.Agrees self)
    (hr : m.safeConfigureMinter self minter allowance = .ok (success,m')) : m'.Agrees self := by
  obtain ⟨_,hr⟩ := ok_of_bind hr
  obtain ⟨token,htoken,hr⟩ := bind_eq_ok.mp hr
  cases hr
  obtain ⟨_,htoken⟩ := ok_of_bind (mapError_eq_ok.mp htoken)
  cases htoken
  have hconsistent := consistent_track h.toConsistent minter
  refine ⟨⟨hconsistent.indexed,hconsistent.listed⟩,fun a => ?_,h.masterMinter⟩
  dsimp only
  rw [isMinter_track]
  by_cases ha : a=minter
  · rw [ha,update_self,update_self]
  · rw [update_of_ne ha,update_of_ne ha]
    exact h.minters a

lemma Agrees.safeRemoveMinter (h : m.Agrees self) (hminter : m.isMinter minter)
    (hr : m.safeRemoveMinter self minter = .ok (success,m')) : m'.Agrees self := by
  obtain ⟨_,hr⟩ := ok_of_bind hr
  obtain ⟨popped,hpopped,hr⟩ := bind_eq_ok.mp hr
  obtain ⟨token,htoken,hr⟩ := bind_eq_ok.mp hr
  cases hr
  obtain ⟨_,htoken⟩ := ok_of_bind (mapError_eq_ok.mp htoken)
  cases htoken
  obtain ⟨last,hlast,rfl⟩ := swapAndPop_eq_ok h.toConsistent hminter hpopped
  have hmem := (h.listed minter).mp hminter
  refine ⟨⟨h.indexed.swapPop hmem hlast,fun a => ?_⟩,fun a => ?_,h.masterMinter⟩
  · refine Iff.trans ?_ (h.indexed.mem_swapPop hmem hlast).symm
    by_cases ha : a=minter
    · simp [ha]
    · simpa [ha] using h.listed a
  · dsimp only
    by_cases ha : a=minter
    · rw [ha,update_self,update_self]
    · rw [update_of_ne ha,update_of_ne ha]
      exact h.minters a

lemma Agrees.executeCustomAction {gov : Base MasterMinterAction} {k : MasterMinterAction} (h : m.Agrees self)
    (hr : m.executeCustomAction self gov k = .ok (success,m')) : m'.Agrees self := by
  cases k with
  | configureMinter minter allowance =>
    obtain ⟨_,hr⟩ := ok_of_bind hr
    obtain ⟨_,hr⟩ := ok_of_bind hr
    obtain ⟨_,hr⟩ := ok_of_bind hr
    exact h.safeConfigureMinter hr
  | removeMinter minter =>
    obtain ⟨_,hr⟩ := ok_of_bind hr
    obtain ⟨_,hminter,hr⟩ := bind_eq_ok.mp hr
    exact h.safeRemoveMinter (require_eq_ok.mp hminter) hr
  | updateMaxMinterAllowance | pause | unpause =>
    obtain ⟨_,hr⟩ := ok_of_bind hr
    cases hr
    exact ⟨⟨h.indexed,h.listed⟩,h.minters,h.masterMinter⟩

theorem minters_run {o : MintableOp} {sender : Address} {t t' : Mintable} (hsender : sender≠t.masterMinter)
    (h : o.run sender t = .ok t') : t'.minters=t.minters ∧ t'.masterMinter=t.masterMinter := by
  have hrefused : ∀ u, t.onlyMasterMinter sender ≠ .ok u := fun u hu =>
    hsender (of_decide_eq_true (require_eq_ok.mp hu))
  cases o with
  | configureMinter | removeMinter | updateMasterMinter =>
    obtain ⟨u,hu,_⟩ := bind_eq_ok.mp h
    exact absurd hu (hrefused u)
  | mint amount success =>
    obtain ⟨_,h⟩ := ok_of_bind h
    obtain ⟨_,h⟩ := ok_of_bind h
    obtain ⟨_,h⟩ := ok_of_bind h
    obtain ⟨_,h⟩ := ok_of_bind h
    cases h
    exact ⟨rfl,rfl⟩

end MasterMinter

lemma preserves_agrees (self : Address) : (govMasterMinter self).Preserves (MasterMinter.Agrees self) where
  call {o _ _ _ _ _} hcall h := by
    cases o with
    | adapter o =>
      obtain ⟨_,hsender,hcall⟩ := bind_eq_ok.mp hcall
      obtain ⟨token,htoken,hcall⟩ := bind_eq_ok.mp hcall
      cases hcall
      have hsender := of_decide_eq_true (require_eq_ok.mp hsender)
      obtain ⟨hminters,hmaster⟩ := MasterMinter.minters_run (h.masterMinter.symm ▸ hsender) htoken
      exact ⟨⟨h.indexed,h.listed⟩,fun a => (h.minters a).trans (congrFun hminters a).symm,hmaster.trans h.masterMinter⟩
    | _ =>
      obtain ⟨_,hcall⟩ := ok_of_bind hcall
      cases hcall
      exact h
  resume hr h := by
    cases hr
    exact h
  executeCustomAction hr h := h.executeCustomAction hr
  onMemberAdded hr _ _ h := by
    cases hr
    exact h
  onMemberRemoved hr _ h := by
    cases hr
    exact h
  onMemberChanged hr _ _ _ _ h := by
    cases hr
    exact h
  onProposalFinalized hr h := by
    cases hr
    exact h

/-- The registry of the minters and the adapter agree after every history of calls. -/
theorem minters_agree (self : Address) (calls : List (ℕ × Call MasterMinterOp))
    (s : Contract MasterMinterAction MasterMinter) (h : s.own.Agrees self) :
    (runCalls (govMasterMinter self) calls s).own.Agrees self :=
  (preserves_agrees self).runCalls calls h

namespace TwoMinters

def start : Contract MasterMinterAction MasterMinter where
  gov := .founded [0xa1] 1
  own := ⟨⟨0x1002,fun _ => false,fun _ => 0⟩,1000,fun _ => false,[],fun _ => 0,false,[]⟩

lemma start_agrees : start.own.Agrees 0x1002 := ⟨⟨.nil,fun a => by simp [start]⟩,fun _ => rfl,rfl⟩

/-- Two minters are configured and the first one is removed. -/
def calls : List (ℕ × Call MasterMinterOp) :=
  [(1,.mk 0xa1 (.derived (.proposeConfigureMinter 0xd1 10)) []),
    (2,.mk 0xa1 (.derived (.proposeConfigureMinter 0xd2 20)) []),(3,.mk 0xa1 (.derived (.proposeRemoveMinter 0xd1)) [])]

theorem removal_agrees : start.own.Agrees 0x1002 ∧
    (runCalls (govMasterMinter 0x1002) calls start).own.minterList = [0xd2] ∧
    (runCalls (govMasterMinter 0x1002) calls start).own.Agrees 0x1002 :=
  ⟨start_agrees,by decide +kernel,minters_agree 0x1002 calls start start_agrees⟩

end TwoMinters

end StableNet.Gov
