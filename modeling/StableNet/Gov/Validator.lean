import StableNet.Gov.AddressSet
import StableNet.Gov.Membership

/-! The `GovValidator` contract: the registry of the validators with their operators and BLS keys. The
operators are the members of the governance. -/
namespace StableNet.Gov
open Chain (Address Bytes)
open Lib
open Function

inductive ValidatorAction where
  | setGasTip (newTip : ℕ)
  deriving DecidableEq

inductive ValidatorOp where
  | configureValidator (newValidator : Address) (blsKey blsSig : Bytes)
  | proposeGasTip (newTip : ℕ)

/-- What the removal of a member found: the validator it operates, and the validators that had a key. -/
structure Removal where
  validator : Address
  keyed : List Address
  deriving DecidableEq

/-- Another validator with a key is left. -/
def Removal.Safe (x : Removal) : Prop := ∃ v ∈ x.keyed, v≠x.validator

instance (x : Removal) : Decidable x.Safe := by
  unfold Removal.Safe
  infer_instance

/-- The storage of `GovValidator`; the removals are what a run leaves behind besides the storage. -/
structure Registry where
  validators : AddressSet
  validatorToOperator : Address → Address
  operatorToValidator : Address → Address
  validatorToBlsKey : Address → Bytes
  blsKeyToValidator : Bytes → Address
  gasTip : ℕ
  removals : List Removal

namespace Registry

def keyed (r : Registry) : List Address := r.validators.values.filter fun v => r.validatorToBlsKey v ≠ []

def setBlsKey (r : Registry) (validator : Address) (blsKey : Bytes) : Registry :=
  { r with
    validatorToBlsKey := update r.validatorToBlsKey validator blsKey
    blsKeyToValidator := update r.blsKeyToValidator blsKey validator }

def setValidatorAndBlsKey (r : Registry) (sender newValidator : Address) (blsKey : Bytes) : Registry :=
  { r with
    validators := r.validators.add newValidator
    operatorToValidator := update r.operatorToValidator sender newValidator
    validatorToOperator := update r.validatorToOperator newValidator sender }.setBlsKey newValidator blsKey

/-- The old key is free again. -/
def changeBlsKey (r : Registry) (validator : Address) (blsKey : Bytes) : Registry :=
  { r with
    blsKeyToValidator := update r.blsKeyToValidator (r.validatorToBlsKey validator) 0 }.setBlsKey
      validator blsKey

def removeValidator (r : Registry) (validator member : Address) : Registry :=
  { r with
    validators := r.validators.remove validator
    validatorToOperator := update r.validatorToOperator validator 0
    operatorToValidator := update r.operatorToValidator member 0
    blsKeyToValidator := update r.blsKeyToValidator (r.validatorToBlsKey validator) 0
    validatorToBlsKey := update r.validatorToBlsKey validator [] }

def changeValidator (r : Registry) (sender oldValidator newValidator : Address) (blsKey : Bytes) : Registry :=
  (r.removeValidator oldValidator sender).setValidatorAndBlsKey sender newValidator blsKey

def blsPublicKeyLength : ℕ := 48
def blsSignatureLength : ℕ := 96

section
variable (blsPoP : Bytes → Option Bool)

/-- `_checkBlsKey`; the static call to the precompile gives nothing if it fails. -/
def checkBlsKey (blsKey blsSig : Bytes) : Except Revert Unit := do
  require (blsKey.length=blsPublicKeyLength) (.derived "InvalidBlsKeyLength")
  require (blsSig.length=blsSignatureLength) (.derived "InvalidSignatureLength")
  match blsPoP (blsKey++blsSig) with
  | none => .error (.derived "FailedToVerifyBlsKey")
  | some valid => require valid (.derived "InvalidBlsKey")

/-- Register a validator, change its key only, or change the validator. -/
def configureValidator (msg : Msg) (gov : Base ValidatorAction) (newValidator : Address) (blsKey blsSig : Bytes)
    (r : Registry) : Except Revert Registry := do
  gov.onlyActiveMember msg.sender
  require (newValidator≠0) (.derived "InvalidValidator")
  require (r.validatorToOperator newValidator=0 || r.validatorToOperator newValidator=msg.sender)
    (.derived "AlreadyValidatorExists")
  checkBlsKey blsPoP blsKey blsSig
  let oldValidator := r.operatorToValidator msg.sender
  require (r.blsKeyToValidator blsKey=0 || r.blsKeyToValidator blsKey = oldValidator)
    (.derived "AlreadyRegisteredBlsKey")
  if oldValidator=0 then return r.setValidatorAndBlsKey msg.sender newValidator blsKey
  else if oldValidator=newValidator then do
    require (r.blsKeyToValidator blsKey ≠ oldValidator) (.derived "NoConfigurationChanging")
    return r.changeBlsKey oldValidator blsKey
  else return r.changeValidator msg.sender oldValidator newValidator blsKey

def proposeGasTip (msg : Msg) (gov : Base ValidatorAction) (newTip : ℕ) (r : Registry) :
    Except Revert (Next ValidatorAction) := do
  gov.onlyActiveMember msg.sender
  require (newTip≠r.gasTip) (.derived "SameGasTip")
  return .propose (.setGasTip newTip)

end

/-- `_onMemberRemoved`: the validator of the member goes with it. -/
def onMemberRemoved (r : Registry) (member : Address) : Registry :=
  let validator := r.operatorToValidator member
  if validator≠0 then
    { r.removeValidator validator member with removals := ⟨validator,r.keyed⟩::r.removals }
  else r

/-- `_onMemberChanged`: the validator gets a new operator. -/
def onMemberChanged (r : Registry) (oldMember newMember : Address) : Registry :=
  let validator := r.operatorToValidator oldMember
  if validator≠0 then
    { r with
      operatorToValidator := update (update r.operatorToValidator newMember validator) oldMember 0
      validatorToOperator := update r.validatorToOperator validator newMember }
  else r

end Registry

def govValidator (blsPoP : Bytes → Option Bool) : Derived ValidatorAction ValidatorOp Registry where
  reenters := false
  call o msg gov r :=
    match o with
    | .configureValidator newValidator blsKey blsSig => do
      return (← r.configureValidator blsPoP msg gov newValidator blsKey blsSig,.stop)
    | .proposeGasTip newTip => do return (r,← r.proposeGasTip msg gov newTip)
  resume _ _ _ _ r := return r
  executeCustomAction _ _ k r :=
    match k with
    | .setGasTip newTip => return (true,{ r with gasTip := newTip })
  onMemberAdded _ _ r := return r
  onMemberRemoved _ member r := return r.onMemberRemoved member
  onMemberChanged _ oldMember newMember r := return r.onMemberChanged oldMember newMember
  onProposalFinalized _ _ r := return r

/-! ### The validators with a key

Only the removal of a member can take the last one away. -/

namespace Registry
variable {r r' : Registry} {a v : Address} {blsKey : Bytes} {blsPoP : Bytes → Option Bool} {blsSig : Bytes}

lemma mem_keyed : a ∈ r.keyed ↔ a ∈ r.validators.values ∧ r.validatorToBlsKey a ≠ [] := by
  simp [keyed]

lemma mem_keyed_setValidatorAndBlsKey (h : blsKey ≠ []) : v ∈ (r.setValidatorAndBlsKey a v blsKey).keyed := by
  rw [mem_keyed]
  exact ⟨AddressSet.mem_add.mpr (.inl rfl),by simpa [setValidatorAndBlsKey,setBlsKey] using h⟩

lemma mem_keyed_changeBlsKey (h : blsKey ≠ []) (ha : a ∈ r.keyed) : a ∈ (r.changeBlsKey v blsKey).keyed := by
  obtain ⟨hmem,hkey⟩ := mem_keyed.mp ha
  refine mem_keyed.mpr ⟨hmem,?_⟩
  simp only [changeBlsKey,setBlsKey]
  by_cases hav : a=v
  · rwa [hav,update_self]
  · rwa [update_of_ne hav]

lemma mem_keyed_removeValidator (member : Address) (ha : a ∈ r.keyed) (hav : a≠v) :
    a ∈ (r.removeValidator v member).keyed := by
  obtain ⟨hmem,hkey⟩ := mem_keyed.mp ha
  refine mem_keyed.mpr ⟨AddressSet.mem_remove.mpr ⟨hmem,hav⟩,?_⟩
  simpa only [removeValidator,update_of_ne hav] using hkey

lemma checkBlsKey_eq_ok {u : Unit}
    (h : checkBlsKey blsPoP blsKey blsSig = .ok u) : blsKey.length=blsPublicKeyLength := by
  obtain ⟨_,hlength,_⟩ := bind_eq_ok.mp h
  exact of_decide_eq_true (require_eq_ok.mp hlength)

/-- What `configureValidator` does to the registry: a member without a validator registers one, and one with
a validator changes its key or replaces it. -/
inductive Configures (r : Registry) (sender v : Address) (blsKey : Bytes) : Registry → Prop
  | register (hold : r.operatorToValidator sender=0) (hkey : r.blsKeyToValidator blsKey=0) :
      Configures r sender v blsKey (r.setValidatorAndBlsKey sender v blsKey)
  | rekey (hold : r.operatorToValidator sender=v) (hkey : r.blsKeyToValidator blsKey=0) :
      Configures r sender v blsKey (r.changeBlsKey v blsKey)
  | replace (hold : r.operatorToValidator sender≠0) (hne : r.operatorToValidator sender≠v)
      (hkey : r.blsKeyToValidator blsKey=0 ∨ r.blsKeyToValidator blsKey = r.operatorToValidator sender) :
      Configures r sender v blsKey (r.changeValidator sender (r.operatorToValidator sender) v blsKey)

lemma configureValidator_eq_ok {msg : Msg} {gov : Base ValidatorAction}
    (h : r.configureValidator blsPoP msg gov v blsKey blsSig = .ok r') : (gov.members msg.sender).isActive ∧ v≠0 ∧
      (r.validatorToOperator v=0 ∨ r.validatorToOperator v=msg.sender) ∧
      blsKey.length=blsPublicKeyLength ∧ r.Configures msg.sender v blsKey r' := by
  obtain ⟨_,hactive,h⟩ := bind_eq_ok.mp h
  obtain ⟨_,hzero,h⟩ := bind_eq_ok.mp h
  obtain ⟨_,hfree,h⟩ := bind_eq_ok.mp h
  obtain ⟨_,hlength,h⟩ := bind_eq_ok.mp h
  obtain ⟨_,hkey,h⟩ := bind_eq_ok.mp h
  have hfree : r.validatorToOperator v=0 ∨ r.validatorToOperator v=msg.sender := by
    simpa using require_eq_ok.mp hfree
  have hkey : r.blsKeyToValidator blsKey=0 ∨ r.blsKeyToValidator blsKey = r.operatorToValidator msg.sender := by
    simpa using require_eq_ok.mp hkey
  refine ⟨require_eq_ok.mp hactive,of_decide_eq_true (require_eq_ok.mp hzero),hfree,checkBlsKey_eq_ok hlength,?_⟩
  split at h
  · rename_i hold
    cases h
    exact .register hold (hkey.elim id fun hkey => hkey.trans hold)
  · rename_i hold
    split at h
    · rename_i hsame
      obtain ⟨_,hchanged,h⟩ := bind_eq_ok.mp h
      cases h
      rw [hsame] at hkey hchanged ⊢
      exact .rekey hsame (hkey.resolve_right (of_decide_eq_true (require_eq_ok.mp hchanged)))
    · rename_i hne
      cases h
      exact .replace hold hne hkey

/-- If every removal has left a validator with a key, there is one. -/
def Staffed (r : Registry) : Prop := (∀ x ∈ r.removals, x.Safe) → ∃ v, v ∈ r.keyed

lemma Staffed.configureValidator {msg : Msg} {gov : Base ValidatorAction}
    (h : r.Staffed) (hr : r.configureValidator blsPoP msg gov v blsKey blsSig = .ok r') : r'.Staffed := by
  obtain ⟨-,-,-,hlength,hr⟩ := configureValidator_eq_ok hr
  have hkey : blsKey ≠ [] := fun he => by simp [he,blsPublicKeyLength] at hlength
  intro hsafe
  cases hr with
  | register | replace => exact ⟨v,mem_keyed_setValidatorAndBlsKey hkey⟩
  | rekey =>
    obtain ⟨a,ha⟩ := h hsafe
    exact ⟨a,mem_keyed_changeBlsKey hkey ha⟩

lemma Staffed.onMemberRemoved (h : r.Staffed) (member : Address) : (r.onMemberRemoved member).Staffed := by
  unfold Registry.onMemberRemoved
  dsimp only
  split
  · intro hsafe
    obtain ⟨a,ha,hne⟩ := hsafe _ List.mem_cons_self
    exact ⟨a,mem_keyed_removeValidator member ha hne⟩
  · exact h

lemma Staffed.onMemberChanged (h : r.Staffed) (oldMember newMember : Address) :
    (r.onMemberChanged oldMember newMember).Staffed := by
  unfold Registry.onMemberChanged
  dsimp only
  split
  · exact h
  · exact h

end Registry

lemma preserves_staffed (blsPoP : Bytes → Option Bool) : (govValidator blsPoP).Preserves Registry.Staffed where
  call {o _ _ _ _ _} hcall h := by
    cases o with
    | configureValidator newValidator blsKey blsSig =>
      obtain ⟨r',hr',hcall⟩ := bind_eq_ok.mp hcall
      cases hcall
      exact h.configureValidator hr'
    | proposeGasTip newTip =>
      obtain ⟨next,_,hcall⟩ := bind_eq_ok.mp hcall
      cases hcall
      exact h
  resume hr h := by
    cases hr
    exact h
  executeCustomAction {_ _ k _ _ _} hr h := by
    cases k with
    | setGasTip newTip =>
      cases hr
      exact h
  onMemberAdded hr _ _ h := by
    cases hr
    exact h
  onMemberRemoved hr _ h := by
    cases hr
    exact h.onMemberRemoved _
  onMemberChanged hr _ _ _ _ h := by
    cases hr
    exact h.onMemberChanged _ _
  onProposalFinalized hr h := by
    cases hr
    exact h

end StableNet.Gov
