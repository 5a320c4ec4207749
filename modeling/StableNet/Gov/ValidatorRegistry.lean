import Mathlib.Data.List.Perm.Subperm
import StableNet.Gov.Validator
import StableNet.Lib.Inverse

/-! The maps of `GovValidator` stay paired: operators with validators, and validators with keys. -/
namespace StableNet.Gov
open Chain (Address Bytes)
open Lib AddressSet
open Function

/-- The operators, the validators and the keys belong together one to one, and nothing else has an entry.
The zero address stands for nobody, and the empty string for no key. -/
structure Registry.Bijective (r : Registry) : Prop where
  operators : Inverse r.operatorToValidator r.validatorToOperator 0 0
  keys : Inverse r.validatorToBlsKey r.blsKeyToValidator 0 []
  operated : ∀ v, v ∈ r.validators.values ↔ r.validatorToOperator v≠0
  keyed : ∀ v, v ∈ r.validators.values ↔ r.validatorToBlsKey v ≠ []

/-- Besides, the operators are active members and the keys have their length. -/
structure Paired (active : Address → Bool) (r : Registry) : Prop extends r.Bijective where
  nobody : active 0=false
  active : ∀ m, r.operatorToValidator m≠0 → active m
  length : ∀ v ∈ r.validators.values, (r.validatorToBlsKey v).length = Registry.blsPublicKeyLength

namespace Paired
variable {active : Address → Bool} {r r' : Registry} {m m' v : Address} {blsKey : Bytes}

lemma ne_nil_of_length (h : blsKey.length=Registry.blsPublicKeyLength) : blsKey ≠ [] := by
  rintro rfl
  cases h

lemma ne_zero (h : Paired active r) (hm : active m) : m≠0 := by
  rintro rfl
  rw [h.nobody] at hm
  cases hm

lemma operator_eq (h : Paired active r) (hold : r.operatorToValidator m≠0) :
    r.validatorToOperator (r.operatorToValidator m) = m := h.operators.right_eq hold

lemma mem_of_operator (h : Paired active r) (hold : r.operatorToValidator m≠0) :
    r.operatorToValidator m ∈ r.validators.values := by
  rw [h.operated,h.operator_eq hold]
  exact h.operators.ne_left hold

theorem congr_active {active' : Address → Bool} (h : Paired active r) (hnobody : active' 0=false)
    (hactive : ∀ m, r.operatorToValidator m≠0 → active' m) : Paired active' r :=
  ⟨h.toBijective,hnobody,hactive,h.length⟩

lemma setValidatorAndBlsKey (h : Paired active r) (hm : active m) (hv : v≠0)
    (hold : r.operatorToValidator m=0) (hfree : r.validatorToOperator v=0)
    (hlength : blsKey.length=Registry.blsPublicKeyLength) (hkey : r.blsKeyToValidator blsKey=0) :
    Paired active (r.setValidatorAndBlsKey m v blsKey) := by
  have hmem : v ∉ r.validators.values := fun hv => (h.operated v).mp hv hfree
  have hnew : r.validatorToBlsKey v = [] := not_not.mp fun hkey => hmem ((h.keyed v).mpr hkey)
  refine ⟨⟨h.operators.link (h.ne_zero hm) hv hold hfree,
    h.keys.link hv (ne_nil_of_length hlength) hnew hkey,?_,?_⟩,h.nobody,?_,?_⟩
  · intro w
    refine mem_add.trans ?_
    by_cases hw : w=v
    · simpa [Registry.setValidatorAndBlsKey,Registry.setBlsKey,hw] using h.ne_zero hm
    · simpa [Registry.setValidatorAndBlsKey,Registry.setBlsKey,hw] using h.operated w
  · intro w
    refine mem_add.trans ?_
    by_cases hw : w=v
    · simpa [Registry.setValidatorAndBlsKey,Registry.setBlsKey,hw] using ne_nil_of_length hlength
    · simpa [Registry.setValidatorAndBlsKey,Registry.setBlsKey,hw] using h.keyed w
  · intro a ha
    by_cases ham : a=m
    · rwa [ham]
    · exact h.active a (by rwa [← update_of_ne ham v r.operatorToValidator])
  · intro w hw
    by_cases hwv : w=v
    · simpa [Registry.setValidatorAndBlsKey,Registry.setBlsKey,hwv] using hlength
    · simpa [Registry.setValidatorAndBlsKey,Registry.setBlsKey,hwv] using
        h.length w ((mem_add.mp hw).resolve_left hwv)

lemma removeValidator (h : Paired active r) (hold : r.operatorToValidator m≠0) :
    Paired active (r.removeValidator (r.operatorToValidator m) m) := by
  have hkey := (h.keyed _).mp (h.mem_of_operator hold)
  refine ⟨⟨h.operators.unlink hold rfl,h.keys.unlink hkey rfl,?_,?_⟩,h.nobody,?_,?_⟩
  · intro w
    refine mem_remove.trans ?_
    by_cases hw : w = r.operatorToValidator m
    · simp [Registry.removeValidator,hw]
    · simpa [Registry.removeValidator,hw] using h.operated w
  · intro w
    refine mem_remove.trans ?_
    by_cases hw : w = r.operatorToValidator m
    · simp [Registry.removeValidator,hw]
    · simpa [Registry.removeValidator,hw] using h.keyed w
  · intro a ha
    by_cases ham : a=m
    · exact absurd (by rw [ham]; exact update_self ..) ha
    · exact h.active a (by rwa [← update_of_ne ham 0 r.operatorToValidator])
  · intro w hw
    obtain ⟨hw,hne⟩ := mem_remove.mp hw
    simpa [Registry.removeValidator,hne] using h.length w hw

lemma changeBlsKey (h : Paired active r) (hv : v ∈ r.validators.values)
    (hlength : blsKey.length=Registry.blsPublicKeyLength) (hkey : r.blsKeyToValidator blsKey=0) :
    Paired active (r.changeBlsKey v blsKey) := by
  have hv₀ : v≠0 := h.keys.ne_left ((h.keyed v).mp hv)
  have hold : r.blsKeyToValidator (r.validatorToBlsKey v) = v := h.keys.right_eq ((h.keyed v).mp hv)
  refine ⟨⟨h.operators,(h.keys.symm.relink (ne_nil_of_length hlength) hv₀ hold hkey).symm,h.operated,?_⟩,h.nobody,
    h.active,?_⟩
  · intro w
    by_cases hw : w=v
    · simpa [Registry.changeBlsKey,Registry.setBlsKey,hw,hv] using ne_nil_of_length hlength
    · simpa [Registry.changeBlsKey,Registry.setBlsKey,hw] using h.keyed w
  · intro w hw
    by_cases hwv : w=v
    · simpa [Registry.changeBlsKey,Registry.setBlsKey,hwv] using hlength
    · simpa [Registry.changeBlsKey,Registry.setBlsKey,hwv] using h.length w hw

theorem changeValidator (h : Paired active r) (hv : v≠0) (hold : r.operatorToValidator m≠0)
    (hne : r.operatorToValidator m≠v) (hfree : r.validatorToOperator v=0)
    (hlength : blsKey.length=Registry.blsPublicKeyLength)
    (hkey : r.blsKeyToValidator blsKey=0 ∨ r.blsKeyToValidator blsKey = r.operatorToValidator m) :
    Paired active (r.changeValidator m (r.operatorToValidator m) v blsKey) := by
  refine (h.removeValidator hold).setValidatorAndBlsKey (h.active m hold) hv (update_self ..)
    ((update_of_ne hne.symm ..).trans hfree) hlength ?_
  rcases hkey with hkey | hkey
  · simp [Registry.removeValidator,update_apply,hkey]
  · have hused : r.validatorToBlsKey (r.operatorToValidator m) = blsKey := by
      rw [← hkey]
      exact h.keys.eq_of_right (hkey ▸ hold)
    simp [Registry.removeValidator,hused]

lemma configureValidator {blsPoP : Bytes → Option Bool} {msg : Msg} {gov : Base ValidatorAction}
    {blsSig : Bytes} (h : Paired gov.active r)
    (hr : r.configureValidator blsPoP msg gov v blsKey blsSig = .ok r') : Paired gov.active r' := by
  obtain ⟨hactive,hv,hfree,hlength,hr⟩ := Registry.configureValidator_eq_ok hr
  -- a validator that the sender operates is the one its entry names
  have hown : r.operatorToValidator msg.sender≠v → r.validatorToOperator v=0 := fun hne =>
    hfree.resolve_right fun hv' => hne ((h.operators.iff _ _ (h.ne_zero hactive) hv).mpr hv')
  cases hr with
  | register hold hkey =>
    exact h.setValidatorAndBlsKey hactive hv hold (hown (hold ▸ hv.symm)) hlength hkey
  | rekey hold hkey =>
    subst hold
    exact h.changeBlsKey (h.mem_of_operator hv) hlength hkey
  | replace hold hne hkey => exact h.changeValidator hv hold hne (hown hne) hlength hkey

lemma onMemberRemoved (h : Paired active r) (m : Address) : Paired (update active m false) (r.onMemberRemoved m) := by
  have hnobody : update active m false 0=false := by
    rw [update_apply,h.nobody,ite_self]
  unfold Registry.onMemberRemoved
  dsimp only
  split
  · rename_i hold
    have hremoved := h.removeValidator hold
    refine congr_active (r := { r.removeValidator _ m with removals := _ }) ⟨⟨hremoved.operators,hremoved.keys,
      hremoved.operated,hremoved.keyed⟩,hremoved.nobody,hremoved.active,hremoved.length⟩ hnobody fun a ha => ?_
    have ham : a≠m := by
      rintro rfl
      exact ha (update_self ..)
    rw [update_of_ne ham]
    exact hremoved.active a ha
  · rename_i hold
    refine h.congr_active hnobody fun a ha => ?_
    have ham : a≠m := by
      rintro rfl
      exact hold ha
    rw [update_of_ne ham]
    exact h.active a ha

lemma onMemberChanged (h : Paired active r) (hm' : m'≠0) (hne : m≠m') (hnew : active m'=false) :
    Paired (update (update active m' true) m false) (r.onMemberChanged m m') := by
  have hnobody : update (update active m' true) m false 0=false := by
    rw [update_apply,update_of_ne hm'.symm,h.nobody,ite_self]
  have hfree : r.operatorToValidator m'=0 := not_not.mp fun hold => by simp [h.active m' hold] at hnew
  unfold Registry.onMemberChanged
  dsimp only
  split
  · rename_i hold
    have hlinked := h.operators.relink hm' hold rfl hfree
    rw [update_comm hne] at hlinked
    refine ⟨⟨hlinked,h.keys,?_,h.keyed⟩,hnobody,?_,h.length⟩
    · intro w
      by_cases hw : w = r.operatorToValidator m
      · subst hw
        exact iff_of_true (h.mem_of_operator hold) ((update_self ..).trans_ne hm')
      · simpa [hw] using h.operated w
    · intro a ha
      by_cases ham : a=m
      · exact absurd (by rw [ham]; exact update_self ..) ha
      · dsimp only at ha
        rw [update_of_ne ham] at ha ⊢
        by_cases ham' : a=m'
        · rw [ham',update_self]
        · rw [update_of_ne ham'] at ha ⊢
          exact h.active a ha
  · rename_i hold
    refine h.congr_active hnobody fun a ha => ?_
    have ham : a≠m := by
      rintro rfl
      exact hold ha
    have ham' : a≠m' := by
      rintro rfl
      exact ha hfree
    rw [update_of_ne ham,update_of_ne ham']
    exact h.active a ha

end Paired

lemma preservesMembers_paired (blsPoP : Bytes → Option Bool) : (govValidator blsPoP).PreservesMembers Paired where
  call {o _ _ _ _ _} hcall h := by
    cases o with
    | configureValidator newValidator blsKey blsSig =>
      obtain ⟨r',hr',hcall⟩ := bind_eq_ok.mp hcall
      cases hcall
      exact h.configureValidator hr'
    | proposeGasTip newTip =>
      obtain ⟨next,_,hcall⟩ := bind_eq_ok.mp hcall
      cases hcall
      exact h
  resume hr h := by
    cases hr
    exact h
  executeCustomAction {_ _ k _ _ _} hr h := by
    cases k with
    | setGasTip newTip =>
      cases hr
      exact ⟨⟨h.operators,h.keys,h.operated,h.keyed⟩,h.nobody,h.active,h.length⟩
  onMemberAdded hr hzero _ h := by
    cases hr
    refine h.congr_active ((update_of_ne hzero.symm ..).trans h.nobody) fun m hm => ?_
    rw [update_apply,h.active m hm,ite_self]
  onMemberRemoved hr _ h := by
    cases hr
    exact h.onMemberRemoved _
  onMemberChanged hr _ hzero hne hnew h := by
    cases hr
    exact h.onMemberChanged hzero hne hnew
  onProposalFinalized hr h := by
    cases hr
    exact h

theorem Paired.length_le {s : Contract ValidatorAction Registry} (h : Paired s.gov.active s.own)
    (hroll : Roll s.gov.roster) : s.own.validators.values.length ≤ 255 := by
  have hback {v : Address} (hv : v ∈ s.own.validators.values) :
      s.own.operatorToValidator (s.own.validatorToOperator v) = v :=
    h.operators.eq_of_right ((h.operated v).mp hv)
  have hnodup : (s.own.validators.values.map s.own.validatorToOperator).Nodup := by
    refine (List.nodup_map_iff_inj_on s.own.validators.indexed.nodup).mpr fun v hv v' hv' heq => ?_
    rw [← hback hv,heq,hback hv']
  have hsub : s.own.validators.values.map s.own.validatorToOperator ⊆ s.gov.memberList := by
    intro m hm
    obtain ⟨v,hv,rfl⟩ := List.mem_map.mp hm
    refine (hroll.active _).mp (h.active _ ?_)
    rw [hback hv]
    exact h.operators.symm.ne_left ((h.operated v).mp hv)
  calc s.own.validators.values.length
      = (s.own.validators.values.map s.own.validatorToOperator).length := List.length_map _ |>.symm
    _ ≤ s.gov.memberList.length := (List.Nodup.subperm hnodup hsub).length_le
    _ ≤ 255 := hroll.length_le _

/-- The registry stays paired with the members over every history of calls. -/
theorem registry_stays_paired (blsPoP : Bytes → Option Bool) (calls : List (ℕ × Call ValidatorOp))
    (s : Contract ValidatorAction Registry) (h : Paired s.gov.active s.own) :
    Paired (runCalls (govValidator blsPoP) calls s).gov.active (runCalls (govValidator blsPoP) calls s).own :=
  (preservesMembers_paired blsPoP).runCalls calls h

namespace OneOperator

def start : Contract ValidatorAction Registry :=
  ⟨.founded [0xa1] 1,⟨.empty,fun _ => 0,fun _ => 0,fun _ => [],fun _ => 0,0,[]⟩⟩

def key (n : ℕ) : Bytes := List.replicate 47 0++[BitVec.ofNat 8 n]

def sig : Bytes := List.replicate 96 0

lemma start_paired : Paired start.gov.active start.own where
  nobody := by decide
  operators := ⟨fun _ _ ha hb => iff_of_false hb.symm ha.symm,rfl,rfl⟩
  keys := ⟨fun _ _ ha hb => iff_of_false hb.symm ha.symm,rfl,rfl⟩
  active _ h := absurd rfl h
  operated _ := iff_of_false (List.not_mem_nil) (not_not.mpr rfl)
  keyed _ := iff_of_false (List.not_mem_nil) (not_not.mpr rfl)
  length _ h := absurd h List.not_mem_nil

/-- The member registers a validator, gives its key to another one, and moves to a new address. -/
def calls : List (ℕ × Call ValidatorOp) :=
  [(1,.mk 0xa1 (.derived (.configureValidator 0xe1 (key 1) sig)) []),
    (2,.mk 0xa1 (.derived (.configureValidator 0xe2 (key 1) sig)) []),(3,.mk 0xa1 (.changeMember 0xa2) [])]

theorem rotation_paired : Paired start.gov.active start.own ∧
    (runCalls (govValidator fun _ => some true) calls start).own.operatorToValidator 0xa2 = 0xe2 ∧
    Paired (runCalls (govValidator fun _ => some true) calls start).gov.active
      (runCalls (govValidator fun _ => some true) calls start).own :=
  ⟨start_paired,by decide +kernel,registry_stays_paired _ calls start start_paired⟩

end OneOperator

end StableNet.Gov
