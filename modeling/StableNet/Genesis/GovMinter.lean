import StableNet.Gov.Minter

/-! `initializeMinter`: besides the parameters of `GovBase` only the token is written. -/
namespace StableNet.Genesis
open Chain (Address)
open Lib Gov

def minterFiatToken (address : Address) (param : Params) : Except String (List StateParam) :=
  match param "fiatToken" with
  | none => return []
  | some s => do
    let fiatToken := hexToAddress s.toList
    require (fiatToken≠0) "`systemContracts.govMinter.params.fiatToken`: invalid address"
    return [⟨address,.fixed 0x32,fiatToken.toNat⟩]

def initializeMinter (address : Address) (param : Params) : Except String (List StateParam) := do
  let base ← initializeBase address param
  let fiatToken ← minterFiatToken address param
  return base++fiatToken

def genesisMinter (address : Address) (states : List StateParam) (balance : ℕ) (answers : AdapterAnswers) :
    Contract MinterAction Minter := ⟨baseOfStorage (storageOf address states),.initial balance answers⟩

section
variable {address : Address} {param : Params} {states : List StateParam}

lemma minterFiatToken_key (h : minterFiatToken address param = .ok states) : ∀ w ∈ states, w.key = .fixed 0x32 := by
  unfold minterFiatToken at h
  split at h
  · cases h
    simp
  · obtain ⟨_,h⟩ := ok_of_bind h
    cases h
    simp

lemma initializeMinter_eq_ok (h : initializeMinter address param = .ok states) :
    ∃ (c : BaseConfig) (token : List StateParam), c.Valid param ∧ (∀ w ∈ token, w.key = .fixed 0x32) ∧
      states = c.states address++token := by
  obtain ⟨base,hbase,h⟩ := bind_eq_ok.mp h
  obtain ⟨token,htoken,h⟩ := bind_eq_ok.mp h
  cases h
  obtain ⟨c,hc,rfl⟩ := initializeBase_eq_ok hbase
  exact ⟨c,token,hc,minterFiatToken_key htoken,rfl⟩

lemma base_initializeMinter {κ : Type} (h : initializeMinter address param = .ok states) :
    ∃ c : BaseConfig, c.Valid param ∧ (baseOfStorage (storageOf address states) : Base κ) = c.base address := by
  obtain ⟨c,token,hc,htoken,rfl⟩ := initializeMinter_eq_ok h
  refine ⟨c,hc,baseOfStorage_congr fun k hk => storageOf_append_of_ne fun w hw he => ?_⟩
  rw [← he,htoken w hw,root_fixed] at hk
  omega

end

end StableNet.Genesis
