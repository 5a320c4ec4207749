import StableNet.Genesis.GovValidator
import StableNet.Gov.MasterMinter

/-! `initializeMasterMinter`: the registry of minters that the chain starts from, and what the contract reads
there. -/
namespace StableNet.Genesis
open Chain (Address)
open Lib Gov List

/-- `%q` of a string without control characters. -/
def quoted (cs : List Char) : String :=
  "\"" ++ String.ofList (cs.flatMap fun c => if c = '"' || c = '\\' then ['\\',c] else [c]) ++ "\""

def masterMinterFiatToken (address : Address) (param : Params) : Except String (List StateParam) :=
  match param "fiatToken" with
  | none => return []
  | some s => do
    let fiatToken := hexToAddress s.toList
    require (fiatToken≠0) "`systemContracts.govMasterMinter.params.fiatToken`: invalid address"
    return [⟨address,.fixed 0x32,fiatToken.toNat⟩]

def minterAddresses (minters : List (List Char)) : Except String (List Address) :=
  minters.zipIdx.mapM fun e => do
    let minter := hexToAddress (trimSpace e.1)
    require (minter≠0) ("`systemContracts.govMasterMinter.params.minters[" ++ toString e.2 ++
      "]`: invalid address " ++ quoted e.1)
    return minter

def minterParams (address : Address) (minter : Address) (i : ℕ) : List StateParam :=
  [⟨address,calculateDynamicSlot (.fixed 0x35) i,minter.toNat⟩,
    ⟨address,calculateMappingSlot (.fixed 0x34) minter.toNat,1⟩,
    ⟨address,calculateMappingSlot (.fixed 0x36) minter.toNat,i+1⟩]

def minterListParams (address : Address) (minters : List Address) : List StateParam :=
  ⟨address,.fixed 0x35,minters.length⟩::minters.zipIdx.flatMap fun e => minterParams address e.1 e.2

def masterMinterMinters (address : Address) (param : Params) : Except String (List StateParam) :=
  match param "minters" with
  | none => return []
  | some s => do
    require (splitAndTrim s ≠ []) "`systemContracts.govMasterMinter.params.minters`: no addresses provided"
    return minterListParams address (← minterAddresses (splitAndTrim s))

def defaultMaxMinterAllowance : ℕ := 10000000000*10^18

/-- The limit, 256 bits of it. -/
def masterMinterMaxAllowance (param : Params) : Except String ℕ :=
  match param "maxMinterAllowance" with
  | none => return defaultMaxMinterAllowance
  | some s =>
    match bigAbs s with
    | none => .error "`systemContracts.govMasterMinter.params.maxMinterAllowance`: invalid number"
    | some n => do
      require (n≠0 ∧ s.toList.head? ≠ some '-')
        "`systemContracts.govMasterMinter.params.maxMinterAllowance`: must be positive"
      return n%2^256

def initializeMasterMinter (address : Address) (param : Params) : Except String (List StateParam) := do
  let base ← initializeBase address param
  let fiatToken ← masterMinterFiatToken address param
  let minters ← masterMinterMinters address param
  let maxMinterAllowance ← masterMinterMaxAllowance param
  return base++fiatToken++minters++[⟨address,.fixed 0x33,maxMinterAllowance⟩]

/-- What `GovMasterMinter` reads of its storage; its token is given. -/
def masterMinterOfStorage (st : Slot → ℕ) (fiatToken : Mintable) : MasterMinter where
  fiatToken := fiatToken
  maxMinterAllowance := st (.fixed 0x33)
  isMinter a := st (calculateMappingSlot (.fixed 0x34) a.toNat)%256≠0
  minterList := setValues st 0x35
  minterIndex := setPositions st 0x36
  emergencyPaused := st (.fixed 0x37)%256≠0
  events := []

/-- The minters that the parameters list, repetitions included. -/
def listedMinters (param : Params) : List Address :=
  (splitAndTrim ((param "minters").getD "")).map fun minter => hexToAddress (trimSpace minter)

lemma minterAddresses_eq_ok {minters : List (List Char)} {addresses : List Address}
    (h : minterAddresses minters = .ok addresses) :
    addresses = minters.map fun minter => hexToAddress (trimSpace minter) := by
  have hread : List.Forall₂ (fun e a => a = hexToAddress (trimSpace (Prod.fst e))) minters.zipIdx addresses := by
    refine (mapM_eq_ok.mp h).imp fun e a he => ?_
    obtain ⟨_,he⟩ := ok_of_bind he
    cases he
    rfl
  calc addresses = minters.zipIdx.map fun e => hexToAddress (trimSpace e.1) := by
        rw [← forall₂_eq_eq_eq,forall₂_map_right_iff]
        exact hread.flip
    _ = minters.map fun minter => hexToAddress (trimSpace minter) := by
        conv_rhs => rw [← zipIdx_map_fst 0 minters,map_map]
        rfl

section
variable {address : Address} {param : Params} {states : List StateParam} {c : BaseConfig} {minters : List Address}

lemma masterMinterFiatToken_key (h : masterMinterFiatToken address param = .ok states) :
    ∀ w ∈ states, w.key = .fixed 0x32 := by
  unfold masterMinterFiatToken at h
  split at h
  · cases h
    simp
  · obtain ⟨_,h⟩ := ok_of_bind h
    cases h
    simp

lemma masterMinterMinters_eq_ok (h : masterMinterMinters address param = .ok states) :
    states = if listedMinters param = [] then [] else minterListParams address (listedMinters param) := by
  unfold masterMinterMinters at h
  split at h
  · rename_i hnone
    cases h
    rw [if_pos]
    simp only [listedMinters,hnone,Option.getD_none]
    decide
  · rename_i s hsome
    obtain ⟨_,hne,h⟩ := bind_eq_ok.mp h
    obtain ⟨addresses,haddresses,h⟩ := bind_eq_ok.mp h
    cases h
    have hlisted : addresses = listedMinters param := by
      rw [minterAddresses_eq_ok haddresses,listedMinters,hsome]
      rfl
    have hne : splitAndTrim s ≠ [] := of_decide_eq_true (require_eq_ok.mp hne)
    rw [hlisted,if_neg]
    simpa [listedMinters,hsome] using hne

inductive MinterWrites (minters : List Address) : Slot → ℕ → Prop
  | length (h : minters ≠ []) : MinterWrites minters (.fixed 0x35) minters.length
  | element {i : ℕ} {a : Address} (ha : minters[i]? = some a) :
      MinterWrites minters (calculateDynamicSlot (.fixed 0x35) i) a.toNat
  | flag {a : Address} (ha : a ∈ minters) : MinterWrites minters (calculateMappingSlot (.fixed 0x34) a.toNat) 1
  | index {i : ℕ} {a : Address} (ha : minters[i]? = some a) :
      MinterWrites minters (calculateMappingSlot (.fixed 0x36) a.toNat) (i+1)
  | other {k : Slot} {x : ℕ} (h : k.root ∉ [0x34,0x35,0x36]) : MinterWrites minters k x

/-- The writes are those of the table, and those of the list are among them. -/
structure Registers (address : Address) (minters : List Address) (states : List StateParam) : Prop where
  writes : ∀ w ∈ states, MinterWrites minters w.key w.value
  mem : minters ≠ [] → ∀ w ∈ minterListParams address minters, w ∈ states

lemma minterWrites_of_mem {w : StateParam} (hne : minters ≠ []) (hw : w ∈ minterListParams address minters) :
    MinterWrites minters w.key w.value := by
  simp only [minterListParams,mem_cons,mem_flatMap] at hw
  rcases hw with rfl | ⟨⟨a,i⟩,ha,hw⟩
  · exact .length hne
  · have ha : minters[i]? = some a := by simpa [mem_zipIdx_iff_getElem?] using ha
    simp only [minterParams,mem_cons,not_mem_nil,or_false] at hw
    rcases hw with rfl | rfl | rfl
    · exact .element ha
    · exact .flag (mem_of_getElem? ha)
    · exact .index ha

lemma registers_of_initializeMasterMinter (h : initializeMasterMinter address param = .ok states) :
    Registers address (listedMinters param) states := by
  obtain ⟨base,hbase,h⟩ := bind_eq_ok.mp h
  obtain ⟨token,htoken,h⟩ := bind_eq_ok.mp h
  obtain ⟨registry,hregistry,h⟩ := bind_eq_ok.mp h
  obtain ⟨limit,_,h⟩ := bind_eq_ok.mp h
  cases h
  obtain ⟨c,_,rfl⟩ := initializeBase_eq_ok hbase
  have htoken := masterMinterFiatToken_key htoken
  have hregistry := masterMinterMinters_eq_ok hregistry
  constructor
  · intro w hw
    simp only [mem_append,mem_singleton] at hw
    rcases hw with ((hw | hw) | hw) | rfl
    · have hroot := (BaseConfig.writes_of_mem hw).2.root_mem
      refine .other fun hmem => ?_
      simp only [mem_cons,not_mem_nil,or_false] at hroot hmem
      omega
    · refine .other ?_
      rw [htoken w hw]
      decide
    · rw [hregistry] at hw
      split at hw
      · cases hw
      · exact minterWrites_of_mem ‹_› hw
    · exact .other (by simp)
  · intro hne w hw
    rw [if_neg hne] at hregistry
    simp only [mem_append,mem_singleton]
    exact .inl (.inr (hregistry ▸ hw))

namespace Registers
variable {a : Address} {i : ℕ}

section
variable (h : Registers address minters states)
include h

lemma minterParams_mem (ha : minters[i]? = some a) {w : StateParam}
    (hw : w ∈ minterParams address a i) : w ∈ states := by
  refine h.mem (ne_nil_of_mem (mem_of_getElem? ha)) w ?_
  simp only [minterListParams,mem_cons,mem_flatMap]
  exact .inr ⟨(a,i),mem_zipIdx_iff_getElem?.mpr ha,hw⟩

lemma lists : Lists address states 0x35 0x36 minters where
  length := by
    by_cases hne : minters = []
    · rw [hne]
      refine storageOf_eq_zero_of_table h.writes fun x hx => ?_
      cases hx with
      | length hmem => exact hmem hne
      | other hroot => exact hroot (by decide)
    · refine storageOf_eq_of_table h.writes (h.mem hne _ mem_cons_self) fun y hy => ?_
      cases hy with
      | length => rfl
      | other hroot => exact absurd (by decide) hroot
  element i a ha := h.minterParams_mem ha (by simp [minterParams])
  position i a ha := h.minterParams_mem ha (by simp [minterParams])
  of_element w hw i hk := by
    have hwrites := h.writes w hw
    rw [hk] at hwrites
    generalize w.value = x at hwrites ⊢
    cases hwrites with
    | element ha => exact ⟨_,ha,rfl⟩
    | other hroot => exact absurd (by simp) hroot
  of_position w hw a hk := by
    have hwrites := h.writes w hw
    generalize w.key=k, w.value = x at hwrites hk ⊢
    cases hwrites with
    | length => cases hk
    | element => cases hk
    | flag =>
      obtain ⟨hslot,_⟩ := mappingSlot_address_inj.mp hk
      cases hslot
    | index ha =>
      obtain ⟨_,rfl⟩ := mappingSlot_address_inj.mp hk
      exact ⟨_,ha,rfl⟩
    | other hroot => exact absurd (by simp [hk]) hroot

lemma isMinter_iff (token : Mintable) (a : Address) :
    (masterMinterOfStorage (storageOf address states) token).isMinter a ↔ a ∈ minters := by
  have hflag : ∀ x, MinterWrites minters (calculateMappingSlot (.fixed 0x34) a.toNat) x → a ∈ minters ∧ x=1 := by
    intro x hx
    generalize hk : calculateMappingSlot (.fixed 0x34) a.toNat = k at hx
    cases hx with
    | length => cases hk
    | element => cases hk
    | flag ha =>
      obtain ⟨_,rfl⟩ := mappingSlot_address_inj.mp hk
      exact ⟨ha,rfl⟩
    | index =>
      obtain ⟨hslot,_⟩ := mappingSlot_address_inj.mp hk
      cases hslot
    | other hroot => exact absurd (by simp [← hk]) hroot
  simp only [masterMinterOfStorage,decide_eq_true_eq]
  by_cases ha : a ∈ minters
  · obtain ⟨i,hi⟩ := mem_iff_getElem?.mp ha
    rw [storageOf_eq_of_table h.writes (h.minterParams_mem hi (by simp [minterParams])) fun y hy => (hflag y hy).2]
    exact iff_of_true (by decide) ha
  · rw [storageOf_eq_zero_of_table h.writes fun x hx => ha (hflag x hx).1]
    exact iff_of_false (by decide) ha

theorem consistent_iff (token : Mintable) :
    (masterMinterOfStorage (storageOf address states) token).Consistent ↔ minters.Nodup := by
  constructor
  · intro hconsistent
    have hnodup := hconsistent.indexed.nodup
    rwa [show (masterMinterOfStorage (storageOf address states) token).minterList = minters from h.lists.setValues_eq]
      at hnodup
  · intro hnodup
    refine ⟨h.lists.indexed hnodup,fun a => ?_⟩
    rw [h.isMinter_iff,show (masterMinterOfStorage (storageOf address states) token).minterList = minters from
      h.lists.setValues_eq]

end

end Registers

end

end StableNet.Genesis
