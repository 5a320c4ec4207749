import StableNet.Genesis.GovCouncil
import StableNet.Genesis.GovMasterMinter
import StableNet.Genesis.GovMinter

/-! `initializeAnzeonGenesis`: the system contracts are put into the allocation, after their storage was computed from
it. -/
namespace StableNet.Genesis
open Chain (Address Bytes)
open Lib List
variable {w : StateParam} {codes : List CodeParam}

inductive ContractType where
  | govValidator
  | nativeCoinAdapter
  | govMinter
  | govMasterMinter
  | govCouncil
  deriving DecidableEq

def ContractType.name : ContractType → String
  | govValidator => "GovValidator"
  | nativeCoinAdapter => "NativeCoinAdapter"
  | govMinter => "GovMinter"
  | govMasterMinter => "GovMasterMinter"
  | govCouncil => "GovCouncil"

structure SystemContract where
  address : Address
  version : String
  params : Option Params

structure SystemContracts where
  govValidator : Option SystemContract
  nativeCoinAdapter : Option SystemContract
  govMinter : Option SystemContract
  govMasterMinter : Option SystemContract
  govCouncil : Option SystemContract

structure CodeParam where
  address : Address
  code : Bytes

/-- A transition in the making, with the allocation that it is made from. -/
structure StateTransition where
  codes : List CodeParam
  states : List StateParam
  alloc : Option GenesisAlloc

/-- What is built into the node: the code of the contracts by version, and how an address is printed. -/
structure Artifacts where
  code : ContractType → String → Bytes
  hex : Address → String

def getContractCode (artifacts : Artifacts) (contractType : ContractType) (version : String) : Except String Bytes := do
  require (artifacts.code contractType version ≠ [])
    ("unsupported version " ++ version ++ " for contract " ++ contractType.name)
  return artifacts.code contractType version

/-- The initial storage of a contract of the first version, from its parameters and the allocation. -/
abbrev Initializer := Address → Params → Option GenesisAlloc → Except String (List StateParam × Option GenesisAlloc)

def ContractType.initialize : ContractType → Initializer
  | govValidator, address, param, alloc => do return (← initializeValidator address param,alloc)
  | nativeCoinAdapter, address, param, alloc => do return (← initializeCoinAdapter address param alloc,alloc)
  | govMinter, address, param, alloc => do return (← initializeMinter address param,alloc)
  | govMasterMinter, address, param, alloc => do return (← initializeMasterMinter address param,alloc)
  | govCouncil, address, param, alloc => initializeGovCouncil address param alloc

/-- Any other version than the first one brings its code only. -/
def deploy (artifacts : Artifacts) (contractType : ContractType) (contract : Option SystemContract)
    (st : StateTransition) : Except String StateTransition :=
  match contract with
  | none => return st
  | some c => do
    let code ← getContractCode artifacts contractType c.version
    let codes := st.codes++[⟨c.address,code⟩]
    match c.params with
    | none => return { st with codes := codes }
    | some param =>
      if c.version = "v1" then do
        let (states,alloc) ← contractType.initialize c.address param st.alloc
        return ⟨codes,st.states++states,alloc⟩
      else return { st with codes := codes }

def getSystemContractsTransition (artifacts : Artifacts) (systemContracts : SystemContracts)
    (alloc : Option GenesisAlloc) : Except String StateTransition := do
  let st ← deploy artifacts .govValidator systemContracts.govValidator ⟨[],[],alloc⟩
  let st ← deploy artifacts .nativeCoinAdapter systemContracts.nativeCoinAdapter st
  let st ← deploy artifacts .govMinter systemContracts.govMinter st
  let st ← deploy artifacts .govMasterMinter systemContracts.govMasterMinter st
  deploy artifacts .govCouncil systemContracts.govCouncil st

namespace GenesisAlloc

/-- A contract takes the place of whatever was allocated at its address. -/
def putCode (alloc : GenesisAlloc) (c : CodeParam) : GenesisAlloc :=
  alloc.insert c.address ⟨c.code,fun _ => 0,some 0,0,0⟩

/-- The new code of an account that stays as it is otherwise. -/
def replaceCode (alloc : GenesisAlloc) (c : CodeParam) : GenesisAlloc :=
  match alloc.lookup c.address with
  | none => alloc.putCode c
  | some existing => alloc.insert c.address { existing with code := c.code }

/-- A write to an account that is not allocated does not happen: its contract was put there before. -/
def putState (alloc : GenesisAlloc) (s : StateParam) : GenesisAlloc :=
  match alloc.lookup s.address with
  | none => alloc
  | some account => alloc.insert s.address { account with storage := Function.update account.storage s.key s.value }

end GenesisAlloc

structure Upgrade where
  block : ℕ
  systemContracts : SystemContracts

/-- The part of a chain configuration that the genesis is made from. -/
structure ChainConfig where
  systemContracts : SystemContracts
  bohoBlock : Option ℕ
  boho : Option SystemContracts

/-- A fork without a block is no upgrade. -/
def ChainConfig.collectUpgrades (config : ChainConfig) : List Upgrade :=
  match config.bohoBlock, config.boho with
  | some block, some systemContracts => [⟨block,systemContracts⟩]
  | _, _ => []

/-- An upgrade keeps what else is allocated. -/
def applyUpgradeOverlay (artifacts : Artifacts) (alloc : GenesisAlloc) (systemContracts : SystemContracts) :
    Except String GenesisAlloc := do
  let transition ← getSystemContractsTransition artifacts systemContracts none
  return transition.states.foldl .putState (transition.codes.foldl .replaceCode alloc)

/-- Only the upgrades at block 0 are part of the genesis. -/
def injectUpgrade (artifacts : Artifacts) (alloc : GenesisAlloc) (upgrade : Upgrade) : Except String GenesisAlloc :=
  if upgrade.block≠0 then return alloc else applyUpgradeOverlay artifacts alloc upgrade.systemContracts

def injectUpgrades (artifacts : Artifacts) (baseline : SystemContracts) (upgrades : List Upgrade)
    (alloc : GenesisAlloc) : Except String GenesisAlloc := do
  let transition ← getSystemContractsTransition artifacts baseline (some alloc)
  let alloc := transition.codes.foldl .putCode (transition.alloc.getD alloc)
  upgrades.foldlM (injectUpgrade artifacts) (transition.states.foldl .putState alloc)

def injectContracts (artifacts : Artifacts) (config : ChainConfig) (alloc : GenesisAlloc) :
    Except String GenesisAlloc := injectUpgrades artifacts config.systemContracts config.collectUpgrades alloc

def accountExtraValidMask : BitVec 64 := Evm.Flag.blacklisted.mask ||| Evm.Flag.authorized.mask

def validateExtra (extra : BitVec 64) : Except String Unit :=
  require (extra &&& ~~~accountExtraValidMask=0) ("unknown bits set in account extra: 0x" ++ extra.toHex)

/-- The extra data of the first header does not depend on the allocation. -/
def initializeAnzeonGenesis (artifacts : Artifacts) (extraData : Except String Bytes) (config : ChainConfig)
    (alloc : GenesisAlloc) : Except String (Bytes × GenesisAlloc) := do
  let extraData ← extraData
  alloc.entries.forM fun e =>
    (validateExtra e.2.extra).mapError (("invalid account extra at " ++ artifacts.hex e.1 ++ ": ")++·)
  let alloc ← injectContracts artifacts config alloc
  return (extraData,alloc)

section
variable {address : Address} {param : Params} {states : List StateParam}

lemma StateParam.Within.mono {roots roots' : List ℕ} (h : w.Within address roots) (hsub : roots ⊆ roots') :
    w.Within address roots' := ⟨h.1,hsub h.2⟩

lemma initializeValidator_within (h : initializeValidator address param = .ok states) :
    ∀ w ∈ states, w.Within address (baseRoots++[0x32,0x33,0x34,0x35,0x36,0x37,0x38,0x39]) := by
  obtain ⟨base,hbase,h⟩ := bind_eq_ok.mp h
  obtain ⟨gasTip,_,h⟩ := bind_eq_ok.mp h
  obtain ⟨entries,_,h⟩ := bind_eq_ok.mp h
  cases h
  intro w hw
  rcases mem_append.mp hw with hw | hw
  · exact (initializeBase_within hbase w hw).mono (subset_append_left _ _)
  · exact StateParam.Within.mono (registryParams_within hw) (subset_append_right _ _)

lemma fiatToken_within {message : String} {token : List StateParam} (h : (match param "fiatToken" with
      | none => return []
      | some s => do
        let fiatToken := hexToAddress s.toList
        require (fiatToken≠0) message
        return [⟨address,.fixed 0x32,fiatToken.toNat⟩] : Except String (List StateParam)) = .ok token) :
    ∀ w ∈ token, w.Within address [0x32] := by
  split at h
  · cases h
    exact fun w hw => by cases hw
  · obtain ⟨_,h⟩ := ok_of_bind h
    cases h
    intro w hw
    cases mem_singleton.mp hw
    exact ⟨rfl,by simp⟩

lemma initializeMinter_within (h : initializeMinter address param = .ok states) :
    ∀ w ∈ states, w.Within address (baseRoots++[0x32]) := by
  obtain ⟨base,hbase,h⟩ := bind_eq_ok.mp h
  obtain ⟨token,htoken,h⟩ := bind_eq_ok.mp h
  cases h
  intro w hw
  rcases mem_append.mp hw with hw | hw
  · exact (initializeBase_within hbase w hw).mono (subset_append_left _ _)
  · exact (fiatToken_within htoken w hw).mono (subset_append_right _ _)

lemma initializeMasterMinter_within (h : initializeMasterMinter address param = .ok states) :
    ∀ w ∈ states, w.Within address (baseRoots++[0x32,0x33,0x34,0x35,0x36]) := by
  obtain ⟨base,hbase,h⟩ := bind_eq_ok.mp h
  obtain ⟨token,htoken,h⟩ := bind_eq_ok.mp h
  obtain ⟨registry,hregistry,h⟩ := bind_eq_ok.mp h
  obtain ⟨limit,_,h⟩ := bind_eq_ok.mp h
  cases h
  intro w hw
  simp only [mem_append,mem_singleton] at hw
  rcases hw with ((hw | hw) | hw) | rfl
  · exact (initializeBase_within hbase w hw).mono (subset_append_left _ _)
  · exact (fiatToken_within htoken w hw).mono (by simp)
  · rw [masterMinterMinters_eq_ok hregistry] at hw
    split at hw
    · cases hw
    · simp only [minterListParams,minterParams,mem_cons,mem_flatMap,not_mem_nil,or_false] at hw
      rcases hw with rfl | ⟨e,_,rfl | rfl | rfl⟩
      · exact ⟨rfl,by simp⟩
      · exact ⟨rfl,by simp⟩
      · exact ⟨rfl,by simp⟩
      · exact ⟨rfl,by simp⟩
  · exact ⟨rfl,by simp⟩

theorem initialize_none {t : ContractType} {alloc' : Option GenesisAlloc}
    (h : t.initialize address param none = .ok (states,alloc')) :
    alloc'=none ∧ ∀ w ∈ states, w.address=address ∧ w.key.root ≠ 0xd := by
  have hroots : ∀ {roots : List ℕ}, 0xd ∉ roots → (∀ w ∈ states, w.Within address roots) →
      ∀ w ∈ states, w.address=address ∧ w.key.root ≠ 0xd := fun hroots hin w hw =>
    ⟨(hin w hw).1,fun he => hroots (he ▸ (hin w hw).2)⟩
  cases t with
  | govValidator =>
    obtain ⟨_,hstates,h⟩ := bind_eq_ok.mp h
    cases h
    exact ⟨rfl,hroots (by decide) (initializeValidator_within hstates)⟩
  | nativeCoinAdapter =>
    obtain ⟨_,hstates,h⟩ := bind_eq_ok.mp h
    cases h
    obtain ⟨others,-,hothers,he⟩ := initializeCoinAdapter_eq_ok hstates
    rw [Option.map_none,Option.toList_none,append_nil] at he
    exact ⟨rfl,hroots (by decide) (he ▸ hothers)⟩
  | govMinter =>
    obtain ⟨_,hstates,h⟩ := bind_eq_ok.mp h
    cases h
    exact ⟨rfl,hroots (by decide) (initializeMinter_within hstates)⟩
  | govMasterMinter =>
    obtain ⟨_,hstates,h⟩ := bind_eq_ok.mp h
    cases h
    exact ⟨rfl,hroots (by decide) (initializeMasterMinter_within hstates)⟩
  | govCouncil =>
    obtain ⟨hnone,hin⟩ := initializeGovCouncil_none h
    exact ⟨hnone,hroots (by decide) hin⟩

end

namespace GenesisAlloc
variable {alloc : GenesisAlloc} {a : Address}

/-- The last code for an address. -/
def codeAt (codes : List CodeParam) (a : Address) : Option Bytes :=
  codes.foldl (fun code c => if c.address=a then some c.code else code) none

/-- The last value written to a slot. -/
def writtenAt (states : List StateParam) (a : Address) (k : Slot) : Option ℕ :=
  states.foldl (fun value w => if w.address=a ∧ w.key=k then some w.value else value) none

@[simp]
lemma codeAt_concat (codes : List CodeParam) (c : CodeParam) :
    codeAt (codes++[c]) a = if c.address=a then some c.code else codeAt codes a := by
  simp [codeAt]

@[simp]
lemma writtenAt_concat (states : List StateParam) (w : StateParam) (k : Slot) :
    writtenAt (states++[w]) a k = if w.address=a ∧ w.key=k then some w.value else writtenAt states a k := by
  simp [writtenAt]

lemma codeAt_isSome : (codeAt codes a).isSome=true ↔ a ∈ codes.map CodeParam.address := by
  induction codes using List.reverseRecOn with
  | nil => simp [codeAt]
  | append_singleton codes c ih =>
    rw [codeAt_concat]
    by_cases hc : c.address=a
    · simp [hc]
    · simp [hc,Ne.symm hc,ih]

lemma writtenAt_eq_none {states : List StateParam} {k : Slot} (h : ∀ w ∈ states, w.address=a → w.key≠k) :
    writtenAt states a k=none := by
  induction states using List.reverseRecOn with
  | nil => rfl
  | append_singleton states w ih =>
    rw [writtenAt_concat,if_neg fun hc => h w (by simp) hc.1 hc.2]
    exact ih fun w hw => h w (by simp [hw])

lemma storageOf_eq_writtenAt (states : List StateParam) (k : Slot) :
    storageOf a states k = (writtenAt states a k).getD 0 := by
  induction states using List.reverseRecOn with
  | nil => rfl
  | append_singleton states w ih =>
    rw [storageOf_append_singleton,writtenAt_concat,ih]
    split <;> rfl

def written (f : Slot → Option ℕ) (account : Account) : Account :=
  { account with storage := fun k => (f k).getD (account.storage k) }

def fresh (code : Bytes) : Account := ⟨code,fun _ => 0,some 0,0,0⟩

lemma lookup_putCodes (codes : List CodeParam) : (codes.foldl .putCode alloc : GenesisAlloc).lookup a =
    (codeAt codes a).elim (alloc.lookup a) fun code => some (fresh code) := by
  induction codes using List.reverseRecOn with
  | nil => rfl
  | append_singleton codes c ih =>
    rw [foldl_append,foldl_cons,foldl_nil,putCode,codeAt_concat]
    by_cases hc : c.address=a
    · subst hc
      simp [fresh]
    · rw [AList.lookup_insert_ne (Ne.symm hc),ih,if_neg hc]

lemma lookup_replaceCodes (codes : List CodeParam) : (codes.foldl .replaceCode alloc : GenesisAlloc).lookup a =
    (codeAt codes a).elim (alloc.lookup a)
      fun code => some { (alloc.lookup a).getD (fresh code) with code := code } := by
  induction codes using List.reverseRecOn with
  | nil => rfl
  | append_singleton codes c ih =>
    rw [foldl_append,foldl_cons,foldl_nil,replaceCode,codeAt_concat]
    by_cases hc : c.address=a
    · subst hc
      rw [ih,if_pos rfl]
      cases codeAt codes c.address with
      | none =>
        cases alloc.lookup c.address with
        | none => simp [putCode,fresh]
        | some account => simp
      | some code => cases alloc.lookup c.address <;> simp [fresh]
    · rw [if_neg hc,← ih]
      split
      · rw [putCode,AList.lookup_insert_ne (Ne.symm hc)]
      · rw [AList.lookup_insert_ne (Ne.symm hc)]

lemma lookup_putStates (states : List StateParam) : (states.foldl .putState alloc : GenesisAlloc).lookup a =
    (alloc.lookup a).map (written (writtenAt states a)) := by
  induction states using List.reverseRecOn with
  | nil => exact (Option.map_id_apply (x := alloc.lookup a)).symm
  | append_singleton states w ih =>
    rw [foldl_append,foldl_cons,foldl_nil,putState]
    by_cases hw : w.address=a
    · subst hw
      cases h : alloc.lookup w.address with
      | none =>
        rw [h] at ih
        simp [ih]
      | some account =>
        rw [ih,h]
        simp only [Option.map_some,AList.lookup_insert,Option.some.injEq,written]
        congr 1
        funext k
        by_cases hk : w.key=k
        · subst hk
          simp
        · simp [hk,Ne.symm hk]
    · have hsame : written (writtenAt (states++[w]) a) = written (writtenAt states a) := by
        funext account
        simp [written,hw]
      rw [hsame,← ih]
      split
      · rfl
      · rw [AList.lookup_insert_ne (Ne.symm hw)]

lemma get_putStates (states : List StateParam) (ha : (alloc.lookup a).isSome) :
    get (states.foldl .putState alloc) a = written (writtenAt states a) (alloc.get a) := by
  obtain ⟨account,haccount⟩ := Option.isSome_iff_exists.mp ha
  rw [get,lookup_putStates,get,haccount]
  rfl

lemma coins_putStates (states : List StateParam) : (get (states.foldl .putState alloc) a).coins = (alloc.get a).coins ∧
    (get (states.foldl .putState alloc) a).extra = (alloc.get a).extra := by
  rw [get,lookup_putStates,get]
  cases alloc.lookup a <;> exact ⟨rfl,rfl⟩

lemma storage_putStates_of_ne {states : List StateParam} {k : Slot} (h : ∀ w ∈ states, w.address=a → w.key≠k) :
    (get (states.foldl .putState alloc) a).storage k = (alloc.get a).storage k := by
  rw [get,lookup_putStates,get]
  cases alloc.lookup a with
  | none => rfl
  | some account => simp [written,writtenAt_eq_none h]

lemma get_putCodes_of_notMem (h : a ∉ codes.map CodeParam.address) :
    get (codes.foldl .putCode alloc) a = alloc.get a := by
  rw [← codeAt_isSome,Option.not_isSome_iff_eq_none] at h
  rw [get,lookup_putCodes,h]
  rfl

lemma lookup_putCodes_of_mem (h : a ∈ codes.map CodeParam.address) :
    ∃ code, (codes.foldl .putCode alloc : GenesisAlloc).lookup a = some (fresh code) := by
  obtain ⟨code,hcode⟩ := Option.isSome_iff_exists.mp (codeAt_isSome.mpr h)
  exact ⟨code,by rw [lookup_putCodes,hcode,Option.elim_some]⟩

/-- Neither coins nor bits nor the storage differ. -/
structure Same (account account' : Account) : Prop where
  coins : account'.coins=account.coins
  extra : account'.extra=account.extra
  storage : account'.storage=account.storage

lemma same_replaceCodes (codes : List CodeParam) : Same (alloc.get a) (get (codes.foldl .replaceCode alloc) a) := by
  rw [get,get,lookup_replaceCodes]
  cases codeAt codes a <;> cases alloc.lookup a <;> exact ⟨rfl,rfl,rfl⟩

lemma totalCoins_of_insert {account : Account} (h : account.coins = (alloc.get a).coins) :
    totalCoins (alloc.insert a account) = alloc.totalCoins := by
  have hinsert : totalCoins (alloc.insert a account)+(alloc.get a).coins = alloc.totalCoins+account.coins :=
    totalCoins_insert
  omega

lemma totalCoins_replaceCode (c : CodeParam) : (alloc.replaceCode c).totalCoins = alloc.totalCoins := by
  unfold replaceCode
  split
  · rename_i hnone
    refine totalCoins_of_insert ?_
    rw [get,hnone]
    rfl
  · rename_i existing hsome
    refine totalCoins_of_insert ?_
    rw [get,hsome]
    rfl

lemma totalCoins_replaceCodes (codes : List CodeParam) :
    totalCoins (codes.foldl .replaceCode alloc) = alloc.totalCoins := by
  induction codes generalizing alloc with
  | nil => rfl
  | cons c codes ih => exact ih.trans (totalCoins_replaceCode c)

lemma totalCoins_putStates (states : List StateParam) :
    totalCoins (states.foldl .putState alloc) = alloc.totalCoins := by
  induction states generalizing alloc with
  | nil => rfl
  | cons w states ih =>
    rw [foldl_cons,ih,putState]
    split
    · rfl
    · rename_i account hsome
      refine totalCoins_of_insert ?_
      rw [get,hsome]
      rfl

theorem totalCoins_putCodes_toFinset (codes : List CodeParam) :
    totalCoins (codes.foldl .putCode alloc)+∑ a ∈ (codes.map CodeParam.address).toFinset, (alloc.get a).coins =
      alloc.totalCoins := by
  induction codes generalizing alloc with
  | nil => simp
  | cons c codes ih =>
    have hih := @ih (alloc.putCode c)
    have hput : totalCoins (alloc.putCode c)+(alloc.get c.address).coins = alloc.totalCoins+0 := totalCoins_insert
    have hlost : ((alloc.putCode c).get c.address).coins=0 := by simp [putCode,get_insert,Account.coins]
    have hsame : ∑ a ∈ (codes.map CodeParam.address).toFinset.erase c.address, ((alloc.putCode c).get a).coins =
        ∑ a ∈ (codes.map CodeParam.address).toFinset.erase c.address, (alloc.get a).coins := by
      refine Finset.sum_congr rfl fun a ha => ?_
      rw [putCode,get_insert,if_neg (Finset.ne_of_mem_erase ha)]
    rw [← Finset.sum_erase (f := fun a => ((alloc.putCode c).get a).coins) _ hlost, hsame] at hih
    rw [foldl_cons,map_cons,toFinset_cons,
      ← Finset.add_sum_erase _ _ (Finset.mem_insert_self c.address _),Finset.erase_insert_eq_erase]
    omega

end GenesisAlloc

def SystemContract.v1 (address : Address) (param : Params) : SystemContract := ⟨address,"v1",some param⟩

/-- The first version, with parameters. -/
def SystemContract.initializes (c : SystemContract) : Prop := c.version = "v1" ∧ c.params.isSome

def SystemContract.initParams (c : SystemContract) : Option Params := if c.version = "v1" then c.params else none

lemma SystemContract.initializes_iff (c : SystemContract) : c.initializes ↔ c.initParams.isSome := by
  by_cases hversion : c.version = "v1" <;> simp [initializes,initParams,hversion]

def SystemContracts.list (s : SystemContracts) : List SystemContract :=
  [s.govValidator,s.nativeCoinAdapter,s.govMinter,s.govMasterMinter,s.govCouncil].filterMap id

section
variable {artifacts : Artifacts} {st st' : StateTransition} {t : ContractType}

theorem deploy_eq_ok {c : SystemContract} : deploy artifacts t (some c) st = .ok st' ↔
    ∃ code, getContractCode artifacts t c.version = .ok code ∧
      ((c.initParams=none ∧ st' = { st with codes := st.codes++[⟨c.address,code⟩] }) ∨
        ∃ param states alloc, c.initParams = some param ∧ t.initialize c.address param st.alloc = .ok (states,alloc) ∧
          st' = ⟨st.codes++[⟨c.address,code⟩],st.states++states,alloc⟩) := by
  refine bind_eq_ok.trans (exists_congr fun code => and_congr_right fun _ => ?_)
  obtain ⟨address,version,_ | param⟩ := c
  · simp [SystemContract.initParams,pure,Except.pure,eq_comm]
  · by_cases hversion : version = "v1"
    · subst hversion
      refine bind_eq_ok.trans ?_
      simp [SystemContract.initParams,pure,Except.pure,eq_comm]
    · simp [SystemContract.initParams,hversion,pure,Except.pure,eq_comm]

lemma deploy_v1 {address : Address} {param : Params} (h : deploy artifacts t (some (.v1 address param)) st = .ok st') :
    ∃ code states alloc', t.initialize address param st.alloc = .ok (states,alloc') ∧
      st' = ⟨st.codes++[⟨address,code⟩],st.states++states,alloc'⟩ := by
  obtain ⟨code,_,⟨hnone,_⟩ | ⟨_,states,alloc',hparam,hstates,rfl⟩⟩ := deploy_eq_ok.mp h
  · cases hnone
  · cases hparam
    exact ⟨code,states,alloc',hstates,rfl⟩

/-- Writes without an allocation: none to the total supply, and only at the addresses of initialized
contracts. -/
structure StateTransition.Overlays (st : StateTransition) (contracts : List SystemContract) : Prop where
  alloc : st.alloc=none
  writes : ∀ w ∈ st.states, w.key.root ≠ 0xd ∧ ∃ c ∈ contracts, c.initializes ∧ w.address=c.address

lemma StateTransition.Overlays.deploy {contracts : List SystemContract} {contract : Option SystemContract}
    (hst : st.Overlays contracts) (h : deploy artifacts t contract st = .ok st') :
    st'.Overlays (contracts++contract.toList) := by
  have hbefore : ∀ w ∈ st.states, w.key.root ≠ 0xd ∧
      ∃ c ∈ contracts++contract.toList, c.initializes ∧ w.address=c.address := by
    intro w hw
    obtain ⟨hroot,c,hc,hinit⟩ := hst.writes w hw
    exact ⟨hroot,c,mem_append_left _ hc,hinit⟩
  cases contract with
  | none =>
    cases h
    exact ⟨hst.alloc,hbefore⟩
  | some c =>
    obtain ⟨code,_,⟨_,rfl⟩ | ⟨param,states,alloc',hparam,hstates,rfl⟩⟩ := deploy_eq_ok.mp h
    · exact ⟨hst.alloc,hbefore⟩
    · rw [hst.alloc] at hstates
      obtain ⟨hnone,hwrites⟩ := initialize_none hstates
      refine ⟨hnone,fun w hw => ?_⟩
      rcases mem_append.mp hw with hw | hw
      · exact hbefore w hw
      · obtain ⟨haddress,hroot⟩ := hwrites w hw
        exact ⟨hroot,c,by simp,c.initializes_iff.mpr (by simp [hparam]),haddress⟩

lemma getSystemContractsTransition_none {systemContracts : SystemContracts}
    (h : getSystemContractsTransition artifacts systemContracts none = .ok st) : st.Overlays systemContracts.list := by
  obtain ⟨st₁,h₁,h⟩ := bind_eq_ok.mp h
  obtain ⟨st₂,h₂,h⟩ := bind_eq_ok.mp h
  obtain ⟨st₃,h₃,h⟩ := bind_eq_ok.mp h
  obtain ⟨st₄,h₄,h₅⟩ := bind_eq_ok.mp h
  have hstart : StateTransition.Overlays ⟨[],[],none⟩ [] := ⟨rfl,fun w hw => by cases hw⟩
  have hend := ((((hstart.deploy h₁).deploy h₂).deploy h₃).deploy h₄).deploy h₅
  have hlist : systemContracts.list = []++systemContracts.govValidator.toList ++
      systemContracts.nativeCoinAdapter.toList++systemContracts.govMinter.toList ++
      systemContracts.govMasterMinter.toList++systemContracts.govCouncil.toList := by
    obtain ⟨_ | a,_ | b,_ | c,_ | d,_ | e⟩ := systemContracts <;> rfl
  rwa [hlist]

end

structure Deployment where
  validator : Address × Params
  adapter : Address × Params
  minter : Address × Params
  masterMinter : Address × Params
  council : Address × Params

namespace Deployment

def systemContracts (d : Deployment) : SystemContracts :=
  ⟨some (.v1 d.validator.1 d.validator.2),some (.v1 d.adapter.1 d.adapter.2),some (.v1 d.minter.1 d.minter.2),
    some (.v1 d.masterMinter.1 d.masterMinter.2),some (.v1 d.council.1 d.council.2)⟩

def addresses (d : Deployment) : List Address :=
  [d.validator.1,d.adapter.1,d.minter.1,d.masterMinter.1,d.council.1]

end Deployment

section
variable {artifacts : Artifacts} {d : Deployment} {alloc : GenesisAlloc} {st : StateTransition}

/-- The transition of a genesis: the adapter reads the allocation, the council syncs it. -/
theorem getSystemContractsTransition_v1
    (h : getSystemContractsTransition artifacts d.systemContracts (some alloc) = .ok st) :
    st.codes.map CodeParam.address=d.addresses ∧
      ∃ before adapter between council, st.states = before++adapter++between++council ∧
        (∀ w ∈ before++between, w.address ∈ [d.validator.1,d.minter.1,d.masterMinter.1]) ∧
        initializeCoinAdapter d.adapter.1 d.adapter.2 (some alloc) = .ok adapter ∧
        initializeGovCouncil d.council.1 d.council.2 (some alloc) = .ok (council,st.alloc) := by
  obtain ⟨st₁,h₁,h⟩ := bind_eq_ok.mp h
  obtain ⟨st₂,h₂,h⟩ := bind_eq_ok.mp h
  obtain ⟨st₃,h₃,h⟩ := bind_eq_ok.mp h
  obtain ⟨st₄,h₄,h₅⟩ := bind_eq_ok.mp h
  obtain ⟨code₁,s₁,a₁,hinit₁,rfl⟩ := deploy_v1 h₁
  obtain ⟨_,hstates₁,he⟩ := bind_eq_ok.mp hinit₁
  cases he
  obtain ⟨code₂,s₂,a₂,hinit₂,rfl⟩ := deploy_v1 h₂
  obtain ⟨_,hstates₂,he⟩ := bind_eq_ok.mp hinit₂
  cases he
  obtain ⟨code₃,s₃,a₃,hinit₃,rfl⟩ := deploy_v1 h₃
  obtain ⟨_,hstates₃,he⟩ := bind_eq_ok.mp hinit₃
  cases he
  obtain ⟨code₄,s₄,a₄,hinit₄,rfl⟩ := deploy_v1 h₄
  obtain ⟨_,hstates₄,he⟩ := bind_eq_ok.mp hinit₄
  cases he
  obtain ⟨code₅,s₅,a₅,hinit₅,rfl⟩ := deploy_v1 h₅
  refine ⟨rfl,s₁,s₂,s₃++s₄,s₅,by simp,fun w hw => ?_,hstates₂,hinit₅⟩
  rcases mem_append.mp hw with hw | hw
  · simp [(initializeValidator_within hstates₁ w hw).1]
  · rcases mem_append.mp hw with hw | hw
    · simp [(initializeMinter_within hstates₃ w hw).1]
    · simp [(initializeMasterMinter_within hstates₄ w hw).1]

end

end StableNet.Genesis
