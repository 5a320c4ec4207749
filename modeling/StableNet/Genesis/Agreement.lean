import StableNet.Genesis.Inject

/-! The genesis as a whole: supply and balances, sets and bits agree exactly if nothing was allocated to the system
contracts, and the upgrades at genesis leave no listed one in the sets of the council and all other listed accounts. -/
namespace StableNet.Genesis
open Chain (Address Bytes)
open Lib GenesisAlloc List

/-- What the state and the system contracts both keep is the same. -/
structure GenesisAgrees (d : Deployment) (alloc : GenesisAlloc) : Prop where
  totalSupply : (alloc.get d.adapter.1).storage totalSupplySlot=alloc.totalCoins
  sets : ∀ spec ∈ [blacklistSpec,authorizedSpec], ∀ a, a≠0 →
    ((alloc.get a).hasFlag spec.flag ↔ setPositions (alloc.get d.council.1).storage spec.posSlot a≠0)

/-- The storage that the upgrades at genesis write. -/
def ChainConfig.genesisWrites (config : ChainConfig) (artifacts : Artifacts) : List StateParam :=
  config.collectUpgrades.flatMap fun upgrade => if upgrade.block≠0 then [] else
    (getSystemContractsTransition artifacts upgrade.systemContracts none).toOption.elim [] (·.states)

/-- The slot of the council with the position of an address in a set. -/
def AddrSetSpec.position (spec : AddrSetSpec) (a : Address) : Slot := calculateMappingSlot (.fixed spec.posSlot) a.toNat

/-- Where the upgrades at genesis write the position of an address, they leave one exactly if it is listed and no system
contract; where they do not, a system contract is not listed. -/
def Fits (d : Deployment) (writes : List StateParam) (alloc : GenesisAlloc) (spec : AddrSetSpec) (a : Address) : Prop :=
  match writtenAt writes d.council.1 (spec.position a) with
  | none => a ∈ d.addresses → ¬ spec.Listed d.council.2 alloc a
  | some value => value≠0 ↔ a ∉ d.addresses ∧ spec.Listed d.council.2 alloc a

instance {spec : AddrSetSpec} {param : Params} {alloc : GenesisAlloc} {a : Address} :
    Decidable (spec.Listed param alloc a) :=
  inferInstanceAs (Decidable (_ ∨ _))

/-- The allocation with its contracts, in terms of the one that it was made from and of what the upgrades wrote. -/
structure Injected (d : Deployment) (writes : List StateParam) (alloc alloc' : GenesisAlloc) : Prop where
  totalCoins : alloc'.totalCoins+(d.addresses.map fun a => (alloc.get a).coins).sum = alloc.totalCoins
  totalSupply : (alloc'.get d.adapter.1).storage totalSupplySlot = alloc.totalCoins%2^256
  cleared : ∀ a ∈ d.addresses, ∀ f, (alloc'.get a).hasFlag f=false
  hasFlag : ∀ spec ∈ [blacklistSpec,authorizedSpec], ∀ a, a ∉ d.addresses → a≠0 →
    ((alloc'.get a).hasFlag spec.flag ↔ spec.Listed d.council.2 alloc a)
  deployed : (alloc'.lookup d.council.1).isSome
  position : ∀ spec ∈ [blacklistSpec,authorizedSpec], ∀ a,
    (setPositions (alloc'.get d.council.1).storage spec.posSlot a≠0 ↔
      (writtenAt writes d.council.1 (spec.position a)).elim (a≠0 ∧ spec.Listed d.council.2 alloc a) (·≠0))

/-- No upgrade at genesis initializes a contract at the address of the council. -/
def ChainConfig.SparesCouncil (config : ChainConfig) (council : Address) : Prop :=
  ∀ upgrade ∈ config.collectUpgrades, upgrade.block=0 → ∀ c ∈ upgrade.systemContracts.list, c.initializes →
    c.address≠council

lemma storageOf_eq_filter (address : Address) (states : List StateParam) :
    storageOf address states = storageOf address (states.filter (·.address = address)) := by
  rw [storageOf,storageOf,foldl_filter]
  congr 1
  funext st w
  by_cases h : w.address=address
  · simp [h]
  · simp [h]

theorem storageOf_append_append {address : Address} {before states after : List StateParam}
    (hbefore : ∀ w ∈ before, w.address≠address) (hstates : ∀ w ∈ states, w.address=address)
    (hafter : ∀ w ∈ after, w.address≠address) :
    storageOf address (before++states++after) = storageOf address states := by
  have hbefore : before.filter (·.address = address) = [] :=
    filter_eq_nil_iff.mpr fun w hw => by simpa using hbefore w hw
  have hafter : after.filter (·.address = address) = [] :=
    filter_eq_nil_iff.mpr fun w hw => by simpa using hafter w hw
  have hstates : states.filter (·.address = address) = states :=
    filter_eq_self.mpr fun w hw => by simpa using hstates w hw
  rw [storageOf_eq_filter,filter_append,filter_append,hbefore,hafter,hstates,nil_append,append_nil]

section
variable {artifacts : Artifacts} {d : Deployment} {alloc alloc' : GenesisAlloc}

theorem overlays_eq {config : ChainConfig}
    (h : config.collectUpgrades.foldlM (injectUpgrade artifacts) alloc = .ok alloc') :
    ∃ codes : List CodeParam,
      (∀ w ∈ config.genesisWrites artifacts, w.key.root ≠ 0xd ∧ ∃ upgrade ∈ config.collectUpgrades,
        upgrade.block=0 ∧ ∃ c ∈ upgrade.systemContracts.list, c.initializes ∧ w.address=c.address) ∧
      ∀ again, config.collectUpgrades.foldlM (injectUpgrade artifacts) again =
        .ok ((config.genesisWrites artifacts).foldl .putState (codes.foldl .replaceCode again)) := by
  unfold ChainConfig.genesisWrites
  unfold ChainConfig.collectUpgrades at h ⊢
  split at h
  · rename_i block systemContracts _ _
    rw [foldlM_cons] at h
    by_cases hblock : block=0
    · obtain ⟨_,hoverlay,_⟩ := bind_eq_ok.mp h
      obtain ⟨st,hst,_⟩ := bind_eq_ok.mp ((if_neg (not_not.mpr hblock)).symm.trans hoverlay)
      refine ⟨st.codes,fun w hw => ?_,fun again => ?_⟩
      · have hw : w ∈ st.states := by simpa [hblock,hst,Except.toOption] using hw
        obtain ⟨hroot,hc⟩ := (getSystemContractsTransition_none hst).writes w hw
        exact ⟨hroot,_,mem_singleton_self _,hblock,hc⟩
      · simp [hblock,injectUpgrade,applyUpgradeOverlay,hst,Except.toOption,pure,Except.pure,bind,Except.bind]
    · refine ⟨[],by simp [hblock],fun again => ?_⟩
      simp [hblock,injectUpgrade,pure,Except.pure,bind,Except.bind]
  · exact ⟨[],by simp,fun again => rfl⟩

lemma Injected.overlay {writes : List StateParam} (h : Injected d [] alloc alloc')
    (hroots : ∀ w ∈ writes, w.key.root ≠ 0xd) (codes : List CodeParam) :
    Injected d writes alloc (writes.foldl .putState (codes.foldl .replaceCode alloc')) := by
  have hsame : ∀ a, GenesisAlloc.Same (alloc'.get a) (GenesisAlloc.get (codes.foldl .replaceCode alloc') a) :=
    fun a => same_replaceCodes codes
  have hflag : ∀ a f, (GenesisAlloc.get (writes.foldl .putState (codes.foldl .replaceCode alloc')) a).hasFlag f =
      (alloc'.get a).hasFlag f := fun a f => by
    rw [Account.hasFlag,(coins_putStates writes).2,(hsame a).extra,← Account.hasFlag]
  have hdeployed : (AList.lookup d.council.1 (codes.foldl .replaceCode alloc' : GenesisAlloc)).isSome := by
    rw [lookup_replaceCodes]
    cases codeAt codes d.council.1 with
    | none => exact h.deployed
    | some code => rfl
  constructor
  · rw [totalCoins_putStates,totalCoins_replaceCodes]
    exact h.totalCoins
  · rw [storage_putStates_of_ne,(hsame _).storage]
    · exact h.totalSupply
    · exact fun w hw _ hk => hroots w hw (congrArg Slot.root hk)
  · intro a ha f
    rw [hflag]
    exact h.cleared a ha f
  · intro spec hspec a ha hne
    rw [hflag]
    exact h.hasFlag spec hspec a ha hne
  · rw [lookup_putStates,Option.isSome_map]
    exact hdeployed
  · intro spec hspec a
    have hold := h.position spec hspec a
    rw [setPositions,get_putStates writes hdeployed,written]
    dsimp only
    rw [(hsame _).storage,← AddrSetSpec.position]
    cases writtenAt writes d.council.1 (spec.position a) with
    | none => exact hold
    | some value => rfl

theorem storageOf_totalSupply {address : Address} {param : Params} {states : List StateParam}
    (h : initializeCoinAdapter address param (some alloc) = .ok states) :
    (∀ w ∈ states, w.address=address) ∧ storageOf address states totalSupplySlot = alloc.totalCoins%2^256 := by
  obtain ⟨others,-,hothers,rfl⟩ := initializeCoinAdapter_eq_ok h
  rw [Option.map_some,Option.toList_some]
  constructor
  · intro w hw
    rcases mem_append.mp hw with hw | hw
    · exact (hothers w hw).1
    · cases mem_singleton.mp hw
      rfl
  · rw [storageOf_append_singleton,if_pos ⟨rfl,rfl⟩]

lemma hasBit_zero (f : Evm.Flag) : Evm.Flag.hasBit 0 f.mask=false := by
  cases f <;> decide

lemma Injected.transition {st : StateTransition} (hdistinct : d.addresses.Nodup)
    (h : getSystemContractsTransition artifacts d.systemContracts (some alloc) = .ok st) :
    Injected d [] alloc (st.states.foldl .putState (st.codes.foldl .putCode (st.alloc.getD alloc))) := by
  obtain ⟨hcodes,before,adapter,between,council,hstates,hothers,hadapter,hcouncil⟩ := getSystemContractsTransition_v1 h
  obtain ⟨synced,hsynced,hrec⟩ := initializeGovCouncil_reconciles hcouncil
  obtain ⟨hwithin,hsupply⟩ := storageOf_totalSupply hadapter
  rw [hsynced,Option.getD_some]
  obtain ⟨hadapterNe,hcouncilNe,hne⟩ : d.adapter.1 ∉ [d.validator.1,d.minter.1,d.masterMinter.1] ∧
      d.council.1 ∉ [d.validator.1,d.minter.1,d.masterMinter.1] ∧ d.adapter.1≠d.council.1 := by
    simp only [Deployment.addresses,nodup_cons,mem_cons,not_mem_nil,or_false,not_or] at hdistinct ⊢
    grind
  have deployed : ∀ a ∈ d.addresses, ∃ code,
      (st.codes.foldl .putCode synced : GenesisAlloc).lookup a = some (fresh code) :=
    fun a ha => lookup_putCodes_of_mem (hcodes ▸ ha)
  have hinjected : ∀ a ∈ d.addresses, ∃ code,
      GenesisAlloc.get (st.states.foldl .putState (st.codes.foldl .putCode synced)) a =
      ⟨code,storageOf a st.states,some 0,0,0⟩ := by
    intro a ha
    obtain ⟨code,hlookup⟩ := deployed a ha
    have hstorage : storageOf a st.states = fun k => (writtenAt st.states a k).getD 0 :=
      funext fun k => storageOf_eq_writtenAt st.states k
    refine ⟨code,?_⟩
    rw [get_putStates _ (by rw [hlookup]; rfl),GenesisAlloc.get,hlookup,hstorage]
    rfl
  constructor
  · have hlost : GenesisAlloc.totalCoins (st.codes.foldl .putCode synced) +
        ∑ a ∈ d.addresses.toFinset, (synced.get a).coins = synced.totalCoins := by
      rw [← hcodes]
      exact totalCoins_putCodes_toFinset st.codes
    have hsum : ∑ a ∈ d.addresses.toFinset, (synced.get a).coins =
        (d.addresses.map fun a => (alloc.get a).coins).sum := by
      rw [sum_toFinset _ hdistinct]
      exact congrArg List.sum (map_congr_left fun a _ => hrec.coins a)
    rw [hsum,hrec.totalCoins] at hlost
    rw [totalCoins_putStates]
    exact hlost
  · obtain ⟨code,hget⟩ := hinjected d.adapter.1 (by simp [Deployment.addresses])
    rw [hget,hstates,append_assoc,storageOf_append_append ?_ hwithin ?_]
    · exact hsupply
    · exact fun w hw he => hadapterNe (he ▸ hothers w (mem_append_left _ hw))
    · intro w hw he
      rcases mem_append.mp hw with hw | hw
      · exact hadapterNe (he ▸ hothers w (mem_append_right _ hw))
      · exact hne (he.symm.trans (hrec.within w hw))
  · intro a ha f
    obtain ⟨code,hget⟩ := hinjected a ha
    rw [hget]
    exact hasBit_zero f
  · intro spec hspec a ha hne
    rw [Account.hasFlag,(coins_putStates st.states).2,get_putCodes_of_notMem (hcodes ▸ ha)]
    exact hrec.hasFlag spec hspec a hne
  · obtain ⟨code,hlookup⟩ := deployed d.council.1 (by simp [Deployment.addresses])
    rw [lookup_putStates,hlookup]
    rfl
  · intro spec hspec a
    obtain ⟨code,hget⟩ := hinjected d.council.1 (by simp [Deployment.addresses])
    rw [hget,hstates,← append_nil (before++adapter++between++council),storageOf_append_append ?_ hrec.within ?_]
    · exact hrec.position spec hspec a
    · intro w hw he
      rcases mem_append.mp hw with hw | hw
      · rcases mem_append.mp hw with hw | hw
        · exact hcouncilNe (he ▸ hothers w (mem_append_left _ hw))
        · exact hne ((hwithin w hw).symm.trans he)
      · exact hcouncilNe (he ▸ hothers w (mem_append_right _ hw))
    · exact fun w hw => by cases hw

section
variable {extraData : Except String Bytes} {config : ChainConfig} {data : Bytes}
  (h : initializeAnzeonGenesis artifacts extraData config alloc = .ok (data,alloc'))
include h

lemma Injected.of_initializeAnzeonGenesis (hconfig : config.systemContracts=d.systemContracts)
    (hdistinct : d.addresses.Nodup) : Injected d (config.genesisWrites artifacts) alloc alloc' := by
  obtain ⟨_,h⟩ := ok_of_bind h
  obtain ⟨_,h⟩ := ok_of_bind h
  obtain ⟨injected,hinject,h⟩ := bind_eq_ok.mp h
  cases h
  obtain ⟨st,hst,hinject⟩ := bind_eq_ok.mp hinject
  rw [hconfig] at hst
  obtain ⟨codes,hwrites,hoverlay⟩ := overlays_eq hinject
  rw [hoverlay] at hinject
  cases hinject
  exact (Injected.transition hdistinct hst).overlay (fun w hw => (hwrites w hw).1) codes

lemma ChainConfig.SparesCouncil.writtenAt_eq_none {council : Address} (hspares : config.SparesCouncil council)
    (k : Slot) :
    writtenAt (config.genesisWrites artifacts) council k=none := by
  obtain ⟨_,h⟩ := ok_of_bind h
  obtain ⟨_,h⟩ := ok_of_bind h
  obtain ⟨injected,hinject,h⟩ := bind_eq_ok.mp h
  obtain ⟨st,hst,hinject⟩ := bind_eq_ok.mp hinject
  obtain ⟨codes,hwrites,-⟩ := overlays_eq hinject
  refine GenesisAlloc.writtenAt_eq_none fun w hw haddress => ?_
  obtain ⟨-,upgrade,hupgrade,hblock,c,hc,hinit,hcaddress⟩ := hwrites w hw
  exact absurd (hcaddress.symm.trans haddress) (hspares upgrade hupgrade hblock c hc hinit)

end

lemma Injected.hasFlag_iff {writes : List StateParam} (h : Injected d writes alloc alloc') {spec : AddrSetSpec}
    (hspec : spec ∈ [blacklistSpec,authorizedSpec]) {a : Address} (hne : a≠0) :
    (alloc'.get a).hasFlag spec.flag ↔ a ∉ d.addresses ∧ spec.Listed d.council.2 alloc a := by
  by_cases ha : a ∈ d.addresses
  · rw [h.cleared a ha]
    exact iff_of_false (by simp) fun hlisted => hlisted.1 ha
  · rw [h.hasFlag spec hspec a ha hne]
    exact (and_iff_right ha).symm

lemma Injected.sets_iff {writes : List StateParam} (h : Injected d writes alloc alloc') {spec : AddrSetSpec}
    (hspec : spec ∈ [blacklistSpec,authorizedSpec]) {a : Address} (hne : a≠0) : ((alloc'.get a).hasFlag spec.flag ↔
      setPositions (alloc'.get d.council.1).storage spec.posSlot a≠0) ↔ Fits d writes alloc spec a := by
  rw [h.hasFlag_iff hspec hne,h.position spec hspec a,Fits]
  cases writtenAt writes d.council.1 (spec.position a) with
  | none =>
    simp only [Option.elim_none,hne,ne_eq,not_false_eq_true,true_and,and_iff_right_iff_imp]
    tauto
  | some value => exact Iff.comm

lemma Injected.agrees_iff {writes : List StateParam} (h : Injected d writes alloc alloc')
    (hfits : alloc.totalCoins<2^256) :
    GenesisAgrees d alloc' ↔ (∀ a ∈ d.addresses, (alloc.get a).coins=0) ∧
      ∀ spec ∈ [blacklistSpec,authorizedSpec], ∀ a, a≠0 → Fits d writes alloc spec a := by
  have htotal := h.totalCoins
  have hsupply : (alloc'.get d.adapter.1).storage totalSupplySlot=alloc'.totalCoins ↔
      (d.addresses.map fun a => (alloc.get a).coins).sum=0 := by
    rw [h.totalSupply,Nat.mod_eq_of_lt hfits]
    omega
  rw [sum_eq_zero_iff,forall_mem_map] at hsupply
  constructor
  · rintro ⟨hagrees,hsets⟩
    exact ⟨hsupply.mp hagrees,fun spec hspec a hne => (h.sets_iff hspec hne).mp (hsets spec hspec a hne)⟩
  · rintro ⟨hcoins,hsets⟩
    exact ⟨hsupply.mpr hcoins,fun spec hspec a hne => (h.sets_iff hspec hne).mpr (hsets spec hspec a hne)⟩

/-- The genesis agrees with its system contracts exactly if nothing was allocated to their addresses and the sets of the
council, with what the upgrades at genesis write to them, hold all listed accounts that are no system contract. -/
theorem genesis_agreement {extraData : Except String Bytes} {config : ChainConfig} {data : Bytes}
    (hconfig : config.systemContracts=d.systemContracts) (hdistinct : d.addresses.Nodup)
    (h : initializeAnzeonGenesis artifacts extraData config alloc = .ok (data,alloc'))
    (hfits : alloc.totalCoins<2^256) : GenesisAgrees d alloc' ↔ (∀ a ∈ d.addresses, (alloc.get a).coins=0) ∧
      ∀ spec ∈ [blacklistSpec,authorizedSpec], ∀ a, a≠0 → Fits d (config.genesisWrites artifacts) alloc spec a :=
  (Injected.of_initializeAnzeonGenesis h hconfig hdistinct).agrees_iff hfits

end

namespace OneHolder

def adapterParams : Params
  | "masterMinter" => some "0x1"
  | "name" => some "W"
  | "symbol" => some "W"
  | "decimals" => some "0"
  | "currency" => some "W"
  | _ => none

/-- The contracts at their usual addresses; the council is given a blacklist. -/
def deployment (blacklist : String) : Deployment :=
  ⟨(0x1001,fun _ => none),(0x1000,adapterParams),(0x1003,fun _ => none),(0x1002,fun _ => none),
    (0x1004,fun key => if key = "blacklist" then some blacklist else none)⟩

def config (blacklist : String) : ChainConfig := ⟨(deployment blacklist).systemContracts,none,none⟩

def artifacts : Artifacts := ⟨fun _ _ => [0],fun _ => ""⟩

def alloc (adapterCoins : ℕ) : GenesisAlloc :=
  ((∅ : GenesisAlloc).insert 9 ⟨[],fun _ => 0,some 7,0,0⟩).insert 0x1000 ⟨[],fun _ => 0,some adapterCoins,0,0⟩

/-- An upgrade at genesis initializes the council once more, with the same list. -/
def repeated : ChainConfig :=
  ⟨(deployment "0x9").systemContracts,some 0,some ⟨none,none,none,none,(deployment "0x9").systemContracts.govCouncil⟩⟩

theorem agreement_of_repeated :
    ∃ alloc', initializeAnzeonGenesis artifacts (.ok []) repeated (alloc 0) = .ok ([],alloc') ∧
      GenesisAgrees (deployment "0x9") alloc' ∧ (alloc'.get 0x1000).storage totalSupplySlot=7 ∧
      (alloc'.get 9).hasFlag .blacklisted := by
  obtain ⟨⟨data,alloc'⟩,hgenesis,h⟩ := exists_of_holds
    (x := initializeAnzeonGenesis artifacts (.ok []) repeated (alloc 0))
    (P := fun r => r.1 = [] && ((r.2.get 0x1000).storage totalSupplySlot = 7 && (r.2.get 9).hasFlag .blacklisted))
    (by decide +kernel)
  simp only [Bool.and_eq_true,decide_eq_true_eq] at h
  obtain ⟨rfl,hread⟩ := h
  -- the second time only slots outside of the mappings are written
  have hfixed : (repeated.genesisWrites artifacts).all (fun w => w.key = .fixed w.key.root)=true := by decide +kernel
  have hclear : (deployment "0x9").addresses.all (fun a => ((alloc 0).get a).coins=0 &&
      [blacklistSpec,authorizedSpec].all fun spec => ¬ spec.Listed (deployment "0x9").council.2 (alloc 0) a)=true := by
    decide +kernel
  simp only [all_eq_true,Bool.and_eq_true,decide_eq_true_eq] at hfixed hclear
  refine ⟨alloc',hgenesis,(genesis_agreement (d := deployment "0x9") rfl (by decide) hgenesis (by decide +kernel)).mpr
    ⟨fun a ha => (hclear a ha).1,fun spec hspec a _ => ?_⟩,hread⟩
  have hnone : writtenAt (repeated.genesisWrites artifacts) 0x1004 (spec.position a)=none :=
    GenesisAlloc.writtenAt_eq_none fun w hw _ hk => by
      have hw := hfixed w hw
      rw [hk] at hw
      cases hw
  rw [Fits,show (deployment "0x9").council.1 = 0x1004 from rfl,hnone]
  exact fun ha => (hclear a ha).2 spec hspec

/-- The adapter counts its own coins before they are gone, and the council lists it although its bit is
cleared. -/
theorem contract_overwritten :
    ∃ alloc', initializeAnzeonGenesis artifacts (.ok []) (config "0x1000") (alloc 5) = .ok ([],alloc') ∧
      (alloc'.get 0x1000).storage totalSupplySlot=12 ∧ alloc'.totalCoins=7 ∧
      setPositions (alloc'.get 0x1004).storage blacklistSpec.posSlot 0x1000=1 ∧
      (alloc'.get 0x1000).hasFlag .blacklisted=false := by
  obtain ⟨⟨data,alloc'⟩,hgenesis,h⟩ := exists_of_holds
    (x := initializeAnzeonGenesis artifacts (.ok []) (config "0x1000") (alloc 5))
    (P := fun r => r.1 = [] && ((r.2.get 0x1000).storage totalSupplySlot = 12 && (r.2.totalCoins = 7 &&
      (setPositions (r.2.get 0x1004).storage blacklistSpec.posSlot 0x1000=1 &&
        !(r.2.get 0x1000).hasFlag .blacklisted))))
    (by decide +kernel)
  simp only [Bool.and_eq_true,decide_eq_true_eq,Bool.not_eq_true'] at h
  obtain ⟨rfl,hread⟩ := h
  exact ⟨alloc',hgenesis,hread⟩

end OneHolder

end StableNet.Genesis
