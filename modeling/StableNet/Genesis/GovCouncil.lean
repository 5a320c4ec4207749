import StableNet.Evm.Journal
import StableNet.Genesis.CoinAdapter
import Mathlib.Data.List.Sort

/-! `initializeGovCouncil`: the blacklist and the authorized accounts, merged from the parameters and the bits and
written to both. -/
namespace StableNet.Genesis
open Chain (Address)
open Lib List
open Evm (Flag)

/-- One of the two address sets: where it is listed, the bit that belongs to it, and its slots. -/
structure AddrSetSpec where
  paramKey : String
  errPrefix : String
  flag : Flag
  valuesSlot : ℕ
  posSlot : ℕ

def blacklistSpec : AddrSetSpec :=
  ⟨"blacklist","`systemContracts.govCouncil.params.blacklist`",.blacklisted,0x32,0x33⟩

def authorizedSpec : AddrSetSpec :=
  ⟨"authorizedAccounts","`systemContracts.govCouncil.params.authorizedAccounts`",.authorized,0x34,0x35⟩

def parseParamAddresses (paramStr : String) : Except String (List Address) :=
  (splitAndTrim paramStr).foldlM (fun set s => do
    let addr := hexToAddress s
    require (addr≠0) "contains invalid zero address"
    return set.insert addr) []

/-- The array of an address set in ascending order, and the positions in it. -/
def initializeAddressSet (address : Address) (valuesSlot positionsSlot : ℕ) (addresses : List Address) :
    List StateParam :=
  if addresses = [] then []
  else
    let sorted := addresses.insertionSort fun a b => a.toNat ≤ b.toNat
    ⟨address,.fixed valuesSlot,sorted.length⟩::sorted.zipIdx.flatMap fun e =>
      [⟨address,calculateDynamicSlot (.fixed valuesSlot) e.2,e.1.toNat⟩,
        ⟨address,calculateMappingSlot (.fixed positionsSlot) e.1.toNat,e.2+1⟩]

namespace AddrSetSpec
variable (spec : AddrSetSpec)

def parse (param : Params) : Except String (List Address) :=
  (parseParamAddresses ((param spec.paramKey).getD "")).mapError (spec.errPrefix ++ ": " ++ ·)

/-- The accounts that have the bit are added; the zero address is skipped. -/
def merge (alloc : GenesisAlloc) (set : List Address) : List Address :=
  alloc.entries.foldl (fun set e => if e.1≠0 ∧ e.2.hasFlag spec.flag then set.insert e.1 else set) set

/-- The accounts of the set get the bit; those that are not allocated yet are added. -/
def sync (alloc : GenesisAlloc) (set : List Address) : GenesisAlloc :=
  set.foldl (fun alloc addr => alloc.insert addr
    { alloc.get addr with
      balance := some (alloc.get addr).coins
      extra := Flag.setBit (alloc.get addr).extra spec.flag.mask }) alloc

def states (address : Address) (set : List Address) : List StateParam :=
  initializeAddressSet address spec.valuesSlot spec.posSlot set

end AddrSetSpec

open AddrSetSpec

def councilManagerParam (address : Address) : StateParam := ⟨address,.fixed 0x36,Evm.accountManagerAddress.toNat⟩

/-- Without an allocation the sets are left out. -/
def initializeGovCouncil (address : Address) (param : Params) (alloc : Option GenesisAlloc) :
    Except String (List StateParam × Option GenesisAlloc) := do
  let base ← initializeBase address param
  let blacklist ← blacklistSpec.parse param
  let authorized ← authorizedSpec.parse param
  match alloc with
  | none => return (base++[councilManagerParam address],none)
  | some alloc =>
    let blacklist := blacklistSpec.merge alloc blacklist
    let authorized := authorizedSpec.merge alloc authorized
    return (base++blacklistSpec.states address blacklist++authorizedSpec.states address authorized ++
      [councilManagerParam address],
      some (authorizedSpec.sync (blacklistSpec.sync alloc blacklist) authorized))

/-- An address is in the parameters, or its account has the bit. -/
def AddrSetSpec.Listed (spec : AddrSetSpec) (param : Params) (alloc : GenesisAlloc) (a : Address) : Prop :=
  a ∈ (splitAndTrim ((param spec.paramKey).getD "")).map hexToAddress ∨ (alloc.get a).hasFlag spec.flag

lemma foldlM_insert_eq_ok {entries : List (List Char)} {set set' : List Address} (h : entries.foldlM (fun set s => do
      let addr := hexToAddress s
      require (addr≠0) "contains invalid zero address"
      return set.insert addr) set = .ok set') (hnodup : set.Nodup) :
    set'.Nodup ∧ (∀ a, a ∈ set' ↔ a ∈ set ∨ a ∈ entries.map hexToAddress) ∧ 0 ∉ entries.map hexToAddress := by
  induction entries generalizing set with
  | nil =>
    cases h
    simp [hnodup]
  | cons s entries ih =>
    obtain ⟨set₁,h₁,h⟩ := bind_eq_ok.mp h
    obtain ⟨_,hzero,h₁⟩ := bind_eq_ok.mp h₁
    cases h₁
    have hzero : hexToAddress s≠0 := of_decide_eq_true (require_eq_ok.mp hzero)
    obtain ⟨hnodup',hmem,hzeros⟩ := ih h (hnodup.insert)
    refine ⟨hnodup',fun a => ?_,?_⟩
    · rw [hmem,mem_insert_iff,map_cons,mem_cons]
      tauto
    · rw [map_cons,mem_cons,not_or]
      exact ⟨hzero.symm,hzeros⟩

namespace AddrSetSpec
variable {spec : AddrSetSpec} {param : Params} {alloc : GenesisAlloc} {set : List Address} {a : Address}

lemma parse_eq_ok (h : spec.parse param = .ok set) :
    set.Nodup ∧ (∀ a, a ∈ set ↔ a ∈ (splitAndTrim ((param spec.paramKey).getD "")).map hexToAddress) ∧ 0 ∉ set := by
  obtain ⟨hnodup,hmem,hzero⟩ := foldlM_insert_eq_ok (mapError_eq_ok.mp h) nodup_nil
  have hmem : ∀ a, a ∈ set ↔ a ∈ (splitAndTrim ((param spec.paramKey).getD "")).map hexToAddress := fun a => by
    rw [hmem]
    simp
  exact ⟨hnodup,hmem,fun h => hzero ((hmem 0).mp h)⟩

lemma hasFlag_get : (alloc.get a).hasFlag spec.flag ↔
    ∃ account, ⟨a,account⟩ ∈ alloc.entries ∧ account.hasFlag spec.flag := by
  rw [GenesisAlloc.get]
  cases h : alloc.lookup a with
  | none =>
    have hnone : ∀ account : Account, (⟨a,account⟩ : Sigma fun _ : Address => Account) ∉ alloc.entries :=
      fun account hmem => by
      rw [AList.mem_lookup_iff.mpr hmem] at h
      cases h
    simp only [Option.getD_none]
    refine iff_of_false ?_ ?_
    · cases spec.flag <;> decide
    · rintro ⟨account,hmem,_⟩
      exact hnone account hmem
  | some account =>
    have hmem := AList.mem_lookup_iff.mp h
    constructor
    · exact fun hflag => ⟨account,hmem,hflag⟩
    · rintro ⟨account',hmem',hflag⟩
      rw [AList.mem_lookup_iff.mpr hmem'] at h
      cases h
      exact hflag

lemma mem_foldl_insert {entries : List (Sigma fun _ : Address => Account)} :
    a ∈ entries.foldl (fun set e => if e.1≠0 ∧ e.2.hasFlag spec.flag then set.insert e.1 else set) set ↔
      a ∈ set ∨ a≠0 ∧ ∃ account, ⟨a,account⟩ ∈ entries ∧ account.hasFlag spec.flag := by
  induction entries generalizing set with
  | nil => simp
  | cons e entries ih =>
    obtain ⟨b,account⟩ := e
    rw [foldl_cons,ih]
    split
    · rename_i hb
      rw [mem_insert_iff]
      constructor
      · rintro ((rfl | hmem) | ⟨hne,account',hmem,hflag⟩)
        · exact .inr ⟨hb.1,account,mem_cons_self,hb.2⟩
        · exact .inl hmem
        · exact .inr ⟨hne,account',mem_cons_of_mem _ hmem,hflag⟩
      · rintro (hmem | ⟨hne,account',hmem,hflag⟩)
        · exact .inl (.inr hmem)
        · rcases mem_cons.mp hmem with he | hmem
          · cases he
            exact .inl (.inl rfl)
          · exact .inr ⟨hne,account',hmem,hflag⟩
    · rename_i hb
      constructor
      · rintro (hmem | ⟨hne,account',hmem,hflag⟩)
        · exact .inl hmem
        · exact .inr ⟨hne,account',mem_cons_of_mem _ hmem,hflag⟩
      · rintro (hmem | ⟨hne,account',hmem,hflag⟩)
        · exact .inl hmem
        · rcases mem_cons.mp hmem with he | hmem
          · cases he
            exact absurd ⟨hne,hflag⟩ hb
          · exact .inr ⟨hne,account',hmem,hflag⟩

lemma mem_merge : a ∈ spec.merge alloc set ↔ a ∈ set ∨ a≠0 ∧ (alloc.get a).hasFlag spec.flag := by
  rw [merge,mem_foldl_insert,hasFlag_get]

lemma nodup_merge (h : set.Nodup) : (spec.merge alloc set).Nodup := by
  unfold merge
  induction alloc.entries generalizing set with
  | nil => exact h
  | cons e entries ih =>
    rw [foldl_cons]
    split
    · exact ih h.insert
    · exact ih h

theorem mem_merge_iff (h : spec.parse param = .ok set) :
    a ∈ spec.merge alloc set ↔ a≠0 ∧ spec.Listed param alloc a := by
  obtain ⟨_,hmem,hzero⟩ := parse_eq_ok h
  rw [mem_merge,Listed,← hmem]
  constructor
  · rintro (ha | ⟨hne,hflag⟩)
    · exact ⟨fun he => hzero (he ▸ ha),.inl ha⟩
    · exact ⟨hne,.inr hflag⟩
  · rintro ⟨hne,ha | hflag⟩
    · exact .inl ha
    · exact .inr ⟨hne,hflag⟩

lemma coins_sync : ((spec.sync alloc set).get a).coins = (alloc.get a).coins := by
  unfold sync
  induction set generalizing alloc with
  | nil => rfl
  | cons b set ih =>
    rw [foldl_cons,ih,GenesisAlloc.get_insert]
    split
    · rename_i h
      rw [h]
      rfl
    · rfl

lemma totalCoins_sync : (spec.sync alloc set).totalCoins = alloc.totalCoins := by
  unfold sync
  induction set generalizing alloc with
  | nil => rfl
  | cons b set ih =>
    rw [foldl_cons,ih]
    exact Nat.add_right_cancel GenesisAlloc.totalCoins_insert

lemma hasFlag_sync {f : Flag} : ((spec.sync alloc set).get a).hasFlag f ↔
    (alloc.get a).hasFlag f ∨ f=spec.flag ∧ a ∈ set := by
  unfold sync
  induction set generalizing alloc with
  | nil => simp
  | cons b set ih =>
    rw [foldl_cons,ih,GenesisAlloc.get_insert,mem_cons]
    split
    · rename_i h
      subst h
      rw [Account.hasFlag,Flag.hasBit_setBit,Bool.or_eq_true,decide_eq_true_eq,← Account.hasFlag]
      tauto
    · rename_i h
      tauto

end AddrSetSpec

section
variable {address : Address} {valuesSlot positionsSlot : ℕ} {set : List Address} {w : StateParam}

lemma mem_initializeAddressSet : w ∈ initializeAddressSet address valuesSlot positionsSlot set ↔
    set ≠ [] ∧ (w = ⟨address,.fixed valuesSlot,set.length⟩ ∨
      ∃ i a, (set.insertionSort fun a b => a.toNat ≤ b.toNat)[i]? = some a ∧
        (w = ⟨address,calculateDynamicSlot (.fixed valuesSlot) i,a.toNat⟩ ∨
          w = ⟨address,calculateMappingSlot (.fixed positionsSlot) a.toNat,i+1⟩)) := by
  unfold initializeAddressSet
  split
  · rename_i h
    simp [h]
  · rename_i h
    simp only [mem_cons,mem_flatMap,length_insertionSort,h,ne_eq,not_false_eq_true,true_and,
      not_mem_nil,or_false,Prod.exists,mem_zipIdx_iff_getElem?]
    refine or_congr_right ⟨?_,?_⟩
    · rintro ⟨a,i,hi,hw⟩
      exact ⟨i,a,hi,hw⟩
    · rintro ⟨i,a,hi,hw⟩
      exact ⟨a,i,hi,hw⟩

lemma initializeAddressSet_within :
    ∀ w ∈ initializeAddressSet address valuesSlot positionsSlot set, w.Within address [valuesSlot,positionsSlot] := by
  intro w hw
  obtain ⟨_,rfl | ⟨i,a,_,rfl | rfl⟩⟩ := mem_initializeAddressSet.mp hw
  · exact ⟨rfl,by simp⟩
  · exact ⟨rfl,by simp⟩
  · exact ⟨rfl,by simp⟩

theorem lists_initializeAddressSet {states before after : List StateParam}
    (hstates : states = before++initializeAddressSet address valuesSlot positionsSlot set++after)
    (hothers : ∀ w ∈ before++after, w.key.root ∉ [valuesSlot,positionsSlot]) :
    Lists address states valuesSlot positionsSlot (set.insertionSort fun a b => a.toNat ≤ b.toNat) := by
  have hmem : ∀ w ∈ initializeAddressSet address valuesSlot positionsSlot set, w ∈ states := fun w hw => by
    rw [hstates]
    exact mem_append_left _ (mem_append_right _ hw)
  have hof : ∀ w ∈ states, w.key.root ∈ [valuesSlot,positionsSlot] →
      w ∈ initializeAddressSet address valuesSlot positionsSlot set := by
    intro w hw hroot
    rw [hstates,mem_append,mem_append] at hw
    rcases hw with (hw | hw) | hw
    · exact absurd hroot (hothers w (mem_append_left _ hw))
    · exact hw
    · exact absurd hroot (hothers w (mem_append_right _ hw))
  constructor
  · rw [length_insertionSort]
    by_cases hset : set = []
    · rw [hset]
      refine storageOf_eq_zero fun w hw _ hk => ?_
      have hw := hof w hw (by simp [hk])
      exact (mem_initializeAddressSet.mp hw).1 hset
    · refine storageOf_eq (hmem _ (mem_initializeAddressSet.mpr ⟨hset,.inl rfl⟩)) fun w hw hk => ?_
      obtain ⟨_,rfl | ⟨i,a,_,rfl | rfl⟩⟩ := mem_initializeAddressSet.mp (hof w hw (by simp [hk]))
      · rfl
      · cases hk
      · cases hk
  · intro i a ha
    have hset : set ≠ [] := fun h => by simp [h] at ha
    exact hmem _ (mem_initializeAddressSet.mpr ⟨hset,.inr ⟨i,a,ha,.inl rfl⟩⟩)
  · intro i a ha
    have hset : set ≠ [] := fun h => by simp [h] at ha
    exact hmem _ (mem_initializeAddressSet.mpr ⟨hset,.inr ⟨i,a,ha,.inr rfl⟩⟩)
  · intro w hw i hk
    obtain ⟨_,rfl | ⟨j,a,ha,rfl | rfl⟩⟩ := mem_initializeAddressSet.mp (hof w hw (by simp [hk]))
    · cases hk
    · cases hk
      exact ⟨a,ha,rfl⟩
    · cases hk
  · intro w hw a hk
    obtain ⟨_,rfl | ⟨j,a',ha,rfl | rfl⟩⟩ := mem_initializeAddressSet.mp (hof w hw (by simp [hk]))
    · cases hk
    · cases hk
    · obtain ⟨_,rfl⟩ := mappingSlot_address_inj.mp hk
      exact ⟨j,ha,rfl⟩

end

/-- The declared slots that `initializeBase` writes to. -/
def baseRoots : List ℕ := [0,1,4,5,6,8,9,12]

lemma initializeBase_within {address : Address} {param : Params} {states : List StateParam}
    (h : initializeBase address param = .ok states) : ∀ w ∈ states, w.Within address baseRoots := by
  obtain ⟨c,_,rfl⟩ := initializeBase_eq_ok h
  intro w hw
  obtain ⟨haddress,hwrites⟩ := BaseConfig.writes_of_mem hw
  exact ⟨haddress,hwrites.root_mem⟩

/-- The synced allocation and the storage agree about the listed addresses. -/
structure Reconciles (address : Address) (param : Params) (alloc : GenesisAlloc) (states : List StateParam)
    (synced : GenesisAlloc) : Prop where
  within : ∀ w ∈ states, w.address=address
  totalCoins : synced.totalCoins=alloc.totalCoins
  coins : ∀ a, (synced.get a).coins = (alloc.get a).coins
  hasFlag : ∀ spec ∈ [blacklistSpec,authorizedSpec], ∀ a, a≠0 →
    ((synced.get a).hasFlag spec.flag ↔ spec.Listed param alloc a)
  position : ∀ spec ∈ [blacklistSpec,authorizedSpec], ∀ a,
    (setPositions (storageOf address states) spec.posSlot a≠0 ↔ a≠0 ∧ spec.Listed param alloc a)

section
variable {address : Address} {param : Params} {states : List StateParam}

lemma Lists.setPositions_ne_zero_iff {slot index : ℕ} {list : List Address} {a : Address}
    (h : Lists address states slot index list) (hnodup : list.Nodup) :
    setPositions (storageOf address states) index a≠0 ↔ a ∈ list := by
  constructor
  · intro hne
    by_contra ha
    exact hne (h.setPositions_eq_zero ha)
  · intro ha
    obtain ⟨i,hi⟩ := mem_iff_getElem?.mp ha
    rw [h.setPositions_eq hnodup hi]
    exact Nat.succ_ne_zero i

lemma AddrSetSpec.position_iff {spec : AddrSetSpec} {set : List Address} {before after : List StateParam}
    (hstates : states = before++spec.states address set++after)
    (hothers : ∀ w ∈ before++after, w.key.root ∉ [spec.valuesSlot,spec.posSlot]) (hnodup : set.Nodup) (a : Address) :
    setPositions (storageOf address states) spec.posSlot a≠0 ↔ a ∈ set := by
  have hsorted : (set.insertionSort fun a b => a.toNat ≤ b.toNat).Nodup :=
    (perm_insertionSort _ set).nodup_iff.mpr hnodup
  rw [(lists_initializeAddressSet hstates hothers).setPositions_ne_zero_iff hsorted,mem_insertionSort]

lemma AddrSetSpec.hasFlag_or_mem_merge {spec : AddrSetSpec} {alloc : GenesisAlloc} {set : List Address}
    (hset : spec.parse param = .ok set) {a : Address} (ha : a≠0) :
    (alloc.get a).hasFlag spec.flag ∨ a ∈ spec.merge alloc set ↔ spec.Listed param alloc a := by
  rw [mem_merge_iff hset]
  constructor
  · rintro (hflag | ⟨_,hlisted⟩)
    · exact .inr hflag
    · exact hlisted
  · exact fun hlisted => .inr ⟨ha,hlisted⟩

lemma StateParam.Within.root_notMem {w : StateParam} {roots roots' : List ℕ} (h : w.Within address roots)
    (hdisjoint : ∀ root ∈ roots, root ∉ roots') : w.key.root ∉ roots' := hdisjoint _ h.2

lemma initializeGovCouncil_reconciles {alloc : GenesisAlloc} {alloc' : Option GenesisAlloc}
    (h : initializeGovCouncil address param (some alloc) = .ok (states,alloc')) :
    ∃ synced, alloc' = some synced ∧ Reconciles address param alloc states synced := by
  obtain ⟨base,hbase,h⟩ := bind_eq_ok.mp h
  obtain ⟨blacklist,hblacklist,h⟩ := bind_eq_ok.mp h
  obtain ⟨authorized,hauthorized,h⟩ := bind_eq_ok.mp h
  cases h
  have hbase := initializeBase_within hbase
  have hfirst : ∀ w ∈ blacklistSpec.states address (blacklistSpec.merge alloc blacklist),
      w.Within address [0x32,0x33] :=
    initializeAddressSet_within
  have hsecond : ∀ w ∈ authorizedSpec.states address (authorizedSpec.merge alloc authorized),
      w.Within address [0x34,0x35] := initializeAddressSet_within
  have hmanager : (councilManagerParam address).Within address [0x36] := ⟨rfl,by simp [councilManagerParam]⟩
  refine ⟨_,rfl,?_,?_,fun a => ?_,?_,?_⟩
  · intro w hw
    simp only [mem_append,mem_singleton] at hw
    rcases hw with ((hw | hw) | hw) | rfl
    · exact (hbase w hw).1
    · exact (hfirst w hw).1
    · exact (hsecond w hw).1
    · rfl
  · rw [totalCoins_sync,totalCoins_sync]
  · rw [coins_sync,coins_sync]
  · simp only [mem_cons,not_mem_nil,or_false]
    rintro spec (rfl | rfl) a ha
    · have hne : blacklistSpec.flag≠authorizedSpec.flag := by decide
      rw [hasFlag_sync,hasFlag_sync,← hasFlag_or_mem_merge hblacklist ha]
      simp only [hne,false_and,or_false,true_and]
    · have hne : authorizedSpec.flag≠blacklistSpec.flag := by decide
      rw [hasFlag_sync,hasFlag_sync,← hasFlag_or_mem_merge hauthorized ha]
      simp only [hne,false_and,or_false,true_and]
  · simp only [mem_cons,not_mem_nil,or_false]
    rintro spec (rfl | rfl) a
    · rw [← mem_merge_iff hblacklist]
      refine position_iff (append_assoc _ _ _) (fun w hw => ?_)
        (nodup_merge (parse_eq_ok hblacklist).1) a
      simp only [mem_append,mem_singleton] at hw
      rcases hw with hw | hw | rfl
      · exact (hbase w hw).root_notMem (by decide)
      · exact (hsecond w hw).root_notMem (by decide)
      · exact hmanager.root_notMem (by decide)
    · rw [← mem_merge_iff hauthorized]
      refine position_iff rfl (fun w hw => ?_)
        (nodup_merge (parse_eq_ok hauthorized).1) a
      simp only [mem_append,mem_singleton] at hw
      rcases hw with (hw | hw) | rfl
      · exact (hbase w hw).root_notMem (by decide)
      · exact (hfirst w hw).root_notMem (by decide)
      · exact hmanager.root_notMem (by decide)

lemma initializeGovCouncil_none {alloc' : Option GenesisAlloc}
    (h : initializeGovCouncil address param none = .ok (states,alloc')) :
    alloc'=none ∧ ∀ w ∈ states, w.Within address (0x36::baseRoots) := by
  obtain ⟨base,hbase,h⟩ := bind_eq_ok.mp h
  obtain ⟨_,h⟩ := ok_of_bind h
  obtain ⟨_,h⟩ := ok_of_bind h
  cases h
  refine ⟨rfl,fun w hw => ?_⟩
  rcases mem_append.mp hw with hw | hw
  · obtain ⟨haddress,hroot⟩ := initializeBase_within hbase w hw
    exact ⟨haddress,mem_cons_of_mem _ hroot⟩
  · cases mem_singleton.mp hw
    exact ⟨rfl,mem_cons_self⟩

end

end StableNet.Genesis
