import StableNet.Genesis.Agreement

/-! Initializing a genesis twice. The second time reads the allocation that the first one made. -/
namespace StableNet.Genesis
open Chain (Address Bytes)
open Lib GenesisAlloc AddrSetSpec List
open Evm (Flag)
variable {codes : List CodeParam} {set blacklist authorized : List Address} {spec : AddrSetSpec} {st : StateTransition}

namespace GenesisAlloc
variable {alloc : GenesisAlloc} {a : Address}

/-- What an upgrade at genesis makes of an account. -/
def overlaid (codes : List CodeParam) (states : List StateParam) (a : Address) (o : Option Account) : Option Account :=
  ((codeAt codes a).elim o fun code => some { o.getD (fresh code) with code := code }).map
    (written (writtenAt states a))

lemma lookup_overlay (codes : List CodeParam) (states : List StateParam) :
    (states.foldl .putState (codes.foldl .replaceCode alloc) : GenesisAlloc).lookup a =
      overlaid codes states a (alloc.lookup a) := by
  rw [lookup_putStates,lookup_replaceCodes,overlaid]

lemma written_written (f : Slot → Option ℕ) (account : Account) :
    written f (written f account) = written f account := by
  simp only [written]
  congr 1
  funext k
  cases f k <;> rfl

lemma overlaid_overlaid (codes : List CodeParam) (states : List StateParam) (o : Option Account) :
    overlaid codes states a (overlaid codes states a o) = overlaid codes states a o := by
  simp only [overlaid]
  cases codeAt codes a with
  | none => cases o <;> simp [written_written]
  | some code =>
    simp only [Option.elim_some,Option.map_some,Option.getD_some,Option.some.injEq]
    exact written_written (writtenAt states a) { o.getD (fresh code) with code := code }

lemma overlaid_eq (codes : List CodeParam) (states : List StateParam) (account : Account) :
    ∃ code storage,
      overlaid codes states a (some account) = some { account with code := code, storage := storage } := by
  cases hcode : codeAt codes a <;> simp [overlaid,hcode,written]

end GenesisAlloc

namespace AddrSetSpec
variable {alloc : GenesisAlloc} {a : Address}

def marked (spec : AddrSetSpec) (account : Account) : Account :=
  { account with balance := some account.coins, extra := Flag.setBit account.extra spec.flag.mask }

lemma marked_marked (account : Account) : spec.marked (spec.marked account) = spec.marked account := by
  have hbit : Flag.setBit (Flag.setBit account.extra spec.flag.mask) spec.flag.mask =
      Flag.setBit account.extra spec.flag.mask := Flag.setBit_of_hasBit (by simp)
  simp only [marked,Account.coins,Option.getD_some,hbit]

lemma lookup_sync : (spec.sync alloc set).lookup a =
    if a ∈ set then some (spec.marked (alloc.get a)) else alloc.lookup a := by
  unfold sync
  induction set generalizing alloc with
  | nil => rfl
  | cons b set ih =>
    rw [foldl_cons,ih]
    by_cases hb : a=b
    · subst hb
      simp only [get_insert,AList.lookup_insert,mem_cons,true_or,if_true]
      split
      · exact congrArg some (marked_marked _)
      · rfl
    · simp [get_insert,hb,AList.lookup_insert_ne hb]

end AddrSetSpec

/-- The total supply that the adapter would record is the same. -/
def SameSupply (alloc alloc' : GenesisAlloc) : Prop := alloc'.totalCoins%2^256 = alloc.totalCoins%2^256

/-- The council would list the same addresses. -/
def SameLists (param : Params) (alloc alloc' : GenesisAlloc) : Prop :=
  ∀ spec ∈ [blacklistSpec,authorizedSpec], ∀ a, a≠0 → (spec.Listed param alloc' a ↔ spec.Listed param alloc a)

def syncBoth (blacklist authorized : List Address) (alloc : GenesisAlloc) : GenesisAlloc :=
  authorizedSpec.sync (blacklistSpec.sync alloc blacklist) authorized

section
variable {artifacts : Artifacts} {t : ContractType} {address : Address} {param : Params} {states : List StateParam}
  {alloc : GenesisAlloc} {alloc' : Option GenesisAlloc}

theorem initialize_again (ht : t ≠ .govCouncil) (h : t.initialize address param (some alloc) = .ok (states,alloc')) :
    alloc' = some alloc ∧ (∀ w ∈ states, w.address=address) ∧
      ∀ again, (t = .nativeCoinAdapter → SameSupply alloc again) →
        t.initialize address param (some again) = .ok (states,some again) := by
  cases t with
  | govValidator =>
    obtain ⟨_,hstates,h⟩ := bind_eq_ok.mp h
    cases h
    refine ⟨rfl,fun w hw => (initializeValidator_within hstates w hw).1,fun again _ => ?_⟩
    exact bind_eq_ok.mpr ⟨_,hstates,rfl⟩
  | nativeCoinAdapter =>
    obtain ⟨_,hstates,h⟩ := bind_eq_ok.mp h
    cases h
    refine ⟨rfl,(storageOf_totalSupply hstates).1,fun again hsame => bind_eq_ok.mpr ⟨_,?_,rfl⟩⟩
    rw [← hstates]
    simp only [initializeCoinAdapter,Option.map_some,
      show again.totalCoins%2^256 = alloc.totalCoins%2^256 from hsame rfl]
  | govMinter =>
    obtain ⟨_,hstates,h⟩ := bind_eq_ok.mp h
    cases h
    refine ⟨rfl,fun w hw => (initializeMinter_within hstates w hw).1,fun again _ => ?_⟩
    exact bind_eq_ok.mpr ⟨_,hstates,rfl⟩
  | govMasterMinter =>
    obtain ⟨_,hstates,h⟩ := bind_eq_ok.mp h
    cases h
    refine ⟨rfl,fun w hw => (initializeMasterMinter_within hstates w hw).1,fun again _ => ?_⟩
    exact bind_eq_ok.mpr ⟨_,hstates,rfl⟩
  | govCouncil => exact absurd rfl ht

theorem initializeAddressSet_perm {valuesSlot positionsSlot : ℕ} {set' : List Address} (h : set.Perm set') :
    initializeAddressSet address valuesSlot positionsSlot set =
    initializeAddressSet address valuesSlot positionsSlot set' := by
  have hsorted : (set.insertionSort fun a b => a.toNat ≤ b.toNat) =
      set'.insertionSort fun a b => a.toNat ≤ b.toNat := by
    refine List.Perm.eq_of_pairwise ?_ (pairwise_insertionSort (fun a b : Address => a.toNat ≤ b.toNat) _)
      (pairwise_insertionSort ..) ?_
    · intro a b _ _ hab hba
      exact BitVec.eq_of_toNat_eq (Nat.le_antisymm hab hba)
    · exact (perm_insertionSort ..).trans (h.trans (perm_insertionSort ..).symm)
  have hnil : set = [] ↔ set' = [] := ⟨fun hs => (hs ▸ h).nil_eq.symm,fun hs => (hs ▸ h).eq_nil⟩
  simp only [initializeAddressSet,hsorted,hnil]

lemma AddrSetSpec.merge_perm {again : GenesisAlloc} (hset : spec.parse param = .ok set)
    (hsame : ∀ a, a≠0 → (spec.Listed param again a ↔ spec.Listed param alloc a)) :
    (spec.merge again set).Perm (spec.merge alloc set) := by
  have hnodup := (parse_eq_ok hset).1
  refine (perm_ext_iff_of_nodup (nodup_merge hnodup) (nodup_merge hnodup)).mpr fun a => ?_
  rw [mem_merge_iff hset,mem_merge_iff hset]
  exact and_congr_right (hsame a)

theorem initializeGovCouncil_again (h : initializeGovCouncil address param (some alloc) = .ok (states,alloc')) :
    ∃ blacklist authorized, alloc' = some (syncBoth blacklist authorized alloc) ∧
      (∀ a, a ∈ blacklist ↔ a≠0 ∧ blacklistSpec.Listed param alloc a) ∧
      (∀ a, a ∈ authorized ↔ a≠0 ∧ authorizedSpec.Listed param alloc a) ∧
      ∀ again, SameLists param alloc again → ∃ blacklist' authorized', blacklist'.Perm blacklist ∧
        authorized'.Perm authorized ∧
        initializeGovCouncil address param (some again) =
        .ok (states,some (syncBoth blacklist' authorized' again)) := by
  obtain ⟨base,hbase,h⟩ := bind_eq_ok.mp h
  obtain ⟨blacklist,hblacklist,h⟩ := bind_eq_ok.mp h
  obtain ⟨authorized,hauthorized,h⟩ := bind_eq_ok.mp h
  cases h
  refine ⟨_,_,rfl,fun a => mem_merge_iff hblacklist,fun a => mem_merge_iff hauthorized,?_⟩
  intro again hsame
  have hblack := merge_perm hblacklist (hsame blacklistSpec (by simp))
  have hauth := merge_perm hauthorized (hsame authorizedSpec (by simp))
  refine ⟨_,_,hblack,hauth,?_⟩
  simp only [initializeGovCouncil,hbase,hblacklist,hauthorized,ok_bind,AddrSetSpec.states,
    initializeAddressSet_perm hblack,initializeAddressSet_perm hauth]
  rfl

/-- What a contract adds to a transition, and that it adds the same from another allocation. -/
theorem deploy_again {contract : Option SystemContract} (ht : t ≠ .govCouncil)
    (h : deploy artifacts t contract ⟨codes,states,some alloc⟩ = .ok st) :
    ∃ codes' states', st = ⟨codes++codes',states++states',some alloc⟩ ∧
      codes'.map CodeParam.address = contract.toList.map (·.address) ∧
      (∀ w ∈ states', w.address ∈ codes'.map CodeParam.address) ∧
      ∀ again, (t = .nativeCoinAdapter → ∀ c, contract = some c → c.initializes → SameSupply alloc again) →
        ∀ codes₀ states₀, deploy artifacts t contract ⟨codes₀,states₀,some again⟩ =
          .ok ⟨codes₀++codes',states₀++states',some again⟩ := by
  cases contract with
  | none =>
    cases h
    exact ⟨[],[],by simp,rfl,by simp,fun again _ codes₀ states₀ => by simp [deploy,pure,Except.pure]⟩
  | some c =>
    obtain ⟨code,hcode,⟨hparam,rfl⟩ | ⟨param,states',alloc',hparam,hstates,rfl⟩⟩ := deploy_eq_ok.mp h
    · refine ⟨[⟨c.address,code⟩],[],by simp,rfl,by simp,fun again _ codes₀ states₀ => ?_⟩
      exact deploy_eq_ok.mpr ⟨code,hcode,.inl ⟨hparam,by simp⟩⟩
    · obtain ⟨rfl,hwithin,hagain⟩ := initialize_again ht hstates
      refine ⟨[⟨c.address,code⟩],states',rfl,rfl,fun w hw => by simp [hwithin w hw],?_⟩
      intro again hsame codes₀ states₀
      have hinit := hagain again fun hadapter => hsame hadapter c rfl (c.initializes_iff.mpr (by simp [hparam]))
      exact deploy_eq_ok.mpr ⟨code,hcode,.inr ⟨param,states',_,hparam,hinit,rfl⟩⟩

lemma deploy_council_again {contract : Option SystemContract}
    (h : deploy artifacts .govCouncil contract ⟨codes,states,some alloc⟩ = .ok st) :
    ∃ codes' states' blacklist authorized,
      st = ⟨codes++codes',states++states',some (syncBoth blacklist authorized alloc)⟩ ∧
      codes'.map CodeParam.address = contract.toList.map (·.address) ∧
      (∀ w ∈ states', w.address ∈ codes'.map CodeParam.address) ∧
      (∀ param, contract.bind (·.initParams) = some param → ∀ a,
        (a ∈ blacklist ↔ a≠0 ∧ blacklistSpec.Listed param alloc a) ∧
          (a ∈ authorized ↔ a≠0 ∧ authorizedSpec.Listed param alloc a)) ∧
      ∀ again, (∀ param, contract.bind (·.initParams) = some param → SameLists param alloc again) →
        ∃ blacklist' authorized', blacklist'.Perm blacklist ∧ authorized'.Perm authorized ∧
          ∀ codes₀ states₀, deploy artifacts .govCouncil contract ⟨codes₀,states₀,some again⟩ =
            .ok ⟨codes₀++codes',states₀++states',some (syncBoth blacklist' authorized' again)⟩ := by
  cases contract with
  | none =>
    cases h
    refine ⟨[],[],[],[],by simp [syncBoth,AddrSetSpec.sync],rfl,by simp,by simp,fun again _ => ?_⟩
    exact ⟨[],[],.refl _,.refl _,fun codes₀ states₀ => by simp [deploy,syncBoth,AddrSetSpec.sync,pure,Except.pure]⟩
  | some c =>
    obtain ⟨code,hcode,⟨hparam,rfl⟩ | ⟨param,states',alloc',hparam,hstates,rfl⟩⟩ := deploy_eq_ok.mp h
    · refine ⟨[⟨c.address,code⟩],[],[],[],by simp [syncBoth,AddrSetSpec.sync],rfl,by simp,by simp [hparam],
        fun again _ => ?_⟩
      refine ⟨[],[],.refl _,.refl _,fun codes₀ states₀ => deploy_eq_ok.mpr ⟨code,hcode,.inl ⟨hparam,?_⟩⟩⟩
      simp [syncBoth,AddrSetSpec.sync]
    · have hstates : initializeGovCouncil c.address param (some alloc) = .ok (states',alloc') := hstates
      obtain ⟨synced,-,hreconciles⟩ := initializeGovCouncil_reconciles hstates
      obtain ⟨blacklist,authorized,rfl,hblack,hauth,hagain⟩ := initializeGovCouncil_again hstates
      refine ⟨[⟨c.address,code⟩],states',blacklist,authorized,rfl,rfl,
        fun w hw => by simp [hreconciles.within w hw],?_,?_⟩
      · intro param' hparam' a
        obtain rfl : param=param' := Option.some.inj (hparam.symm.trans hparam')
        exact ⟨hblack a,hauth a⟩
      · intro again hsame
        obtain ⟨blacklist',authorized',hperm,hperm',hinit⟩ := hagain again (hsame param hparam)
        exact ⟨blacklist',authorized',hperm,hperm',fun codes₀ states₀ =>
          deploy_eq_ok.mpr ⟨code,hcode,.inr ⟨param,states',_,hparam,hinit,rfl⟩⟩⟩

theorem getSystemContractsTransition_again {systemContracts : SystemContracts}
    (h : getSystemContractsTransition artifacts systemContracts (some alloc) = .ok st) :
    ∃ blacklist authorized, st.alloc = some (syncBoth blacklist authorized alloc) ∧
      st.codes.map CodeParam.address = systemContracts.list.map (·.address) ∧
      (∀ w ∈ st.states, w.address ∈ st.codes.map CodeParam.address) ∧
      (∀ param, systemContracts.govCouncil.bind (·.initParams) = some param → ∀ a,
        (a ∈ blacklist ↔ a≠0 ∧ blacklistSpec.Listed param alloc a) ∧
          (a ∈ authorized ↔ a≠0 ∧ authorizedSpec.Listed param alloc a)) ∧
      ∀ again, (∀ c, systemContracts.nativeCoinAdapter = some c → c.initializes → SameSupply alloc again) →
        (∀ param, systemContracts.govCouncil.bind (·.initParams) = some param → SameLists param alloc again) →
        ∃ blacklist' authorized', blacklist'.Perm blacklist ∧ authorized'.Perm authorized ∧
          getSystemContractsTransition artifacts systemContracts (some again) =
            .ok ⟨st.codes,st.states,some (syncBoth blacklist' authorized' again)⟩ := by
  obtain ⟨st₁,h₁,h⟩ := bind_eq_ok.mp h
  obtain ⟨st₂,h₂,h⟩ := bind_eq_ok.mp h
  obtain ⟨st₃,h₃,h⟩ := bind_eq_ok.mp h
  obtain ⟨st₄,h₄,h₅⟩ := bind_eq_ok.mp h
  obtain ⟨c₁,s₁,rfl,hc₁,hw₁,again₁⟩ := deploy_again (by decide) h₁
  obtain ⟨c₂,s₂,rfl,hc₂,hw₂,again₂⟩ := deploy_again (by decide) h₂
  obtain ⟨c₃,s₃,rfl,hc₃,hw₃,again₃⟩ := deploy_again (by decide) h₃
  obtain ⟨c₄,s₄,rfl,hc₄,hw₄,again₄⟩ := deploy_again (by decide) h₄
  obtain ⟨c₅,s₅,blacklist,authorized,rfl,hc₅,hw₅,hsets,again₅⟩ := deploy_council_again h₅
  refine ⟨blacklist,authorized,rfl,?_,?_,hsets,?_⟩
  · simp only [map_append,hc₁,hc₂,hc₃,hc₄,hc₅,nil_append]
    obtain ⟨_ | _,_ | _,_ | _,_ | _,_ | _⟩ := systemContracts <;> rfl
  · intro w hw
    simp only [nil_append,mem_append,map_append] at hw ⊢
    rcases hw with (((hw | hw) | hw) | hw) | hw
    · simp [hw₁ w hw]
    · simp [hw₂ w hw]
    · simp [hw₃ w hw]
    · simp [hw₄ w hw]
    · simp [hw₅ w hw]
  · intro again hsupply hlists
    obtain ⟨blacklist',authorized',hperm,hperm',hagain⟩ := again₅ again hlists
    refine ⟨blacklist',authorized',hperm,hperm',?_⟩
    rw [getSystemContractsTransition,again₁ again (by simp),ok_bind,again₂ again fun _ => hsupply, ok_bind,
      again₃ again (by simp),ok_bind,again₄ again (by simp),ok_bind]
    exact hagain _ _

end

namespace GenesisAlloc
variable {alloc : GenesisAlloc} {a : Address} {o : Option Account}

def syncedAt (blacklist authorized : List Address) (a : Address) (o : Option Account) : Option Account :=
  let o := if a ∈ blacklist then some (blacklistSpec.marked (o.getD .zero)) else o
  if a ∈ authorized then some (authorizedSpec.marked (o.getD .zero)) else o

lemma lookup_syncBoth (blacklist authorized : List Address) :
    (syncBoth blacklist authorized alloc).lookup a = syncedAt blacklist authorized a (alloc.lookup a) := by
  simp only [syncBoth,syncedAt,lookup_sync,get]

lemma marked_eq {account : Account} (hbalance : account.balance.isSome=true)
    (hflag : account.hasFlag spec.flag=true) : spec.marked account=account := by
  obtain ⟨coins,hcoins⟩ := Option.isSome_iff_exists.mp hbalance
  have hbit : Flag.setBit account.extra spec.flag.mask=account.extra := Flag.setBit_of_hasBit hflag
  rw [AddrSetSpec.marked,hbit,Account.coins,hcoins]
  obtain ⟨code,storage,balance,nonce,extra⟩ := account
  cases hcoins
  rfl

def Carries (spec : AddrSetSpec) (o : Option Account) : Prop :=
  ∃ account, o = some account ∧ account.balance.isSome=true ∧ account.hasFlag spec.flag=true

lemma Carries.marked (h : Carries spec o) : some (spec.marked (o.getD .zero)) = o := by
  obtain ⟨account,rfl,hbalance,hflag⟩ := h
  exact congrArg some (marked_eq hbalance hflag)

lemma carries_marked (spec : AddrSetSpec) (account : Account) : Carries spec (some (spec.marked account)) :=
  ⟨_,rfl,rfl,by simp [Account.hasFlag,AddrSetSpec.marked]⟩

lemma Carries.mark {spec' : AddrSetSpec} (h : Carries spec o) :
    Carries spec (some (spec'.marked (o.getD .zero))) := by
  obtain ⟨account,rfl,-,hflag⟩ := h
  rw [Account.hasFlag] at hflag
  exact ⟨_,rfl,rfl,by simp [Account.hasFlag,AddrSetSpec.marked,hflag]⟩

lemma Carries.overlaid (h : Carries spec o) (codes : List CodeParam)
    (states : List StateParam) : Carries spec (overlaid codes states a o) := by
  obtain ⟨account,rfl,hbalance,hflag⟩ := h
  obtain ⟨code,storage,heq⟩ := overlaid_eq (a := a) codes states account
  exact ⟨_,heq,hbalance,hflag⟩

lemma carries_syncedAt (blacklist authorized : List Address) (a : Address) (o : Option Account) :
    (a ∈ blacklist → Carries blacklistSpec (syncedAt blacklist authorized a o)) ∧
      (a ∈ authorized → Carries authorizedSpec (syncedAt blacklist authorized a o)) := by
  constructor
  · intro hb
    simp only [syncedAt,hb,if_true]
    split
    · exact (carries_marked _ _).mark
    · exact carries_marked _ _
  · intro ha
    simp only [syncedAt,ha,if_true]
    exact carries_marked _ _

lemma syncedAt_overlaid {blacklist' authorized' : List Address}
    (hblack : a ∈ blacklist' ↔ a ∈ blacklist) (hauth : a ∈ authorized' ↔ a ∈ authorized) (codes : List CodeParam)
    (states : List StateParam) (o : Option Account) :
    syncedAt blacklist' authorized' a (overlaid codes states a (syncedAt blacklist authorized a o)) =
      overlaid codes states a (syncedAt blacklist authorized a o) := by
  obtain ⟨hcarries,hcarries'⟩ := carries_syncedAt blacklist authorized a o
  generalize syncedAt blacklist authorized a o = x at hcarries hcarries'
  have hfirst : (if a ∈ blacklist' then some (blacklistSpec.marked ((overlaid codes states a x).getD .zero))
      else overlaid codes states a x) = overlaid codes states a x := by
    split
    · exact ((hcarries (hblack.mp ‹_›)).overlaid codes states).marked
    · rfl
  simp only [syncedAt,hfirst]
  split
  · exact ((hcarries' (hauth.mp ‹_›)).overlaid codes states).marked
  · rfl

lemma lookup_injected (codes : List CodeParam)
    (states : List StateParam) (hwithin : ∀ w ∈ st.states, w.address ∈ st.codes.map CodeParam.address) :
    (states.foldl .putState (codes.foldl .replaceCode (st.states.foldl .putState (st.codes.foldl .putCode
      (syncBoth blacklist authorized alloc)))) : GenesisAlloc).lookup a =
      overlaid codes states a ((codeAt st.codes a).elim (syncedAt blacklist authorized a (alloc.lookup a)) fun code =>
        some (written (writtenAt st.states a) (fresh code))) := by
  rw [lookup_overlay,lookup_putStates,lookup_putCodes,lookup_syncBoth]
  cases hcode : codeAt st.codes a with
  | some code => rfl
  | none =>
    have hmem : a ∉ st.codes.map CodeParam.address := by
      rw [← codeAt_isSome,hcode]
      exact Bool.false_ne_true
    have hnone : writtenAt st.states a = fun _ => none := by
      funext k
      refine writtenAt_eq_none fun w hw heq => absurd ?_ hmem
      rw [← heq]
      exact hwithin w hw
    rw [hnone]
    exact congrArg _ Option.map_id_apply

end GenesisAlloc

/-- Nothing that the second run would miss was allocated to the addresses of the system contracts: coins up to the
word size if the adapter records them, bits of unlisted addresses if the council collects them. -/
structure Undisturbed (contracts : SystemContracts) (alloc : GenesisAlloc) : Prop where
  coins : ∀ c, contracts.nativeCoinAdapter = some c → c.initializes →
    2^256 ∣ ∑ a ∈ (contracts.list.map (·.address)).toFinset, (alloc.get a).coins
  bits : ∀ param, contracts.govCouncil.bind (·.initParams) = some param → ∀ spec ∈ [blacklistSpec,authorizedSpec],
    ∀ a ∈ contracts.list.map (·.address), a≠0 → (alloc.get a).hasFlag spec.flag=true →
      a ∈ (splitAndTrim ((param spec.paramKey).getD "")).map hexToAddress

section
variable {artifacts : Artifacts} {config : ChainConfig} {alloc alloc' : GenesisAlloc}

/-- A first run taken apart: what it writes, and that it writes the same from another allocation with the same supply
and the same listed addresses. -/
structure Initialized (artifacts : Artifacts) (config : ChainConfig) (alloc alloc' : GenesisAlloc)
    (st : StateTransition)
    (blacklist authorized : List Address) (codes : List CodeParam) (states : List StateParam) : Prop where
  result : alloc' = states.foldl .putState (codes.foldl .replaceCode (st.states.foldl .putState (st.codes.foldl .putCode
    (syncBoth blacklist authorized alloc))))
  addresses : st.codes.map CodeParam.address = config.systemContracts.list.map (·.address)
  within : ∀ w ∈ st.states, w.address ∈ st.codes.map CodeParam.address
  sets : ∀ param, config.systemContracts.govCouncil.bind (·.initParams) = some param → ∀ a,
    (a ∈ blacklist ↔ a≠0 ∧ blacklistSpec.Listed param alloc a) ∧
      (a ∈ authorized ↔ a≠0 ∧ authorizedSpec.Listed param alloc a)
  replay : ∀ again, (∀ c, config.systemContracts.nativeCoinAdapter = some c → c.initializes → SameSupply alloc again) →
    (∀ param, config.systemContracts.govCouncil.bind (·.initParams) = some param → SameLists param alloc again) →
    ∃ blacklist' authorized', blacklist'.Perm blacklist ∧ authorized'.Perm authorized ∧
      injectContracts artifacts config again = .ok (states.foldl .putState (codes.foldl .replaceCode
        (st.states.foldl .putState (st.codes.foldl .putCode (syncBoth blacklist' authorized' again)))))

lemma initialized_of_ok (h : injectContracts artifacts config alloc = .ok alloc') :
    ∃ st blacklist authorized codes states,
      Initialized artifacts config alloc alloc' st blacklist authorized codes states := by
  obtain ⟨st,hst,h⟩ := bind_eq_ok.mp h
  obtain ⟨blacklist,authorized,hsynced,haddresses,hwithin,hsets,hagain⟩ := getSystemContractsTransition_again hst
  obtain ⟨codes,-,hoverlay⟩ := overlays_eq h
  refine ⟨st,blacklist,authorized,codes,config.genesisWrites artifacts,?_,haddresses,hwithin,hsets,?_⟩
  · rw [hoverlay,hsynced] at h
    exact (Except.ok.inj h).symm
  · intro again hsupply hlists
    obtain ⟨blacklist',authorized',hperm,hperm',htransition⟩ := hagain again hsupply hlists
    refine ⟨blacklist',authorized',hperm,hperm',?_⟩
    rw [injectContracts,injectUpgrades,htransition,ok_bind]
    exact hoverlay _

namespace Initialized
variable {states : List StateParam}
  (h : Initialized artifacts config alloc alloc' st blacklist authorized codes states)
include h

lemma extra (a : Address) : (alloc'.get a).extra =
    if a ∈ config.systemContracts.list.map (·.address) then 0
    else ((syncBoth blacklist authorized alloc).get a).extra := by
  rw [h.result,(coins_putStates states).2,(same_replaceCodes codes).extra,
    (coins_putStates st.states).2,← h.addresses]
  split
  · rename_i hmem
    obtain ⟨code,hlookup⟩ := lookup_putCodes_of_mem hmem
    rw [GenesisAlloc.get,hlookup]
    rfl
  · rw [get_putCodes_of_notMem ‹_›]

lemma hasFlag {param : Params} (hparam : config.systemContracts.govCouncil.bind (·.initParams) = some param)
    (hspec : spec ∈ [blacklistSpec,authorizedSpec]) {a : Address} (hne : a≠0) : (alloc'.get a).hasFlag spec.flag=true ↔
      a ∉ config.systemContracts.list.map (·.address) ∧ spec.Listed param alloc a := by
  obtain ⟨hblack,hauth⟩ := h.sets param hparam a
  rw [Account.hasFlag,h.extra]
  split
  · rename_i ha
    rw [hasBit_zero]
    exact iff_of_false Bool.false_ne_true fun hand => hand.1 ha
  · rename_i ha
    rw [and_iff_right ha,← Account.hasFlag,syncBoth,hasFlag_sync,hasFlag_sync,hblack,hauth]
    have hflags : blacklistSpec.flag≠authorizedSpec.flag := by decide
    simp only [mem_cons,not_mem_nil,or_false] at hspec
    rcases hspec with rfl | rfl
    · simp only [hflags,false_and,or_false,true_and]
      exact ⟨fun hor => hor.elim .inr And.right,fun hlisted => .inr ⟨hne,hlisted⟩⟩
    · simp only [hflags.symm,false_and,or_false,true_and]
      exact ⟨fun hor => hor.elim .inr And.right,fun hlisted => .inr ⟨hne,hlisted⟩⟩

section
variable (hu : Undisturbed config.systemContracts alloc)
include hu

lemma sameLists {param : Params}
    (hparam : config.systemContracts.govCouncil.bind (·.initParams) = some param) : SameLists param alloc alloc' := by
  intro spec hspec a hne
  rw [AddrSetSpec.Listed,h.hasFlag hparam hspec hne]
  constructor
  · rintro (hlisted | ⟨-,hlisted⟩)
    · exact .inl hlisted
    · exact hlisted
  · rintro (hlisted | hflag)
    · exact .inl hlisted
    · by_cases ha : a ∈ config.systemContracts.list.map (·.address)
      · exact .inl (hu.bits param hparam spec hspec a ha hne hflag)
      · exact .inr ⟨ha,.inr hflag⟩

lemma sameSupply {c : SystemContract}
    (hc : config.systemContracts.nativeCoinAdapter = some c) (hinit : c.initializes) : SameSupply alloc alloc' := by
  have hlost := @GenesisAlloc.totalCoins_putCodes_toFinset (syncBoth blacklist authorized alloc) st.codes
  have htotal : alloc'.totalCoins =
      GenesisAlloc.totalCoins (st.codes.foldl .putCode (syncBoth blacklist authorized alloc)) := by
    rw [h.result,totalCoins_putStates,totalCoins_replaceCodes,totalCoins_putStates]
  have hcoins (a : Address) : ((syncBoth blacklist authorized alloc).get a).coins = (alloc.get a).coins := by
    rw [syncBoth,coins_sync,coins_sync]
  have hsynced : (syncBoth blacklist authorized alloc).totalCoins = alloc.totalCoins := by
    rw [syncBoth,totalCoins_sync,totalCoins_sync]
  simp only [hcoins,hsynced,h.addresses,← htotal] at hlost
  obtain ⟨k,hk⟩ := hu.coins c hc hinit
  rw [SameSupply,← hlost,hk,Nat.add_mul_mod_self_left]

/-- No address changes the second time: at a contract everything is written anew, and elsewhere the marks and the
overlay are already there. -/
theorem again :
    ∃ alloc'', injectContracts artifacts config alloc' = .ok alloc'' ∧ ∀ a, alloc''.lookup a = alloc'.lookup a := by
  obtain ⟨blacklist',authorized',hblack,hauth,hinject⟩ := h.replay alloc'
    (fun c hc hinit => h.sameSupply hu hc hinit) fun param hparam => h.sameLists hu hparam
  refine ⟨_,hinject,fun a => ?_⟩
  have hfirst : alloc'.lookup a=_ := h.result ▸ lookup_injected codes states h.within
  rw [lookup_injected codes states h.within,hfirst]
  cases GenesisAlloc.codeAt st.codes a with
  | some code => rfl
  | none =>
    rw [Option.elim_none,Option.elim_none,syncedAt_overlaid hblack.mem_iff hauth.mem_iff,overlaid_overlaid]

end

end Initialized

lemma validateExtra_eq_ok {extra : BitVec 64} {u : Unit} :
    validateExtra extra = .ok u ↔ extra &&& ~~~accountExtraValidMask=0 := by
  rw [validateExtra,require_eq_ok,decide_eq_true_eq]

lemma valid_setBit {extra : BitVec 64} (h : extra &&& ~~~accountExtraValidMask=0) (f : Flag) :
    Flag.setBit extra f.mask &&& ~~~accountExtraValidMask=0 := by
  have hmask : f.mask &&& ~~~accountExtraValidMask=0 := by cases f <;> decide
  have hor (x y z : BitVec 64) : (x ||| y) &&& z = x &&& z ||| y &&& z := by
    ext i
    simp [Bool.and_or_distrib_right]
  rw [Flag.setBit,hor,h,hmask]
  rfl

/-- No bit is set that has no meaning. -/
def ValidExtras (alloc : GenesisAlloc) : Prop := ∀ a, (alloc.get a).extra &&& ~~~accountExtraValidMask=0

lemma forM_validate_eq_ok {u : Unit} : alloc.entries.forM (fun e =>
    (validateExtra e.2.extra).mapError (("invalid account extra at " ++ artifacts.hex e.1 ++ ": ")++·)) = .ok u ↔
      ValidExtras alloc := by
  rw [forM_eq_ok]
  simp only [mapError_eq_ok,validateExtra_eq_ok]
  constructor
  · intro h a
    rw [GenesisAlloc.get]
    cases hlookup : alloc.lookup a with
    | none => exact BitVec.zero_and
    | some account => exact h _ (AList.mem_lookup_iff.mp hlookup)
  · rintro h ⟨a,account⟩ hmem
    have hget : alloc.get a=account := by rw [GenesisAlloc.get,AList.mem_lookup_iff.mpr hmem]; rfl
    exact hget ▸ h a

lemma AddrSetSpec.validExtras_sync (h : ValidExtras alloc) : ValidExtras (spec.sync alloc set) := by
  intro a
  rw [GenesisAlloc.get,lookup_sync]
  split
  · exact valid_setBit (h a) spec.flag
  · exact h a

lemma Initialized.validExtras {states : List StateParam}
    (h : Initialized artifacts config alloc alloc' st blacklist authorized codes states)
    (hvalid : ValidExtras alloc) : ValidExtras alloc' := by
  intro a
  rw [h.extra]
  split
  · exact BitVec.zero_and
  · exact validExtras_sync (validExtras_sync hvalid) a

theorem Injected.undisturbed {d : Deployment} {writes : List StateParam} {alloc'' : GenesisAlloc}
    (hnone : ∀ k, writtenAt writes d.council.1 k=none) (h : Injected d writes alloc alloc')
    (h' : Injected d writes alloc' alloc'') (hsame : ∀ a, alloc''.lookup a = alloc'.lookup a)
    (hdistinct : d.addresses.Nodup) :
    Undisturbed d.systemContracts alloc := by
  have hget (a : Address) : alloc''.get a = alloc'.get a := by rw [GenesisAlloc.get,hsame,GenesisAlloc.get]
  constructor
  · intro c _ _
    have hsupply := h'.totalSupply
    rw [hget,h.totalSupply,← h.totalCoins] at hsupply
    have hsum : ∑ a ∈ (d.systemContracts.list.map (·.address)).toFinset, (alloc.get a).coins =
        (d.addresses.map fun a => (alloc.get a).coins).sum := sum_toFinset _ hdistinct
    rw [hsum]
    exact (Nat.modEq_zero_iff_dvd.mp (Nat.ModEq.add_left_cancel' alloc'.totalCoins
      (show alloc'.totalCoins+_ ≡ alloc'.totalCoins+0 [MOD 2^256] from hsupply)))
  · intro param hparam spec hspec a ha hne hflag
    cases hparam
    have hposition := (h'.position spec hspec a).symm
    rw [hget,h.position spec hspec a,hnone,Option.elim_none,Option.elim_none] at hposition
    have hlisted := (hposition.mpr ⟨hne,.inr hflag⟩).2
    exact hlisted.resolve_right fun hagain => by simp [h.cleared a ha] at hagain

/-- Initializing the result again gives it back at every address, with the same extra data, if the allocation leaves the
system contracts undisturbed. With all five contracts of the first version at different addresses, and no upgrade at
genesis that initializes the council, this is also necessary. -/
theorem genesis_twice {extraData : Except String Bytes} {data : Bytes}
    (h : initializeAnzeonGenesis artifacts extraData config alloc = .ok (data,alloc')) :
    (Undisturbed config.systemContracts alloc → ∃ alloc'',
      initializeAnzeonGenesis artifacts extraData config alloc' = .ok (data,alloc'') ∧
        ∀ a, alloc''.lookup a = alloc'.lookup a) ∧
    ∀ d : Deployment, config.systemContracts=d.systemContracts → d.addresses.Nodup →
      config.SparesCouncil d.council.1 → ∀ alloc'',
        initializeAnzeonGenesis artifacts extraData config alloc' = .ok (data,alloc'') →
        (∀ a, alloc''.lookup a = alloc'.lookup a) → Undisturbed config.systemContracts alloc := by
  constructor
  · intro hu
    obtain ⟨extra,hextra,h⟩ := bind_eq_ok.mp h
    obtain ⟨_,hvalid,h⟩ := bind_eq_ok.mp h
    obtain ⟨_,hinject,h⟩ := bind_eq_ok.mp h
    cases h
    obtain ⟨st,blacklist,authorized,codes,states,hinit⟩ := initialized_of_ok hinject
    obtain ⟨alloc'',hagain,hsame⟩ := hinit.again hu
    have hvalid' := hinit.validExtras (forM_validate_eq_ok.mp hvalid)
    refine ⟨alloc'',?_,hsame⟩
    rw [initializeAnzeonGenesis,hextra,ok_bind,(forM_validate_eq_ok (u := ())).mpr hvalid',ok_bind,hagain]
    rfl
  · intro d hconfig hdistinct hspares alloc'' hagain hsame
    rw [hconfig]
    exact Injected.undisturbed (hspares.writtenAt_eq_none h) (.of_initializeAnzeonGenesis h hconfig hdistinct)
      (.of_initializeAnzeonGenesis hagain hconfig hdistinct) hsame hdistinct

end

namespace OneHolder

lemma undisturbed_alloc : Undisturbed (config "0x9").systemContracts (alloc 0) where
  coins _ _ _ := by decide +kernel
  bits param _ spec hspec a ha _ hflag := by
    have hclear : [blacklistSpec,authorizedSpec].all (fun spec =>
        ((config "0x9").systemContracts.list.map (·.address)).all fun a =>
        !((alloc 0).get a).hasFlag spec.flag)=true := by
      decide +kernel
    have hfalse := all_eq_true.mp (all_eq_true.mp hclear spec hspec) a ha
    rw [hflag] at hfalse
    cases hfalse

theorem genesis_twice_undisturbed : ∃ alloc' alloc'',
    initializeAnzeonGenesis artifacts (.ok []) (config "0x9") (alloc 0) = .ok ([],alloc') ∧
      initializeAnzeonGenesis artifacts (.ok []) (config "0x9") alloc' = .ok ([],alloc'') ∧
      ∀ a, alloc''.lookup a = alloc'.lookup a := by
  obtain ⟨⟨data,alloc'⟩,hgenesis,h⟩ := exists_of_holds
    (x := initializeAnzeonGenesis artifacts (.ok []) (config "0x9") (alloc 0)) (P := fun r => r.1 = [])
    (by decide +kernel)
  obtain rfl : data = [] := of_decide_eq_true h
  obtain ⟨alloc'',hagain,hsame⟩ := (genesis_twice hgenesis).1 undisturbed_alloc
  exact ⟨alloc',alloc'',hgenesis,hagain,hsame⟩

/-- Five coins at the adapter's address are in the recorded supply after the first run, and not after the second. -/
theorem supply_forgotten : (holds (initializeAnzeonGenesis artifacts (.ok []) (config "0x9") (alloc 5)) fun r =>
      (r.2.get 0x1000).storage totalSupplySlot = 12 &&
        holds (initializeAnzeonGenesis artifacts (.ok []) (config "0x9") r.2) fun r' =>
          (r'.2.get 0x1000).storage totalSupplySlot=7)=true := by
  decide +kernel

end OneHolder

end StableNet.Genesis
