import StableNet.Evm.Permanence
import StableNet.Genesis.Idempotence

/-! Upgrades of the system contracts at the blocks of a schedule. The last one that names a contract decides about its
code. -/
namespace StableNet.Genesis
open Chain (Address Bytes)
open Lib GenesisAlloc List
variable {alloc : Option GenesisAlloc} {n : ℕ} {w w' : Evm.World} {alloc' : GenesisAlloc}

/-- The contracts of a configuration by their types, in the order in which they are deployed. -/
def SystemContracts.typed (s : SystemContracts) : List (ContractType × Option SystemContract) :=
  [(.govValidator,s.govValidator),(.nativeCoinAdapter,s.nativeCoinAdapter),(.govMinter,s.govMinter),
    (.govMasterMinter,s.govMasterMinter),(.govCouncil,s.govCouncil)]

def codesOf (artifacts : Artifacts) (contracts : List (ContractType × Option SystemContract)) : List CodeParam :=
  contracts.filterMap fun e => e.2.map fun c => ⟨c.address,artifacts.code e.1 c.version⟩

def SystemContracts.codes (artifacts : Artifacts) (s : SystemContracts) : List CodeParam := codesOf artifacts s.typed

def SystemContracts.Initializes (s : SystemContracts) : Prop := ∃ c ∈ s.list, c.initializes

def StateTransition.merge : Option StateTransition → StateTransition → StateTransition
  | none, st => st
  | some merged, st => { merged with codes := merged.codes++st.codes, states := merged.states++st.states }

/-- The loop over the upgrades; it ends at the first one of a later block. -/
def mergeTransitions (artifacts : Artifacts) (num : ℕ) :
    List Upgrade → Option StateTransition → Except String (Option StateTransition)
  | [], merged => return merged
  | upgrade::upgrades, merged =>
    if num=upgrade.block then do
      let st ← getSystemContractsTransition artifacts upgrade.systemContracts none
      mergeTransitions artifacts num upgrades (some (.merge merged st))
    else if num<upgrade.block then return merged
    else mergeTransitions artifacts num upgrades merged

def getSystemContractsStateTransition (artifacts : Artifacts) (upgrades : List Upgrade) (num : ℕ) :
    Except String (Option StateTransition) := mergeTransitions artifacts num upgrades none

/-- The transition as it is written to the state, in which the slots lie where their hashes say. -/
def StateTransition.toEvm (layout : Slot → Evm.Slot) (st : StateTransition) : Evm.StateTransition :=
  ⟨st.codes.map fun c => (c.address,c.code),st.states.map fun w => (w.address,layout w.key,BitVec.ofNat 256 w.value)⟩

/-- The block brings the upgrade that the configuration has for its number. -/
def Scheduled (artifacts : Artifacts) (layout : Slot → Evm.Slot) (upgrades : List Upgrade) (b : Evm.Block) : Prop :=
  ∃ m, getSystemContractsStateTransition artifacts upgrades b.header.number = .ok m ∧
    b.upgrade = m.map (·.toEvm layout)

theorem ContractType.initialize_ne_nil {t : ContractType} {address : Address} {param : Params}
    {states : List StateParam}
    {alloc' : Option GenesisAlloc} (h : t.initialize address param alloc = .ok (states,alloc')) : states ≠ [] := by
  cases t with
  | govValidator =>
    obtain ⟨_,hstates,h⟩ := bind_eq_ok.mp h
    cases h
    obtain ⟨c,_,_,_,_,rfl⟩ := initializeValidator_eq_ok hstates
    simp [BaseConfig.states]
  | nativeCoinAdapter =>
    obtain ⟨_,hstates,h⟩ := bind_eq_ok.mp h
    cases h
    obtain ⟨_,hothers,_,rfl⟩ := initializeCoinAdapter_eq_ok hstates
    simp [hothers]
  | govMinter =>
    obtain ⟨_,hstates,h⟩ := bind_eq_ok.mp h
    cases h
    obtain ⟨c,_,_,_,rfl⟩ := initializeMinter_eq_ok hstates
    simp [BaseConfig.states]
  | govMasterMinter =>
    obtain ⟨_,hstates,h⟩ := bind_eq_ok.mp h
    cases h
    obtain ⟨_,h⟩ := ok_of_bind hstates
    obtain ⟨_,h⟩ := ok_of_bind h
    obtain ⟨_,h⟩ := ok_of_bind h
    obtain ⟨_,h⟩ := ok_of_bind h
    cases h
    simp
  | govCouncil =>
    obtain ⟨_,h⟩ := ok_of_bind h
    obtain ⟨_,h⟩ := ok_of_bind h
    obtain ⟨_,h⟩ := ok_of_bind h
    cases alloc <;> cases h <;> simp

section
variable {artifacts : Artifacts} {st st' : StateTransition} {t : ContractType}
  {contracts : List (ContractType × Option SystemContract)}

/-- The codes of the contracts, and writes if one of them is initialized. -/
structure StateTransition.Brings (artifacts : Artifacts) (contracts : List (ContractType × Option SystemContract))
    (st : StateTransition) : Prop where
  codes : st.codes = codesOf artifacts contracts
  nonempty : ∀ c ∈ st.codes, c.code ≠ []
  states : st.states = [] ↔ ∀ e ∈ contracts, ∀ c, e.2 = some c → ¬c.initializes

lemma StateTransition.Brings.deploy {contract : Option SystemContract} (hst : st.Brings artifacts contracts)
    (h : deploy artifacts t contract st = .ok st') : st'.Brings artifacts (contracts++[(t,contract)]) := by
  have hstates {states : List StateParam} (hnew : states = [] ↔ ∀ c, contract = some c → ¬c.initializes) :
      st.states++states = [] ↔ ∀ e ∈ contracts++[(t,contract)], ∀ c, e.2 = some c → ¬c.initializes := by
    rw [append_eq_nil_iff,hst.states,hnew,forall_mem_append,forall_mem_singleton]
  cases contract with
  | none =>
    cases h
    refine ⟨by simp [hst.codes,codesOf],hst.nonempty,?_⟩
    simpa using @hstates [] (by simp)
  | some c =>
    obtain ⟨code,hcode,h⟩ := deploy_eq_ok.mp h
    obtain ⟨_,hne,hcode⟩ := bind_eq_ok.mp hcode
    cases hcode
    have hne : artifacts.code t c.version ≠ [] := by simpa [require_eq_ok] using hne
    have hcodes : st.codes++[⟨c.address,artifacts.code t c.version⟩] =
        codesOf artifacts (contracts++[(t,some c)]) := by simp [hst.codes,codesOf]
    have hnonempty : ∀ d ∈ st.codes++[⟨c.address,artifacts.code t c.version⟩], d.code ≠ [] := by
      rw [forall_mem_append,forall_mem_singleton]
      exact ⟨hst.nonempty,hne⟩
    rcases h with ⟨hparam,rfl⟩ | ⟨param,states,alloc',hparam,hinit,rfl⟩
    · refine ⟨hcodes,hnonempty,?_⟩
      simpa using @hstates [] (by simp [c.initializes_iff,hparam])
    · refine ⟨hcodes,hnonempty,hstates ?_⟩
      simp [c.initializes_iff,hparam,t.initialize_ne_nil hinit]

lemma SystemContracts.not_initializes_iff (s : SystemContracts) :
    ¬s.Initializes ↔ ∀ e ∈ s.typed, ∀ c, e.2 = some c → ¬c.initializes := by
  obtain ⟨_ | a,_ | b,_ | c,_ | d,_ | e⟩ := s <;> simp [Initializes,list,typed]

lemma getSystemContractsTransition_brings {s : SystemContracts}
    (h : getSystemContractsTransition artifacts s alloc = .ok st) : st.Brings artifacts s.typed := by
  obtain ⟨st₁,h₁,h⟩ := bind_eq_ok.mp h
  obtain ⟨st₂,h₂,h⟩ := bind_eq_ok.mp h
  obtain ⟨st₃,h₃,h⟩ := bind_eq_ok.mp h
  obtain ⟨st₄,h₄,h₅⟩ := bind_eq_ok.mp h
  have hstart : StateTransition.Brings artifacts [] ⟨[],[],alloc⟩ := ⟨rfl,by simp,by simp⟩
  exact ((((hstart.deploy h₁).deploy h₂).deploy h₃).deploy h₄).deploy h₅

variable {upgrades : List Upgrade} {num : ℕ} {merged m : Option StateTransition}

/-- The codes of the upgrades at a block. -/
def codesAt (artifacts : Artifacts) (upgrades : List Upgrade) (num : ℕ) : List CodeParam :=
  (upgrades.filter (·.block = num)).flatMap (·.systemContracts.codes artifacts)

structure Merges (artifacts : Artifacts) (upgrades : List Upgrade) (num : ℕ) (merged m : Option StateTransition) :
    Prop where
  codes : m.elim [] (·.codes) = merged.elim [] (·.codes)++codesAt artifacts upgrades num
  nonempty : ∀ c ∈ codesAt artifacts upgrades num, c.code ≠ []
  states : m.elim [] (·.states) = [] ↔
    merged.elim [] (·.states) = [] ∧ ∀ u ∈ upgrades, u.block=num → ¬u.systemContracts.Initializes

lemma merges_of_ne (h : ∀ u ∈ upgrades, u.block≠num) : Merges artifacts upgrades num merged merged := by
  have hnone : upgrades.filter (·.block = num) = [] := filter_eq_nil_iff.mpr fun u hu => by simpa using h u hu
  refine ⟨by simp [codesAt,hnone],by simp [codesAt,hnone],(and_iff_left ?_).symm⟩
  exact fun u hu hnum => absurd hnum (h u hu)

lemma mergeTransitions_ok (hsorted : upgrades.Pairwise (·.block ≤ ·.block))
    (h : mergeTransitions artifacts num upgrades merged = .ok m) : Merges artifacts upgrades num merged m := by
  induction upgrades generalizing merged with
  | nil =>
    cases h
    exact merges_of_ne (by simp)
  | cons u upgrades ih =>
    obtain ⟨hle,hsorted⟩ := pairwise_cons.mp hsorted
    unfold mergeTransitions at h
    split at h
    · rename_i hnum
      obtain ⟨st,hst,h⟩ := bind_eq_ok.mp h
      have hbrings := getSystemContractsTransition_brings hst
      have hrest := ih hsorted h
      have hat : codesAt artifacts (u::upgrades) num = st.codes++codesAt artifacts upgrades num := by
        simp [codesAt,hnum,hbrings.codes,SystemContracts.codes]
      have hcodes : (StateTransition.merge merged st).codes = merged.elim [] (·.codes)++st.codes := by
        cases merged <;> rfl
      have hstates : (StateTransition.merge merged st).states = merged.elim [] (·.states)++st.states := by
        cases merged <;> rfl
      constructor
      · rw [hrest.codes,Option.elim_some,hcodes,hat,append_assoc]
      · rw [hat,forall_mem_append]
        exact ⟨hbrings.nonempty,hrest.nonempty⟩
      · rw [hrest.states,Option.elim_some,hstates,append_eq_nil_iff,hbrings.states,
          ← SystemContracts.not_initializes_iff,forall_mem_cons,and_assoc]
        simp [hnum]
    · rename_i hne
      split at h
      · rename_i hlt
        cases h
        refine merges_of_ne fun v hv => ?_
        obtain rfl | hv := mem_cons.mp hv
        · exact Ne.symm hne
        · have := hle v hv
          omega
      · have hrest := ih hsorted h
        have hat : codesAt artifacts (u::upgrades) num = codesAt artifacts upgrades num := by
          simp [codesAt,Ne.symm hne]
        exact ⟨hat ▸ hrest.codes,hat ▸ hrest.nonempty,by simp [hrest.states,Ne.symm hne]⟩

end

section
variable {artifacts : Artifacts} {layout : Slot → Evm.Slot} {upgrades : List Upgrade} {b : Evm.Block} {a : Address}

lemma upgradedCode_map (codes : List CodeParam) (a : Address) (code : Bytes) :
    Evm.upgradedCode (codes.map fun c => (c.address,c.code)) a code = (GenesisAlloc.codeAt codes a).getD code := by
  induction codes using List.reverseRecOn with
  | nil => rfl
  | append_singleton codes c ih =>
    rw [Evm.upgradedCode] at ih ⊢
    rw [map_append,foldl_append,ih,codeAt_concat]
    by_cases hc : c.address = a <;> simp [hc]

lemma codeAt_append (codes codes' : List CodeParam) (a : Address) :
    GenesisAlloc.codeAt (codes++codes') a = (GenesisAlloc.codeAt codes' a).or (GenesisAlloc.codeAt codes a) := by
  induction codes' using List.reverseRecOn with
  | nil => simp [GenesisAlloc.codeAt]
  | append_singleton codes' c ih =>
    rw [← append_assoc,codeAt_concat,codeAt_concat,ih]
    split <;> rfl

lemma mem_of_codeAt {codes : List CodeParam} {code : Bytes} (h : GenesisAlloc.codeAt codes a = some code) :
    ∃ c ∈ codes, c.code=code := by
  induction codes using List.reverseRecOn with
  | nil => cases h
  | append_singleton codes c ih =>
    rw [codeAt_concat] at h
    split at h
    · exact ⟨c,by simp,Option.some.inj h⟩
    · obtain ⟨d,hd,hcode⟩ := ih h
      exact ⟨d,mem_append_left _ hd,hcode⟩

lemma Scheduled.obj_upgraded (hsorted : upgrades.Pairwise (·.block ≤ ·.block))
    (h : Scheduled artifacts layout upgrades b) : ∃ states : List StateParam,
    (states = [] ↔ ∀ u ∈ upgrades, u.block=b.header.number → ¬u.systemContracts.Initializes) ∧
    (∀ c ∈ codesAt artifacts upgrades b.header.number, c.code ≠ []) ∧
    ∀ (db : Evm.StateDB) (a : Address), (b.upgraded db).obj a = { db.obj a with
        code := (GenesisAlloc.codeAt (codesAt artifacts upgrades b.header.number) a).getD (db.obj a).code
        storage := Evm.upgradedStorage (states.map fun w => (w.address,layout w.key,BitVec.ofNat 256 w.value)) a
          (db.obj a).storage } := by
  obtain ⟨m,hm,hupgrade⟩ := h
  have hmerges := mergeTransitions_ok hsorted hm
  have hcodes : m.elim [] (·.codes) = codesAt artifacts upgrades b.header.number := hmerges.codes
  refine ⟨m.elim [] (·.states),?_,hmerges.nonempty,fun db a => ?_⟩
  · rw [hmerges.states,Option.elim_none]
    exact and_iff_right rfl
  · rw [← hcodes,Evm.Block.upgraded,hupgrade]
    cases m with
    | none => rfl
    | some st =>
      have hcode := upgradedCode_map st.codes a (db.obj a).code
      refine (Evm.obj_applyUpgrade_eq (st.toEvm layout) db a).trans ?_
      rw [Option.elim_some,← hcode]
      rfl

end

/-- The codes of the upgrades up to a block. -/
def scheduled (artifacts : Artifacts) (upgrades : List Upgrade) (n : ℕ) : List CodeParam :=
  (upgrades.filter (·.block ≤ n)).flatMap (·.systemContracts.codes artifacts)

/-- The upgrades that the engine is configured with start with the contracts of the genesis. -/
def systemContractUpgrades (baseline : SystemContracts) (upgrades : List Upgrade) : List Upgrade :=
  ⟨0,baseline⟩::upgrades

/-- A state with the codes of an allocation, at rest. -/
structure Founded (alloc : GenesisAlloc) (db : Evm.StateDB) : Prop where
  atRest : db.AtRest
  code : ∀ a, (db.obj a).code = (alloc.get a).code

/-- The account differs in its code at most. -/
structure StateKept (o o' : Evm.StateObject) : Prop where
  storage : o'.storage = o.storage
  balance : o'.balance = o.balance
  nonce : o'.nonce = o.nonce
  extra : o'.extra = o.extra

/-- The state holds the code of the last upgrade of every contract that was named up to a block. -/
structure Current (artifacts : Artifacts) (upgrades : List Upgrade) (n : ℕ) (db : Evm.StateDB) : Prop where
  atRest : db.AtRest
  nonempty : ∀ c ∈ scheduled artifacts upgrades n, c.code ≠ []
  code : ∀ a code, GenesisAlloc.codeAt (scheduled artifacts upgrades n) a = some code → (db.obj a).code = code

section
variable {artifacts : Artifacts} {layout : Slot → Evm.Slot} {upgrades : List Upgrade} {net : Evm.Network}

lemma scheduled_succ (hsorted : upgrades.Pairwise (·.block ≤ ·.block)) (n : ℕ) :
    scheduled artifacts upgrades (n+1) = scheduled artifacts upgrades n++codesAt artifacts upgrades (n+1) := by
  have hfilter : upgrades.filter (·.block ≤ n+1) = upgrades.filter (·.block ≤ n)++upgrades.filter (·.block = n+1) := by
    induction upgrades with
    | nil => rfl
    | cons u upgrades ih =>
      obtain ⟨hle,hsorted⟩ := pairwise_cons.mp hsorted
      have hrest := ih hsorted
      rcases Nat.lt_trichotomy u.block (n+1) with hu | hu | hu
      · rw [filter_cons_of_pos (by simpa using hu.le),filter_cons_of_pos (by simpa using Nat.lt_succ_iff.mp hu),
          filter_cons_of_neg (by simpa using hu.ne),hrest,cons_append]
      · -- nothing earlier follows
        have hnone : upgrades.filter (·.block ≤ n) = [] := by
          refine filter_eq_nil_iff.mpr fun v hv => ?_
          have := hle v hv
          simp only [decide_eq_true_eq]
          omega
        rw [filter_cons_of_pos (by simpa using hu.le),filter_cons_of_neg (by simp [hu]),
          filter_cons_of_pos (by simpa using hu),hrest,hnone,nil_append,nil_append]
      · rw [filter_cons_of_neg (by simpa using hu),filter_cons_of_neg (by simp; omega),
          filter_cons_of_neg (by simp; omega),hrest]
  rw [scheduled,hfilter,flatMap_append]
  rfl

lemma exists_of_mem_scheduled {c : CodeParam} (h : c ∈ scheduled artifacts upgrades n) :
    ∃ t version, c.code = artifacts.code t version := by
  obtain ⟨u,_,hc⟩ := mem_flatMap.mp h
  obtain ⟨e,_,hc⟩ := mem_filterMap.mp hc
  obtain ⟨d,_,rfl⟩ := Option.map_eq_some_iff.mp hc
  exact ⟨e.1,d.version,rfl⟩

section
variable (hplain : ∀ t v, Evm.parseDelegation (artifacts.code t v)=none)
  (hsorted : upgrades.Pairwise (·.block ≤ ·.block))
include hplain hsorted

theorem Current.process {b : Evm.Block} {receipts : List Evm.Receipt}
    (hnumber : b.header.number = n+1) (hb : Scheduled artifacts layout upgrades b)
    (h : net.process b w = .ok (receipts,w')) (hw : Current artifacts upgrades n w.db) :
    Current artifacts upgrades (n+1) w'.db := by
  obtain ⟨p,htxs,hend,_⟩ := Evm.Network.process_ok h
  obtain ⟨hrest,hkept⟩ := Evm.Network.applyTransactions_keeps htxs hw.atRest
  obtain ⟨hdone,hfinal⟩ := Evm.finalize_keeps hend hrest
  obtain ⟨states,_,hnonempty,hobj⟩ := hb.obj_upgraded hsorted
  rw [hnumber] at hnonempty hobj
  have hall : ∀ c ∈ scheduled artifacts upgrades (n+1), c.code ≠ [] := by
    rw [scheduled_succ hsorted,forall_mem_append]
    exact ⟨hw.nonempty,hnonempty⟩
  refine ⟨hdone,hall,fun a code hcode => ?_⟩
  obtain ⟨c,hc,rfl⟩ := mem_of_codeAt hcode
  refine hfinal a c.code (hall c hc) ?_
  rw [hobj]
  dsimp only
  rw [scheduled_succ hsorted,codeAt_append] at hcode
  cases hnew : GenesisAlloc.codeAt (codesAt artifacts upgrades (n+1)) a with
  | some code =>
    rw [hnew,Option.some_or] at hcode
    exact Option.some.inj hcode
  | none =>
    rw [hnew,Option.none_or] at hcode
    obtain ⟨t,version,hversion⟩ := exists_of_mem_scheduled hc
    refine hkept a c.code (hall c hc) ?_ (hw.code a c.code hcode)
    rw [hversion]
    exact hplain t version

lemma Current.processChain
    {blocks : List Evm.Block}
    (hblocks : ∀ i b, blocks[i]? = some b → b.header.number = n+i+1 ∧ Scheduled artifacts layout upgrades b)
    (h : net.processChain blocks w = .ok w') (hw : Current artifacts upgrades n w.db) :
    Current artifacts upgrades (n+blocks.length) w'.db := by
  induction blocks generalizing w n with
  | nil =>
    obtain rfl : w=w' := by simpa [Evm.Network.processChain] using h
    exact hw
  | cons b blocks ih =>
    simp only [Evm.Network.processChain,bind_eq_ok,Prod.exists] at h
    obtain ⟨receipts,w₁,hblock,hrest⟩ := h
    obtain ⟨hnumber,hb⟩ := hblocks 0 b rfl
    have hnext := ih (n := n+1) (fun i b hi => ?_) hrest (hw.process hplain hsorted hnumber hb hblock)
    · rw [length_cons,← Nat.add_assoc,Nat.add_right_comm]
      exact hnext
    · obtain ⟨hnumber,hb⟩ := hblocks (i+1) b hi
      exact ⟨by omega,hb⟩

end

lemma code_putStates (states : List StateParam) (alloc : GenesisAlloc) (a : Address) :
    (GenesisAlloc.get (states.foldl .putState alloc) a).code = (alloc.get a).code := by
  rw [GenesisAlloc.get,lookup_putStates,GenesisAlloc.get]
  cases alloc.lookup a <;> rfl

lemma code_putCodes (codes : List CodeParam) (alloc : GenesisAlloc) (a : Address) :
    (GenesisAlloc.get (codes.foldl .putCode alloc) a).code = (GenesisAlloc.codeAt codes a).getD (alloc.get a).code := by
  rw [GenesisAlloc.get,lookup_putCodes]
  cases GenesisAlloc.codeAt codes a <;> rfl

lemma code_replaceCodes (codes : List CodeParam) (alloc : GenesisAlloc) (a : Address) :
    (GenesisAlloc.get (codes.foldl .replaceCode alloc) a).code =
    (GenesisAlloc.codeAt codes a).getD (alloc.get a).code := by
  rw [GenesisAlloc.get,lookup_replaceCodes]
  cases GenesisAlloc.codeAt codes a <;> rfl

theorem code_overlays {alloc : GenesisAlloc} (h : upgrades.foldlM (injectUpgrade artifacts) alloc = .ok alloc') :
    (∀ c ∈ codesAt artifacts upgrades 0, c.code ≠ []) ∧ ∀ a, (alloc'.get a).code =
      (GenesisAlloc.codeAt (codesAt artifacts upgrades 0) a).getD (alloc.get a).code := by
  induction upgrades generalizing alloc with
  | nil =>
    cases h
    exact ⟨by simp [codesAt],fun a => rfl⟩
  | cons u upgrades ih =>
    obtain ⟨next,hnext,h⟩ := bind_eq_ok.mp h
    obtain ⟨hnonempty,hcode⟩ := ih h
    unfold injectUpgrade at hnext
    split at hnext
    · rename_i hblock
      cases hnext
      have hat : codesAt artifacts (u::upgrades) 0 = codesAt artifacts upgrades 0 := by simp [codesAt,hblock]
      rw [hat]
      exact ⟨hnonempty,hcode⟩
    · rename_i hblock
      obtain ⟨st,hst,hnext⟩ := bind_eq_ok.mp hnext
      cases hnext
      have hbrings := getSystemContractsTransition_brings hst
      have hat : codesAt artifacts (u::upgrades) 0 = st.codes++codesAt artifacts upgrades 0 := by
        simp [codesAt,not_not.mp hblock,hbrings.codes,SystemContracts.codes]
      rw [hat,forall_mem_append]
      refine ⟨⟨hbrings.nonempty,hnonempty⟩,fun a => ?_⟩
      rw [hcode,code_putStates,code_replaceCodes,codeAt_append]
      cases GenesisAlloc.codeAt (codesAt artifacts upgrades 0) a <;> rfl

lemma current_of_founded {baseline : SystemContracts} {alloc : GenesisAlloc} {db : Evm.StateDB}
    (h : injectUpgrades artifacts baseline upgrades alloc = .ok alloc') (hdb : Founded alloc' db) :
    Current artifacts (systemContractUpgrades baseline upgrades) 0 db := by
  obtain ⟨st,hst,h⟩ := bind_eq_ok.mp h
  have hbrings := getSystemContractsTransition_brings hst
  obtain ⟨hnonempty,hcode⟩ := code_overlays h
  have hscheduled : scheduled artifacts (systemContractUpgrades baseline upgrades) 0 =
      st.codes++codesAt artifacts upgrades 0 := by
    simp [scheduled,systemContractUpgrades,codesAt,hbrings.codes,SystemContracts.codes]
  refine ⟨hdb.atRest,?_,fun a code hat => ?_⟩
  · rw [hscheduled,forall_mem_append]
    exact ⟨hbrings.nonempty,hnonempty⟩
  · rw [hdb.code,hcode,code_putStates,code_putCodes]
    rw [hscheduled,codeAt_append] at hat
    cases hnew : GenesisAlloc.codeAt (codesAt artifacts upgrades 0) a with
    | some code' =>
      rw [hnew,Option.some_or] at hat
      exact Option.some.inj hat
    | none =>
      rw [hnew,Option.none_or] at hat
      rw [hat]
      rfl

lemma exists_upgradedStorage_ne {states : List (Address × Evm.Slot × Evm.Word)} (h : states ≠ []) :
    ∃ a storage, Evm.upgradedStorage states a storage≠storage := by
  obtain ⟨l,c,rfl⟩ := eq_nil_or_concat states |>.resolve_left h
  refine ⟨c.1,fun _ => c.2.2+1,fun heq => ?_⟩
  have hkey := congrFun heq c.2.1
  rw [Evm.upgradedStorage,concat_eq_append,foldl_append,foldl_cons,foldl_nil,if_pos rfl,Function.update_self] at hkey
  simp at hkey

def holding (a : Address) (o : Evm.StateObject) : Evm.StateDB :=
  ⟨Evm.State.put ⟨∅,[],0,fun _ _ => 0⟩ a o,[],false⟩

/-- An upgrade step keeps the state of all accounts exactly if none of its upgrades initializes a contract. Over every
chain, the code of a contract is that of the last upgrade that names it, the genesis included. -/
theorem upgrades_keep_state (hplain : ∀ t v, Evm.parseDelegation (artifacts.code t v)=none)
    (hsorted : upgrades.Pairwise (·.block ≤ ·.block)) : (∀ b, Scheduled artifacts layout upgrades b →
      ((∀ db a, StateKept (db.obj a) ((b.upgraded db).obj a)) ↔
        ∀ u ∈ upgrades, u.block=b.header.number → ¬u.systemContracts.Initializes)) ∧
    ∀ (net : Evm.Network) (baseline : SystemContracts) (alloc alloc' : GenesisAlloc) (blocks : List Evm.Block)
      (w w' : Evm.World), injectUpgrades artifacts baseline upgrades alloc = .ok alloc' → Founded alloc' w.db →
      (∀ i b, blocks[i]? = some b → b.header.number = i+1 ∧
        Scheduled artifacts layout (systemContractUpgrades baseline upgrades) b) →
      net.processChain blocks w = .ok w' → ∀ a code,
      GenesisAlloc.codeAt (scheduled artifacts (systemContractUpgrades baseline upgrades) blocks.length) a = some code →
      w'.db.getCode a=code := by
  constructor
  · intro b hb
    obtain ⟨states,hstates,_,hobj⟩ := hb.obj_upgraded hsorted
    rw [← hstates]
    constructor
    · intro hkept
      by_contra hne
      have hne : states.map (fun w => (w.address,layout w.key,BitVec.ofNat 256 w.value)) ≠ [] := by simpa using hne
      obtain ⟨a,storage,hdiff⟩ := exists_upgradedStorage_ne hne
      have hstorage := (hkept (holding a { Evm.StateObject.new with storage := storage }) a).storage
      rw [hobj,holding,Evm.State.obj_put_self] at hstorage
      exact hdiff hstorage
    · rintro rfl db a
      rw [hobj]
      exact ⟨rfl,rfl,rfl,rfl⟩
  · intro net baseline alloc alloc' blocks w w' hgenesis hfounded hblocks hchain a code hcode
    have hsorted' : (systemContractUpgrades baseline upgrades).Pairwise (·.block ≤ ·.block) :=
      List.pairwise_cons.mpr ⟨fun _ _ => Nat.zero_le _,hsorted⟩
    have hend := (current_of_founded hgenesis hfounded).processChain hplain hsorted'
      (fun i b hi => by simpa using hblocks i b hi) hchain
    rw [Nat.zero_add] at hend
    rw [Evm.StateDB.getCode_eq]
    exact hend.code a code hcode

end

namespace OneMinter
open Evm (Block World)

/-- The second version exists of the minter only. -/
def artifacts : Artifacts where
  code
    | _, "v1" => [0x60,1]
    | .govMinter, "v2" => [0x60,2]
    | _, _ => []
  hex _ := ""

def layout : Slot → Evm.Slot
  | .fixed n => .base n
  | .mapping _ _ => .base 0
  | .element _ _ => .base 1

def minter (version : String) (params : Option Params) : SystemContracts :=
  ⟨none,none,some ⟨0x1003,version,params⟩,none,none⟩

/-- The contract as it is at some time, with a quorum of 3. -/
def object : Evm.StateObject :=
  { Evm.StateObject.new with code := [0x60,1], storage := fun _ => 3, created := false }

def start : World := ⟨holding 0x1003 object,0,[],[]⟩

def block (number : ℕ) (upgrade : Option StateTransition) : Block :=
  ⟨{ Evm.SingleSender.header 0 with number := number },true,[],none,upgrade.map (·.toEvm layout)⟩

lemma founded_start : Founded ((∅ : GenesisAlloc).insert 0x1003 (GenesisAlloc.fresh [0x60,1])) start.db where
  atRest := by
    refine ⟨rfl,fun a o ho => ?_⟩
    rw [start,holding,Evm.State.lookup_put] at ho
    split at ho
    · cases ho
      exact ⟨rfl,rfl⟩
    · cases ho
  code a := by
    refine (congrArg Evm.StateObject.code (Evm.State.obj_put _ _ _ _)).trans ?_
    rw [get_insert]
    split <;> rfl

/-- The second version at block 1 brings its code and leaves the state. -/
theorem upgrades_keep_state_second : ∃ (b : Block) (w : World), Evm.SingleSender.net.processChain [b] start = .ok w ∧
    (∀ db a, StateKept (db.obj a) ((b.upgraded db).obj a)) ∧ w.db.getCode 0x1003 = [0x60,2] := by
  have hplain : ∀ t v, Evm.parseDelegation (artifacts.code t v)=none := by
    intro t v
    rw [artifacts]
    dsimp only
    split <;> rfl
  have hsorted : [(⟨1,minter "v2" none⟩ : Upgrade)].Pairwise (·.block ≤ ·.block) := by simp
  have hkeeps := @upgrades_keep_state artifacts layout _ hplain hsorted
  obtain ⟨w,hw,-⟩ := exists_of_holds (x := Evm.SingleSender.net.processChain
    [block 1 (some ⟨[⟨0x1003,[0x60,2]⟩],[],none⟩)] start) (P := fun _ => true) (by decide +kernel)
  refine ⟨_,w,hw,(hkeeps.1 _ ⟨some ⟨[⟨0x1003,[0x60,2]⟩],[],none⟩,rfl,rfl⟩).mpr ?_,?_⟩
  · intro u hu _
    cases List.mem_singleton.mp hu
    simp [SystemContracts.Initializes,SystemContracts.list,minter,SystemContract.initializes]
  · refine hkeeps.2 _ (minter "v1" none) ∅ _ _ start w rfl founded_start (fun i b hi => ?_) hw 0x1003 _ rfl
    cases i with
    | zero =>
      cases hi
      exact ⟨rfl,some ⟨[⟨0x1003,[0x60,2]⟩],[],none⟩,rfl,rfl⟩
    | succ i => cases hi

def quorumOne : Params := fun key => if key = "quorum" then some "1" else none

/-- The first version with its parameters at block 5 sets the quorum back. -/
theorem quorum_reset : ∃ b : Block, Scheduled artifacts layout [⟨5,minter "v1" (some quorumOne)⟩] b ∧
    b.header.number=5 ∧ (start.db.obj 0x1003).storage (.base 4) = 3 ∧
    ((b.upgraded start.db).obj 0x1003).storage (.base 4)=1 := by
  obtain ⟨m,hm,h⟩ := exists_of_holds (x := getSystemContractsStateTransition artifacts
    [⟨5,minter "v1" (some quorumOne)⟩] 5)
    (P := fun m => (((block 5 m).upgraded start.db).obj 0x1003).storage (.base 4)=1) (by decide +kernel)
  exact ⟨block 5 m,⟨m,hm,rfl⟩,rfl,rfl,of_decide_eq_true h⟩

end OneMinter

/-- Only an upgrade that names a contract changes its code, whatever the blocks of a chain execute. -/
theorem code_permanent {net : Evm.Network} {blocks : List Evm.Block} {w w' : Evm.World}
    (h : net.processChain blocks w = .ok w') (hw : w.db.AtRest) {a : Address} (hne : (w.db.obj a).code ≠ [])
    (hplain : Evm.parseDelegation (w.db.obj a).code=none)
    (hupgrade : ∀ b ∈ blocks, ∀ st ∈ b.upgrade, a ∉ st.codes.map Prod.fst) :
    (w'.db.obj a).code = (w.db.obj a).code := by
  induction blocks generalizing w with
  | nil =>
    cases h
    rfl
  | cons b blocks ih =>
    obtain ⟨⟨_,q⟩,hblock,hrest⟩ := bind_eq_ok.mp h
    obtain ⟨p,htxs,hend,-⟩ := Evm.Network.process_ok hblock
    obtain ⟨hp,hcodes⟩ := Evm.Network.applyTransactions_keeps htxs hw
    obtain ⟨hq,hcode⟩ := Evm.finalize_keeps hend hp
    have hupgraded : ((b.upgraded p.world.db).obj a).code = (p.world.db.obj a).code := by
      have hb := hupgrade b List.mem_cons_self
      rw [Evm.Block.upgraded]
      cases hst : b.upgrade with
      | none => rfl
      | some st =>
        rw [Evm.obj_applyUpgrade_eq]
        refine List.foldlRecOn (motive := (· = (p.world.db.obj a).code)) st.codes _ rfl fun code hc c hmem => ?_
        have hne : c.1≠a := fun heq => hb st hst (heq ▸ List.mem_map_of_mem hmem)
        rw [if_neg hne]
        exact hc
    have hsame := hcode a _ hne (hupgraded.trans (hcodes a _ hne hplain rfl))
    rw [← hsame] at hne hplain ⊢
    exact ih hrest hq hne hplain fun b' hb' => hupgrade b' (List.mem_cons_of_mem _ hb')

namespace OneMinter
open Evm (Block World)
open Evm.SingleSender (sender account transaction)

/-- Every creation is at the address of the contract, whose code creates once and destroys itself. -/
def net : Evm.Network :=
  { Evm.SingleSender.net with
    createAddress := fun _ _ => 0x1003
    interp := fun _ _ => .op (.create 0 [0x00]) fun _ => .op (.selfdestruct 0xb0) Empty.elim }

/-- The sender calls the contract, and creates at its address. -/
def attack : Block :=
  { Evm.SingleSender.block 198766 (transaction (some 0x1003) 7 []) with
    txs := [transaction (some 0x1003) 7 [],{ transaction none 0 [0x00] with nonce := 1 }] }

def funded : World := ⟨⟨Evm.State.put start.db.toState sender account,[],false⟩,0,[],[]⟩

lemma atRest_funded : funded.db.AtRest where
  journal := rfl
  settled a o ho := by
    rw [funded,Evm.State.lookup_put] at ho
    split at ho
    · cases ho
      exact ⟨rfl,rfl⟩
    · exact founded_start.atRest.settled a o ho

/-- The contract keeps its code when it is called, destroys itself and is created again, and when another
contract is upgraded. -/
theorem code_stays : ∃ w, net.processChain [attack,block 2 (some ⟨[⟨0x1000,[0x60,1]⟩],[],none⟩)] funded = .ok w ∧
    (w.db.obj 0xb0).balance = 7 ∧ (w.db.obj 0x1003).code = [0x60,1] := by
  obtain ⟨w,hw,hbalance⟩ := exists_of_holds
    (x := net.processChain [attack,block 2 (some ⟨[⟨0x1000,[0x60,1]⟩],[],none⟩)] funded)
    (P := fun w => (w.db.obj 0xb0).balance = 7) (by decide +kernel)
  refine ⟨w,hw,of_decide_eq_true hbalance,code_permanent hw atRest_funded (by decide +kernel) (by decide +kernel) ?_⟩
  simp [attack,block,Evm.SingleSender.block,StateTransition.toEvm]

end OneMinter

end StableNet.Genesis
