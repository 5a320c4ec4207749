import StableNet.Genesis.Params
import StableNet.Gov.Base
import Mathlib.Data.List.Nodup

/-! `initializeBase`: the storage that a governance contract starts from, and what the contract reads
there. -/
namespace StableNet.Genesis
open Chain (Address)
open Lib Gov List

/-- Repetitions are dropped. -/
def uniqueMembers (members : List Address) : Except String (List Address) :=
  members.foldlM (fun unique member => do
    require (member≠0) "`systemContracts.govBase.params.members` contains invalid zero address"
    return if member ∈ unique then unique else unique++[member]) []

def baseQuorum (param : Params) : Except String ℕ :=
  match param "quorum" with
  | none => return 0
  | some s => do
    let quorum ← (parseUint s 64).mapError ("`systemContracts.govBase.params.quorum`: " ++ ·)
    require (quorum≠0) "`systemContracts.govBase.params.quorum` must be greater than 0"
    return quorum

def baseExpiry (param : Params) : Except String (Option ℕ) :=
  match param "expiry" with
  | none => return none
  | some s => do
    let expiry ← (parseUint s 64).mapError ("`systemContracts.govBase.params.expiry`: " ++ ·)
    return some expiry

/-- What the quorum is checked against: the members without repetitions. -/
def checkMembers (quorum memberCount : ℕ) : Except String Unit := do
  require (quorum=0 || quorum ≤ memberCount)
    ("`systemContracts.govBase.params.quorum` (" ++ toString quorum ++
      ") must not be greater than unique member count (" ++ toString memberCount ++ ")")
  require (memberCount ≤ 255)
    ("`systemContracts.govBase.params.members` count (" ++ toString memberCount ++
      ") exceeds maximum allowed (255)")
  require (quorum=0 || memberCount≠1 || quorum=1)
    ("`systemContracts.govBase.params.quorum` must be exactly 1 for single-member governance, got " ++
      toString quorum)
  require (quorum=0 || memberCount=1 || 2 ≤ quorum)
    ("`systemContracts.govBase.params.quorum` (" ++ toString quorum ++
      ") must be at least 2 for multi-member governance (member count: " ++ toString memberCount ++ ")")

def baseVersion (param : Params) : Except String ℕ :=
  match param "memberVersion" with
  | none => .error
      "`systemContracts.govBase.params.memberVersion` is required when `systemContracts.govBase.params.members` is set"
  | some s => (parseUint s 64).mapError ("`systemContracts.govBase.params.memberVersion`: " ++ ·)

/-- The slots of one initial member; `Member.ToHash` packs its flag into the lowest byte. -/
def memberParams (address : Address) (version : ℕ) (member : Address) (currentIdx : ℕ) : List StateParam :=
  [⟨address,calculateMappingSlot (.fixed 5) member.toNat,1⟩,
    ⟨address,calculateDynamicSlot (calculateMappingSlot (.fixed 6) version) currentIdx,member.toNat⟩,
    ⟨address,calculateMappingSlot (calculateMappingSlot (.fixed 8) version) member.toNat,currentIdx+1⟩]

def memberListParams (address : Address) (quorum version : ℕ) (members : List Address) : List StateParam :=
  members.zipIdx.flatMap (fun e => memberParams address version e.1 e.2) ++
    (if 0 < members.length then [⟨address,calculateMappingSlot (.fixed 6) version,members.length⟩] else []) ++
    [⟨address,.fixed 1,version⟩] ++
    (if 0<quorum then [⟨address,calculateMappingSlot (.fixed 9) version,quorum⟩] else [])

def baseMembers (address : Address) (param : Params) (quorum : ℕ) : Except String (List StateParam) :=
  match param "members" with
  | none => return []
  | some s => do
    let members ← uniqueMembers ((splitAndTrim s).map hexToAddress)
    checkMembers quorum members.length
    let version ← baseVersion param
    return memberListParams address quorum version members

def baseMaxProposals (param : Params) : Except String ℕ :=
  match param "maxProposals" with
  | none => return 3
  | some s => do
    let maxProposals ← (parseUint s 64).mapError ("`systemContracts.govBase.params.maxProposals`: " ++ ·)
    require (1 ≤ maxProposals ∧ maxProposals ≤ 50)
      ("`systemContracts.govBase.params.maxProposals` must be between 1 and 50, got " ++ toString maxProposals)
    return maxProposals

def initializeBase (address : Address) (param : Params) : Except String (List StateParam) := do
  let quorum ← baseQuorum param
  let expiry ← baseExpiry param
  let members ← baseMembers address param quorum
  let maxProposals ← baseMaxProposals param
  return (if quorum=0 then [] else [⟨address,.fixed 4,int64ToHash quorum⟩]) ++
    (expiry.map fun expiry => ⟨address,.fixed 0,int64ToHash expiry⟩).toList++members ++
    [⟨address,.fixed 12,int64ToHash maxProposals⟩]

/-- What `GovBase` reads of a storage in which no proposal was created yet. -/
def baseOfStorage {κ : Type} (st : Slot → ℕ) : Base κ where
  proposalExpiry := st (.fixed 0)
  memberVersion := st (.fixed 1)
  currentProposalId := st (.fixed 2)
  reentrancyGuard := st (.fixed 3)
  quorum := st (.fixed 4)%2^32
  members a :=
    let word := st (calculateMappingSlot (.fixed 5) a.toNat)
    ⟨word%256≠0,word/256%2^32⟩
  versionedMemberList v :=
    let slot := calculateMappingSlot (.fixed 6) v
    (List.range (st slot)).map fun i => BitVec.ofNat 160 (st (calculateDynamicSlot slot i))
  proposals _ := .empty
  memberIndexByVersion v a := st (calculateMappingSlot (calculateMappingSlot (.fixed 8) v) a.toNat)%2^32
  quorumByVersion v := st (calculateMappingSlot (.fixed 9) v)%2^32
  proposalExecutionCount id := st (calculateMappingSlot (.fixed 10) id)
  memberActiveProposalCount a := st (calculateMappingSlot (.fixed 11) a.toNat)
  maxActiveProposalsPerMember := st (.fixed 12)
  records := []
  history := .start

/-- What a derived contract writes behind the gap of `GovBase` is not read by it. -/
theorem baseOfStorage_congr {κ : Type} {st st' : Slot → ℕ} (h : ∀ k, k.root<0x32 → st k = st' k) :
    (baseOfStorage st : Base κ) = baseOfStorage st' := by
  have hmask : ∀ st, (baseOfStorage st : Base κ) = baseOfStorage fun k => if k.root<0x32 then st k else 0 :=
    fun _ => rfl
  rw [hmask st,hmask st']
  congr 1
  funext k
  split
  · exact h k ‹_›
  · rfl

/-- The values that `initializeBase` decodes; the members stand with their version. -/
structure BaseConfig where
  quorum : ℕ
  expiry : Option ℕ
  members : Option (ℕ × List Address)
  maxProposals : ℕ

namespace BaseConfig

def states (c : BaseConfig) (address : Address) : List StateParam :=
  (if c.quorum=0 then [] else [⟨address,.fixed 4,int64ToHash c.quorum⟩]) ++
    (c.expiry.map fun expiry => ⟨address,.fixed 0,int64ToHash expiry⟩).toList ++
    (c.members.elim [] fun m => memberListParams address c.quorum m.1 m.2) ++
    [⟨address,.fixed 12,int64ToHash c.maxProposals⟩]

/-- What `initializeBase` checks. -/
structure Valid (c : BaseConfig) (param : Params) : Prop where
  quorum_isSome : (param "quorum").isSome ↔ c.quorum≠0
  members_isSome : (param "members").isSome = c.members.isSome
  listed : ∀ a ∈ (splitAndTrim ((param "members").getD "")).map hexToAddress, ∃ m, c.members = some m ∧ a ∈ m.2
  members : ∀ m, c.members = some m → m.2.Nodup ∧ (∀ a ∈ m.2, a≠0) ∧ m.2.length ≤ 255 ∧
    c.quorum ≤ m.2.length ∧ (c.quorum≠0 → 2 ≤ m.2.length → 2 ≤ c.quorum)

end BaseConfig

lemma uniqueMembers_eq_ok {members unique : List Address} (h : uniqueMembers members = .ok unique) :
    (∀ a ∈ members, a ∈ unique) ∧ unique.Nodup ∧ ∀ a ∈ unique, a≠0 := by
  induction members using List.reverseRecOn generalizing unique with
  | nil =>
    cases h
    simp
  | append_singleton members a ih =>
    unfold uniqueMembers at h
    rw [foldlM_append] at h
    obtain ⟨acc,hacc,h⟩ := bind_eq_ok.mp h
    obtain ⟨hlisted,hnodup,hzero⟩ := ih hacc
    obtain ⟨next,hnext,h⟩ := bind_eq_ok.mp h
    cases h
    obtain ⟨_,ha,hnext⟩ := bind_eq_ok.mp hnext
    have ha : a≠0 := of_decide_eq_true (require_eq_ok.mp ha)
    cases hnext
    split
    · rename_i hmem
      refine ⟨fun b hb => ?_,hnodup,hzero⟩
      rcases mem_append.mp hb with hb | hb
      · exact hlisted b hb
      · exact mem_singleton.mp hb ▸ hmem
    · rename_i hmem
      refine ⟨fun b hb => mem_append.mpr ((mem_append.mp hb).imp_left (hlisted b)),
        nodup_append.mpr ⟨hnodup,nodup_singleton a,fun x hx y hy hxy => ?_⟩,fun b hb => ?_⟩
      · exact hmem (mem_singleton.mp hy ▸ hxy ▸ hx)
      · rcases mem_append.mp hb with hb | hb
        · exact hzero b hb
        · exact mem_singleton.mp hb ▸ ha

lemma baseQuorum_eq_ok {param : Params} {quorum : ℕ} (h : baseQuorum param = .ok quorum) :
    (param "quorum").isSome ↔ quorum≠0 := by
  unfold baseQuorum at h
  split at h
  · rename_i hnone
    cases h
    simp [hnone]
  · rename_i s hsome
    obtain ⟨q,_,h⟩ := bind_eq_ok.mp h
    obtain ⟨_,hq,h⟩ := bind_eq_ok.mp h
    have hq : q≠0 := of_decide_eq_true (require_eq_ok.mp hq)
    cases h
    simp [hsome,hq]

lemma checkMembers_eq_ok {quorum count : ℕ} {u : Unit} (h : checkMembers quorum count = .ok u) :
    count ≤ 255 ∧ quorum ≤ count ∧ (quorum≠0 → 2 ≤ count → 2 ≤ quorum) := by
  obtain ⟨_,hle,h⟩ := bind_eq_ok.mp h
  obtain ⟨_,hmax,h⟩ := bind_eq_ok.mp h
  obtain ⟨_,h⟩ := ok_of_bind h
  have hle := require_eq_ok.mp hle
  have hmax := require_eq_ok.mp hmax
  have hmulti := require_eq_ok.mp h
  simp only [Bool.or_eq_true,decide_eq_true_eq] at hle hmax hmulti
  exact ⟨hmax,by omega,by omega⟩

lemma initializeBase_eq_ok {address : Address} {param : Params} {states : List StateParam}
    (h : initializeBase address param = .ok states) : ∃ c : BaseConfig, c.Valid param ∧ states = c.states address := by
  obtain ⟨quorum,hquorum,h⟩ := bind_eq_ok.mp h
  obtain ⟨expiry,_,h⟩ := bind_eq_ok.mp h
  obtain ⟨written,hwritten,h⟩ := bind_eq_ok.mp h
  obtain ⟨maxProposals,_,h⟩ := bind_eq_ok.mp h
  cases h
  have hquorum := baseQuorum_eq_ok hquorum
  unfold baseMembers at hwritten
  split at hwritten
  · rename_i hnone
    cases hwritten
    refine ⟨⟨quorum,expiry,none,maxProposals⟩,⟨hquorum,by simp [hnone],fun a ha => ?_,fun _ h => by cases h⟩,rfl⟩
    have hempty : splitAndTrim "" = [] := by decide
    simp [hnone,hempty] at ha
  · rename_i s hsome
    obtain ⟨members,hmembers,hwritten⟩ := bind_eq_ok.mp hwritten
    obtain ⟨_,hcheck,hwritten⟩ := bind_eq_ok.mp hwritten
    obtain ⟨version,_,hwritten⟩ := bind_eq_ok.mp hwritten
    cases hwritten
    obtain ⟨hlisted,hnodup,hzero⟩ := uniqueMembers_eq_ok hmembers
    refine ⟨⟨quorum,expiry,some (version,members),maxProposals⟩,⟨hquorum,by simp [hsome],fun a ha => ?_,
      fun m hm => ?_⟩,rfl⟩
    · rw [hsome] at ha
      exact ⟨_,rfl,hlisted a ha⟩
    · cases hm
      exact ⟨hnodup,hzero,checkMembers_eq_ok hcheck⟩

namespace BaseConfig
variable {m : ℕ × List Address} {w : StateParam} {k : Slot} {x : ℕ}

/-- A slot and the value that is written to it. -/
inductive Writes (c : BaseConfig) : Slot → ℕ → Prop
  | quorum (h : c.quorum≠0) : Writes c (.fixed 4) (int64ToHash c.quorum)
  | expiry {e : ℕ} (h : c.expiry = some e) : Writes c (.fixed 0) (int64ToHash e)
  | member {m : ℕ × List Address} {i : ℕ} {a : Address} (hm : c.members = some m) (ha : m.2[i]? = some a) :
      Writes c (calculateMappingSlot (.fixed 5) a.toNat) 1
  | entry {m : ℕ × List Address} {i : ℕ} {a : Address} (hm : c.members = some m) (ha : m.2[i]? = some a) :
      Writes c (calculateDynamicSlot (calculateMappingSlot (.fixed 6) m.1) i) a.toNat
  | index {m : ℕ × List Address} {i : ℕ} {a : Address} (hm : c.members = some m) (ha : m.2[i]? = some a) :
      Writes c (calculateMappingSlot (calculateMappingSlot (.fixed 8) m.1) a.toNat) (i+1)
  | length {m : ℕ × List Address} (hm : c.members = some m) (hpos : 0 < m.2.length) :
      Writes c (calculateMappingSlot (.fixed 6) m.1) m.2.length
  | version {m : ℕ × List Address} (hm : c.members = some m) : Writes c (.fixed 1) m.1
  | quorumByVersion {m : ℕ × List Address} (hm : c.members = some m) (hpos : 0<c.quorum) :
      Writes c (calculateMappingSlot (.fixed 9) m.1) c.quorum
  | maxProposals : Writes c (.fixed 12) (int64ToHash c.maxProposals)

variable {c : BaseConfig} {address : Address}

lemma mem_memberListParams (hm : c.members = some m) :
    w ∈ memberListParams address c.quorum m.1 m.2 → w.address=address ∧ c.Writes w.key w.value := by
  simp only [memberListParams,mem_append,mem_flatMap]
  rintro (((⟨⟨a,i⟩,he,hw⟩ | hw) | hw) | hw)
  · have ha : m.2[i]? = some a := by simpa [mem_zipIdx_iff_getElem?] using he
    simp only [memberParams,mem_cons,not_mem_nil,or_false] at hw
    rcases hw with rfl | rfl | rfl
    · exact ⟨rfl,.member hm ha⟩
    · exact ⟨rfl,.entry hm ha⟩
    · exact ⟨rfl,.index hm ha⟩
  · split at hw
    · cases mem_singleton.mp hw
      exact ⟨rfl,.length hm ‹_›⟩
    · cases hw
  · cases mem_singleton.mp hw
    exact ⟨rfl,.version hm⟩
  · split at hw
    · cases mem_singleton.mp hw
      exact ⟨rfl,.quorumByVersion hm ‹_›⟩
    · cases hw

lemma writes_of_mem (hw : w ∈ c.states address) : w.address=address ∧ c.Writes w.key w.value := by
  simp only [states,mem_append] at hw
  rcases hw with ((hw | hw) | hw) | hw
  · split at hw
    · cases hw
    · cases mem_singleton.mp hw
      exact ⟨rfl,.quorum ‹_›⟩
  · rw [Option.mem_toList,Option.map_eq_some_iff] at hw
    obtain ⟨e,he,rfl⟩ := hw
    exact ⟨rfl,.expiry he⟩
  · cases hm : c.members with
    | none => simp [hm] at hw
    | some m => exact mem_memberListParams hm (by simpa [hm] using hw)
  · cases mem_singleton.mp hw
    exact ⟨rfl,.maxProposals⟩

lemma memberListParams_of_mem (hm : c.members = some m)
    (hw : w ∈ memberListParams address c.quorum m.1 m.2) : w ∈ c.states address := by
  simp only [states,hm,mem_append,Option.elim_some]
  exact .inl (.inr hw)

lemma memberParams_of_mem (hm : c.members = some m) {i : ℕ} {a : Address}
    (ha : m.2[i]? = some a) (hw : w ∈ memberParams address m.1 a i) : w ∈ c.states address := by
  refine memberListParams_of_mem hm ?_
  simp only [memberListParams,mem_append,mem_flatMap]
  exact .inl (.inl (.inl ⟨(a,i),mem_zipIdx_iff_getElem?.mpr ha,hw⟩))

lemma mem_of_writes (h : c.Writes k x) : ⟨address,k,x⟩ ∈ c.states address := by
  cases h with
  | quorum h => simp [states,h]
  | expiry h => simp [states,h]
  | member hm ha | entry hm ha | index hm ha => exact memberParams_of_mem hm ha (by simp [memberParams])
  | length hm hpos | quorumByVersion hm hpos => exact memberListParams_of_mem hm (by simp [memberListParams,hpos])
  | version hm => exact memberListParams_of_mem hm (by simp [memberListParams])
  | maxProposals => simp [states]

lemma read_eq (h : c.Writes k x) (hunique : ∀ y, c.Writes k y → y=x) : storageOf address (c.states address) k=x :=
  storageOf_eq_of_table (fun _ hw => (writes_of_mem hw).2) (mem_of_writes h) hunique

lemma read_zero (h : ∀ x, ¬ c.Writes k x) : storageOf address (c.states address) k=0 :=
  storageOf_eq_zero_of_table (fun _ hw => (writes_of_mem hw).2) h

lemma Writes.root_mem (h : c.Writes k x) : k.root ∈ [0,1,4,5,6,8,9,12] := by
  cases h <;> simp

lemma read_unused (h : k.root ∉ [0,1,4,5,6,8,9,12]) : storageOf address (c.states address) k=0 :=
  read_zero fun _ hx => h hx.root_mem

section
variable {v i : ℕ} {a : Address}

section
variable (h : c.Writes k x)
include h

lemma Writes.fixed_quorum (hk : k = .fixed 4) : x = int64ToHash c.quorum ∧ c.quorum≠0 := by
  have hroot := congrArg Slot.root hk
  cases h with
  | quorum h => exact ⟨rfl,h⟩
  | _ => simp at hroot

lemma Writes.fixed_version (hk : k = .fixed 1) : ∃ m, c.members = some m ∧ x=m.1 := by
  have hroot := congrArg Slot.root hk
  cases h with
  | version hm => exact ⟨_,hm,rfl⟩
  | _ => simp at hroot

lemma Writes.mapping_members (hk : k = calculateMappingSlot (.fixed 5) a.toNat) :
    x=1 ∧ ∃ m, c.members = some m ∧ a ∈ m.2 := by
  have hroot := congrArg Slot.root hk
  cases h with
  | member hm ha =>
    obtain rfl := (mappingSlot_address_inj.mp hk).2
    exact ⟨rfl,_,hm,mem_of_getElem? ha⟩
  | _ => simp at hroot

lemma Writes.mapping_length (hk : k = calculateMappingSlot (.fixed 6) v) :
    ∃ m, c.members = some m ∧ m.1=v ∧ x=m.2.length ∧ 0 < m.2.length := by
  have hroot := congrArg Slot.root hk
  cases h with
  | length hm hpos => exact ⟨_,hm,(calculateMappingSlot_inj.mp hk).2,rfl,hpos⟩
  | entry hm ha => cases hk
  | _ => simp at hroot

lemma Writes.element_members (hk : k = calculateDynamicSlot (calculateMappingSlot (.fixed 6) v) i) :
    ∃ m a, c.members = some m ∧ m.1=v ∧ m.2[i]? = some a ∧ x=a.toNat := by
  have hroot := congrArg Slot.root hk
  cases h with
  | entry hm ha =>
    obtain ⟨hslot,rfl⟩ := Slot.element.inj hk
    exact ⟨_,_,hm,(calculateMappingSlot_inj.mp hslot).2,ha,rfl⟩
  | length hm => cases hk
  | _ => simp at hroot

lemma Writes.mapping_index (hk : k = calculateMappingSlot (calculateMappingSlot (.fixed 8) v) a.toNat) :
    ∃ m i, c.members = some m ∧ m.1=v ∧ m.2[i]? = some a ∧ x = i+1 := by
  have hroot := congrArg Slot.root hk
  cases h with
  | index hm ha =>
    obtain ⟨hslot,rfl⟩ := mappingSlot_address_inj.mp hk
    exact ⟨_,_,hm,(calculateMappingSlot_inj.mp hslot).2,ha,rfl⟩
  | _ => simp at hroot

lemma Writes.mapping_quorum (hk : k = calculateMappingSlot (.fixed 9) v) :
    x=c.quorum ∧ c.quorum≠0 ∧ ∃ m, c.members = some m ∧ m.1=v := by
  have hroot := congrArg Slot.root hk
  cases h with
  | quorumByVersion hm hpos => exact ⟨rfl,Nat.ne_of_gt hpos,_,hm,(calculateMappingSlot_inj.mp hk).2⟩
  | _ => simp at hroot

end

end

/-- The contract as it reads the storage of the accepted parameters. -/
def base {κ : Type} (c : BaseConfig) (address : Address) : Base κ :=
  baseOfStorage (storageOf address (c.states address))

section
variable {κ : Type} {a : Address} {v : ℕ}

lemma memberVersion_base (hm : c.members = some m) : (c.base address : Base κ).memberVersion = m.1 := by
  refine read_eq (.version hm) fun y hy => ?_
  obtain ⟨m',hm',rfl⟩ := hy.fixed_version rfl
  cases hm.symm.trans hm'
  rfl

lemma isActive_base : ((c.base address : Base κ).members a).isActive ↔ ∃ m, c.members = some m ∧ a ∈ m.2 := by
  by_cases h : ∃ m, c.members = some m ∧ a ∈ m.2
  · obtain ⟨m,hm,ha⟩ := h
    obtain ⟨i,hi⟩ := mem_iff_getElem?.mp ha
    have hread : storageOf address (c.states address) (calculateMappingSlot (.fixed 5) a.toNat)=1 :=
      read_eq (.member hm hi) fun y hy => (hy.mapping_members rfl).1
    simp only [base,baseOfStorage,hread]
    exact iff_of_true (by decide) ⟨m,hm,ha⟩
  · have hread : storageOf address (c.states address) (calculateMappingSlot (.fixed 5) a.toNat)=0 :=
      read_zero fun y hy => h (hy.mapping_members rfl).2
    simp only [base,baseOfStorage,hread]
    exact iff_of_false (by decide) h

lemma read_length (hm : c.members = some m) :
    storageOf address (c.states address) (calculateMappingSlot (.fixed 6) m.1) = m.2.length := by
  by_cases hpos : 0 < m.2.length
  · refine read_eq (.length hm hpos) fun y hy => ?_
    obtain ⟨m',hm',_,rfl,_⟩ := hy.mapping_length rfl
    cases hm.symm.trans hm'
    rfl
  · rw [Nat.eq_zero_of_not_pos hpos]
    refine read_zero fun y hy => hpos ?_
    obtain ⟨m',hm',_,_,hpos'⟩ := hy.mapping_length rfl
    cases hm.symm.trans hm'
    exact hpos'

lemma versionedMemberList_base (hm : c.members = some m) : (c.base address : Base κ).versionedMemberList m.1=m.2 := by
  simp only [base,baseOfStorage,read_length hm]
  refine ext_getElem? fun i => ?_
  rw [List.getElem?_map]
  by_cases hi : i < m.2.length
  · have ha := List.getElem?_eq_getElem hi
    rw [List.getElem?_range hi,ha,Option.map_some]
    congr 1
    rw [read_eq (.entry hm ha) fun y hy => ?_]
    · simp
    · obtain ⟨m',a,hm',_,ha',rfl⟩ := hy.element_members rfl
      cases hm.symm.trans hm'
      cases ha.symm.trans ha'
      rfl
  · have hi := Nat.le_of_not_lt hi
    rw [List.getElem?_eq_none hi,List.getElem?_eq_none (by simpa using hi)]
    rfl

lemma versionedMemberList_base_eq_nil (h : ∀ m, c.members = some m → m.1≠v) :
    (c.base address : Base κ).versionedMemberList v = [] := by
  have hread : storageOf address (c.states address) (calculateMappingSlot (.fixed 6) v)=0 :=
    read_zero fun y hy => by
      obtain ⟨m,hm,hv,_⟩ := hy.mapping_length rfl
      exact h m hm hv
  simp only [base,baseOfStorage,hread]
  rfl

lemma memberIndexByVersion_base (hm : c.members = some m) (hnodup : m.2.Nodup) (hlength : m.2.length ≤ 255) {i : ℕ}
    (ha : m.2[i]? = some a) : (c.base address : Base κ).memberIndexByVersion m.1 a = i+1 := by
  have hread : storageOf address (c.states address)
      (calculateMappingSlot (calculateMappingSlot (.fixed 8) m.1) a.toNat) = i+1 := by
    refine read_eq (.index hm ha) fun y hy => ?_
    obtain ⟨m',j,hm',_,ha',rfl⟩ := hy.mapping_index rfl
    cases hm.symm.trans hm'
    rw [(List.getElem?_inj (List.getElem?_eq_some_iff.mp ha).1 hnodup).mp (ha.trans ha'.symm)]
  have hi := (List.getElem?_eq_some_iff.mp ha).1
  simp only [base,baseOfStorage,hread]
  exact Nat.mod_eq_of_lt (by omega)

lemma memberIndexByVersion_base_of_notMem (hm : c.members = some m) (ha : a ∉ m.2) :
    (c.base address : Base κ).memberIndexByVersion m.1 a=0 := by
  have hread : storageOf address (c.states address)
      (calculateMappingSlot (calculateMappingSlot (.fixed 8) m.1) a.toNat)=0 :=
    read_zero fun y hy => by
      obtain ⟨m',i,hm',_,ha',_⟩ := hy.mapping_index rfl
      cases hm.symm.trans hm'
      exact ha (mem_of_getElem? ha')
  simp only [base,baseOfStorage,hread]
  rfl

lemma memberIndexByVersion_base_eq_zero (h : ∀ m, c.members = some m → m.1≠v) :
    (c.base address : Base κ).memberIndexByVersion v a=0 := by
  have hread : storageOf address (c.states address)
      (calculateMappingSlot (calculateMappingSlot (.fixed 8) v) a.toNat)=0 :=
    read_zero fun y hy => by
      obtain ⟨m,i,hm,hv,_⟩ := hy.mapping_index rfl
      exact h m hm hv
  simp only [base,baseOfStorage,hread]
  rfl

lemma quorum_base (h : c.quorum ≤ 255) : (c.base address : Base κ).quorum = c.quorum := by
  have hread : storageOf address (c.states address) (.fixed 4) = c.quorum := by
    by_cases hq : c.quorum=0
    · rw [hq]
      exact read_zero fun y hy => (hy.fixed_quorum rfl).2 hq
    · refine (read_eq (.quorum hq) fun y hy => (hy.fixed_quorum rfl).1).trans ?_
      exact if_pos (by omega)
  simp only [base,baseOfStorage,hread]
  exact Nat.mod_eq_of_lt (by omega)

lemma quorumByVersion_base (hm : c.members = some m) (h : c.quorum ≤ 255) :
    (c.base address : Base κ).quorumByVersion m.1=c.quorum := by
  have hread : storageOf address (c.states address) (calculateMappingSlot (.fixed 9) m.1) = c.quorum := by
    by_cases hq : c.quorum=0
    · rw [hq]
      exact read_zero fun y hy => (hy.mapping_quorum rfl).2.1 hq
    · exact read_eq (.quorumByVersion hm (Nat.pos_of_ne_zero hq)) fun y hy => (hy.mapping_quorum rfl).1
  simp only [base,baseOfStorage,hread]
  exact Nat.mod_eq_of_lt (by omega)

end

end BaseConfig

end StableNet.Genesis
