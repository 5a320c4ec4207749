import StableNet.Genesis.GovBase
import StableNet.Gov.Validator

/-! `initializeValidator`: the registry of validators that the chain starts from, and what the contract
reads there. -/
namespace StableNet.Genesis
open Chain (Address Bytes)
open Lib Gov List
variable {param : Params} {w : StateParam}

/-- The words of a `bytes` variable: a short one stands with its length in one word. -/
def varLenBytesToMultipleHash (data : Bytes) : List ℕ :=
  let length := data.length
  if length=0 then [0]
  else if length ≤ 31 then
    [BigEndian.decode (data++List.replicate (31-length) 0++[BitVec.ofNat 8 (2*length)])]
  else (2*length+1)::(List.range ((length+31)/32)).map fun i =>
    let chunk := (data.drop (32*i)).take 32
    BigEndian.decode (chunk++List.replicate (32-chunk.length) 0)

/-- The first word goes to the slot itself, the others to its data area. -/
def makeMultipleParam (address : Address) (baseSlot : Slot) (value : List ℕ) : List StateParam :=
  value.zipIdx.map fun e =>
    match e.2 with
    | 0 => ⟨address,baseSlot,e.1⟩
    | i+1 => ⟨address,calculateDynamicSlot baseSlot i,e.1⟩

def getBytes (st : Slot → ℕ) (baseSlot : Slot) : Bytes :=
  let storageValue := st baseSlot
  if storageValue=0 then []
  else if storageValue%2=0 then (BigEndian.encode 32 storageValue).take (storageValue%256/2)
  else ((List.range ((storageValue/2+31)/32)).flatMap fun i =>
    BigEndian.encode 32 (st (calculateDynamicSlot baseSlot i))).take (storageValue/2)

def parseDecimal : ℕ → List Char → Option ℕ
  | n, [] => some n
  | n, c::cs => (digit? c).bind fun d => parseDecimal (n*10+d) cs

/-- `new(big.Int).SetString(s, 10)`, by its absolute value: a hash is made of no more. -/
def bigAbs (s : String) : Option ℕ :=
  let cs := match s.toList with
    | '+'::cs => cs
    | '-'::cs => cs
    | cs => cs
  if cs = [] then none else parseDecimal 0 cs

def initialGasTip : ℕ := 27600000000000
def blsPoPPrecompileAddress : Address := 0xb00001

def validatorGasTip (param : Params) : Except String ℕ :=
  match param "gasTip" with
  | none => return initialGasTip
  | some s =>
    match bigAbs s with
    | none => .error ("`systemContracts.govValidator.params.gasTip`: invalid value: " ++ s)
    | some gasTip => return gasTip

structure ValidatorEntry where
  member : Address
  validator : Address
  blsKey : Bytes
  deriving DecidableEq

/-- The entries that the loop does not skip: the first one of every validator. -/
def uniqueEntries (entries : List ValidatorEntry) : List ValidatorEntry :=
  entries.foldl (fun unique e => if e.validator ∈ unique.map ValidatorEntry.validator then unique else unique++[e]) []

def validatorEntries (param : Params) : Except String (List ValidatorEntry) :=
  match param "validators", param "blsPublicKeys" with
  | none, none => return []
  | none, some _ => .error "`systemContracts.govValidator.params`: missing parameter: validators"
  | some _, none => .error "`systemContracts.govValidator.params`: missing parameter: blsPublicKeys"
  | some validators, some blsKeys => do
    let memberAddresses := splitAndTrim ((param "members").getD "")
    let valAddresses := splitAndTrim validators
    let blsKeyStrings := splitAndTrim blsKeys
    require (memberAddresses.length=valAddresses.length)
      "`systemContracts.govValidator.params`: the number of members and validators must be the same"
    require (valAddresses.length=blsKeyStrings.length)
      "`systemContracts.govValidator.params`: the number of validators and BLS public keys must be the same"
    return uniqueEntries (List.zipWith (fun m e => ⟨hexToAddress m,hexToAddress e.1,fromHex e.2⟩) memberAddresses
      (valAddresses.zip blsKeyStrings))

/-- The key of a mapping from `bytes`, padded like any other key. -/
def blsKeySlot (blsKey : Bytes) : Slot :=
  .mapping (.fixed 0x38) (List.replicate (32-blsKey.length) 0++blsKey)

def validatorParams (address : Address) (e : ValidatorEntry) (currentIdx : ℕ) : List StateParam :=
  [⟨address,calculateMappingSlot (.fixed 0x34) e.validator.toNat,currentIdx+1⟩,
    ⟨address,calculateDynamicSlot (.fixed 0x33) currentIdx,e.validator.toNat⟩,
    ⟨address,calculateMappingSlot (.fixed 0x35) e.validator.toNat,e.member.toNat⟩,
    ⟨address,calculateMappingSlot (.fixed 0x36) e.member.toNat,e.validator.toNat⟩] ++
  makeMultipleParam address (calculateMappingSlot (.fixed 0x37) e.validator.toNat)
    (varLenBytesToMultipleHash e.blsKey) ++
  [⟨address,blsKeySlot e.blsKey,e.validator.toNat⟩]

def registryParams (address : Address) (gasTip : ℕ) (entries : List ValidatorEntry) : List StateParam :=
  [⟨address,.fixed 0x32,blsPoPPrecompileAddress.toNat⟩,⟨address,.fixed 0x39,gasTip%2^256⟩] ++
    entries.zipIdx.flatMap (fun e => validatorParams address e.1 e.2) ++
    (if 0<entries.length then [⟨address,.fixed 0x33,entries.length⟩] else [])

def initializeValidator (address : Address) (param : Params) : Except String (List StateParam) := do
  let base ← initializeBase address param
  let gasTip ← validatorGasTip param
  let entries ← validatorEntries param
  return base++registryParams address gasTip entries

/-- The values of an address set; its positions are one slot further. -/
def setValues (st : Slot → ℕ) (slot : ℕ) : List Address :=
  (List.range (st (.fixed slot))).map fun i => BitVec.ofNat 160 (st (calculateDynamicSlot (.fixed slot) i))

/-- Where an address stands, from 1 on. -/
def setPositions (st : Slot → ℕ) (slot : ℕ) (a : Address) : ℕ := st (calculateMappingSlot (.fixed slot) a.toNat)

/-- A list of addresses is written to a slot, and the positions to another one. -/
structure Lists (address : Address) (states : List StateParam) (slot index : ℕ) (list : List Address) : Prop where
  length : storageOf address states (.fixed slot) = list.length
  element : ∀ i a, list[i]? = some a → ⟨address,calculateDynamicSlot (.fixed slot) i,a.toNat⟩ ∈ states
  position : ∀ i a, list[i]? = some a → ⟨address,calculateMappingSlot (.fixed index) a.toNat,i+1⟩ ∈ states
  of_element : ∀ w ∈ states, ∀ i, w.key = calculateDynamicSlot (.fixed slot) i →
    ∃ a, list[i]? = some a ∧ w.value=a.toNat
  of_position : ∀ w ∈ states, ∀ a : Address, w.key = calculateMappingSlot (.fixed index) a.toNat →
    ∃ i, list[i]? = some a ∧ w.value = i+1

namespace Lists
variable {address a : Address} {states : List StateParam} {slot index i : ℕ} {list : List Address}

section
variable (h : Lists address states slot index list)
include h

lemma setValues_eq : setValues (storageOf address states) slot=list := by
  simp only [setValues,h.length]
  refine ext_getElem? fun i => ?_
  rw [List.getElem?_map]
  by_cases hi : i<list.length
  · have ha := List.getElem?_eq_getElem hi
    have hread : storageOf address states (calculateDynamicSlot (.fixed slot) i) = list[i].toNat := by
      refine storageOf_eq (h.element i _ ha) fun w hw hk => ?_
      obtain ⟨a,ha',hx⟩ := h.of_element w hw i hk
      cases ha.symm.trans ha'
      exact hx
    rw [List.getElem?_range hi,ha,Option.map_some,hread,BitVec.ofNat_toNat,BitVec.setWidth_eq]
  · have hi := Nat.le_of_not_lt hi
    rw [List.getElem?_eq_none hi,List.getElem?_eq_none (by simpa using hi)]
    rfl

lemma setPositions_eq (hnodup : list.Nodup) (ha : list[i]? = some a) :
    setPositions (storageOf address states) index a = i+1 := by
  refine storageOf_eq (h.position i a ha) fun w hw hk => ?_
  obtain ⟨j,hj,hx⟩ := h.of_position w hw a hk
  rw [hx,(List.getElem?_inj (List.getElem?_eq_some_iff.mp ha).1 hnodup).mp (ha.trans hj.symm)]

lemma setPositions_eq_zero (ha : a ∉ list) : setPositions (storageOf address states) index a=0 := by
  refine storageOf_eq_zero fun w hw _ hk => ha ?_
  obtain ⟨j,hj,_⟩ := h.of_position w hw a hk
  exact mem_of_getElem? hj

lemma indexed (hnodup : list.Nodup) :
    Indexed (setValues (storageOf address states) slot) (setPositions (storageOf address states) index) := by
  rw [h.setValues_eq]
  apply Indexed.of_index_eq
  intro a i
  by_cases ha : a ∈ list
  · obtain ⟨j,hj⟩ := mem_iff_getElem?.mp ha
    rw [h.setPositions_eq hnodup hj]
    constructor
    · intro hi
      obtain rfl : j = i := Nat.succ.inj hi
      exact hj
    · intro hi
      rw [(List.getElem?_inj (List.getElem?_eq_some_iff.mp hj).1 hnodup).mp (hj.trans hi.symm)]
  · rw [h.setPositions_eq_zero ha]
    exact iff_of_false (Nat.succ_ne_zero i).symm fun hi => ha (mem_of_getElem? hi)

end

end Lists

def registryOfStorage (st : Slot → ℕ) (h : Indexed (setValues st 0x33) (setPositions st 0x34)) : Registry where
  validators := ⟨setValues st 0x33,setPositions st 0x34,h⟩
  validatorToOperator a := BitVec.ofNat 160 (st (calculateMappingSlot (.fixed 0x35) a.toNat))
  operatorToValidator a := BitVec.ofNat 160 (st (calculateMappingSlot (.fixed 0x36) a.toNat))
  validatorToBlsKey a := getBytes st (calculateMappingSlot (.fixed 0x37) a.toNat)
  blsKeyToValidator blsKey := BitVec.ofNat 160 (st (.mapping (.fixed 0x38) blsKey))
  gasTip := st (.fixed 0x39)
  removals := []

lemma nodup_uniqueEntries (entries : List ValidatorEntry) :
    ((uniqueEntries entries).map ValidatorEntry.validator).Nodup := by
  induction entries using List.reverseRecOn with
  | nil => exact nodup_nil
  | append_singleton entries e ih =>
    unfold uniqueEntries at ih ⊢
    rw [foldl_append,foldl_cons,foldl_nil]
    split
    · exact ih
    · rename_i hnew
      rw [map_append,map_singleton]
      exact nodup_append.mpr ⟨ih,nodup_singleton _,fun x hx y hy hxy => hnew
        (mem_singleton.mp hy ▸ hxy ▸ hx)⟩

lemma nodup_validatorEntries {entries : List ValidatorEntry}
    (h : validatorEntries param = .ok entries) : (entries.map ValidatorEntry.validator).Nodup := by
  unfold validatorEntries at h
  split at h
  · cases h
    exact nodup_nil
  · cases h
  · cases h
  · obtain ⟨_,h⟩ := ok_of_bind h
    obtain ⟨_,h⟩ := ok_of_bind h
    cases h
    exact nodup_uniqueEntries _

/-- All that is written for the contract. -/
abbrev BaseConfig.validatorStates (c : BaseConfig) (address : Address) (gasTip : ℕ) (entries : List ValidatorEntry) :
    List StateParam := c.states address++registryParams address gasTip entries

lemma initializeValidator_eq_ok {address : Address} {states : List StateParam}
    (h : initializeValidator address param = .ok states) :
    ∃ (c : BaseConfig) (gasTip : ℕ) (entries : List ValidatorEntry), c.Valid param ∧
      validatorEntries param = .ok entries ∧ states = c.validatorStates address gasTip entries := by
  obtain ⟨base,hbase,h⟩ := bind_eq_ok.mp h
  obtain ⟨gasTip,_,h⟩ := bind_eq_ok.mp h
  obtain ⟨entries,hentries,h⟩ := bind_eq_ok.mp h
  cases h
  obtain ⟨c,hc,rfl⟩ := initializeBase_eq_ok hbase
  exact ⟨c,gasTip,entries,hc,hentries,rfl⟩

def wordSlot (baseSlot : Slot) : ℕ → Slot
  | 0 => baseSlot
  | i+1 => calculateDynamicSlot baseSlot i

lemma makeMultipleParam_eq (address : Address) (baseSlot : Slot) (value : List ℕ) :
    makeMultipleParam address baseSlot value = value.zipIdx.map fun e => ⟨address,wordSlot baseSlot e.2,e.1⟩ := by
  refine map_congr_left fun e _ => ?_
  cases e.2 with
  | zero => rfl
  | succ i => rfl

@[simp]
lemma root_wordSlot (baseSlot : Slot) (i : ℕ) : (wordSlot baseSlot i).root = baseSlot.root := by
  cases i with
  | zero | succ => rfl

@[simp]
lemma root_blsKeySlot (blsKey : Bytes) : (blsKeySlot blsKey).root = 0x38 := rfl

/-- What is written to the slots of the registry. -/
inductive RegistryWrites (entries : List ValidatorEntry) : Slot → ℕ → Prop
  | position {i : ℕ} {e : ValidatorEntry} (he : entries[i]? = some e) :
      RegistryWrites entries (calculateMappingSlot (.fixed 0x34) e.validator.toNat) (i+1)
  | value {i : ℕ} {e : ValidatorEntry} (he : entries[i]? = some e) :
      RegistryWrites entries (calculateDynamicSlot (.fixed 0x33) i) e.validator.toNat
  | length (h : 0<entries.length) : RegistryWrites entries (.fixed 0x33) entries.length
  | operator {e : ValidatorEntry} (he : e ∈ entries) :
      RegistryWrites entries (calculateMappingSlot (.fixed 0x35) e.validator.toNat) e.member.toNat
  | validator {e : ValidatorEntry} (he : e ∈ entries) :
      RegistryWrites entries (calculateMappingSlot (.fixed 0x36) e.member.toNat) e.validator.toNat
  | word {e : ValidatorEntry} {i x : ℕ} (he : e ∈ entries) (hx : (varLenBytesToMultipleHash e.blsKey)[i]? = some x) :
      RegistryWrites entries (wordSlot (calculateMappingSlot (.fixed 0x37) e.validator.toNat) i) x
  | key {e : ValidatorEntry} (he : e ∈ entries) : RegistryWrites entries (blsKeySlot e.blsKey) e.validator.toNat
  | other {k : Slot} {x : ℕ} (h : k.root ∉ [0x33,0x34,0x35,0x36,0x37,0x38]) : RegistryWrites entries k x

section
variable {address : Address} {c : BaseConfig} {gasTip : ℕ} {entries : List ValidatorEntry}

lemma root_makeMultipleParam {slot : Slot} {value : List ℕ} (hw : w ∈ makeMultipleParam address slot value) :
    w.key.root=slot.root := by
  rw [makeMultipleParam_eq] at hw
  obtain ⟨_,_,rfl⟩ := mem_map.mp hw
  exact root_wordSlot _ _

lemma registryParams_within (hw : w ∈ registryParams address gasTip entries) :
    w.address=address ∧ w.key.root ∈ [0x32,0x33,0x34,0x35,0x36,0x37,0x38,0x39] := by
  simp only [registryParams,mem_append,mem_flatMap,mem_cons,not_mem_nil,or_false] at hw
  rcases hw with ((rfl | rfl) | ⟨⟨e,i⟩,_,hw⟩) | hw
  · exact ⟨rfl,by simp⟩
  · exact ⟨rfl,by simp⟩
  · simp only [validatorParams,makeMultipleParam_eq,mem_append,mem_cons,not_mem_nil,or_false,mem_map] at hw
    rcases hw with ((rfl | rfl | rfl | rfl) | ⟨_,_,rfl⟩) | rfl
    all_goals exact ⟨rfl,by simp⟩
  · split at hw
    · cases mem_singleton.mp hw
      exact ⟨rfl,by simp⟩
    · cases hw

lemma registryWrites_of_mem (hw : w ∈ c.validatorStates address gasTip entries) :
    RegistryWrites entries w.key w.value := by
  rcases mem_append.mp hw with hw | hw
  · have hroot := (BaseConfig.writes_of_mem hw).2.root_mem
    refine .other fun hmem => ?_
    simp only [mem_cons,not_mem_nil,or_false] at hroot hmem
    omega
  · simp only [registryParams,mem_append,mem_flatMap,mem_cons,not_mem_nil,or_false] at hw
    rcases hw with ((rfl | rfl) | ⟨⟨e,i⟩,hi,hw⟩) | hw
    · exact .other (by simp)
    · exact .other (by simp)
    · have he : e ∈ entries := fst_mem_of_mem_zipIdx hi
      have hi : entries[i]? = some e := by simpa [mem_zipIdx_iff_getElem?] using hi
      simp only [validatorParams,makeMultipleParam_eq,mem_append,mem_cons,not_mem_nil,or_false,mem_map] at hw
      rcases hw with ((rfl | rfl | rfl | rfl) | ⟨⟨x,j⟩,hx,rfl⟩) | rfl
      · exact .position hi
      · exact .value hi
      · exact .operator he
      · exact .validator he
      · exact .word he (mem_zipIdx_iff_getElem?.mp hx)
      · exact .key he
    · split at hw
      · cases mem_singleton.mp hw
        exact .length ‹_›
      · cases hw

lemma registryParams_of_mem (hw : w ∈ registryParams address gasTip entries) :
    w ∈ c.validatorStates address gasTip entries := mem_append_right _ hw

lemma validatorParams_of_mem {i : ℕ} {e : ValidatorEntry} (he : entries[i]? = some e)
    (hw : w ∈ validatorParams address e i) : w ∈ c.validatorStates address gasTip entries := by
  refine registryParams_of_mem ?_
  simp only [registryParams,mem_append,mem_flatMap]
  exact .inl (.inr ⟨(e,i),mem_zipIdx_iff_getElem?.mpr he,hw⟩)

namespace RegistryWrites
variable {k : Slot} {x i : ℕ} {a : Address}

section
variable (h : RegistryWrites entries k x)
include h

lemma fixed_length (hk : k = .fixed 0x33) : x=entries.length ∧ 0<entries.length := by
  have hroot := congrArg Slot.root hk
  cases h with
  | length h => exact ⟨rfl,h⟩
  | value => cases hk
  | other h => exact absurd (by simp [hroot]) h
  | _ => simp at hroot

lemma element_values (hk : k = calculateDynamicSlot (.fixed 0x33) i) :
    ∃ e, entries[i]? = some e ∧ x=e.validator.toNat := by
  have hroot := congrArg Slot.root hk
  cases h with
  | value he =>
    cases hk
    exact ⟨_,he,rfl⟩
  | length => cases hk
  | other h => exact absurd (by simp [hroot]) h
  | _ => simp at hroot

lemma mapping_positions (hk : k = calculateMappingSlot (.fixed 0x34) a.toNat) :
    ∃ i e, entries[i]? = some e ∧ e.validator=a ∧ x = i+1 := by
  have hroot := congrArg Slot.root hk
  cases h with
  | position he => exact ⟨_,_,he,(mappingSlot_address_inj.mp hk).2,rfl⟩
  | other h => exact absurd (by simp [hroot]) h
  | _ => simp at hroot

end

end RegistryWrites

lemma lists_registry : Lists address (c.validatorStates address gasTip entries) 0x33 0x34
    (entries.map ValidatorEntry.validator) where
  length := by
    rw [length_map]
    by_cases hpos : 0<entries.length
    · exact storageOf_eq_of_table (fun _ => registryWrites_of_mem)
        (registryParams_of_mem (by simp [registryParams,hpos])) fun y hy => (hy.fixed_length rfl).1
    · rw [Nat.eq_zero_of_not_pos hpos]
      exact storageOf_eq_zero_of_table (fun _ => registryWrites_of_mem) fun y hy => hpos (hy.fixed_length rfl).2
  element i a ha := by
    obtain ⟨e,he,rfl⟩ := Option.map_eq_some_iff.mp (List.getElem?_map.symm.trans ha)
    exact validatorParams_of_mem he (by simp [validatorParams])
  position i a ha := by
    obtain ⟨e,he,rfl⟩ := Option.map_eq_some_iff.mp (List.getElem?_map.symm.trans ha)
    exact validatorParams_of_mem he (by simp [validatorParams])
  of_element w hw i hk := by
    obtain ⟨e,he,hx⟩ := (registryWrites_of_mem hw).element_values hk
    exact ⟨e.validator,by simp [he],hx⟩
  of_position w hw a hk := by
    obtain ⟨i,e,he,rfl,hx⟩ := (registryWrites_of_mem hw).mapping_positions hk
    exact ⟨i,by simp [he],hx⟩

end

lemma indexed_of_initializeValidator {address : Address} {states : List StateParam}
    (h : initializeValidator address param = .ok states) :
    Indexed (setValues (storageOf address states) 0x33) (setPositions (storageOf address states) 0x34) := by
  obtain ⟨c,gasTip,entries,_,hentries,rfl⟩ := initializeValidator_eq_ok h
  exact lists_registry.indexed (nodup_validatorEntries hentries)

def genesisValidator {address : Address} {param : Params} {states : List StateParam}
    (h : initializeValidator address param = .ok states) : Contract ValidatorAction Registry :=
  ⟨baseOfStorage (storageOf address states),
    registryOfStorage (storageOf address states) (indexed_of_initializeValidator h)⟩

end StableNet.Genesis
