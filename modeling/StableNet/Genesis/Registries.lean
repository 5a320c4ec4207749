import StableNet.Genesis.GovMasterMinter
import StableNet.Gov.ValidatorRegistry

/-! The maps of the registries that the chain starts from. Of what is listed twice, the later write hides the earlier
one. -/
namespace StableNet.Genesis
open Chain (Address Bytes)
open Lib Gov List
variable {entries : List ValidatorEntry} {e : ValidatorEntry}

/-- A word of a long `bytes` variable, padded with zeros. -/
def chunk (data : Bytes) (i : ℕ) : Bytes :=
  (data.drop (32*i)).take 32++List.replicate (32-((data.drop (32*i)).take 32).length) 0

lemma length_chunk (data : Bytes) (i : ℕ) : (chunk data i).length = 32 := by
  simp only [chunk,length_append,length_replicate,length_take]
  omega

lemma chunk_succ (data : Bytes) (i : ℕ) : chunk data (i+1) = chunk (data.drop 32) i := by
  simp only [chunk,drop_drop,Nat.mul_succ,Nat.add_comm 32]

theorem flatMap_chunk {n : ℕ} {data : Bytes} (h : data.length ≤ 32*n) :
    (List.range n).flatMap (chunk data) = data++List.replicate (32*n-data.length) 0 := by
  induction n generalizing data with
  | zero =>
    obtain rfl := length_eq_zero_iff.mp (Nat.le_zero.mp h)
    rfl
  | succ n ih =>
    rw [range_succ_eq_map,flatMap_cons,flatMap_map]
    simp only [chunk_succ]
    rw [ih (by rw [length_drop]; omega)]
    by_cases hlong : 32 ≤ data.length
    · have hfirst : chunk data 0 = data.take 32 := by simp [chunk,hlong]
      rw [hfirst,← append_assoc,take_append_drop,length_drop]
      congr 2
      omega
    · have hfirst : chunk data 0 = data++List.replicate (32-data.length) 0 := by
        simp [chunk,take_of_length_le (Nat.le_of_not_le hlong)]
      rw [hfirst,drop_of_length_le (Nat.le_of_not_le hlong),nil_append,append_assoc,replicate_append_replicate]
      congr 2
      simp only [length_nil]
      omega

theorem getBytes_of_words {st : Slot → ℕ} {baseSlot : Slot} {data : Bytes}
    (h : ∀ i x, (varLenBytesToMultipleHash data)[i]? = some x → st (wordSlot baseSlot i) = x) :
    getBytes st baseSlot=data := by
  unfold varLenBytesToMultipleHash at h
  dsimp only at h
  split at h
  · rename_i hlength
    have hread : st baseSlot=0 := h 0 0 rfl
    rw [getBytes,hread,length_eq_zero_iff.mp hlength]
    rfl
  · rename_i hlength
    split at h
    · rename_i hshort
      set word := data++List.replicate (31-data.length) 0++[BitVec.ofNat 8 (2*data.length)] with hword
      have hread : st baseSlot = BigEndian.decode word := h 0 _ rfl
      have hvalue : BigEndian.decode word =
          BigEndian.decode (data++List.replicate (31-data.length) 0)*256+2*data.length := by
        rw [hword,BigEndian.decode_append_singleton,BitVec.toNat_ofNat,Nat.mod_eq_of_lt (by omega)]
      have hlen : word.length=32 := by
        rw [hword]
        simp only [length_append,length_replicate,length_singleton]
        omega
      have hencode : BigEndian.encode 32 (BigEndian.decode word) = word := by
        rw [← hlen]
        exact BigEndian.encode_decode word
      have htake : BigEndian.decode word%256/2 = data.length := by omega
      rw [getBytes,hread,if_neg (by omega),if_pos (by omega),hencode,htake,hword,append_assoc,take_left']
      rfl
    · rename_i hlong
      have hread : st baseSlot = 2*data.length+1 := h 0 _ rfl
      have hwords : ∀ i<(data.length+31)/32,
          BigEndian.encode 32 (st (calculateDynamicSlot baseSlot i)) = chunk data i := by
        intro i hi
        have hword : st (calculateDynamicSlot baseSlot i) = BigEndian.decode (chunk data i) := by
          refine h (i+1) _ ?_
          rw [List.getElem?_cons_succ,List.getElem?_map,List.getElem?_range hi]
          rfl
        rw [hword,← length_chunk data i,BigEndian.encode_decode]
      have hhalf : (2*data.length+1)/2 = data.length := by omega
      rw [getBytes,hread,if_neg (by omega),if_neg (by omega),hhalf,
        flatMap_congr fun i hi => hwords i (mem_range.mp hi), flatMap_chunk (by omega),take_left']
      rfl

/-- The validators that the parameters list, with their members and keys, repetitions included. -/
def listedEntries (param : Params) : List ValidatorEntry :=
  List.zipWith (fun m e => ⟨hexToAddress m,hexToAddress e.1,fromHex e.2⟩)
    (splitAndTrim ((param "members").getD ""))
    ((splitAndTrim ((param "validators").getD "")).zip (splitAndTrim ((param "blsPublicKeys").getD "")))

def IsFirst (entries : List ValidatorEntry) (e : ValidatorEntry) : Prop :=
  ∃ before after, entries = before++e::after ∧ e.validator ∉ before.map ValidatorEntry.validator

lemma IsFirst.mem (h : IsFirst entries e) : e ∈ entries := by
  obtain ⟨before,after,rfl,_⟩ := h
  exact mem_append_right _ mem_cons_self

/-- Nothing that counts is listed twice, no validator is the zero address, and the keys fill a word. -/
structure Unambiguous (entries : List ValidatorEntry) : Prop where
  validator_ne : ∀ e, IsFirst entries e → e.validator≠0
  member_inj : ∀ e e', IsFirst entries e → IsFirst entries e' → e.member=e'.member → e.validator=e'.validator
  key_length : ∀ e, IsFirst entries e → 32 ≤ e.blsKey.length
  key_inj : ∀ e e', IsFirst entries e → IsFirst entries e' → e.blsKey=e'.blsKey → e.validator=e'.validator

lemma isFirst_append_singleton {x : ValidatorEntry} : IsFirst (entries++[x]) e ↔
      IsFirst entries e ∨ e=x ∧ x.validator ∉ entries.map ValidatorEntry.validator := by
  constructor
  · rintro ⟨before,after,heq,hnew⟩
    rcases eq_nil_or_concat after with rfl | ⟨after',y,rfl⟩
    · obtain ⟨rfl,hx⟩ := append_inj' heq rfl
      cases hx
      exact .inr ⟨rfl,hnew⟩
    · refine .inl ⟨before,after',?_,hnew⟩
      have heq' : entries++[x] = (before++e::after')++[y] := by simpa using heq
      exact (append_inj' heq' rfl).1
  · rintro (⟨before,after,rfl,hnew⟩ | ⟨rfl,hnew⟩)
    · exact ⟨before,after++[x],by simp,hnew⟩
    · exact ⟨entries,[],rfl,hnew⟩

lemma uniqueEntries_append_singleton (entries : List ValidatorEntry) (x : ValidatorEntry) :
    uniqueEntries (entries++[x]) =
      if x.validator ∈ (uniqueEntries entries).map ValidatorEntry.validator then uniqueEntries entries
      else uniqueEntries entries++[x] := by
  simp [uniqueEntries]

lemma mem_validators_uniqueEntries {v : Address} :
    v ∈ (uniqueEntries entries).map ValidatorEntry.validator ↔ v ∈ entries.map ValidatorEntry.validator := by
  induction entries using List.reverseRecOn generalizing v with
  | nil => rfl
  | append_singleton entries x ih =>
    rw [uniqueEntries_append_singleton]
    split
    · rename_i hold
      rw [ih,map_append,mem_append]
      refine ⟨.inl,fun hv => hv.elim id fun hv => ?_⟩
      rw [map_singleton,mem_singleton] at hv
      rw [hv]
      exact ih.mp hold
    · rw [map_append,mem_append,ih,map_append,mem_append]

lemma mem_uniqueEntries : e ∈ uniqueEntries entries ↔ IsFirst entries e := by
  induction entries using List.reverseRecOn with
  | nil =>
    refine iff_of_false not_mem_nil ?_
    rintro ⟨before,after,heq,_⟩
    simp at heq
  | append_singleton entries x ih =>
    rw [uniqueEntries_append_singleton,isFirst_append_singleton,← ih]
    split
    · rename_i hold
      exact ⟨.inl,fun h => h.elim id fun h => absurd (mem_validators_uniqueEntries.mp hold) h.2⟩
    · rename_i hnew
      rw [mem_append,mem_singleton]
      exact or_congr_right ⟨fun h => ⟨h,fun hold => hnew (mem_validators_uniqueEntries.mpr hold)⟩,And.left⟩

lemma validatorEntries_eq_ok {param : Params}
    (h : validatorEntries param = .ok entries) : entries = uniqueEntries (listedEntries param) := by
  unfold validatorEntries at h
  split at h
  · rename_i hvalidators _
    cases h
    have hnone : splitAndTrim "" = [] := by decide
    simp [listedEntries,hvalidators,hnone,uniqueEntries]
  · cases h
  · cases h
  · rename_i validators blsKeys hvalidators hkeys
    obtain ⟨_,h⟩ := ok_of_bind h
    obtain ⟨_,h⟩ := ok_of_bind h
    cases h
    rw [listedEntries,hvalidators,hkeys]
    rfl

section
variable {c : BaseConfig} {param : Params} (hc : c.Valid param) (he : e ∈ listedEntries param)
include hc he

lemma member_mem : ∃ m, c.members = some m ∧ e.member ∈ m.2 := by
  obtain ⟨i,hi⟩ := mem_iff_getElem?.mp he
  obtain ⟨m,v,hm,_,rfl⟩ := List.getElem?_zipWith_eq_some.mp hi
  exact hc.listed _ (mem_map_of_mem (mem_of_getElem? hm))

lemma member_ne_zero : e.member≠0 := by
  obtain ⟨m,hm,hmem⟩ := member_mem hc he
  exact (hc.members m hm).2.1 _ hmem

end

section
variable {address : Address} {c : BaseConfig} {gasTip : ℕ}

namespace RegistryWrites
variable {k : Slot} {x i : ℕ} {a : Address}

lemma operator_inv (h : RegistryWrites entries k x) (hk : k = calculateMappingSlot (.fixed 0x35) a.toNat) :
    ∃ e ∈ entries, e.validator=a ∧ x=e.member.toNat := by
  have hroot := congrArg Slot.root hk
  cases h with
  | operator he => exact ⟨_,he,(mappingSlot_address_inj.mp hk).2,rfl⟩
  | other h => exact absurd (by simp [hroot]) h
  | _ => simp at hroot

lemma validator_inv (h : RegistryWrites entries k x) (hk : k = calculateMappingSlot (.fixed 0x36) a.toNat) :
    ∃ e ∈ entries, e.member=a ∧ x=e.validator.toNat := by
  have hroot := congrArg Slot.root hk
  cases h with
  | validator he => exact ⟨_,he,(mappingSlot_address_inj.mp hk).2,rfl⟩
  | other h => exact absurd (by simp [hroot]) h
  | _ => simp at hroot

lemma wordSlot_inj {j : ℕ} {b : Address}
    (h : wordSlot (calculateMappingSlot (.fixed 0x37) a.toNat) i =
      wordSlot (calculateMappingSlot (.fixed 0x37) b.toNat) j) :
    a=b ∧ i=j := by
  cases i with
  | zero =>
    cases j with
    | zero => exact ⟨(mappingSlot_address_inj.mp h).2,rfl⟩
    | succ j => cases h
  | succ i =>
    cases j with
    | zero => cases h
    | succ j =>
      obtain ⟨hslot,hi⟩ := Slot.element.inj h
      exact ⟨(mappingSlot_address_inj.mp hslot).2,congrArg Nat.succ hi⟩

lemma word_inv (h : RegistryWrites entries k x) (hk : k = wordSlot (calculateMappingSlot (.fixed 0x37) a.toNat) i) :
    ∃ e ∈ entries, e.validator=a ∧ (varLenBytesToMultipleHash e.blsKey)[i]? = some x := by
  have hroot := congrArg Slot.root hk
  cases h with
  | word he hx =>
    obtain ⟨ha,rfl⟩ := wordSlot_inj hk
    exact ⟨_,he,ha,hx⟩
  | other h => exact absurd (by simp [hroot]) h
  | _ => simp at hroot

lemma key_inv {blsKey : Bytes} (h : RegistryWrites entries k x) (hk : k = .mapping (.fixed 0x38) blsKey) :
    ∃ e ∈ entries, blsKeySlot e.blsKey = .mapping (.fixed 0x38) blsKey ∧ x=e.validator.toNat := by
  have hroot : k.root = 0x38 := congrArg Slot.root hk
  cases h with
  | key he => exact ⟨_,he,hk,rfl⟩
  | other h => exact absurd (by simp [hroot]) h
  | _ => simp at hroot

end RegistryWrites

structure ReadsAs (entries : List ValidatorEntry) (r : Registry) : Prop where
  values : r.validators.values = entries.map ValidatorEntry.validator
  operator : ∀ e ∈ entries, r.validatorToOperator e.validator=e.member
  blsKey : ∀ e ∈ entries, r.validatorToBlsKey e.validator=e.blsKey
  validator : ∀ e ∈ entries, (∀ e' ∈ entries, e.member=e'.member → e.validator=e'.validator) →
    r.operatorToValidator e.member=e.validator
  key : ∀ e ∈ entries, 32 ≤ e.blsKey.length → (∀ e' ∈ entries, 32 ≤ e'.blsKey.length) →
    (∀ e' ∈ entries, e.blsKey=e'.blsKey → e.validator=e'.validator) → r.blsKeyToValidator e.blsKey=e.validator
  of_operator : ∀ v, r.validatorToOperator v≠0 → ∃ e ∈ entries, e.validator=v
  of_blsKey : ∀ v, r.validatorToBlsKey v ≠ [] → ∃ e ∈ entries, e.validator=v
  of_validator : ∀ m, r.operatorToValidator m≠0 → ∃ e ∈ entries, e.member=m
  of_key : ∀ k, r.blsKeyToValidator k≠0 → 32 ≤ k.length ∧
    ((∀ e ∈ entries, 32 ≤ e.blsKey.length) → ∃ e ∈ entries, e.blsKey=k)

lemma blsKeySlot_of_length {blsKey : Bytes} (h : 32 ≤ blsKey.length) :
    blsKeySlot blsKey = .mapping (.fixed 0x38) blsKey := by
  rw [blsKeySlot,Nat.sub_eq_zero_of_le h]
  rfl

lemma validatorParams_mem {e : ValidatorEntry} (he : e ∈ entries) {w : StateParam}
    (hw : ∀ i, w ∈ validatorParams address e i) : w ∈ c.validatorStates address gasTip entries := by
  obtain ⟨i,hi⟩ := mem_iff_getElem?.mp he
  exact validatorParams_of_mem hi (hw i)

theorem ofNat_storageOf_eq {k : Slot} {v : Address} {e : ValidatorEntry} (he : e ∈ entries)
    (hw : ∀ i, ⟨address,k,v.toNat⟩ ∈ validatorParams address e i)
    (hunique : ∀ y, RegistryWrites entries k y → y=v.toNat) :
    BitVec.ofNat 160 (storageOf address (c.validatorStates address gasTip entries) k) = v := by
  rw [storageOf_eq_of_table (fun _ => registryWrites_of_mem) (validatorParams_mem he hw) hunique, BitVec.ofNat_toNat,
    BitVec.setWidth_eq]

lemma exists_registryWrites {k : Slot}
    (h : BitVec.ofNat 160 (storageOf address (c.validatorStates address gasTip entries) k)≠0) :
    ∃ x, RegistryWrites entries k x := by
  by_contra hnone
  rw [storageOf_eq_zero_of_table (fun _ => registryWrites_of_mem) fun x hx => hnone ⟨x,hx⟩] at h
  exact h rfl

lemma getBytes_eq_blsKey {e : ValidatorEntry} (he : e ∈ entries)
    (hinj : ∀ e' ∈ entries, e'.validator=e.validator → e'=e) :
    getBytes (storageOf address (c.validatorStates address gasTip entries))
      (calculateMappingSlot (.fixed 0x37) e.validator.toNat) = e.blsKey := by
  refine getBytes_of_words fun i x hx => ?_
  refine storageOf_eq_of_table (fun _ => registryWrites_of_mem) (validatorParams_mem he fun j => ?_) fun y hy => ?_
  · simp only [validatorParams,makeMultipleParam_eq,mem_append,mem_map]
    exact .inl (.inr ⟨(x,i),mem_zipIdx_iff_getElem?.mpr hx,rfl⟩)
  · obtain ⟨e',he',hv,hy⟩ := hy.word_inv rfl
    rw [hinj e' he' hv] at hy
    exact Option.some.inj (hy.symm.trans hx)

lemma exists_of_getBytes_ne_nil {v : Address}
    (h : getBytes (storageOf address (c.validatorStates address gasTip entries))
      (calculateMappingSlot (.fixed 0x37) v.toNat) ≠ []) : ∃ e ∈ entries, e.validator=v := by
  by_contra hnone
  have hread : storageOf address (c.validatorStates address gasTip entries)
      (calculateMappingSlot (.fixed 0x37) v.toNat)=0 :=
    storageOf_eq_zero_of_table (fun _ => registryWrites_of_mem) fun x hx => by
      obtain ⟨e,he,hv,_⟩ := hx.word_inv (i := 0) rfl
      exact hnone ⟨e,he,hv⟩
  refine h ?_
  simp only [getBytes,hread,if_true]

lemma readsAs_registry (hnodup : (entries.map ValidatorEntry.validator).Nodup)
    (hindexed : Indexed (setValues (storageOf address (c.validatorStates address gasTip entries)) 0x33)
      (setPositions (storageOf address (c.validatorStates address gasTip entries)) 0x34)) :
    ReadsAs entries
      (registryOfStorage (storageOf address (c.validatorStates address gasTip entries)) hindexed) := by
  have hinj : ∀ e ∈ entries, ∀ e' ∈ entries, e'.validator=e.validator → e'=e := fun e he e' he' =>
    inj_on_of_nodup_map hnodup he' he
  constructor
  · exact lists_registry.setValues_eq
  · intro e he
    refine ofNat_storageOf_eq he (fun i => by simp [validatorParams]) fun y hy => ?_
    obtain ⟨e',he',hv,rfl⟩ := hy.operator_inv rfl
    rw [hinj e he e' he' hv]
  · exact fun e he => getBytes_eq_blsKey he (hinj e he)
  · intro e he hsame
    refine ofNat_storageOf_eq he (fun i => by simp [validatorParams]) fun y hy => ?_
    obtain ⟨e',he',hm,rfl⟩ := hy.validator_inv rfl
    rw [hsame e' he' hm.symm]
  · intro e he hlength hlengths hsame
    refine ofNat_storageOf_eq he (fun i => ?_) fun y hy => ?_
    · rw [← blsKeySlot_of_length hlength]
      simp [validatorParams]
    · obtain ⟨e',he',hk,rfl⟩ := hy.key_inv rfl
      rw [blsKeySlot_of_length (hlengths e' he')] at hk
      rw [hsame e' he' (Slot.mapping.inj hk).2.symm]
  · intro v hv
    obtain ⟨x,hx⟩ := exists_registryWrites hv
    obtain ⟨e,he,hv,_⟩ := hx.operator_inv rfl
    exact ⟨e,he,hv⟩
  · exact fun v hv => exists_of_getBytes_ne_nil hv
  · intro m hm
    obtain ⟨x,hx⟩ := exists_registryWrites hm
    obtain ⟨e,he,hm,_⟩ := hx.validator_inv rfl
    exact ⟨e,he,hm⟩
  · intro k hk
    obtain ⟨x,hx⟩ := exists_registryWrites hk
    obtain ⟨e,he,hslot,_⟩ := hx.key_inv rfl
    have hpadded := (Slot.mapping.inj hslot).2
    constructor
    · rw [← hpadded,length_append,length_replicate]
      omega
    · intro hlengths
      rw [blsKeySlot_of_length (hlengths e he)] at hslot
      exact ⟨e,he,(Slot.mapping.inj hslot).2⟩

end

namespace ReadsAs
variable {r : Registry}

section
variable (h : ReadsAs (uniqueEntries entries) r)
include h

lemma mem_values {v : Address} : v ∈ r.validators.values ↔ ∃ e ∈ uniqueEntries entries, e.validator=v := by
  rw [h.values]
  exact mem_map

section
variable (hmember : ∀ e ∈ uniqueEntries entries, e.member≠0)
include hmember

/-- Two entries that share what a map keeps apart could not both be read back. -/
theorem unambiguous (hr : r.Bijective) : Unambiguous entries := by
  have hv : ∀ e ∈ uniqueEntries entries, e.validator≠0 := by
    intro e he hv
    refine (hr.operated e.validator).mp (h.mem_values.mpr ⟨e,he,rfl⟩) ?_
    rw [hv]
    exact hr.operators.right
  have hkey : ∀ e ∈ uniqueEntries entries, r.blsKeyToValidator e.blsKey=e.validator := by
    intro e he
    have hne := (hr.keyed e.validator).mp (h.mem_values.mpr ⟨e,he,rfl⟩)
    rw [← h.blsKey e he]
    exact hr.keys.right_eq hne
  constructor
  · exact fun e he => hv e (mem_uniqueEntries.mpr he)
  · intro e e' he he' hm
    have he := mem_uniqueEntries.mpr he
    have he' := mem_uniqueEntries.mpr he'
    have hop := (hr.operators.iff e.member e.validator (hmember e he) (hv e he)).mpr (h.operator e he)
    have hop' := (hr.operators.iff e'.member e'.validator (hmember e' he') (hv e' he')).mpr (h.operator e' he')
    rw [← hop,← hop',hm]
  · intro e he
    have he := mem_uniqueEntries.mpr he
    exact (h.of_key e.blsKey (hkey e he ▸ hv e he)).1
  · intro e e' he he' hk
    rw [← hkey e (mem_uniqueEntries.mpr he),← hkey e' (mem_uniqueEntries.mpr he'),hk]

lemma bijective (hu : Unambiguous entries) : r.Bijective := by
  have hlengths : ∀ e ∈ uniqueEntries entries, 32 ≤ e.blsKey.length := fun e he =>
    hu.key_length e (mem_uniqueEntries.mp he)
  have hne : ∀ e ∈ uniqueEntries entries, e.blsKey ≠ [] := fun e he hnil => by
    have := hlengths e he
    simp [hnil] at this
  constructor
  · refine Inverse.of_pairs (P := fun m v => ∃ e ∈ uniqueEntries entries, e.member=m ∧ e.validator=v) ?_ ?_ ?_ ?_ ?_
    · rintro m v ⟨e,he,rfl,rfl⟩
      exact h.validator e he fun e' he' => hu.member_inj e e' (mem_uniqueEntries.mp he) (mem_uniqueEntries.mp he')
    · rintro m v ⟨e,he,rfl,rfl⟩
      exact h.operator e he
    · intro m hm
      obtain ⟨e,he,rfl⟩ := h.of_validator m hm
      exact ⟨_,e,he,rfl,rfl⟩
    · intro v hv
      obtain ⟨e,he,rfl⟩ := h.of_operator v hv
      exact ⟨_,e,he,rfl,rfl⟩
    · rintro m v ⟨e,he,rfl,rfl⟩
      exact ⟨hmember e he,hu.validator_ne e (mem_uniqueEntries.mp he)⟩
  · refine Inverse.of_pairs (P := fun v k => ∃ e ∈ uniqueEntries entries, e.validator=v ∧ e.blsKey=k) ?_ ?_ ?_ ?_ ?_
    · rintro v k ⟨e,he,rfl,rfl⟩
      exact h.blsKey e he
    · rintro v k ⟨e,he,rfl,rfl⟩
      exact h.key e he (hlengths e he) hlengths fun e' he' =>
        hu.key_inj e e' (mem_uniqueEntries.mp he) (mem_uniqueEntries.mp he')
    · intro v hv
      obtain ⟨e,he,rfl⟩ := h.of_blsKey v hv
      exact ⟨_,e,he,rfl,rfl⟩
    · intro k hk
      obtain ⟨e,he,rfl⟩ := (h.of_key k hk).2 hlengths
      exact ⟨_,e,he,rfl,rfl⟩
    · rintro v k ⟨e,he,rfl,rfl⟩
      exact ⟨hu.validator_ne e (mem_uniqueEntries.mp he),hne e he⟩
  · intro v
    rw [h.mem_values]
    constructor
    · rintro ⟨e,he,rfl⟩
      rw [h.operator e he]
      exact hmember e he
    · exact h.of_operator v
  · intro v
    rw [h.mem_values]
    constructor
    · rintro ⟨e,he,rfl⟩
      rw [h.blsKey e he]
      exact hne e he
    · exact h.of_blsKey v

theorem bijective_iff : r.Bijective ↔ Unambiguous entries := ⟨h.unambiguous hmember,h.bijective hmember⟩

end

end

end ReadsAs

lemma readsAs_of_initializeValidator {address : Address} {param : Params} {states : List StateParam}
    (h : initializeValidator address param = .ok states) :
    ReadsAs (uniqueEntries (listedEntries param)) (genesisValidator h).own ∧
      ∀ e ∈ uniqueEntries (listedEntries param), e.member≠0 := by
  obtain ⟨c,gasTip,entries,hc,hentries,hstates⟩ := initializeValidator_eq_ok h
  have hnodup := nodup_validatorEntries hentries
  have hentries := validatorEntries_eq_ok hentries
  subst hstates
  subst hentries
  exact ⟨readsAs_registry hnodup _,fun e he => member_ne_zero hc (mem_uniqueEntries.mp he).mem⟩

section
variable {address : Address} {param : Params} {states : List StateParam}
  (h : initializeValidator address param = .ok states)
include h

lemma gov_genesisValidator : ∃ c : BaseConfig, c.Valid param ∧ (genesisValidator h).gov = c.base address := by
  obtain ⟨c,gasTip,entries,hc,_,rfl⟩ := initializeValidator_eq_ok h
  refine ⟨c,hc,baseOfStorage_congr fun k hk => storageOf_append_of_ne fun w hw he => ?_⟩
  have hroot := (registryParams_within hw).2
  simp only [he,mem_cons,not_mem_nil,or_false] at hroot
  omega

/-- From unambiguous parameters whose keys have their length, the registry starts paired with the members. -/
theorem paired_genesisValidator (hu : Unambiguous (listedEntries param))
    (hlength : ∀ e, IsFirst (listedEntries param) e → e.blsKey.length=Registry.blsPublicKeyLength) :
    Paired (genesisValidator h).gov.active (genesisValidator h).own := by
  obtain ⟨c,hc,hgov⟩ := gov_genesisValidator h
  obtain ⟨hreads,hmember⟩ := readsAs_of_initializeValidator h
  have hactive (a : Address) : (genesisValidator h).gov.active a = true ↔ ∃ m, c.members = some m ∧ a ∈ m.2 := by
    rw [hgov]
    exact BaseConfig.isActive_base
  refine ⟨hreads.bijective hmember hu,Bool.eq_false_iff.mpr fun hzero => ?_,fun m hm => ?_,fun v hv => ?_⟩
  · obtain ⟨m,hm,hmem⟩ := (hactive 0).mp hzero
    exact (hc.members m hm).2.1 0 hmem rfl
  · obtain ⟨e,he,rfl⟩ := hreads.of_validator m hm
    exact (hactive _).mpr (member_mem hc (mem_uniqueEntries.mp he).mem)
  · obtain ⟨e,he,rfl⟩ := hreads.mem_values.mp hv
    rw [hreads.blsKey e he]
    exact hlength e (mem_uniqueEntries.mp he)

end

/-- The registries that accepted parameters describe are as the contracts keep them exactly if the parameters
list nothing twice that counts, no validator is the zero address and no key is shorter than a word. -/
theorem genesis_registries (address : Address) (param : Params) (states : List StateParam) :
    (∀ h : initializeValidator address param = .ok states,
      (genesisValidator h).own.Bijective ↔ Unambiguous (listedEntries param)) ∧
    (initializeMasterMinter address param = .ok states → ∀ token,
      (masterMinterOfStorage (storageOf address states) token).Consistent ↔ (listedMinters param).Nodup) := by
  refine ⟨fun h => ?_,fun h token => (registers_of_initializeMasterMinter h).consistent_iff token⟩
  obtain ⟨hreads,hmember⟩ := readsAs_of_initializeValidator h
  exact hreads.bijective_iff hmember

namespace TwoEntries

/-- The shortest keys that fill a word; their length is not checked. -/
def key (last : String) : String :=
  "b1ae18fdcbcc6a80d7a0c4cfec1a04bc1bee78e519eaadd689108077d946e0" ++ last

def param (blsPublicKeys minters : String) : Params
  | "members" => some "a1,a2"
  | "quorum" => some "2"
  | "expiry" => some "604800"
  | "memberVersion" => some "1"
  | "validators" => some "e1,e2"
  | "blsPublicKeys" => some blsPublicKeys
  | "minters" => some minters
  | _ => none

def distinct : Params := param (key "f6" ++ "," ++ key "f7") "d1,d2"

/-- The validators share a key, and the minters are one and the same. -/
def repeated : Params := param (key "f6" ++ "," ++ key "f6") "d1,d1"

def blsKey (last : ℕ) : Bytes :=
  BigEndian.encode 32 (0xb1ae18fdcbcc6a80d7a0c4cfec1a04bc1bee78e519eaadd689108077d946e000+last)

lemma listed_distinct : listedEntries distinct = [⟨0xa1,0xe1,blsKey 0xf6⟩,⟨0xa2,0xe2,blsKey 0xf7⟩] := by
  decide +kernel

lemma unambiguous_distinct : Unambiguous (listedEntries distinct) := by
  have hentries : ∀ e, IsFirst (listedEntries distinct) e →
      e = ⟨0xa1,0xe1,blsKey 0xf6⟩ ∨ e = ⟨0xa2,0xe2,blsKey 0xf7⟩ := by
    rintro e ⟨before,after,heq,_⟩
    have hmem : e ∈ listedEntries distinct := heq ▸ mem_append_right _ mem_cons_self
    simpa [listed_distinct] using hmem
  constructor
  · intro e he
    rcases hentries e he with rfl | rfl <;> decide
  · intro e e' he he' hm
    rcases hentries e he with rfl | rfl <;> rcases hentries e' he' with rfl | rfl <;> revert hm <;> decide
  · intro e he
    rcases hentries e he with rfl | rfl <;> decide +kernel
  · intro e e' he he' hm
    rcases hentries e he with rfl | rfl <;> rcases hentries e' he' with rfl | rfl <;> revert hm <;> decide +kernel

/-- With distinct keys and minters both registries are sound. -/
theorem distinct_registries :
    (∃ states, ∃ h : initializeValidator 0x1001 distinct = .ok states, (genesisValidator h).own.Bijective) ∧
    ∃ states, initializeMasterMinter 0x1002 distinct = .ok states ∧ ∀ token,
      (masterMinterOfStorage (storageOf 0x1002 states) token).Consistent := by
  obtain ⟨states,h,_⟩ := exists_of_holds (x := initializeValidator 0x1001 distinct) (P := fun _ => true)
    (by decide +kernel)
  obtain ⟨states',h',_⟩ := exists_of_holds (x := initializeMasterMinter 0x1002 distinct) (P := fun _ => true)
    (by decide +kernel)
  refine ⟨⟨states,h,((genesis_registries _ _ _).1 h).mpr unambiguous_distinct⟩,states',h',fun token => ?_⟩
  exact ((genesis_registries _ _ _).2 h' token).mpr (by decide +kernel)

/-- The first validator keeps a key that leads to the second one, and the only minter stands twice in the list. -/
theorem repeated_registries : (∃ states, ∃ h : initializeValidator 0x1001 repeated = .ok states,
      (genesisValidator h).own.validatorToBlsKey 0xe1 = blsKey 0xf6 ∧
      (genesisValidator h).own.blsKeyToValidator (blsKey 0xf6) = 0xe2 ∧ ¬ (genesisValidator h).own.Bijective) ∧
    ∃ states, initializeMasterMinter 0x1002 repeated = .ok states ∧ ∀ token,
      (masterMinterOfStorage (storageOf 0x1002 states) token).minterList = [0xd1,0xd1] ∧
      ¬ (masterMinterOfStorage (storageOf 0x1002 states) token).Consistent := by
  obtain ⟨states,h,hreads⟩ := exists_of_holds (x := initializeValidator 0x1001 repeated)
    (P := fun states =>
      getBytes (storageOf 0x1001 states) (calculateMappingSlot (.fixed 0x37) 0xe1) = blsKey 0xf6 &&
      BitVec.ofNat 160 (storageOf 0x1001 states (.mapping (.fixed 0x38) (blsKey 0xf6))) = 0xe2#160)
    (by decide +kernel)
  obtain ⟨states',h',hlist⟩ := exists_of_holds (x := initializeMasterMinter 0x1002 repeated)
    (P := fun states => setValues (storageOf 0x1002 states) 0x35 = [0xd1,0xd1]) (by decide +kernel)
  simp only [Bool.and_eq_true,decide_eq_true_eq] at hreads
  refine ⟨⟨states,h,hreads.1,hreads.2,fun hr => ?_⟩,states',h',fun token => ⟨of_decide_eq_true hlist,fun hm => ?_⟩⟩
  · have hread : (genesisValidator h).own.validatorToBlsKey 0xe1 = blsKey 0xf6 := hreads.1
    have hkey := hr.keys.right_eq (a := 0xe1) (hread ▸ by decide +kernel)
    rw [hread] at hkey
    exact absurd (hkey.symm.trans hreads.2) (by decide)
  · have hnodup : ([0xd1,0xd1] : List Address).Nodup := of_decide_eq_true hlist ▸ hm.indexed.nodup
    simp at hnodup

end TwoEntries

end StableNet.Genesis
