import StableNet.Evm.StateDB
import StableNet.Genesis.Registries

/-! `bytes` variables in the storage of a contract, where slots are words found with keccak: what either encoder writes
is what `GetBytes` reads. -/
namespace StableNet.Genesis.BytesCodec
open Chain (Address Bytes)
open Lib BigEndian List
open Evm (Word)

/-- A byte slice, whose length is an `int`. -/
structure Slice where
  bytes : Bytes
  length_lt : bytes.length<2^63

abbrev SlotMap := AList fun _ : Word => Word

section
variable (keccak : Bytes → Word) (baseSlot : Word)

def calculateDynamicSlot (index : ℕ) : Word := keccak (BigEndian.encode 32 baseSlot.toNat)+BitVec.ofNat 256 index

/-- The parameters by key and value; they are all of one contract. -/
def makeMultipleParam (value : List Word) : List (Word × Word) :=
  (baseSlot,value.headD 0)::value.tail.zipIdx.map fun e => (calculateDynamicSlot keccak baseSlot e.2,e.1)

def encodeBytesToSlots (data : Bytes) : SlotMap :=
  let length := data.length
  if length=0 then (∅ : SlotMap).insert baseSlot 0
  else if length ≤ 31 then
    let slot := data++List.replicate (31-length) 0++[BitVec.ofNat 8 (2*length)]
    (∅ : SlotMap).insert baseSlot (BitVec.ofNat 256 (BigEndian.decode slot))
  else (List.range ((length+31)/32)).foldl (fun slots i =>
      slots.insert (calculateDynamicSlot keccak baseSlot i) (BitVec.ofNat 256 (BigEndian.decode (chunk data i))))
    ((∅ : SlotMap).insert baseSlot (BitVec.ofNat 256 (2*length+1)))

/-- The first bytes of some data; a slice beyond their end panics. -/
def slice (data : Bytes) (length : ℤ) : Option Bytes :=
  if 0 ≤ length ∧ length ≤ data.length then some (data.take length.toNat) else none

/-- The bytes of a data slot. -/
def slotData (state : Word → Word) (i : ℕ) : Bytes :=
  BigEndian.encode 32 (state (calculateDynamicSlot keccak baseSlot i)).toNat

/-- The loop of `GetBytes`. -/
def collect (state : Word → Word) (bytesLength : ℤ) : ℕ → ℕ → Bytes → Bytes
  | 0, _, bytesData => bytesData
  | fuel+1, i, bytesData =>
    let bytesData := bytesData++slotData keccak baseSlot state i
    if bytesLength ≤ bytesData.length then bytesData else collect state bytesLength fuel (i+1) bytesData

/-- A round of the loop adds 32 bytes, so that the fuel lasts. -/
def getBytes (state : Word → Word) : Option Bytes :=
  let storageValue := (state baseSlot).toNat
  if storageValue=0 then some []
  else if storageValue%2=0 then slice (BigEndian.encode 32 storageValue) (storageValue%256/2 : ℕ)
  else
    let bytesLength := (BitVec.ofNat 64 (storageValue/2)).toInt
    slice (collect keccak baseSlot state bytesLength (bytesLength.toNat/32+1) 0 []) bytesLength

end

/-- The storage of a contract after the slots of a map are written to it. -/
def written (slots : SlotMap) (state : Word → Word) (key : Word) : Word := (slots.lookup key).getD (state key)

variable {keccak : Bytes → Word} {baseSlot : Word} {state : Word → Word} {data : Bytes}

lemma length_slots (n : ℕ) : ((List.range n).flatMap (slotData keccak baseSlot state)).length = 32*n := by
  induction n with
  | zero => rfl
  | succ n ih =>
    rw [range_succ,flatMap_append,length_append,ih,flatMap_singleton,slotData,length_encode,Nat.mul_succ]

theorem collect_eq {length i fuel : ℕ} (hi : i<(length+31)/32) (hfuel : (length+31)/32 ≤ i+fuel) :
    collect keccak baseSlot state length fuel i ((List.range i).flatMap (slotData keccak baseSlot state)) =
      (List.range ((length+31)/32)).flatMap (slotData keccak baseSlot state) := by
  induction fuel generalizing i with
  | zero => omega
  | succ fuel ih =>
    have hnext : (List.range i).flatMap (slotData keccak baseSlot state)++slotData keccak baseSlot state i =
        (List.range (i+1)).flatMap (slotData keccak baseSlot state) := by
      rw [range_succ,flatMap_append,flatMap_singleton]
    simp only [collect,hnext,length_slots]
    split
    · rw [show (length+31)/32 = i+1 by omega]
    · exact ih (by omega) (by omega)

/-- In the storage itself `GetBytes` reads what it reads in the model with symbolic slots. -/
theorem getBytes_eq {st : Slot → ℕ} {slot : Slot} (hbase : (state baseSlot).toNat = st slot)
    (hdata : ∀ i, (state (calculateDynamicSlot keccak baseSlot i)).toNat = st (.element slot i))
    (hshort : st slot%2=0 → st slot%256/2 ≤ 32) (hlong : st slot%2≠0 → st slot/2<2^63) :
    getBytes keccak baseSlot state = some (Genesis.getBytes st slot) := by
  have hwords : slotData keccak baseSlot state = fun i => BigEndian.encode 32 (st (.element slot i)) := by
    funext i
    rw [slotData,hdata]
  simp only [getBytes,Genesis.getBytes,hbase]
  split
  · rfl
  split
  · rename_i heven
    rw [slice,if_pos ⟨by omega,by simp only [length_encode]; have := hshort heven; omega⟩]
    rfl
  · rename_i hzero hodd
    have hlt := hlong hodd
    have hlength : (BitVec.ofNat 64 (st slot/2)).toInt = (st slot/2 : ℕ) := by
      rw [BitVec.toInt_eq_toNat_of_lt (by rw [BitVec.toNat_ofNat]; omega),BitVec.toNat_ofNat,
        Nat.mod_eq_of_lt (by omega)]
    rw [hlength,Int.toNat_natCast]
    -- a length of zero still reads a word
    by_cases hempty : st slot/2=0
    · rw [hempty,slice,if_pos ⟨le_rfl,Int.natCast_nonneg _⟩,Int.toNat_natCast,take_zero,take_zero]
    · have hcollect : collect keccak baseSlot state (st slot/2 : ℕ) (st slot/2/32+1) 0 [] =
          (List.range ((st slot/2+31)/32)).flatMap (slotData keccak baseSlot state) :=
        collect_eq (i := 0) (by omega) (by omega)
      rw [hcollect,slice,if_pos ⟨Int.natCast_nonneg _,by rw [length_slots]; omega⟩,hwords,Int.toNat_natCast]
      rfl

lemma lookup_foldl_insert {f g : ℕ → Word} {n : ℕ} (m : SlotMap) (hinj : ∀ i<n, ∀ j<n, f i = f j → i=j) :
    (∀ k, (∀ i<n, f i≠k) → ((List.range n).foldl (fun m i => m.insert (f i) (g i)) m).lookup k = m.lookup k) ∧
      ∀ i<n, ((List.range n).foldl (fun m i => m.insert (f i) (g i)) m).lookup (f i) = some (g i) := by
  induction n with
  | zero => exact ⟨fun _ _ => rfl,fun i hi => absurd hi (Nat.not_lt_zero i)⟩
  | succ n ih =>
    obtain ⟨hother,hthere⟩ := ih fun i hi j hj => hinj i (by omega) j (by omega)
    simp only [range_succ,foldl_append,foldl_cons,foldl_nil]
    constructor
    · intro k hk
      rw [AList.lookup_insert_ne (hk n (by omega)).symm]
      exact hother k fun i hi => hk i (by omega)
    · intro i hi
      by_cases hin : i=n
      · rw [hin,AList.lookup_insert]
      · rw [AList.lookup_insert_ne fun heq => hin (hinj i hi n (by omega) heq)]
        exact hthere i (by omega)

lemma calculateDynamicSlot_inj {i j : ℕ} (hi : i<2^256) (hj : j<2^256)
    (h : calculateDynamicSlot keccak baseSlot i = calculateDynamicSlot keccak baseSlot j) : i=j := by
  have hnat := congrArg BitVec.toNat ((BitVec.add_right_inj _).mp h)
  rwa [BitVec.toNat_ofNat,BitVec.toNat_ofNat,Nat.mod_eq_of_lt hi,Nat.mod_eq_of_lt hj] at hnat

/-- The slot of a word. -/
def wordSlot (keccak : Bytes → Word) (baseSlot : Word) : ℕ → Word
  | 0 => baseSlot
  | i+1 => calculateDynamicSlot keccak baseSlot i

/-- The data slots, which only long data has, are not the base slot. -/
def Apart (keccak : Bytes → Word) (baseSlot : Word) (data : Bytes) : Prop :=
  31<data.length → ∀ i<(data.length+31)/32, calculateDynamicSlot keccak baseSlot i≠baseSlot

lemma toNat_decode {word : Bytes} (h : word.length=32) :
    (BitVec.ofNat 256 (BigEndian.decode word)).toNat = BigEndian.decode word := by
  have hlt := decode_lt word
  rw [h] at hlt
  rw [BitVec.toNat_ofNat,Nat.mod_eq_of_lt (by simpa using hlt)]

lemma toNat_written {slots : SlotMap} {key value : Word} (h : slots.lookup key = some value) :
    (written slots state key).toNat = value.toNat := by
  rw [written,h]
  rfl

lemma toNat_encoded (state : Word → Word) (hlength : data.length<2^63) (hapart : Apart keccak baseSlot data) {i x : ℕ}
    (hx : (varLenBytesToMultipleHash data)[i]? = some x) :
    (written (encodeBytesToSlots keccak baseSlot data) state (wordSlot keccak baseSlot i)).toNat = x := by
  unfold varLenBytesToMultipleHash at hx
  unfold encodeBytesToSlots
  dsimp only at hx ⊢
  split at hx
  · rename_i hempty
    rw [if_pos hempty]
    cases i with
    | zero =>
      cases hx
      exact toNat_written (AList.lookup_insert _)
    | succ i => cases hx
  · rename_i hne
    rw [if_neg hne]
    split at hx
    · rename_i hshort
      rw [if_pos hshort]
      cases i with
      | zero =>
        cases hx
        refine (toNat_written (AList.lookup_insert _)).trans (toNat_decode ?_)
        simp only [length_append,length_replicate,length_singleton]
        omega
      | succ i => cases hx
    · rename_i hlong
      rw [if_neg hlong]
      have hapart := hapart (by omega)
      obtain ⟨hother,hthere⟩ := lookup_foldl_insert (f := calculateDynamicSlot keccak baseSlot)
        (g := fun i => BitVec.ofNat 256 (BigEndian.decode (chunk data i))) (n := (data.length+31)/32)
        ((∅ : SlotMap).insert baseSlot (BitVec.ofNat 256 (2*data.length+1)))
        fun i hi j hj => calculateDynamicSlot_inj (by omega) (by omega)
      cases i with
      | zero =>
        cases hx
        rw [wordSlot,toNat_written ((hother baseSlot hapart).trans (AList.lookup_insert _)),BitVec.toNat_ofNat,
          Nat.mod_eq_of_lt (by omega)]
      | succ i =>
        rw [List.getElem?_cons_succ,List.getElem?_map,Option.map_eq_some_iff] at hx
        obtain ⟨j,hj,rfl⟩ := hx
        obtain ⟨hi,rfl⟩ := List.getElem?_eq_some_iff.mp hj
        rw [getElem_range]
        rw [length_range] at hi
        exact (toNat_written (hthere i hi)).trans (toNat_decode (length_chunk data i))

lemma first_word (data : Bytes) : ∃ x, (varLenBytesToMultipleHash data)[0]? = some x ∧
    (x%2=0 → x%256/2 ≤ 32) ∧ (x%2≠0 → x/2 = data.length) := by
  unfold varLenBytesToMultipleHash
  dsimp only
  split
  · exact ⟨0,rfl,by omega,by omega⟩
  · split
    · refine ⟨_,rfl,?_,?_⟩
      · rw [decode_append_singleton,BitVec.toNat_ofNat]
        omega
      · rw [decode_append_singleton,BitVec.toNat_ofNat]
        omega
    · exact ⟨_,rfl,by omega,by omega⟩

lemma encodeBytesToSlots_eq : encodeBytesToSlots keccak baseSlot data =
    (makeMultipleParam keccak baseSlot ((varLenBytesToMultipleHash data).map (BitVec.ofNat 256))).foldl
      (fun slots e => slots.insert e.1 e.2) ∅ := by
  unfold encodeBytesToSlots varLenBytesToMultipleHash
  dsimp only
  split
  · rfl
  · split
    · rfl
    · rw [makeMultipleParam,map_cons,headD_cons,tail_cons,map_map,foldl_cons,foldl_map]
      have hzip (f : ℕ → Word) (n : ℕ) : ((List.range n).map f).zipIdx = (List.range n).map fun i => (f i,i) :=
        ext_getElem (by simp) (by simp)
      rw [hzip,foldl_map]
      rfl

/-- What either encoder writes to a slot and to its data slots is read back as the same bytes. -/
theorem bytes_read_back (keccak : Bytes → Word) (baseSlot : Word) (data : Slice) (state : Word → Word)
    (hapart : Apart keccak baseSlot data.bytes) : encodeBytesToSlots keccak baseSlot data.bytes =
      (makeMultipleParam keccak baseSlot ((varLenBytesToMultipleHash data.bytes).map (BitVec.ofNat 256))).foldl
        (fun slots e => slots.insert e.1 e.2) ∅ ∧
    getBytes keccak baseSlot (written (encodeBytesToSlots keccak baseSlot data.bytes) state) = some data.bytes := by
  refine ⟨encodeBytesToSlots_eq,?_⟩
  set after := written (encodeBytesToSlots keccak baseSlot data.bytes) state
  -- the symbolic storage with the words where the encoder has put them
  let st : Slot → ℕ
    | .element _ i => (after (calculateDynamicSlot keccak baseSlot i)).toNat
    | _ => (after baseSlot).toNat
  have hwords (i x : ℕ) (hx : (varLenBytesToMultipleHash data.bytes)[i]? = some x) :
      st (Genesis.wordSlot (.fixed 0) i) = x := by
    refine Eq.trans ?_ (toNat_encoded state data.length_lt hapart hx)
    cases i with
    | zero => rfl
    | succ i => rfl
  obtain ⟨x,hx,hshort,hlong⟩ := first_word data.bytes
  have hbase : st (.fixed 0) = x := hwords 0 x hx
  have hread : getBytes keccak baseSlot after = some (Genesis.getBytes st (.fixed 0)) := by
    refine getBytes_eq rfl (fun _ => rfl) (hbase ▸ hshort) fun hodd => ?_
    rw [hbase] at hodd ⊢
    exact (hlong hodd).trans_lt data.length_lt
  rw [hread,getBytes_of_words hwords]

theorem bytes_read_back_two_words : getBytes (fun _ => 5) 0
    (written (encodeBytesToSlots (fun _ => 5) 0 (List.replicate 33 7)) fun _ => 9) = some (List.replicate 33 7) :=
  (bytes_read_back (fun _ => 5) 0 ⟨List.replicate 33 7,by decide⟩ (fun _ => 9) fun _ => by decide).2

end StableNet.Genesis.BytesCodec
