import StableNet.Lib.BigEndian

/-! Recursive length prefix encoding. An item is a byte string or a list of items; the decoder accepts
the canonical encoding of an item and nothing else. -/
namespace StableNet.Lib.Rlp
open BigEndian List

abbrev Bytes := List (BitVec 8)

inductive Item where
  | bytes (b : Bytes)
  | list (items : List Item)

/-- What precedes a payload of `n` bytes; the offset says whether it is a string or a list. -/
def head (offset n : ℕ) : Bytes :=
  if n<56 then [BitVec.ofNat 8 (offset+n)]
  else BitVec.ofNat 8 (offset+55+(minimal n).length)::minimal n

/-- A byte below `0x80` is its own encoding. -/
def IsSingle : Bytes → Prop
  | [b] => b.toNat<0x80
  | _ => False

instance : DecidablePred IsSingle
  | [] => inferInstanceAs (Decidable False)
  | [b] => inferInstanceAs (Decidable (b.toNat<0x80))
  | _::_::_ => inferInstanceAs (Decidable False)

mutual

def encode : Item → Bytes
  | .bytes b => if IsSingle b then b else head 0x80 b.length++b
  | .list items => head 0xc0 (encodeAll items).length++encodeAll items

def encodeAll : List Item → Bytes
  | [] => []
  | x::items => encode x++encodeAll items

end

/-- The kind of the next item and the size of its payload. -/
inductive Kind where
  | byte (b : BitVec 8)
  | string (size : ℕ)
  | list (size : ℕ)

/-- A size of `k` bytes, which must be long and without leading zeros. -/
def readSize (k : ℕ) (bs : Bytes) : Option (ℕ × Bytes) :=
  if bs.length<k ∨ (bs.take k).head? = some 0 ∨ decode (bs.take k)<56 then none
  else some (decode (bs.take k),bs.drop k)

def readKind : Bytes → Option (Kind × Bytes)
  | [] => none
  | b::bs =>
    if b.toNat<0x80 then some (.byte b,bs)
    else if b.toNat<0xb8 then some (.string (b.toNat-0x80),bs)
    else if b.toNat<0xc0 then (readSize (b.toNat-0xb7) bs).map fun r => (.string r.1,r.2)
    else if b.toNat<0xf8 then some (.list (b.toNat-0xc0),bs)
    else (readSize (b.toNat-0xf7) bs).map fun r => (.list r.1,r.2)

mutual

/-- The next item and the bytes behind it. -/
def decode : ℕ → Bytes → Option (Item × Bytes)
  | 0, _ => none
  | fuel+1, bs =>
    match readKind bs with
    | none => none
    | some (.byte b,rest) => some (.bytes [b],rest)
    | some (.string n,rest) =>
      if rest.length<n ∨ IsSingle (rest.take n) then none else some (.bytes (rest.take n),rest.drop n)
    | some (.list n,rest) =>
      if rest.length<n then none
      else (decodeAll fuel (rest.take n)).map fun items => (.list items,rest.drop n)

/-- The items that make up some bytes. -/
def decodeAll : ℕ → Bytes → Option (List Item)
  | _, [] => some []
  | 0, _::_ => none
  | fuel+1, b::bs =>
    match decode fuel (b::bs) with
    | none => none
    | some (x,rest) => (decodeAll fuel rest).map (x::·)

end
variable {n k : ℕ} {b : BitVec 8} {bs rest : Bytes}

/-- Decode bytes that hold one item and nothing else. -/
def decodeBytes (bs : Bytes) : Option Item :=
  match decode (2*bs.length) bs with
  | some (x,[]) => some x
  | _ => none

/-- The size of an item's payload is a `uint64`. -/
def Item.Fits : Item → Prop
  | .bytes b => b.length<2^64
  | .list items => (encodeAll items).length<2^64

lemma head_pos (o n : ℕ) : 0<(head o n).length := by
  unfold head
  split <;> simp

lemma readSize_minimal (h : 56 ≤ n) (rest : Bytes) : readSize (minimal n).length (minimal n++rest) = some (n,rest) := by
  unfold readSize
  rw [take_left,drop_left,decode_minimal,if_neg]
  simp only [length_append,not_or,not_lt,h,and_true]
  exact ⟨Nat.le_add_right _ _,head_minimal n⟩

lemma toNat_ofNat_head (h : k<256) : (BitVec.ofNat 8 k).toNat = k := by
  rw [BitVec.toNat_ofNat,Nat.mod_eq_of_lt h]

lemma readKind_shortString (h : 0x80 ≤ b.toNat) (h' : b.toNat<0xb8) (bs : Bytes) :
    readKind (b::bs) = some (.string (b.toNat-0x80),bs) := by
  rw [readKind,if_neg (by omega),if_pos h']

lemma readKind_longString (h : 0xb8 ≤ b.toNat) (h' : b.toNat<0xc0) (bs : Bytes) :
    readKind (b::bs) = (readSize (b.toNat-0xb7) bs).map fun r => (.string r.1,r.2) := by
  rw [readKind,if_neg (by omega),if_neg (by omega),if_pos h']

lemma readKind_shortList (h : 0xc0 ≤ b.toNat) (h' : b.toNat<0xf8) (bs : Bytes) :
    readKind (b::bs) = some (.list (b.toNat-0xc0),bs) := by
  rw [readKind,if_neg (by omega),if_neg (by omega),if_neg (by omega),if_pos h']

lemma readKind_longList (h : 0xf8 ≤ b.toNat) (bs : Bytes) :
    readKind (b::bs) = (readSize (b.toNat-0xf7) bs).map fun r => (.list r.1,r.2) := by
  rw [readKind,if_neg (by omega),if_neg (by omega),if_neg (by omega),if_neg (by omega)]

lemma length_minimal_of_long (h : n<2^64) (hn : ¬n<56) : 0<(minimal n).length ∧ (minimal n).length ≤ 8 :=
  ⟨length_minimal_pos (by omega),length_minimal_le (by norm_num; omega)⟩

lemma readKind_head_string (h : n<2^64) (rest : Bytes) : readKind (head 0x80 n++rest) = some (.string n,rest) := by
  unfold head
  split
  · next hn =>
    have hb := toNat_ofNat_head (show 0x80+n<256 by omega)
    rw [singleton_append,readKind_shortString (by omega) (by omega),hb,Nat.add_sub_cancel_left]
  · next hn =>
    obtain ⟨hpos,hlen⟩ := length_minimal_of_long h hn
    have hb := toNat_ofNat_head (show 0x80+55+(minimal n).length<256 by omega)
    rw [cons_append,readKind_longString (by omega) (by omega),hb,Nat.add_sub_cancel_left,
      readSize_minimal (not_lt.mp hn)]
    rfl

lemma readKind_head_list (h : n<2^64) (rest : Bytes) : readKind (head 0xc0 n++rest) = some (.list n,rest) := by
  unfold head
  split
  · next hn =>
    have hb := toNat_ofNat_head (show 0xc0+n<256 by omega)
    rw [singleton_append,readKind_shortList (by omega) (by omega),hb,Nat.add_sub_cancel_left]
  · next hn =>
    obtain ⟨hpos,hlen⟩ := length_minimal_of_long h hn
    have hb := toNat_ofNat_head (show 0xc0+55+(minimal n).length<256 by omega)
    rw [cons_append,readKind_longList (by omega),hb,Nat.add_sub_cancel_left,readSize_minimal (not_lt.mp hn)]
    rfl

lemma readSize_sound (h : readSize k bs = some (n,rest)) : bs = minimal n++rest ∧ (minimal n).length = k ∧ 56 ≤ n := by
  unfold readSize at h
  split at h
  · cases h
  · next hc =>
    simp only [not_or,not_lt] at hc
    obtain ⟨hlen,hhead,hlong⟩ := hc
    obtain ⟨rfl,rfl⟩ := Prod.mk.inj (Option.some.inj h)
    rw [minimal_decode hhead,take_append_drop,length_take]
    exact ⟨rfl,min_eq_left hlen,hlong⟩

/-- What has been read of an item, given its kind. -/
def Kind.head : Kind → Bytes
  | .byte b => [b]
  | .string n => Rlp.head 0x80 n
  | .list n => Rlp.head 0xc0 n

/-- A kind that a header can announce. -/
def Kind.Proper : Kind → Prop
  | .byte b => b.toNat<0x80
  | .string n => n<2^64
  | .list n => n<2^64

lemma ofNat_toNat_head (h : k=b.toNat) : BitVec.ofNat 8 k=b := by
  rw [h,BitVec.ofNat_toNat,BitVec.setWidth_eq]

theorem head_of_readSize (offset : ℕ) (hb : offset+55 ≤ b.toNat)
    (hb' : b.toNat ≤ offset+63) (h : readSize (b.toNat-(offset+55)) bs = some (n,rest)) :
    b::bs = head offset n++rest ∧ n<2^64 := by
  obtain ⟨rfl,hlen,hlong⟩ := readSize_sound h
  refine ⟨?_,?_⟩
  · rw [head,if_neg (by omega),cons_append,ofNat_toNat_head (b := b) (by omega)]
  · have hlt := decode_lt (minimal n)
    rw [decode_minimal] at hlt
    calc n<256^(minimal n).length := hlt
      _ ≤ 256^8 := Nat.pow_le_pow_right (by norm_num) (by omega)
      _ = 2^64 := by norm_num

lemma readKind_sound {kind : Kind} (h : readKind bs = some (kind,rest)) : bs = kind.head++rest ∧ kind.Proper := by
  cases bs with
  | nil => cases h
  | cons b bs =>
    have hb := b.isLt
    simp only [readKind] at h
    split_ifs at h with h1 h2 h3 h4
    · cases h
      exact ⟨rfl,h1⟩
    · cases h
      refine ⟨?_,by simp only [Kind.Proper]; omega⟩
      rw [Kind.head,head,if_pos (by omega),singleton_append,ofNat_toNat_head (b := b) (by omega)]
    · obtain ⟨⟨n,r⟩,hr,heq⟩ := Option.map_eq_some_iff.mp h
      cases heq
      exact head_of_readSize 0x80 (by omega) (by omega) hr
    · cases h
      refine ⟨?_,by simp only [Kind.Proper]; omega⟩
      rw [Kind.head,head,if_pos (by omega),singleton_append,ofNat_toNat_head (b := b) (by omega)]
    · obtain ⟨⟨n,r⟩,hr,heq⟩ := Option.map_eq_some_iff.mp h
      cases heq
      exact head_of_readSize 0xc0 (by omega) (by omega) hr

lemma encode_pos (x : Item) : 0<(encode x).length := by
  cases x with
  | bytes b =>
    rw [encode]
    split
    · next h =>
      cases b with
      | nil => cases h
      | cons b bs => simp
    · rw [length_append]
      exact Nat.add_pos_left (head_pos _ _) _
  | list items =>
    rw [encode,length_append]
    exact Nat.add_pos_left (head_pos _ _) _

lemma encode_ne_nil (x : Item) : encode x ≠ [] := ne_nil_of_length_pos (encode_pos x)

lemma fits_of_length {x : Item} (h : (encode x).length<2^64) : x.Fits := by
  cases x with
  | bytes b =>
    rw [encode] at h
    split at h
    · exact h
    · rw [length_append] at h
      exact (Nat.le_add_left _ _).trans_lt h
  | list items =>
    rw [encode,length_append] at h
    exact (Nat.le_add_left _ _).trans_lt h

mutual

/-- An item whose payload has less than `2 ^ 64` bytes decodes from its encoding. -/
theorem decode_encode (x : Item) (h : x.Fits) (fuel : ℕ) (hfuel : 2*(encode x).length ≤ fuel)
    (rest : Bytes) : decode fuel (encode x++rest) = some (x,rest) := by
  have hpos := encode_pos x
  obtain ⟨fuel,rfl⟩ := Nat.exists_eq_succ_of_ne_zero (show fuel≠0 by omega)
  match x, h with
  | .bytes b, h =>
    rw [encode]
    split
    · next hb =>
      match b, hb with
      | [b], hb =>
        have hlt : b.toNat<0x80 := hb
        have hkind : readKind (b::rest) = some (.byte b,rest) := by rw [readKind,if_pos hlt]
        simp [decode,hkind]
    · next hb =>
      rw [append_assoc,decode,readKind_head_string h]
      simp [hb]
  | .list items, h =>
    have hp := head_pos 0xc0 (encodeAll items).length
    rw [encode,length_append] at hfuel
    have hall := decodeAll_encodeAll items h fuel (by omega)
    rw [encode,append_assoc,decode,readKind_head_list h]
    simp [hall]

lemma decodeAll_encodeAll (items : List Item) (h : (encodeAll items).length<2^64) (fuel : ℕ)
    (hfuel : 2*(encodeAll items).length+1 ≤ fuel) : decodeAll fuel (encodeAll items) = some items := by
  match items with
  | [] => rw [encodeAll,decodeAll]
  | x::items =>
    have hpos := encode_pos x
    rw [encodeAll,length_append] at h hfuel
    obtain ⟨fuel,rfl⟩ := Nat.exists_eq_succ_of_ne_zero (show fuel≠0 by omega)
    obtain ⟨b,bs,hb⟩ := exists_cons_of_ne_nil (append_ne_nil_of_left_ne_nil (encode_ne_nil x) (encodeAll items))
    have hx := decode_encode x (fits_of_length (by omega)) fuel (by omega) (encodeAll items)
    have hrest := decodeAll_encodeAll items (by omega) fuel (by omega)
    rw [encodeAll,hb,decodeAll,← hb,hx]
    simp [hrest]

end
variable {x : Item} {items : List Item}

/-- The decoder accepts only the encoding of what it returns. -/
theorem decode_sound (fuel : ℕ) : (∀ bs x rest, decode fuel bs = some (x,rest) → bs = encode x++rest ∧ x.Fits) ∧
    ∀ bs items, decodeAll fuel bs = some items → bs = encodeAll items := by
  induction fuel with
  | zero =>
    refine ⟨fun bs x rest h => (by cases h),fun bs items h => ?_⟩
    cases bs with
    | nil => cases h; rfl
    | cons b bs => cases h
  | succ fuel ih =>
    constructor
    · intro bs x rest h
      rw [decode] at h
      split at h
      · cases h
      · next b rest' hkind =>
        obtain ⟨rfl,hb⟩ := readKind_sound hkind
        cases h
        have hb' : IsSingle [b] := hb
        rw [encode,if_pos hb']
        exact ⟨rfl,by simp [Item.Fits]⟩
      · next n rest' hkind =>
        obtain ⟨rfl,hn⟩ := readKind_sound hkind
        split at h
        · cases h
        · next hc =>
          simp only [not_or,not_lt] at hc
          cases h
          have hlen : (rest'.take n).length = n := by rw [length_take,min_eq_left hc.1]
          rw [encode,if_neg hc.2,hlen,append_assoc,take_append_drop,Item.Fits,hlen]
          exact ⟨rfl,hn⟩
      · next n rest' hkind =>
        obtain ⟨rfl,hn⟩ := readKind_sound hkind
        split at h
        · cases h
        · next hc =>
          obtain ⟨items,hitems,heq⟩ := Option.map_eq_some_iff.mp h
          cases heq
          have hlen : (rest'.take n).length = n := by rw [length_take,min_eq_left (not_lt.mp hc)]
          have hsub := ih.2 _ _ hitems
          rw [encode,Item.Fits,← hsub,hlen,append_assoc,take_append_drop]
          exact ⟨rfl,hn⟩
    · intro bs items h
      cases bs with
      | nil => cases h; rfl
      | cons b bs =>
        rw [decodeAll] at h
        split at h
        · cases h
        · next x rest hx =>
          obtain ⟨items',hitems,heq⟩ := Option.map_eq_some_iff.mp h
          cases heq
          rw [encodeAll,← ih.2 _ _ hitems]
          exact (ih.1 _ _ _ hx).1

lemma decodeBytes_encode (h : x.Fits) : decodeBytes (encode x) = some x := by
  have := decode_encode x h _ le_rfl []
  rw [append_nil] at this
  rw [decodeBytes,this]

lemma decodeBytes_sound (h : decodeBytes bs = some x) : bs = encode x ∧ x.Fits := by
  unfold decodeBytes at h
  split at h
  · next hx =>
    cases h
    simpa using (decode_sound _).1 _ _ _ hx
  · cases h

instance : DecidablePred Item.Fits
  | .bytes _ => inferInstanceAs (Decidable (_<_))
  | .list _ => inferInstanceAs (Decidable (_<_))

/-- The encoding of an item as a byte slice, which has a `uint64` size. -/
def encodeToBytes (x : Item) : Option Bytes := if x.Fits then some (encode x) else none

lemma decodeBytes_eq_some_iff : decodeBytes bs = some x ↔ encodeToBytes x = some bs := by
  unfold encodeToBytes
  constructor
  · intro h
    obtain ⟨rfl,hx⟩ := decodeBytes_sound h
    rw [if_pos hx]
  · intro h
    split at h
    · next hx =>
      cases h
      exact decodeBytes_encode hx
    · cases h

lemma encodeToBytes_inj {y : Item} (hx : encodeToBytes x = some bs) (hy : encodeToBytes y = some bs) : x=y := by
  rw [← decodeBytes_eq_some_iff] at hx hy
  exact Option.some.inj (hx.symm.trans hy)

lemma encodeToBytes_isSome : (encodeToBytes x).isSome ↔ x.Fits := by
  unfold encodeToBytes
  split
  · next h => simp [h]
  · next h => simp [h]

lemma length_encode_le_of_mem (h : x ∈ items) : (encode x).length ≤ (encodeAll items).length := by
  induction items with
  | nil => cases h
  | cons y items ih =>
    rw [encodeAll,length_append]
    rcases mem_cons.mp h with rfl | h
    · exact Nat.le_add_right _ _
    · exact (ih h).trans (Nat.le_add_left _ _)

lemma length_head_mono {o n m : ℕ} (h : n ≤ m) : (head o n).length ≤ (head o m).length := by
  have hmin : (minimal n).length ≤ (minimal m).length := by
    apply length_minimal_le
    have := decode_lt (minimal m)
    rw [decode_minimal] at this
    omega
  unfold head
  split_ifs with h1 h2
  · simp
  · simp
  · omega
  · simpa using hmin

lemma length_encode_list_mono {xs ys : List Item} (h : (encodeAll xs).length ≤ (encodeAll ys).length) :
    (encode (.list xs)).length ≤ (encode (.list ys)).length := by
  rw [encode,encode,length_append,length_append]
  exact Nat.add_le_add (length_head_mono h) h

lemma length_head_le {o n : ℕ} (h : n<2^64) : (head o n).length ≤ 9 := by
  unfold head
  split_ifs with hn
  · simp
  · have := (length_minimal_of_long h hn).2
    rw [length_cons]
    omega

lemma length_encode_bytes_le {b : Bytes} (h : b.length<2^64) : (encode (.bytes b)).length ≤ b.length+9 := by
  rw [encode]
  split_ifs
  · exact Nat.le_add_right _ _
  · have := length_head_le (o := 0x80) h
    rw [length_append]
    omega

lemma length_encodeAll_le {c : ℕ} (h : ∀ x ∈ items, (encode x).length ≤ c) :
    (encodeAll items).length ≤ items.length*c := by
  induction items with
  | nil => simp [encodeAll]
  | cons x items ih =>
    obtain ⟨hx,hitems⟩ := forall_mem_cons.mp h
    have hrec := ih hitems
    rw [encodeAll,length_append,length_cons,Nat.succ_mul]
    omega

lemma Item.Fits.length_lt (h : (Item.list items).Fits) (hx : x ∈ items) : (encode x).length<2^64 :=
  (length_encode_le_of_mem hx).trans_lt h

lemma Item.Fits.of_mem (h : (Item.list items).Fits) (hx : x ∈ items) : x.Fits := fits_of_length (h.length_lt hx)

end StableNet.Lib.Rlp
