import StableNet.Lib.Rlp
import Mathlib.Logic.Equiv.Defs

/-! Typed values as RLP items. A codec carries the proofs that it decodes what it encodes and accepts nothing else. -/
namespace StableNet.Lib.Rlp
open BigEndian
variable {α β : Type}

structure Codec (α : Type) where
  encode : α → Item
  decode : Item → Option α
  decode_encode : ∀ a, decode (encode a) = some a
  encode_decode : ∀ {x a}, decode x = some a → encode a=x

/-- The fields of a structure, one item each. -/
structure Fields (α : Type) where
  encode : α → List Item
  decode : List Item → Option α
  decode_encode : ∀ a, decode (encode a) = some a
  encode_decode : ∀ {xs a}, decode xs = some a → encode a=xs

namespace Codec

lemma injective (c : Codec α) {a b : α} (h : c.encode a = c.encode b) : a=b := by
  have ha := c.decode_encode a
  rw [h,c.decode_encode] at ha
  exact (Option.some.inj ha).symm

lemma encode_inj (c : Codec α) {a b : α} : c.encode a = c.encode b ↔ a=b := ⟨c.injective,congrArg _⟩

def toBytes (c : Codec α) (a : α) : Option Bytes := encodeToBytes (c.encode a)

def ofBytes (c : Codec α) (bs : Bytes) : Option α := (decodeBytes bs).bind c.decode

lemma ofBytes_eq_some_iff (c : Codec α) {bs : Bytes} {a : α} : c.ofBytes bs = some a ↔ c.toBytes a = some bs := by
  unfold ofBytes toBytes
  rw [← decodeBytes_eq_some_iff,Option.bind_eq_some_iff]
  constructor
  · rintro ⟨x,hx,ha⟩
    rwa [c.encode_decode ha]
  · intro h
    exact ⟨_,h,c.decode_encode a⟩

def bytes : Codec Bytes where
  encode := .bytes
  decode
    | .bytes b => some b
    | .list _ => none
  decode_encode _ := rfl
  encode_decode {x a} h := by
    cases x with
    | bytes b => cases h; rfl
    | list xs => cases h

/-- A number without leading zeros. -/
def nat : Codec ℕ where
  encode n := .bytes (BigEndian.minimal n)
  decode
    | .bytes b => if b.head? = some 0 then none else some (BigEndian.decode b)
    | .list _ => none
  decode_encode n := by simp only [if_neg (head_minimal n),decode_minimal]
  encode_decode {x n} h := by
    cases x with
    | list xs => cases h
    | bytes b =>
      simp only [Option.ite_none_left_eq_some,Option.some.injEq] at h
      rw [← h.2,minimal_decode h.1]

/-- A number of at most `w` bits. -/
def uint (w : ℕ) : Codec (BitVec w) where
  encode v := nat.encode v.toNat
  decode x := (nat.decode x).bind fun n => if n<2^w then some (BitVec.ofNat w n) else none
  decode_encode v := by simp [nat.decode_encode,v.isLt]
  encode_decode {x v} h := by
    simp only [Option.bind_eq_some_iff,Option.ite_none_right_eq_some,Option.some.injEq] at h
    obtain ⟨n,hn,hlt,rfl⟩ := h
    rw [BitVec.toNat_ofNat,Nat.mod_eq_of_lt hlt,nat.encode_decode hn]

lemma two_pow_eq {n w : ℕ} (hw : w = 8*n) : 2^w = 256^n := by
  rw [hw,pow_mul]
  rfl

/-- An array of `n` bytes, as a word. -/
def word (n : ℕ) {w : ℕ} (hw : w = 8*n) : Codec (BitVec w) where
  encode v := .bytes (BigEndian.encode n v.toNat)
  decode
    | .bytes b => if b.length=n then some (BitVec.ofNat w (BigEndian.decode b)) else none
    | .list _ => none
  decode_encode v := by
    have hv : v.toNat%256^n = v.toNat := Nat.mod_eq_of_lt (two_pow_eq hw ▸ v.isLt)
    simp only [length_encode,if_true,BigEndian.decode_encode,hv,BitVec.ofNat_toNat,BitVec.setWidth_eq]
  encode_decode {x v} h := by
    cases x with
    | list xs => cases h
    | bytes b =>
      simp only [Option.ite_none_right_eq_some,Option.some.injEq] at h
      obtain ⟨rfl,rfl⟩ := h
      have hlt := BigEndian.decode_lt b
      rw [BitVec.toNat_ofNat,two_pow_eq hw,Nat.mod_eq_of_lt hlt,BigEndian.encode_decode]

lemma length_word_le {n w : ℕ} {hw : w = 8*n} (hn : n<2^64) (v : BitVec w) :
    (Rlp.encode ((word n hw).encode v)).length ≤ n+9 := by
  have := length_encode_bytes_le (b := BigEndian.encode n v.toNat) (by simpa using hn)
  rwa [length_encode] at this

lemma length_nat_le {n k : ℕ} (hn : n<256^k) (hk : k<2^64) : (Rlp.encode (nat.encode n)).length ≤ k+9 := by
  have hlen := length_minimal_le hn
  have := length_encode_bytes_le (b := BigEndian.minimal n) (by omega)
  exact this.trans (by omega)

lemma length_uint64_le (v : BitVec 64) : (Rlp.encode ((uint 64).encode v)).length ≤ 17 :=
  length_nat_le (k := 8) (lt_of_lt_of_eq v.isLt (two_pow_eq rfl)) (by decide)

/-- Decode every item of a list. -/
def decodeEach (c : Codec α) : List Item → Option (List α)
  | [] => some []
  | x::xs => (c.decode x).bind fun a => (c.decodeEach xs).map (a::·)

def list (c : Codec α) : Codec (List α) where
  encode l := .list (l.map c.encode)
  decode
    | .bytes _ => none
    | .list xs => c.decodeEach xs
  decode_encode l := by
    induction l with
    | nil => rfl
    | cons a l ih => simp only [List.map_cons,decodeEach,c.decode_encode,ih,Option.bind_some,Option.map_some]
  encode_decode {x l} h := by
    cases x with
    | bytes b => cases h
    | list xs =>
      congr 1
      induction xs generalizing l with
      | nil => cases h; rfl
      | cons x xs ih =>
        simp only [decodeEach,Option.bind_eq_some_iff,Option.map_eq_some_iff] at h
        obtain ⟨a,ha,l',hl',rfl⟩ := h
        rw [List.map_cons,c.encode_decode ha,ih hl']

/-- A pointer, which is nil exactly for the empty list. -/
def nilable (c : Codec α) (hc : ∀ a, c.encode a ≠ .list []) : Codec (Option α) where
  encode
    | none => .list []
    | some a => c.encode a
  decode
    | .list [] => some none
    | x => (c.decode x).map some
  decode_encode a := by
    cases a with
    | none => rfl
    | some a =>
      have hne := hc a
      dsimp only
      split
      · next h => exact absurd h hne
      · rw [c.decode_encode,Option.map_some]
  encode_decode {x a} h := by
    split at h
    · cases h; rfl
    · obtain ⟨a,ha,rfl⟩ := Option.map_eq_some_iff.mp h
      exact c.encode_decode ha

/-- A structure: the list of its fields. -/
def struct (f : Fields α) : Codec α where
  encode a := .list (f.encode a)
  decode
    | .bytes _ => none
    | .list xs => f.decode xs
  decode_encode a := f.decode_encode a
  encode_decode {x a} h := by
    cases x with
    | bytes b => cases h
    | list xs => rw [f.encode_decode h]

/-- A codec along a bijection. -/
def map (c : Codec α) (e : α ≃ β) : Codec β where
  encode b := c.encode (e.symm b)
  decode x := (c.decode x).map e
  decode_encode b := by simp [c.decode_encode]
  encode_decode {x b} h := by
    obtain ⟨a,ha,rfl⟩ := Option.map_eq_some_iff.mp h
    rw [e.symm_apply_apply,c.encode_decode ha]

end Codec

namespace Fields

def one (c : Codec α) : Fields α where
  encode a := [c.encode a]
  decode
    | [x] => c.decode x
    | _ => none
  decode_encode a := c.decode_encode a
  encode_decode {xs a} h := by
    split at h
    · rw [c.encode_decode h]
    · cases h

def cons (c : Codec α) (f : Fields β) : Fields (α × β) where
  encode p := c.encode p.1::f.encode p.2
  decode
    | [] => none
    | x::xs => (c.decode x).bind fun a => (f.decode xs).map fun b => (a,b)
  decode_encode p := by simp [c.decode_encode,f.decode_encode]
  encode_decode {xs p} h := by
    cases xs with
    | nil => cases h
    | cons x xs =>
      simp only [Option.bind_eq_some_iff,Option.map_eq_some_iff] at h
      obtain ⟨a,ha,b,hb,rfl⟩ := h
      rw [c.encode_decode ha,f.encode_decode hb]

end Fields

end StableNet.Lib.Rlp
