import Mathlib.Data.List.Basic
import Mathlib.Data.List.Induction
import Mathlib.Data.Nat.Log
import Mathlib.Algebra.Ring.Nat
import Mathlib.Tactic.Ring

/-! Big-endian numbers as lists of bytes. -/
namespace StableNet.Lib.BigEndian

/-- The last `k` bytes of `n`, the most significant first. -/
def encode : ℕ → ℕ → List (BitVec 8)
  | 0, _ => []
  | k+1, n => encode k (n/256)++[BitVec.ofNat 8 n]

def decode (bytes : List (BitVec 8)) : ℕ := bytes.foldl (fun n b => n*256+b.toNat) 0

@[simp]
lemma length_encode (k n : ℕ) : (encode k n).length = k := by
  induction k generalizing n with
  | zero => rfl
  | succ k ih => simp [encode,ih]

lemma decode_append_singleton (bytes : List (BitVec 8)) (b : BitVec 8) :
    decode (bytes++[b]) = decode bytes*256+b.toNat := by
  simp [decode]

lemma decode_encode (k n : ℕ) : decode (encode k n) = n%256^k := by
  induction k generalizing n with
  | zero => simp [encode,decode,Nat.mod_one]
  | succ k ih =>
    have hsplit : n%256^(k+1) = n/256%256^k*256+n%256 := by
      rw [pow_succ,mul_comm (256^k),Nat.mod_mul]
      omega
    rw [encode,decode_append_singleton,ih,hsplit,BitVec.toNat_ofNat]

lemma decode_lt (bytes : List (BitVec 8)) : decode bytes<256^bytes.length := by
  induction bytes using List.reverseRecOn with
  | nil => simp [decode]
  | append_singleton bytes b ih =>
    rw [decode_append_singleton,List.length_append,List.length_singleton,pow_succ]
    have := b.isLt
    omega

lemma encode_decode (bytes : List (BitVec 8)) : encode bytes.length (decode bytes) = bytes := by
  induction bytes using List.reverseRecOn with
  | nil => rfl
  | append_singleton bytes b ih =>
    have hb := b.isLt
    have hdiv : (decode bytes*256+b.toNat)/256 = decode bytes := by omega
    have hmod : BitVec.ofNat 8 (decode bytes*256+b.toNat) = b := by
      apply BitVec.eq_of_toNat_eq
      rw [BitVec.toNat_ofNat]
      omega
    rw [List.length_append,List.length_singleton,encode,decode_append_singleton,hdiv,hmod,ih]

lemma decode_cons (b : BitVec 8) (bytes : List (BitVec 8)) :
    decode (b::bytes) = b.toNat*256^bytes.length+decode bytes := by
  induction bytes using List.reverseRecOn with
  | nil => simp [decode]
  | append_singleton bytes c ih =>
    rw [← List.cons_append,decode_append_singleton,ih,decode_append_singleton,List.length_append,
      List.length_singleton,pow_succ]
    ring

/-- The bytes of a number, without leading zeros. -/
def minimal (n : ℕ) : List (BitVec 8) := if n=0 then [] else encode (Nat.log2 n/8+1) n

lemma decode_minimal (n : ℕ) : decode (minimal n) = n := by
  unfold minimal
  split
  · next h => simp [decode,h]
  · rw [decode_encode]
    apply Nat.mod_eq_of_lt
    calc n<2^(n.log2+1) := Nat.lt_log2_self
      _ ≤ 2^(8*(n.log2/8+1)) := Nat.pow_le_pow_right (by norm_num) (by omega)
      _ = 256^(n.log2/8+1) := by rw [pow_mul]; norm_num

lemma minimal_decode {bytes : List (BitVec 8)} (h : bytes.head? ≠ some 0) : minimal (decode bytes) = bytes := by
  cases bytes with
  | nil => rfl
  | cons b bytes =>
    have hb : 0<b.toNat := by
      refine Nat.pos_of_ne_zero fun h0 => h ?_
      have : b=0 := BitVec.eq_of_toNat_eq h0
      rw [List.head?_cons,this]
    have hlow : 256^bytes.length ≤ decode (b::bytes) := by
      rw [decode_cons]
      exact (Nat.le_mul_of_pos_left _ hb).trans (Nat.le_add_right _ _)
    have hne : decode (b::bytes)≠0 := by
      have : 0<256^bytes.length := Nat.pow_pos (by norm_num)
      omega
    have hlog : (decode (b::bytes)).log2/8 = bytes.length := by
      have hge : 8*bytes.length ≤ (decode (b::bytes)).log2 := by
        rw [Nat.le_log2 hne,pow_mul]
        exact hlow
      have hlt : (decode (b::bytes)).log2<8*(bytes.length+1) := by
        rw [Nat.log2_lt hne,pow_mul]
        exact decode_lt (b::bytes)
      omega
    rw [minimal,if_neg hne,hlog]
    exact encode_decode (b::bytes)

lemma length_minimal_le {n k : ℕ} (h : n<256^k) : (minimal n).length ≤ k := by
  unfold minimal
  split
  · simp
  · next hne =>
    rw [length_encode]
    have : n.log2<8*k := by
      rw [Nat.log2_lt hne,pow_mul]
      exact h
    omega

lemma length_minimal_pos {n : ℕ} (h : n≠0) : 0<(minimal n).length := by
  simp [minimal,h]

lemma head_minimal (n : ℕ) : (minimal n).head? ≠ some 0 := by
  intro h
  by_cases hn : n=0
  · simp [minimal,hn] at h
  · obtain ⟨rest,hrest⟩ := List.head?_eq_some_iff.mp h
    have hlen : rest.length = n.log2/8 := by
      have := congrArg List.length hrest
      rw [minimal,if_neg hn,length_encode,List.length_cons] at this
      omega
    have hlt : n<256^rest.length := by
      have := decode_lt rest
      rw [← decode_minimal n,hrest,decode_cons]
      simpa using this
    have hge : 256^(n.log2/8) ≤ n := by
      calc 256^(n.log2/8) = 2^(8*(n.log2/8)) := by rw [pow_mul]; norm_num
        _ ≤ 2^n.log2 := Nat.pow_le_pow_right (by norm_num) (by omega)
        _ ≤ n := Nat.log2_self_le hn
    rw [hlen] at hlt
    omega

end StableNet.Lib.BigEndian
