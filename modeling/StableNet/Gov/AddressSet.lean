import StableNet.Chain.Header
import StableNet.Lib.Indexed

/-! A set of addresses in the storage of a contract, as `EnumerableSet` and `AddressSetLib` keep it: the values next
to their positions plus one. -/
namespace StableNet.Gov
open Chain (Address)
open Lib
variable {s : AddressSet} {a b : Address}

structure AddressSet where
  values : List Address
  positions : Address → ℕ
  indexed : Indexed values positions

namespace AddressSet

def empty : AddressSet := ⟨[],fun _ => 0,.nil⟩

def contains (s : AddressSet) (a : Address) : Bool := s.positions a≠0

def add (s : AddressSet) (a : Address) : AddressSet :=
  if h : s.positions a=0 then
    ⟨s.values++[a],Function.update s.positions a (s.values.length+1),
      s.indexed.push fun ha => s.indexed.index_ne_zero_iff.mpr ha h⟩
  else s

lemma ne_nil_of_position (h : s.positions a≠0) : s.values ≠ [] :=
  List.ne_nil_of_mem (s.indexed.index_ne_zero_iff.mp h)

def remove (s : AddressSet) (a : Address) : AddressSet :=
  if h : s.positions a=0 then s
  else
    let lastValue := s.values.getLast (ne_nil_of_position h)
    ⟨(s.values.set (s.positions a-1) lastValue).dropLast,
      Function.update (Function.update s.positions lastValue (s.positions a)) a 0,
      s.indexed.swapPop (s.indexed.index_ne_zero_iff.mp h) (List.getLast?_eq_some_getLast _)⟩

lemma mem_add : b ∈ (s.add a).values ↔ b=a ∨ b ∈ s.values := by
  unfold add
  split
  · simp [or_comm]
  · rename_i h
    have ha := s.indexed.index_ne_zero_iff.mp h
    exact ⟨.inr,fun hb => hb.elim (fun hb => hb ▸ ha) id⟩

lemma mem_remove : b ∈ (s.remove a).values ↔ b ∈ s.values ∧ b≠a := by
  unfold remove
  split
  · rename_i h
    refine ⟨fun hb => ⟨hb,?_⟩,And.left⟩
    rintro rfl
    exact s.indexed.index_ne_zero_iff.mpr hb h
  · rename_i h
    exact s.indexed.mem_swapPop (s.indexed.index_ne_zero_iff.mp h)
      (List.getLast?_eq_some_getLast (ne_nil_of_position h))

end AddressSet

end StableNet.Gov
