import Mathlib.Data.Finset.Card

/-! Quorum systems: two quorums always share an honest member. -/
namespace StableNet.Lib

variable {N : Type*}

/-- A family of quorums any two of which meet in an honest member. -/
structure QuorumSystem (N : Type*) where
  honest : N → Prop
  isQuorum : Finset N → Prop
  meet : ∀ {A B : Finset N}, isQuorum A → isQuorum B → ∃ i, i ∈ A ∧ i ∈ B ∧ honest i

namespace QuorumSystem

lemma exists_honest (S : QuorumSystem N) {A : Finset N} (hA : S.isQuorum A) : ∃ i, i ∈ A ∧ S.honest i := by
  obtain ⟨i,hi,_,hh⟩ := S.meet hA hA
  exact ⟨i,hi,hh⟩

end QuorumSystem

variable [DecidableEq N]

/-- Two sets of members whose sizes exceed the members and the dishonest members together share an
honest one. -/
theorem exists_honest_mem_inter {V A B honest : Finset N} (hA : A ⊆ V) (hB : B ⊆ V)
    (h : V.card+(V \ honest).card<A.card+B.card) : ∃ i, i ∈ A ∧ i ∈ B ∧ i ∈ honest := by
  have hunion : (A ∪ B).card ≤ V.card := Finset.card_le_card (Finset.union_subset hA hB)
  have hsum := Finset.card_union_add_card_inter A B
  have hlt : (V \ honest).card<(A ∩ B).card := by omega
  obtain ⟨i,hi,hF⟩ := Finset.exists_mem_notMem_of_card_lt_card hlt
  obtain ⟨hiA,hiB⟩ := Finset.mem_inter.mp hi
  refine ⟨i,hiA,hiB,?_⟩
  by_contra hh
  exact hF (Finset.mem_sdiff.mpr ⟨hA hiA,hh⟩)

/-- Sets of at least `q` members of `V`, where fewer than `2q - |V|` members are dishonest. -/
def countingQuorums (V honest : Finset N) (q : ℕ) (h : V.card+(V \ honest).card<2*q) : QuorumSystem N where
  honest i := i ∈ honest
  isQuorum A := A ⊆ V ∧ q ≤ A.card
  meet := by
    rintro A B ⟨hA,hqA⟩ ⟨hB,hqB⟩
    exact exists_honest_mem_inter hA hB (by omega)

end StableNet.Lib
