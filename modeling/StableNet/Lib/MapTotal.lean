import Mathlib.Algebra.BigOperators.Group.List.Basic
import Mathlib.Algebra.Ring.Nat
import Mathlib.Data.List.AList

/-! The elements of all values of a finite map and the weight of all its entries, and what an assignment changes about
them. -/
namespace StableNet.Lib
variable {α β γ : Type} [DecidableEq α]

/-- The elements of all values. -/
def flat (f : β → List γ) (m : AList fun _ : α => β) : List γ := m.entries.flatMap fun e => f e.2

/-- The elements of the value at a key, none if it is not in the map. -/
def flatAt (f : β → List γ) (m : AList fun _ : α => β) (a : α) : List γ := (m.lookup a).elim [] f

section
variable {f : β → List γ} {m : AList fun _ : α => β} {a : α} {b : β}

lemma flatAt_append_flat_erase : (flatAt f m a++flat f (m.erase a)).Perm (flat f m) := by
  by_cases ha : a ∈ m
  · obtain ⟨b,l₁,l₂,hl₁,hm,herase⟩ := List.exists_of_kerase (AList.mem_keys.mp ha)
    have hlookup : m.lookup a = some b := by
      rw [AList.lookup,hm,List.dlookup_append,List.dlookup_eq_none.mpr hl₁,List.dlookup_cons_eq]
      rfl
    have herased : (m.erase a).entries = l₁++l₂ := herase
    simp only [flatAt,hlookup,Option.elim_some,flat,herased,hm,List.flatMap_append,List.flatMap_cons]
    exact List.perm_append_comm_assoc ..
  · have herased : m.erase a=m := by
      apply AList.ext
      exact List.kerase_of_notMem_keys ha
    rw [flatAt,AList.lookup_eq_none.mpr ha,herased]
    rfl

lemma exists_of_mem_flat {x : γ} (h : x ∈ flat f m) : ∃ a b, m.lookup a = some b ∧ x ∈ f b := by
  obtain ⟨⟨a,b⟩,he,hx⟩ := List.mem_flatMap.mp h
  exact ⟨a,b,AList.mem_lookup_iff.mpr he,hx⟩

lemma flat_insert : flat f (m.insert a b) = f b++flat f (m.erase a) := by
  have hentries : (m.insert a b).entries = ⟨a,b⟩::(m.erase a).entries := AList.entries_insert
  rw [flat,hentries,List.flatMap_cons]
  rfl

end

def total (weight : β → ℕ) (m : AList fun _ : α => β) : ℕ := (m.entries.map fun e => weight e.2).sum

def weightAt (weight : β → ℕ) (m : AList fun _ : α => β) (a : α) : ℕ := ((m.lookup a).map weight).getD 0

section
variable {weight : β → ℕ} {m : AList fun _ : α => β} {a : α} {b : β}

omit [DecidableEq α] in
lemma total_eq_sum_flat (m : AList fun _ : α => β) : total weight m = (flat (fun b => [weight b]) m).sum := by
  rw [total,flat,← List.map_eq_flatMap]

lemma total_erase : total weight (m.erase a)+weightAt weight m a = total weight m := by
  have hperm : (flatAt (fun b => [weight b]) m a++flat (fun b => [weight b]) (m.erase a)).Perm _ :=
    flatAt_append_flat_erase
  have hat : (flatAt (fun b => [weight b]) m a).sum = weightAt weight m a := by
    rw [flatAt,weightAt]
    cases m.lookup a <;> simp
  rw [total_eq_sum_flat m,← hperm.sum_eq,List.sum_append,hat,total_eq_sum_flat,Nat.add_comm]

lemma total_insert : total weight (m.insert a b)+weightAt weight m a = total weight m+weight b := by
  have htotal : total weight (m.insert a b) = weight b+total weight (m.erase a) := by
    rw [total_eq_sum_flat,flat_insert,total_eq_sum_flat]
    rfl
  have herase : total weight (m.erase a)+weightAt weight m a = total weight m := total_erase
  omega

end

end StableNet.Lib
