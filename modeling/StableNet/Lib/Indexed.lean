import Mathlib.Data.List.Induction
import Mathlib.Data.List.Nodup
import Mathlib.Logic.Function.Basic

/-! A list without repetitions next to a map of positions: the map holds the position of an element
plus one, and 0 for everything else. -/
namespace StableNet.Lib
open Function List
variable {α : Type}

structure Indexed (list : List α) (index : α → ℕ) : Prop where
  nodup : list.Nodup
  index_eq : ∀ a i, index a = i+1 ↔ list[i]? = some a

namespace Indexed
variable {list : List α} {index : α → ℕ} {a b : α}

lemma nil : Indexed ([] : List α) (fun _ => 0) := ⟨nodup_nil,fun _ _ => by simp⟩

lemma of_index_eq (h : ∀ a i, index a = i+1 ↔ list[i]? = some a) : Indexed list index := by
  refine ⟨nodup_iff_getElem?_ne_getElem?.mpr fun i j hij hj he => ?_,h⟩
  have hj' := List.getElem?_eq_getElem hj
  have hi := (h _ i).mpr (he.trans hj')
  have := (h _ j).mpr hj'
  omega

lemma index_ne_zero_iff (h : Indexed list index) : index a≠0 ↔ a ∈ list := by
  rw [mem_iff_getElem?]
  constructor
  · intro ha
    obtain ⟨i,hi⟩ := Nat.exists_eq_succ_of_ne_zero ha
    exact ⟨i,(h.index_eq a i).mp hi⟩
  · rintro ⟨i,hi⟩
    rw [(h.index_eq a i).mpr hi]
    exact Nat.succ_ne_zero i

lemma index_eq_zero (h : Indexed list index) (ha : a ∉ list) : index a=0 :=
  not_not.mp fun hne => ha (h.index_ne_zero_iff.mp hne)

variable [DecidableEq α]

section
variable (h : Indexed list index)
include h

lemma push (ha : a ∉ list) : Indexed (list++[a]) (update index a (list.length+1)) := by
  refine ⟨nodup_append.mpr ⟨h.nodup,nodup_singleton a,?_⟩,fun b i => ?_⟩
  · rintro x hx y hy rfl
    exact ha (mem_singleton.mp hy ▸ hx)
  by_cases hb : b=a
  · subst hb
    have hlt : i<list.length → list[i]? ≠ some b := fun _ hi => ha (mem_of_getElem? hi)
    rw [update_self,List.getElem?_append]
    split
    · rename_i hi
      exact ⟨fun h => absurd h (by omega),fun h => absurd h (hlt hi)⟩
    · rw [List.getElem?_singleton]
      split <;> simp <;> omega
  · rw [update_of_ne hb,h.index_eq,List.getElem?_append]
    split
    · rfl
    · rename_i hi
      rw [List.getElem?_eq_none (Nat.le_of_not_lt hi),List.getElem?_singleton]
      split
      · simp [Ne.symm hb]
      · simp

lemma replace {old new : α} (hold : old ∈ list) (hnew : new ∉ list) :
    Indexed (list.set (list.idxOf old) new) (update (update index new (index old)) old 0) := by
  have hlt := idxOf_lt_length_of_mem hold
  have hat : list[list.idxOf old]? = some old := by simp [List.getElem?_eq_getElem hlt]
  have hindex := (h.index_eq old _).mpr hat
  have hne : old≠new := fun he => hnew (he ▸ hold)
  refine ⟨h.nodup.set hnew,fun b i => ?_⟩
  rw [List.getElem?_set]
  by_cases hb : b = old
  · subst hb
    rw [update_self]
    refine ⟨fun he => absurd he (by omega),fun he => ?_⟩
    split at he
    · simp [Ne.symm hne] at he
    · rename_i hi
      have := (h.index_eq b i).mpr he
      omega
  · rw [update_of_ne hb]
    by_cases hb' : b=new
    · subst hb'
      rw [update_self,hindex]
      split
      · rename_i hi
        simp [hi]
      · rename_i hi
        refine ⟨fun he => absurd (by omega) hi,fun he => absurd (mem_of_getElem? he) hnew⟩
    · rw [update_of_ne hb',h.index_eq]
      split
      · rename_i hi
        rw [← hi,hat]
        simp [Ne.symm hb,Ne.symm hb']
      · rfl

lemma swapPop {last : α} (ha : a ∈ list) (hlast : list.getLast? = some last) :
    Indexed (list.set (index a-1) last).dropLast (update (update index last (index a)) a 0) := by
  obtain ⟨p,hp⟩ := Nat.exists_eq_succ_of_ne_zero (h.index_ne_zero_iff.mpr ha)
  have hp : index a = p+1 := hp
  have hat := (h.index_eq a p).mp hp
  have hend : list[list.length-1]? = some last := by rw [← List.getLast?_eq_getElem?,hlast]
  have hlast' := (h.index_eq last _).mpr hend
  have hlt : p<list.length := (List.getElem?_eq_some_iff.mp hat).1
  apply of_index_eq
  intro b i
  rw [hp,Nat.add_sub_cancel,List.getElem?_dropLast,length_set,List.getElem?_set]
  have hb := h.index_eq b i
  by_cases hba : b=a
  · subst hba
    rw [update_self]
    refine ⟨fun he => absurd he (by omega),fun he => ?_⟩
    split at he
    · split at he
      · rename_i hi hpi
        cases he
        omega
      · have := hb.mpr he
        omega
    · cases he
  · rw [update_of_ne hba]
    by_cases hbl : b=last
    · subst hbl
      rw [update_self]
      have hne : p ≠ list.length-1 := by
        rintro rfl
        rw [hat] at hend
        exact hba (Option.some.inj hend).symm
      refine ⟨fun he => ?_,fun he => ?_⟩
      · obtain rfl : p = i := by omega
        rw [if_pos (by omega),if_pos rfl,if_pos hlt]
      · split at he
        · split at he
          · omega
          · have := hb.mpr he
            omega
        · cases he
    · rw [update_of_ne hbl,hb]
      split
      · split
        · rename_i hpi
          rw [← hpi,hat]
          simp [Ne.symm hba,Ne.symm hbl]
        · rfl
      · rename_i hi
        refine ⟨fun he => absurd ?_ hbl,fun he => by cases he⟩
        have hi' := (List.getElem?_eq_some_iff.mp he).1
        rw [show i = list.length-1 by omega,hend] at he
        exact (Option.some.inj he).symm

lemma mem_swapPop {last : α} (ha : a ∈ list) (hlast : list.getLast? = some last) :
    b ∈ (list.set (index a-1) last).dropLast ↔ b ∈ list ∧ b≠a := by
  rw [← (h.swapPop ha hlast).index_ne_zero_iff,← h.index_ne_zero_iff]
  by_cases hba : b=a
  · simp [hba]
  · rw [update_of_ne hba]
    by_cases hbl : b=last
    · -- the moved element has a position before and after
      rw [hbl,update_self]
      have hmem := h.index_ne_zero_iff.mpr (mem_of_getLast? hlast)
      exact iff_of_true (h.index_ne_zero_iff.mpr ha) ⟨hmem,hbl ▸ hba⟩
    · rw [update_of_ne hbl]
      exact ⟨fun hb => ⟨hb,hba⟩,And.left⟩

end

end Indexed

lemma mem_set_idxOf [DecidableEq α] {list : List α} {old new b : α} (hnodup : list.Nodup) (hold : old ∈ list) :
    b ∈ list.set (list.idxOf old) new ↔ b=new ∨ b ∈ list ∧ b ≠ old := by
  induction list with
  | nil => cases hold
  | cons x list ih =>
    obtain ⟨hx,hnodup⟩ := nodup_cons.mp hnodup
    by_cases h : x = old
    · subst h
      rw [idxOf_cons_self,set_cons_zero,mem_cons,mem_cons]
      constructor
      · rintro (rfl | hb)
        · exact .inl rfl
        · exact .inr ⟨.inr hb,fun he => hx (he ▸ hb)⟩
      · rintro (rfl | ⟨rfl | hb,hne⟩)
        · exact .inl rfl
        · exact absurd rfl hne
        · exact .inr hb
    · have hold : old ∈ list := (mem_cons.mp hold).resolve_left (Ne.symm h)
      rw [idxOf_cons_ne _ h,set_cons_succ,mem_cons,mem_cons,ih hnodup hold]
      constructor
      · rintro (rfl | rfl | ⟨hb,hne⟩)
        · exact .inr ⟨.inl rfl,h⟩
        · exact .inl rfl
        · exact .inr ⟨.inr hb,hne⟩
      · rintro (rfl | ⟨rfl | hb,hne⟩)
        · exact .inr (.inl rfl)
        · exact .inl rfl
        · exact .inr (.inr ⟨hb,hne⟩)

end StableNet.Lib
