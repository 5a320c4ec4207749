import Mathlib.Logic.Function.Basic
import Mathlib.Tactic.ByCases

/-! Two maps that are inverse to each other where they are defined; a default value stands for undefined. -/
namespace StableNet.Lib
open Function
variable {α β : Type}

structure Inverse (f : α → β) (g : β → α) (a₀ : α) (b₀ : β) : Prop where
  iff : ∀ a b, a≠a₀ → b≠b₀ → (f a=b ↔ g b=a)
  left : f a₀=b₀
  right : g b₀=a₀

namespace Inverse
variable {f : α → β} {g : β → α} {a₀ a a' : α} {b₀ b : β}

section
variable (h : Inverse f g a₀ b₀)
include h

lemma symm : Inverse g f b₀ a₀ := ⟨fun b a hb ha => (h.iff a b ha hb).symm,h.right,h.left⟩

lemma ne_left (hb : f a≠b₀) : a≠a₀ := fun ha => hb (ha ▸ h.left)

lemma right_eq (hb : f a≠b₀) : g (f a) = a := (h.iff a (f a) (h.ne_left hb) hb).mp rfl

lemma eq_of_right (ha : g b≠a₀) : f (g b) = b := h.symm.right_eq ha

end

lemma of_pairs {P : α → β → Prop} (hf : ∀ {a b}, P a b → f a=b) (hg : ∀ {a b}, P a b → g b=a)
    (hdomain : ∀ {a}, f a≠b₀ → ∃ b, P a b) (hrange : ∀ {b}, g b≠a₀ → ∃ a, P a b)
    (hne : ∀ {a b}, P a b → a≠a₀ ∧ b≠b₀) : Inverse f g a₀ b₀ where
  iff a b ha hb := by
    constructor
    · intro h
      obtain ⟨b',hp⟩ := hdomain (a := a) (h ▸ hb)
      rw [← h,hf hp]
      exact hg hp
    · intro h
      obtain ⟨a',hp⟩ := hrange (b := b) (h ▸ ha)
      rw [← h,hg hp]
      exact hf hp
  left := not_not.mp fun h => by
    obtain ⟨b,hp⟩ := hdomain h
    exact (hne hp).1 rfl
  right := not_not.mp fun h => by
    obtain ⟨a,hp⟩ := hrange h
    exact (hne hp).2 rfl

variable [DecidableEq α] [DecidableEq β]

section
variable (h : Inverse f g a₀ b₀)
include h

lemma link (ha : a≠a₀) (hb : b≠b₀) (hfa : f a=b₀) (hgb : g b=a₀) : Inverse (update f a b) (update g b a) a₀ b₀ where
  iff x y hx hy := by
    by_cases hxa : x=a
    · subst hxa
      rw [update_self]
      by_cases hyb : y=b
      · simp [hyb]
      · rw [update_of_ne hyb]
        exact iff_of_false (fun he => hyb he.symm) fun he => hy (((h.iff x y hx hy).mpr he).symm.trans hfa)
    · rw [update_of_ne hxa]
      by_cases hyb : y=b
      · subst hyb
        rw [update_self]
        exact iff_of_false (fun he => hx (((h.iff x y hx hy).mp he).symm.trans hgb)) fun he => hxa he.symm
      · rw [update_of_ne hyb]
        exact h.iff x y hx hy
  left := by rw [update_of_ne ha.symm,h.left]
  right := by rw [update_of_ne hb.symm,h.right]

lemma unlink (hb : b≠b₀) (hfa : f a=b) : Inverse (update f a b₀) (update g b a₀) a₀ b₀ where
  iff x y hx hy := by
    have ha : a≠a₀ := h.ne_left (hfa ▸ hb)
    by_cases hxa : x=a
    · subst hxa
      rw [update_self]
      refine iff_of_false hy.symm fun he => ?_
      by_cases hyb : y=b
      · subst hyb
        rw [update_self] at he
        exact hx he.symm
      · rw [update_of_ne hyb] at he
        exact hyb (((h.iff x y hx hy).mpr he).symm.trans hfa)
    · rw [update_of_ne hxa]
      by_cases hyb : y=b
      · subst hyb
        rw [update_self]
        refine iff_of_false (fun he => hxa ?_) hx.symm
        exact ((h.iff x y hx hy).mp he).symm.trans ((h.iff a y ha hy).mp hfa)
      · rw [update_of_ne hyb]
        exact h.iff x y hx hy
  left := by rw [update_of_ne (h.ne_left (hfa ▸ hb)).symm,h.left]
  right := by rw [update_of_ne hb.symm,h.right]

lemma relink (ha' : a'≠a₀) (hb : b≠b₀) (hfa : f a=b) (hfa' : f a'=b₀) :
    Inverse (update (update f a b₀) a' b) (update g b a') a₀ b₀ := by
  have hne : a'≠a := fun he => hb (by rw [← hfa,← he,hfa'])
  have hlink := (h.unlink hb hfa).link ha' hb (by rwa [update_of_ne hne]) (update_self ..)
  rwa [update_idem] at hlink

end

end Inverse

end StableNet.Lib
