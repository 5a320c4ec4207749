import StableNet.Evm.Accept

/-! What a run says about its own history: the steps it executed, and those of them that it kept. -/
namespace StableNet.Evm
open Chain (Address Bytes)
open Lib
variable {P : Event → Prop} {w'' w w' : World} {R : Bool → World → World → Prop}

namespace World

/-- The steps executed between two worlds, newest first. -/
def stepsSince (w w' : World) : List Event := w'.trace.take (w'.trace.length-w.trace.length)

/-- The steps between two worlds that were not reverted, newest first. -/
def keptSince (w w' : World) : List Event := w'.kept.take (w'.kept.length-w.kept.length)

variable {new : List Event}

lemma stepsSince_eq (h : w'.trace = new++w.trace) : w.stepsSince w'=new := by
  simp [stepsSince,h]

lemma keptSince_eq (h : w'.kept = new++w.kept) : w.keptSince w'=new := by
  simp [keptSince,h]

/-- Every step executed in between has the property. -/
def Traced (P : Event → Prop) (w w' : World) : Prop := ∃ new, w'.trace = new++w.trace ∧ ∀ e ∈ new, P e

lemma Traced.refl (P : Event → Prop) (h : w'.trace=w.trace) : Traced P w w' := ⟨[],h,by simp⟩

lemma Traced.trans (h : Traced P w w') (h' : Traced P w' w'') : Traced P w w'' := by
  obtain ⟨new,htrace,hnew⟩ := h
  obtain ⟨new',htrace',hnew'⟩ := h'
  refine ⟨new'++new,by rw [htrace',htrace,List.append_assoc],?_⟩
  intro e he
  obtain he | he := List.mem_append.mp he
  · exact hnew' e he
  · exact hnew e he

lemma Traced.of_mem (h : Traced P w w') {e : Event} (he : e ∈ w.stepsSince w') : P e := by
  obtain ⟨new,htrace,hnew⟩ := h
  rw [stepsSince_eq htrace] at he
  exact hnew e he

/-- The steps that were kept account for the change of the state. -/
def Tracks (R : Bool → List Event → StateDB → StateDB → Prop) (ro : Bool) (w w' : World) : Prop :=
  w.Grows w' ∧ ∃ new, w'.kept = new++w.kept ∧ R ro new w.db w'.db

end World

/-- A relation that can be followed from step to step. A revert leaves no steps, and of the state at most
the mark on `ripemd`. -/
structure Composes (R : Bool → List Event → StateDB → StateDB → Prop) : Prop where
  reverted : ∀ ro db b, R ro [] db { db with ripemdDirty := b }
  trans : ∀ {ro l l' db db' db''}, R ro l db db' → R ro l' db' db'' → R ro (l'++l) db db''
  mono : ∀ {ro l db db'}, R true l db db' → R ro l db db'

namespace Composes
open World
variable {R : Bool → List Event → StateDB → StateDB → Prop} {vm : Vm} {special : Address → Prop}

lemma tracks_refl (h : Composes R) (ro : Bool) (w : World) : Tracks R ro w w :=
  ⟨.refl w,[],rfl,h.reverted ro w.db w.db.ripemdDirty⟩

lemma tracks_trans (h : Composes R) {ro : Bool} (h₁ : Tracks R ro w w')
    (h₂ : Tracks R ro w' w'') : Tracks R ro w w'' := by
  obtain ⟨hgrows,new,hkept,hR⟩ := h₁
  obtain ⟨hgrows',new',hkept',hR'⟩ := h₂
  exact ⟨hgrows.trans hgrows',new'++new,by rw [hkept',hkept,List.append_assoc],h.trans hR hR'⟩

lemma tracks_restored (h : Composes R) (ro : Bool) (hgrows : w.Grows w') : Tracks R ro w (w.restored w') :=
  ⟨grows_restored hgrows,[],rfl,h.reverted ro w.db w'.db.ripemdDirty⟩

lemma closed (h : Composes R) (hprim : ∀ {ro w w'}, Prim vm special ro w w' →
    ∃ new, w'.kept = new++w.kept ∧ R ro new w.db w'.db) : Closed vm special (Tracks R) where
  refl := h.tracks_refl
  trans := h.tracks_trans
  mono := fun ⟨hgrows,new,hkept,hR⟩ => ⟨hgrows,new,hkept,h.mono hR⟩
  revert := by
    rintro ro w w' ⟨hgrows,-⟩
    rw [rollback_eq_restored hgrows]
    exact h.tracks_restored ro hgrows
  prim hp := ⟨hp.grows,hprim hp⟩

end Composes

/-- A property that every kind of step has, all steps of every request have. -/
theorem closed_traced {vm : Vm} (hprim : ∀ {ro w w'}, Prim vm (fun _ => False) ro w w' →
    World.Traced P w w') : Closed vm (fun _ => False) fun _ w w' => World.Traced P w w' where
  refl _ _ := .refl P rfl
  trans h h' := h.trans h'
  mono h := h
  revert h := h
  prim h := hprim h

namespace Vm
variable {vm : Vm} {msg : Message} {gas : ℕ}

lemma topmost_allowed (special : Address → Prop) (h : ¬special msg.src) :
    (vm.topmost msg gas w).Allowed vm special false := by
  unfold topmost
  cases msg.dst with
  | none => exact ⟨h,rfl,.inl ⟨_,rfl⟩⟩
  | some dst => exact ⟨h,by simp⟩

@[simp]
lemma trace_entry : (vm.entry msg w).trace = w.trace := by
  unfold entry
  cases msg.dst <;> rfl

@[simp]
lemma kept_entry : (vm.entry msg w).kept = w.kept := by
  unfold entry
  cases msg.dst <;> rfl

theorem executeMessage_rel (msg : Message) (gas : ℕ) (w : World) (h : Closed vm (fun _ => False) R) :
    R false (vm.entry msg w) (vm.executeMessage msg gas w).2 :=
  h.exec .none _ _ false _ (topmost_allowed _ not_false)

theorem executeMessage_rel_of_specials (msg : Message) (gas : ℕ) (w : World) {special fixed : Address → Prop}
    (h : ClosedAt vm special fixed R) (hs : SpecialsAt vm special fixed R)
    (hsrc : ¬special msg.src) : R false (vm.entry msg w) (vm.executeMessage msg gas w).2 :=
  h.exec hs _ _ false _ (topmost_allowed _ hsrc)

end Vm

end StableNet.Evm
