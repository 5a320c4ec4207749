import Mathlib.Data.List.Basic

/-! A state with a log of undo entries, newest first. A revert undoes the entries made since an earlier length. -/
namespace StableNet.Lib.UndoLog

structure Logged (σ ε : Type) where
  state : σ
  log : List ε

variable {σ ε : Type} (undo : ε → σ → σ)

def undoAll (entries : List ε) (s : σ) : σ := entries.foldl (fun s e => undo e s) s

/-- Undo all but the first `n` entries. -/
def revertTo (n : ℕ) (l : Logged σ ε) : Logged σ ε :=
  let k := l.log.length-n
  ⟨undoAll undo (l.log.take k) l.state,l.log.drop k⟩

/-- The second was reached from the first by logged changes. -/
def Extends (l l' : Logged σ ε) : Prop :=
  ∃ entries, l'.log = entries++l.log ∧ undoAll undo entries l'.state=l.state

variable {undo} {l l' l'' : Logged σ ε}

lemma Extends.refl (l : Logged σ ε) : Extends undo l l := ⟨[],rfl,rfl⟩

lemma Extends.trans (h : Extends undo l l') (h' : Extends undo l' l'') : Extends undo l l'' := by
  obtain ⟨es,hlog,hundo⟩ := h
  obtain ⟨es',hlog',hundo'⟩ := h'
  refine ⟨es'++es,by rw [hlog',hlog,List.append_assoc],?_⟩
  rw [undoAll,List.foldl_append]
  exact (congrArg (undoAll undo es) hundo').trans hundo

lemma Extends.change {e : ε} {s' : σ} (h : undo e s'=l.state) : Extends undo l ⟨s',e::l.log⟩ := ⟨[e],rfl,h⟩

theorem Extends.revertTo_eq (h : Extends undo l l') : revertTo undo l.log.length l'=l := by
  obtain ⟨es,hlog,hundo⟩ := h
  have hk : l'.log.length-l.log.length = es.length := by simp [hlog]
  rw [revertTo,hk,hlog,List.take_left,List.drop_left,hundo]

theorem Extends.revertTo (h : Extends undo l l') {n : ℕ} (hn : l.log.length ≤ n) :
    Extends undo l (revertTo undo n l') := by
  obtain ⟨es,hlog,hundo⟩ := h
  have hlen : l'.log.length = es.length+l.log.length := by rw [hlog,List.length_append]
  have hk : l'.log.length-n ≤ es.length := by omega
  refine ⟨es.drop (l'.log.length-n),?_,?_⟩
  · change l'.log.drop (l'.log.length-n) = _
    generalize l'.log.length-n = k at hk ⊢
    rw [hlog,List.drop_append_of_le_length hk]
  · change undoAll undo _ (undoAll undo (l'.log.take (l'.log.length-n)) l'.state) = l.state
    generalize l'.log.length-n = k at hk ⊢
    rw [hlog,List.take_append_of_le_length hk,← hundo,undoAll,undoAll,← List.foldl_append,List.take_append_drop,
      undoAll]

end StableNet.Lib.UndoLog
