import StableNet.Wbft.Handlers

/-! What the bookkeeping of a core leaves alone: the round state, what was signed, and where messages wait. -/
namespace StableNet.Wbft
open Chain
variable {m : Message} {c : Core}

namespace Prque

variable {α : Type} {q rest : Prque α} {x : α × ℤ}

lemma pop_eq_none : q.pop=none ↔ q = [] := by
  cases q with
  | nil => simp [pop]
  | cons y ys =>
    simp only [pop,reduceCtorEq,iff_false]
    split
    · simp
    · split <;> simp

lemma pop_eq_some (h : q.pop = some (x,rest)) : q.Perm (x::rest) ∧ ∀ y ∈ q, y.2 ≤ x.2 := by
  induction q generalizing x rest with
  | nil => simp [pop] at h
  | cons y ys ih =>
    unfold pop at h
    split at h
    · rename_i hp
      obtain ⟨rfl,rfl⟩ : y=x ∧ [] = rest := by simpa using h
      simp [pop_eq_none.mp hp]
    · rename_i z zs hp
      obtain ⟨hperm,hle⟩ := ih hp
      split at h
      · obtain ⟨rfl,rfl⟩ : y=x ∧ ys=rest := by simpa using h
        exact ⟨.refl _,List.forall_mem_cons.mpr ⟨le_rfl,fun w hw => (hle w hw).trans ‹_›⟩⟩
      · obtain ⟨rfl,rfl⟩ : z=x ∧ y::zs = rest := by simpa using h
        exact ⟨(hperm.cons y).trans (.swap _ _ _),List.forall_mem_cons.mpr ⟨by omega,hle⟩⟩

end Prque

namespace Core

def Queued (backlogs : AList fun _ : Address => Prque Message) (m : Message) : Prop :=
  ∃ e ∈ backlogs.entries, ∃ prio, (m,prio) ∈ e.2

/-- A message a core has verified and not yet handled: it is queued, posted or waits for a timer. -/
def Holds (c : Core) (m : Message) : Prop :=
  Queued c.backlogs m ∨ .backlog m ∈ c.posted ∨
    ∃ p, c.timers.futurePreprepare = some p ∧ m = .preprepare p

section Backlog

variable {backlogs : AList fun _ : Address => Prque Message} {a : Address} {q : Prque Message}

lemma Queued.of_lookup {prio : ℤ} (h : (m,prio) ∈ (backlogs.lookup a).getD []) : Queued backlogs m := by
  cases hl : backlogs.lookup a with
  | none => simp [hl] at h
  | some q =>
    simp only [hl,Option.getD_some] at h
    exact ⟨⟨a,q⟩,AList.mem_lookup_iff.mp hl,prio,h⟩

lemma Queued.of_insert (h : Queued (backlogs.insert a q) m) : (∃ prio, (m,prio) ∈ q) ∨ Queued backlogs m := by
  obtain ⟨e,he,prio,hm⟩ := h
  rw [AList.entries_insert] at he
  rcases List.mem_cons.mp he with rfl | he
  · exact .inl ⟨prio,hm⟩
  · exact .inr ⟨e,(List.kerase_sublist _ _).subset he,prio,hm⟩

lemma Queued.of_erase (h : Queued (backlogs.erase a) m) : Queued backlogs m := by
  obtain ⟨e,he,prio,hm⟩ := h
  exact ⟨e,(List.kerase_sublist _ _).subset he,prio,hm⟩

end Backlog

lemma drain_subset (c : Core) (fuel : ℕ) (d : Drained) : (c.drain fuel d).queue ⊆ d.queue ∧
      ∀ m ∈ (c.drain fuel d).out, m ∈ d.out ∨ ∃ prio, (m,prio) ∈ d.queue := by
  induction fuel generalizing d with
  | zero => exact ⟨List.Subset.refl _,fun m hm => .inl hm⟩
  | succ fuel ih =>
    unfold drain
    split
    · exact ⟨List.Subset.refl _,fun m hm => .inl hm⟩
    · rename_i m prio rest hpop
      obtain ⟨hperm,-⟩ := Prque.pop_eq_some hpop
      have hm : (m,prio) ∈ d.queue := hperm.mem_iff.mpr List.mem_cons_self
      have hrest : rest ⊆ d.queue := fun x hx => hperm.mem_iff.mpr (List.mem_cons_of_mem _ hx)
      -- dropping or posting the popped message leaves a smaller queue
      have step (out : List Message) (hout : ∀ x ∈ out, x ∈ d.out ∨ ∃ prio, (x,prio) ∈ d.queue) :
          (c.drain fuel ⟨rest,d.keys.erase (backlogKey m),out⟩).queue ⊆ d.queue ∧
            ∀ x ∈ (c.drain fuel ⟨rest,d.keys.erase (backlogKey m),out⟩).out,
              x ∈ d.out ∨ ∃ prio, (x,prio) ∈ d.queue := by
        obtain ⟨hq,ho⟩ := ih ⟨rest,d.keys.erase (backlogKey m),out⟩
        refine ⟨List.Subset.trans hq hrest,fun x hx => ?_⟩
        rcases ho x hx with hx | ⟨p,hp⟩
        · exact hout x hx
        · exact .inr ⟨p,hrest hp⟩
      have posted : ∀ x ∈ m::d.out, x ∈ d.out ∨ ∃ prio, (x,prio) ∈ d.queue := by
        intro x hx
        rcases List.mem_cons.mp hx with rfl | hx
        · exact .inr ⟨prio,hm⟩
        · exact .inl hx
      split
      · exact ⟨List.cons_subset.mpr ⟨hm,hrest⟩,fun x hx => .inl hx⟩
      · exact step _ posted
      · exact step _ posted
      · exact step _ fun x hx => .inl hx

def BacklogState.Holds (s : BacklogState) (m : Message) : Prop :=
  Queued s.backlogs m ∨ .backlog m ∈ s.posted

lemma processSource_holds (c : Core) (s : BacklogState) (src : Address) (h : (c.processSource s src).Holds m) :
    s.Holds m := by
  unfold processSource at h
  split at h
  · exact h.imp Queued.of_erase id
  · obtain ⟨hq,hout⟩ := c.drain_subset ((s.backlogs.lookup src).getD []).length
      ⟨(s.backlogs.lookup src).getD [],(s.backlogKeys.lookup src).getD [],[]⟩
    rcases h with h | h
    · rcases h.of_insert with ⟨prio,hp⟩ | h
      · exact .inl (Queued.of_lookup (hq hp))
      · exact .inl h
    · rcases List.mem_append.mp h with h | h
      · exact .inr h
      · obtain ⟨x,hx,heq⟩ := List.mem_map.mp h
        obtain rfl : x=m := by simpa using heq
        rcases hout x hx with hx | ⟨prio,hp⟩
        · simp at hx
        · exact .inl (Queued.of_lookup hp)

lemma foldl_processSource_holds (c : Core) (srcs : List Address) (s : BacklogState)
    (h : (srcs.foldl c.processSource s).Holds m) : s.Holds m := by
  induction srcs generalizing s with
  | nil => exact h
  | cons src srcs ih => exact c.processSource_holds s src (ih _ h)

lemma processBacklog_holds (h : c.processBacklog.Holds m) : c.Holds m := by
  have key := c.foldl_processSource_holds c.backlogs.entries.keys
    ⟨c.backlogs,c.backlogKeys,c.posted⟩ (m := m)
  rcases h with h | h | h
  · exact (key (.inl h)).imp id .inl
  · exact (key (.inr h)).imp id .inl
  · exact .inr (.inr h)

lemma drainRequests_backlog (c : Core) (fuel : ℕ) (q : Prque Block) (out : List Event)
    (h : .backlog m ∈ (c.drainRequests fuel q out).2) : .backlog m ∈ out := by
  induction fuel generalizing q out with
  | zero => exact h
  | succ fuel ih =>
    unfold drainRequests at h
    split at h
    · exact h
    · split at h
      · exact h
      · exact ih _ _ h
      · simpa using ih _ _ h

lemma setState_holds {st : State} (h : (c.setState st).Holds m) : c.Holds m := by
  unfold setState at h
  have h := processBacklog_holds h
  split at h
  · rcases h with h | h | h
    · exact .inl h
    · exact .inr (.inl (drainRequests_backlog _ _ _ _ h))
    · exact .inr (.inr h)
  · exact h

section SetState

variable (c : Core) (st : State)

@[simp] lemma setState_state : (c.setState st).state = st := by
  unfold setState; split <;> rfl

@[simp] lemma setState_current : (c.setState st).current = c.current := by
  unfold setState; split <;> rfl

@[simp] lemma setState_valSet : (c.setState st).valSet = c.valSet := by
  unfold setState; split <;> rfl

@[simp] lemma setState_address : (c.setState st).address = c.address := by
  unfold setState; split <;> rfl

@[simp] lemma setState_blsPublicKey : (c.setState st).blsPublicKey = c.blsPublicKey := by
  unfold setState; split <;> rfl

@[simp] lemma setState_effects : (c.setState st).effects = c.effects := by
  unfold setState; split <;> rfl

@[simp] lemma setState_timers : (c.setState st).timers = c.timers := by
  unfold setState; split <;> rfl

end SetState

end Core

end StableNet.Wbft
