import StableNet.Wbft.Discipline

/-! The backlog of a core. Priorities follow the order of views only as long as the rounds stay below 100, and in one
view they put COMMITs before PREPAREs. -/
namespace StableNet.Wbft
open Chain

namespace Core

def Accepts (c : Core) (m : Message) : Prop := c.checkMessage m.code m.view=none

def Future (c : Core) (m : Message) : Prop := c.checkMessage m.code m.view = some .futureMessage

instance (c : Core) (m : Message) : Decidable (c.Accepts m) := inferInstanceAs (Decidable (_=_))

instance (c : Core) (m : Message) : Decidable (c.Future m) := inferInstanceAs (Decidable (_=_))

@[simp] lemma currentView_sequence (c : Core) : c.currentView.sequence=c.current.sequence := rfl

@[simp] lemma currentView_round (c : Core) : c.currentView.round=c.current.round := rfl

/-- The queue of a source; a source without one has nothing queued. -/
def queue (c : Core) (src : Address) : Prque Message := (c.backlogs.lookup src).getD []

def keys (c : Core) (src : Address) : List BacklogKey := (c.backlogKeys.lookup src).getD []

section Drain

variable {c : Core} {fuel : ℕ} {d : Drained}

theorem drain_blocked (hfuel : d.queue.length ≤ fuel) : (c.drain fuel d).queue = [] ∨
    ∃ f ∈ (c.drain fuel d).queue, c.Future f.1 ∧ ∀ x ∈ (c.drain fuel d).queue, x.2 ≤ f.2 := by
  induction fuel generalizing d with
  | zero => exact .inl (List.length_eq_zero_iff.mp (by simpa [drain] using hfuel))
  | succ fuel ih =>
    unfold drain
    split
    · exact .inl (Prque.pop_eq_none.mp ‹_›)
    · rename_i m prio rest hpop
      obtain ⟨hperm,hle⟩ := Prque.pop_eq_some hpop
      have hrest : rest.length ≤ fuel := by
        have := hperm.length_eq
        simp only [List.length_cons] at this
        omega
      split
      · exact .inr ⟨(m,prio),List.mem_cons_self,‹_›,fun x hx => hle x (hperm.mem_iff.mpr hx)⟩
      · exact ih hrest
      · exact ih hrest
      · exact ih hrest

theorem drain_keeps {f x : Message × ℤ} (hf : f ∈ d.queue) (hfuture : c.Future f.1) (hx : x ∈ d.queue)
    (hlt : x.2<f.2) : x ∈ (c.drain fuel d).queue := by
  induction fuel generalizing d with
  | zero => exact hx
  | succ fuel ih =>
    unfold drain
    split
    · exact hx
    · rename_i m prio rest hpop
      obtain ⟨hperm,hle⟩ := Prque.pop_eq_some hpop
      -- the popped message is not `x`, since `f` comes before it
      have hxrest : x ∈ rest := by
        refine (List.mem_cons.mp (hperm.mem_iff.mp hx)).resolve_left fun heq => ?_
        have := hle f hf
        rw [← heq] at this
        omega
      have hfrest (hcheck : c.checkMessage m.code m.view ≠ some .futureMessage) : f ∈ rest :=
        (List.mem_cons.mp (hperm.mem_iff.mp hf)).resolve_left fun heq => hcheck (by
          simpa [Future,heq] using hfuture)
      split
      · exact List.mem_cons_of_mem _ hxrest
      · exact ih (hfrest (by simp [*])) hxrest
      · exact ih (hfrest (by simp [*])) hxrest
      · rename_i err hne _ hcheck
        exact ih (hfrest fun h => hne (by simpa [hcheck] using h)) hxrest

end Drain

section Process

variable {c : Core} {s : BacklogState} {src a : Address}

def siftedQueue (c : Core) (s : BacklogState) (src : Address) : Option (Prque Message) :=
  if (c.valSet.getByAddress src).isSome then
    let queue := (s.backlogs.lookup src).getD []
    some (c.drain queue.length ⟨queue,(s.backlogKeys.lookup src).getD [],[]⟩).queue
  else none

lemma processSource_lookup_self : (c.processSource s src).backlogs.lookup src = c.siftedQueue s src := by
  unfold processSource siftedQueue
  split <;> simp [*]

lemma processSource_lookup_ne (h : src≠a) : (c.processSource s a).backlogs.lookup src = s.backlogs.lookup src ∧
      (c.processSource s a).backlogKeys.lookup src = s.backlogKeys.lookup src := by
  unfold processSource
  split <;> simp [h]

lemma foldl_processSource_lookup {srcs : List Address} (hn : srcs.Nodup) (s : BacklogState) :
    (srcs.foldl c.processSource s).backlogs.lookup src =
      if src ∈ srcs then c.siftedQueue s src else s.backlogs.lookup src := by
  induction srcs generalizing s with
  | nil => simp
  | cons a srcs ih =>
    obtain ⟨ha,hn⟩ := List.nodup_cons.mp hn
    rw [List.foldl_cons,ih hn]
    by_cases heq : src=a
    · subst heq
      simp [ha,processSource_lookup_self]
    · obtain ⟨hq,hk⟩ := c.processSource_lookup_ne (s := s) heq
      simp [heq,siftedQueue,hq,hk]

theorem processBacklog_queue (hval : (c.valSet.getByAddress src).isSome) :
    c.processBacklog.queue src = (c.drain (c.queue src).length ⟨c.queue src,c.keys src,[]⟩).queue := by
  have hn : c.backlogs.entries.keys.Nodup := c.backlogs.nodupKeys
  unfold queue
  rw [show c.processBacklog.backlogs.lookup src = _ from foldl_processSource_lookup hn _]
  split
  · simp [siftedQueue,hval,keys]
  · rename_i hmem
    have : c.backlogs.lookup src=none := by
      rwa [AList.lookup_eq_none,AList.mem_keys]
    simp [this,drain]

lemma isSome_of_mem_processBacklog {x : Message × ℤ} (hx : x ∈ c.processBacklog.queue src) :
    (c.valSet.getByAddress src).isSome := by
  by_contra hval
  have hn : c.backlogs.entries.keys.Nodup := c.backlogs.nodupKeys
  unfold queue at hx
  rw [show c.processBacklog.backlogs.lookup src = _ from foldl_processSource_lookup hn _] at hx
  split at hx
  · simp [siftedQueue,hval] at hx
  · rename_i hmem
    have : c.backlogs.lookup src=none := by
      rwa [AList.lookup_eq_none,AList.mem_keys]
    simp [this] at hx

theorem behind_future {x : Message × ℤ} (hx : x ∈ c.processBacklog.queue src) :
    x ∈ c.queue src ∧ ∃ f ∈ c.queue src, c.Future f.1 ∧ x.2 ≤ f.2 := by
  rw [processBacklog_queue (isSome_of_mem_processBacklog hx)] at hx
  obtain ⟨hsub,_⟩ := c.drain_subset (c.queue src).length ⟨c.queue src,c.keys src,[]⟩
  refine ⟨hsub hx,?_⟩
  rcases drain_blocked (c := c) (d := ⟨c.queue src,c.keys src,[]⟩) le_rfl with hnil | ⟨f,hf,hfuture,hle⟩
  · rw [hnil] at hx
    exact absurd hx (by simp)
  · exact ⟨f,hsub hf,hfuture,hle x hx⟩

end Process

lemma negInt64_of_lt {k : ℕ} (h : k<2^63) : negInt64 k = -k := by
  unfold negInt64 RoundChangeSet.toInt
  rw [Nat.mod_eq_of_lt (show k<2^64 by omega)]
  cases k with
  | zero => simp
  | succ k =>
    rw [Nat.mod_eq_of_lt (by omega),if_neg (by omega),Nat.mod_eq_of_lt (by omega)]
    push_cast
    omega

/-- The place of a message in its queue, before it is negated. -/
def rank (m : Message) : ℕ :=
  if m.code = .roundChange then m.view.sequence*1000
  else m.view.sequence*1000+m.view.round*10+msgPriority m.code

/-- The priority a message is queued with. -/
def priority (m : Message) : ℤ := toNegatePriority m.code m.view

lemma priority_of_lt {m : Message} (h : rank m<2^63) : priority m = -(rank m : ℤ) := by
  unfold rank at h ⊢
  unfold priority toNegatePriority
  split at h
  · rename_i hcode
    rw [if_pos hcode,if_pos hcode,uint64_of_lt (by omega),negInt64_of_lt h]
  · rename_i hcode
    rw [if_neg hcode,if_neg hcode,uint64_of_lt (by omega),uint64_of_lt (by omega),negInt64_of_lt h]

lemma msgPriority_pos {code : Code} (h : code ≠ .roundChange) : 0 < msgPriority code := by
  cases code <;> simp_all [msgPriority]

lemma msgPriority_le (code : Code) : msgPriority code ≤ 3 := by
  cases code <;> simp [msgPriority]

section Rank

variable {c : Core} {m a f : Message}

lemma checkMessage_currentView (h : m.code ≠ .roundChange) (hview : m.view=c.currentView) :
    c.checkMessage m.code m.view = c.checkState m.code := by
  have hcmp : m.view.cmp c.currentView = .eq := View.cmp_eq_eq.mpr hview
  unfold checkMessage
  rw [if_neg,if_neg h,hcmp]
  · simp
  · simp [isTooFarFutureMessage,hview]

lemma Accepts.cases (h : c.Accepts m) : m.code = .roundChange ∧ m.view.sequence=c.current.sequence ∨
    m.view=c.currentView ∧ (c.state = .acceptRequest ∧ m.code = .preprepare ∨
      c.state = .preprepared ∧ m.code = .prepare ∨ c.state = .prepared ∧ m.code = .commit) := by
  unfold Accepts at h
  by_cases hcode : m.code = .roundChange
  · exact .inl ⟨hcode,sequence_of_checkMessage_roundChange (hcode ▸ h)⟩
  · exact .inr (checkMessage_eq_none hcode h)

theorem near_of_not_tooFar {view : View} (h : ¬ c.isTooFarFutureMessage view) : (c.current.sequence<view.sequence →
      view.sequence = c.current.sequence+1 ∧ view.round<roundThreshold) ∧
    (view.sequence=c.current.sequence → view.round ≤ c.current.round+roundThreshold) := by
  have hnear : ¬ _ := fun hwide => h (decide_eq_true hwide)
  rw [not_or,not_and_or,not_or,not_and_or,sequenceThreshold] at hnear
  omega

lemma Future.cases (h : c.Future m) : (m.view.sequence = c.current.sequence+1 ∧ m.view.round<roundThreshold) ∨
    m.code ≠ .roundChange ∧ (m.view.sequence=c.current.sequence ∧ c.current.round < m.view.round ∧
        m.view.round ≤ c.current.round+roundThreshold ∨
      m.view=c.currentView ∧ (c.state = .acceptRequest ∧ m.code ≠ .preprepare ∨
        c.state = .preprepared ∧ m.code = .commit)) := by
  unfold Future checkMessage at h
  split at h
  · simp at h
  rename_i hfar
  obtain ⟨hnext,hsame⟩ := near_of_not_tooFar hfar
  split at h
  · split at h
    · exact .inl (hnext ‹_›)
    · split at h <;> simp at h
  rename_i hcode
  split at h
  · rename_i hgt
    rw [View.cmp_eq_gt] at hgt
    simp only [currentView] at hgt
    rcases hgt with hgt | hgt
    · exact .inl (hnext hgt)
    · exact .inr ⟨hcode,.inl ⟨hgt.1,hgt.2,hsame hgt.1⟩⟩
  rename_i hngt
  split at h
  · split at h <;> simp at h
  rename_i hnlt
  refine .inr ⟨hcode,.inr ⟨View.cmp_eq_eq.mp ?_,?_⟩⟩
  · cases hcmp : m.view.cmp c.currentView <;> simp_all
  · unfold checkState at h
    cases hst : c.state <;> cases hm : m.code <;> simp_all [Code.toNat]

/-- Below round 100 an accepted message comes before a message of the future, with one exception: a
core that waits for PREPAREs takes those of its view, but finds a COMMIT of its view first. -/
theorem rank_lt_or (hround : c.current.round<100) (ha : c.Accepts a) (hf : c.Future f) :
    rank a<rank f ∨ c.state = .preprepared ∧ (a.code = .prepare ∧ a.view=c.currentView) ∧
      f.code = .commit ∧ f.view=c.currentView := by
  have hs := c.currentView_sequence
  have hr := c.currentView_round
  rcases ha.cases with ⟨hcode,hseq⟩ | ⟨hview,hstate⟩
  · left
    unfold rank
    rw [if_pos hcode]
    rcases hf.cases with ⟨hf,_⟩ | ⟨hnrc,⟨hf,_,_⟩ | ⟨hf,_⟩⟩
    · split <;> omega
    · rw [if_neg hnrc]
      omega
    · rw [if_neg hnrc,hf]
      have := msgPriority_pos hnrc
      omega
  · have hnrc : a.code ≠ .roundChange := by
      rcases hstate with h | h | h <;> simp [h.2]
    have hle := msgPriority_le a.code
    unfold rank
    rw [if_neg hnrc,hview]
    rcases hf.cases with ⟨hf,_⟩ | ⟨hnrc',⟨hf,_,_⟩ | ⟨hf,hst⟩⟩
    · left
      split <;> omega
    · rw [if_neg hnrc']
      omega
    · rw [if_neg hnrc',hf]
      rcases hst with ⟨hst,hcode⟩ | ⟨hst,hcode⟩
      · left
        have ha : a.code = .preprepare := by simpa [hst] using hstate
        cases hm : f.code <;> simp_all [msgPriority]
      · right
        have ha : a.code = .prepare := by simpa [hst] using hstate
        exact ⟨hst,⟨ha,rfl⟩,hcode,rfl⟩

lemma rank_le_of_accepts (h : c.Accepts m) : rank m ≤ c.current.sequence*1000+c.current.round*10+3 := by
  have := msgPriority_le m.code
  unfold rank
  rcases h.cases with ⟨hcode,hseq⟩ | ⟨hview,_⟩
  · rw [if_pos hcode]
    omega
  · rw [hview]
    split <;> simp <;> omega

lemma rank_le_of_future (h : c.Future m) : rank m ≤ c.current.sequence*1000+c.current.round*10+1093 := by
  have := msgPriority_le m.code
  unfold rank
  rcases h.cases with ⟨hseq,hround⟩ | ⟨hcode,⟨hseq,_,hround⟩ | ⟨hview,_⟩⟩
  · unfold roundThreshold at hround
    split <;> omega
  · unfold roundThreshold at hround
    rw [if_neg hcode]
    omega
  · rw [hview]
    split <;> simp <;> omega

end Rank

def enqueue (ms : List Message) : Prque Message := ms.map fun m => (m,priority m)

/-- After the backlog was looked through, no message left for the source is one the core takes. -/
def Complete (c : Core) (src : Address) : Prop :=
  ∀ x ∈ c.processBacklog.queue src, ¬ c.processBacklog.Accepts x.1

section Complete

variable {c : Core} {src : Address} {ms : List Message}

lemma complete_of_lt (hq : c.queue src = enqueue ms)
    (h : ∀ a ∈ ms, ∀ f ∈ ms, c.Accepts a → c.Future f → priority f<priority a) : c.Complete src := by
  intro x hx hacc
  obtain ⟨hmem,f,hf,hfuture,hle⟩ := behind_future hx
  rw [hq] at hmem hf
  obtain ⟨a,ha,rfl⟩ := List.mem_map.mp hmem
  obtain ⟨f,hfin,rfl⟩ := List.mem_map.mp hf
  have hlt := h a ha f hfin hacc hfuture
  omega

lemma le_of_complete (hval : (c.valSet.getByAddress src).isSome) (hq : c.queue src = enqueue ms)
    (h : c.Complete src) {a f : Message} (ha : a ∈ ms) (hf : f ∈ ms) (hacc : c.Accepts a)
    (hfuture : c.Future f) : priority f ≤ priority a := by
  by_contra hlt
  have hmem {m : Message} (hm : m ∈ ms) : (m,priority m) ∈ c.queue src :=
    hq ▸ List.mem_map_of_mem (f := fun m => (m,priority m)) hm
  refine h (a,priority a) ?_ hacc
  rw [processBacklog_queue hval]
  exact drain_keeps (d := ⟨c.queue src,c.keys src,[]⟩) (hmem hf) hfuture (hmem ha) (by simpa using hlt)

/-- For every validator and whatever is queued for it, the backlog is complete if every message the
core takes has a larger priority than every message of the future, and only if none has a smaller
one. In rounds below 100 it is complete unless the core waits for PREPAREs and both a PREPARE and a
COMMIT of its view are queued. -/
theorem backlog_complete_iff (c : Core) (src : Address) (ms : List Message)
    (hval : (c.valSet.getByAddress src).isSome) (hq : c.backlogs.lookup src = some (enqueue ms)) :
    ((∀ a ∈ ms, ∀ f ∈ ms, c.Accepts a → c.Future f → priority f<priority a) → c.Complete src) ∧
    (c.Complete src → ∀ a ∈ ms, ∀ f ∈ ms, c.Accepts a → c.Future f → priority f ≤ priority a) ∧
    (c.current.round<100 → (c.current.sequence+3)*1000<2^63 → (c.Complete src ↔ ¬ (c.state = .preprepared ∧
        (∃ m ∈ ms, m.code = .prepare ∧ m.view=c.currentView) ∧
        ∃ m ∈ ms, m.code = .commit ∧ m.view=c.currentView))) := by
  have hqueue : c.queue src = enqueue ms := by
    unfold queue
    rw [hq,Option.getD_some]
  refine ⟨complete_of_lt hqueue,fun h a ha f hf => le_of_complete hval hqueue h ha hf,?_⟩
  intro hround hseq
  have hpa {a : Message} (h : c.Accepts a) : priority a = -(rank a : ℤ) :=
    priority_of_lt (by have := rank_le_of_accepts h; omega)
  have hpf {f : Message} (h : c.Future f) : priority f = -(rank f : ℤ) :=
    priority_of_lt (by have := rank_le_of_future h; omega)
  constructor
  · rintro h ⟨hstate,⟨a,ha,hacode,haview⟩,f,hf,hfcode,hfview⟩
    have hacc : c.Accepts a := by
      rw [Accepts,checkMessage_currentView (by simp [hacode]) haview]
      simp [checkState,hstate,hacode]
    have hfuture : c.Future f := by
      rw [Future,checkMessage_currentView (by simp [hfcode]) hfview]
      simp [checkState,hstate,hfcode,Code.toNat]
    have hlt : rank f<rank a := by simp [rank,hacode,hfcode,haview,hfview,msgPriority]
    have hle := le_of_complete hval hqueue h ha hf hacc hfuture
    rw [hpa hacc,hpf hfuture] at hle
    omega
  · intro hno
    refine complete_of_lt hqueue fun a ha f hf hacc hfuture => ?_
    have hlt : rank a<rank f := by
      refine (rank_lt_or hround hacc hfuture).resolve_right ?_
      rintro ⟨hstate,ha',hf'⟩
      exact hno ⟨hstate,⟨a,ha,ha'⟩,f,hf,hf'⟩
    rw [hpa hacc,hpf hfuture]
    omega

end Complete

end Core

/-! ### A COMMIT before its PREPARE

Validator 1 is honest and alone with three others. The COMMIT and the PREPARE of validator 2 for
`block1` arrive before the proposal does. -/

namespace EarlyVotes
open FourValidators LateTimeout

def early : List Input := inputs genesis
  (deliver [1] [.commit (commitBy 2 0 block1),.prepare (prepareBy 2 0 block1)] ++
    (1,.request block1)::deliver [1] [.preprepare (proposalBy 1 0 block1 [] [])])

/-- When the proposal is accepted both votes are queued. The COMMIT is looked at first, and the
PREPARE the core now waits for stays behind it. -/
theorem prepare_left_behind_commit : ∃ net : Net, net.Reachable alone (fun _ => backend genesis) (fun _ _ => True) ∧
    ((net.cores 1).valSet.getByAddress 2).isSome ∧
    ∃ x ∈ (net.cores 1).processBacklog.queue 2, (net.cores 1).processBacklog.Accepts x.1 :=
  Net.exists_reachable_of_run alone (fun _ => backend genesis) (fun _ _ => True) (fun _ _ => True)
    early (fun _ _ _ h => h)
    (fun net => ((net.cores 1).valSet.getByAddress 2).isSome ∧
      ∃ x ∈ (net.cores 1).processBacklog.queue 2, (net.cores 1).processBacklog.Accepts x.1)
    (by decide +kernel)

def votes (round : ℕ) : List Message := [.prepare (prepareBy 2 0 block1),.commit (commitBy 2 round block1)]

/-- With a COMMIT of a later round queued instead, the PREPARE is found. -/
theorem complete_with_later_commit : ∃ c : Core, c.state = .preprepared ∧
    c.queue 2 = Core.enqueue (votes 1) ∧ c.Complete 2 := by
  let c : Core := { Core.start 1 11 (backend genesis) with
    state := .preprepared, backlogs := AList.singleton 2 (Core.enqueue (votes 1)) }
  refine ⟨c,rfl,rfl,?_⟩
  exact ((Core.backlog_complete_iff c 2 (votes 1) (by decide) rfl).2.2
    (by decide) (by decide)).mpr (by decide)

end EarlyVotes

end StableNet.Wbft
