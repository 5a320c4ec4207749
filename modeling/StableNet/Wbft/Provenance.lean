import StableNet.Wbft.Simulation

/-! What verification establishes: every payload of a kept message was signed by its source, a member of the
validators its view was looked up in. -/
namespace StableNet.Wbft
open Chain

/-- A payload as it arrived, and as it left the signature check of a core. -/
structure Core.Verified (c : Core) (m₀ m : CommonPayload) (data : SigningPayload) : Prop where
  signature : m₀.signature = ⟨m.source,data⟩
  kept : m.signature=m₀.signature
  view : m.view=m₀.view
  member : m.source ∈ (c.signatureValidators m.view).members

section Verification

variable {c : Core}

lemma Prepare.verified {p₀ p : Prepare} (h : p₀.verify c.validateFn = some p) :
    c.Verified p₀.toCommonPayload p.toCommonPayload p.encodePayloadForSigning := by
  obtain ⟨a,ha,rfl⟩ := Option.map_eq_some_iff.mp h
  obtain ⟨hsig,hin⟩ := checkValidatorSignature_eq_some ha
  exact ⟨hsig,rfl,rfl,hin⟩

lemma SignedRoundChangePayload.verified {p₀ p : SignedRoundChangePayload} (h : p₀.verify c.validateFn = some p) :
    c.Verified p₀.toCommonPayload p.toCommonPayload p.encodePayloadForSigning := by
  obtain ⟨a,ha,rfl⟩ := Option.map_eq_some_iff.mp h
  obtain ⟨hsig,hin⟩ := checkValidatorSignature_eq_some ha
  exact ⟨hsig,rfl,rfl,hin⟩

lemma mem_of_mapM_eq_some {α β : Type} {f : α → Option β} {xs : List α} {ys : List β}
    (h : xs.mapM f = some ys) : ∀ y ∈ ys, ∃ x ∈ xs, f x = some y := by
  induction xs generalizing ys with
  | nil => simp_all
  | cons x xs ih =>
    simp only [List.mapM_cons,Option.bind_eq_bind,Option.bind_eq_some_iff,Option.pure_def,Option.some.injEq] at h
    obtain ⟨y,hy,ys',hys,rfl⟩ := h
    intro z hz
    rcases List.mem_cons.mp hz with rfl | hz
    · exact ⟨x,List.mem_cons_self,hy⟩
    · obtain ⟨x',hx',hf⟩ := ih hys z hz
      exact ⟨x',List.mem_cons_of_mem _ hx',hf⟩

lemma Preprepare.verified {m₀ m : Preprepare}
    (h : (Message.preprepare m₀).verifySignatures c.validateFn = some (.preprepare m)) : m.view=m₀.view ∧
    (∀ rc ∈ m.justificationRoundChanges, ∃ rc₀ ∈ m₀.justificationRoundChanges,
      c.Verified rc₀.toCommonPayload rc.toCommonPayload rc.encodePayloadForSigning) ∧
    ∀ p ∈ m.justificationPrepares, ∃ p₀ ∈ m₀.justificationPrepares,
      c.Verified p₀.toCommonPayload p.toCommonPayload p.encodePayloadForSigning := by
  simp only [Message.verifySignatures,Option.bind_eq_bind,Option.bind_eq_some_iff,Option.pure_def,
    Option.some.injEq,Message.preprepare.injEq] at h
  obtain ⟨_,_,_,hrcs,_,hps,rfl⟩ := h
  refine ⟨rfl,fun rc hrc => ?_,fun p hp => ?_⟩
  · obtain ⟨rc₀,h₀,hv⟩ := mem_of_mapM_eq_some hrcs rc hrc
    exact ⟨rc₀,h₀,SignedRoundChangePayload.verified hv⟩
  · obtain ⟨p₀,h₀,hv⟩ := mem_of_mapM_eq_some hps p hp
    exact ⟨p₀,h₀,Prepare.verified hv⟩

lemma Commit.verified {m₀ m : Commit} (h : (Message.commit m₀).verifySignatures c.validateFn = some (.commit m)) :
    c.Verified m₀.toCommonPayload m.toCommonPayload m.encodePayloadForSigning := by
  simp only [Message.verifySignatures,Option.bind_eq_bind,Option.bind_eq_some_iff,Option.pure_def,
    Option.some.injEq,Message.commit.injEq] at h
  obtain ⟨a,ha,rfl⟩ := h
  obtain ⟨hsig,hin⟩ := checkValidatorSignature_eq_some ha
  exact ⟨hsig,rfl,rfl,hin⟩

end Verification

namespace Core

theorem window_of_checkMessage {c : Core} {code : Code} {view : View}
    (h : c.checkMessage code view=none ∨ c.checkMessage code view = some .futureMessage) :
    c.current.sequence ≤ view.sequence ∧ view.sequence ≤ c.current.sequence+1 := by
  unfold checkMessage at h
  split at h
  · simp at h
  rename_i hfar
  have hup : view.sequence ≤ c.current.sequence+1 := by
    by_contra hgt
    exact hfar (decide_eq_true (.inl ⟨by omega,.inl (by unfold sequenceThreshold; omega)⟩))
  refine ⟨?_,hup⟩
  by_contra hlt
  have hcmp : view.cmp c.currentView = .lt := View.cmp_eq_lt.mpr (.inl (by simpa [currentView] using hlt))
  split at h
  · simp [show ¬ c.current.sequence<view.sequence by omega] at h
  · simp only [hcmp,reduceCtorEq,if_false] at h
    split at h <;> simp at h

theorem signatureValidators_of_le {c : Core} {view : View} (h : c.current.sequence ≤ view.sequence) :
    c.signatureValidators view=c.valSet := by
  unfold signatureValidators
  rw [if_neg]
  rintro ⟨-,-,h',-⟩
  omega

lemma receive_orderly (b : Backend) (c : Core) (e : Event) : (c.receive e).Orderly b e = c.Orderly b e :=
  propext ⟨fun h => ⟨h.round,h.head,h.retry⟩,fun h => ⟨h.round,h.head,h.retry⟩⟩

lemma receive_holds {c : Core} {e : Event} {m : Message} (h : (c.receive e).Holds m) : c.Holds m := by
  rcases h with h | h | ⟨p,hp,rfl⟩
  · exact .inl h
  · exact .inr (.inl (List.mem_of_mem_erase h))
  · refine .inr (.inr ⟨p,?_,rfl⟩)
    simp only [receive] at hp
    split at hp
    · exact hp
    · exact hp

theorem start_spec (a : Address) (key : PublicKey) (b : Backend) :
    (start a key b).voter = .fresh (b.lastProposal.number+1) ∧
    (start a key b).valSet.validators = (b.validators b.lastProposal).validators ∧ ∀ m, ¬ (start a key b).Holds m := by
  unfold start
  dsimp only
  refine ⟨by rw [enterRound_voter]; rfl,(enterRound_frame b _ 0).validators,fun m hm => ?_⟩
  rcases (enterRound_frame b _ 0).holds m hm with ⟨e,he,_⟩ | h | ⟨p,hp,_⟩
  · simp at he
  · simp at h
  · simp at hp

end Core

namespace Net

variable {cfg : Config} {net : Net} {i : Input}

lemma init_key {cfg : Config} (backends : Address → Backend) {a : Address} (ha : a ∈ cfg.honest) :
    (a,((init cfg backends).cores a).blsPublicKey) ∈ cfg.nodes := by
  obtain ⟨x,hx,rfl⟩ := List.mem_map.mp (List.mem_toFinset.mp ha)
  have hkey : ((init cfg backends).cores x.1).blsPublicKey =
      ((cfg.nodes.find? (·.1 = x.1)).map (·.2)).getD 0 := (Core.enterRound_frame _ _ 0).key
  cases hf : cfg.nodes.find? (·.1 = x.1) with
  | none => simpa using List.find?_eq_none.mp hf x hx
  | some y =>
    have hy : y.1=x.1 := by simpa using List.find?_some hf
    rw [hkey,hf,← hy]
    exact List.mem_of_find?_eq_some hf

lemma init_spec (cfg : Config) (backends : Address → Backend) (a : Address) :
    ((init cfg backends).cores a).voter = .fresh ((backends a).lastProposal.number+1) ∧
    ((init cfg backends).cores a).valSet.validators = ((backends a).validators (backends a).lastProposal).validators ∧
    ∀ m, ¬ ((init cfg backends).cores a).Holds m := Core.start_spec a _ _

/-- An input is a step of the voter of its node, provided the messages that the node holds are
available and so is every message it verifies and keeps. -/
theorem coreAfter_simulates (avail : Message → Prop) (hen : net.Enabled cfg i)
    (hheld : ∀ m, (net.cores i.node).Holds m → avail m)
    (hmessage : ∀ m₀ m, i.event = .message m₀ → net.Authentic cfg m₀ →
      m₀.verifySignatures (net.cores i.node).validateFn = some m →
      (net.cores i.node).current.sequence ≤ m.view.sequence →
      m.view.sequence ≤ (net.cores i.node).current.sequence+1 → avail m) :
    Core.Simulates ((net.cores i.node).Orderly i.backend i.event) avail i.backend (net.cores i.node)
      (net.coreAfter i) := by
  have h := Core.handleEvent_simulates avail (c := (net.cores i.node).receive i.event)
    i.backend i.event rfl (fun m hm => hheld m (Core.receive_holds hm)) (fun m he => ?_)
    fun m₀ m he hv hcheck => ?_
  · rw [Core.receive_orderly] at h
    exact Core.Simulates.of_same ((net.cores i.node).receive i.event) rfl rfl rfl rfl h
  · have hev := hen.2
    rw [he] at hev
    exact hheld m (.inr (.inl hev))
  · have hev := hen.2
    rw [he] at hev
    obtain ⟨hlo,hhi⟩ := Core.window_of_checkMessage hcheck
    exact hmessage m₀ m he hev hv hlo hhi

end Net

end StableNet.Wbft
