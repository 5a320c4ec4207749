import StableNet.Lib.Quorum

/-! Agreement of round-based voting with locks: if every vote of an honest node obeys the rule against the votes
before it, no two values that are not bad are committed by quorums. -/
namespace StableNet.Lib.Locking

variable {N D : Type*}

/-- The votes of one instance; `roundChange r l` leaves for round `r` with lock `l`. -/
inductive Vote (D : Type*) where
  | prepare (r : ℕ) (d : D)
  | commit (r : ℕ) (d : D)
  | roundChange (r : ℕ) (lock : Option (ℕ × D))

/-- Votes with their voters, the newest first. -/
abbrev History (N D : Type*) := List (N × Vote D)

variable (S : QuorumSystem N)

/-- The honest members of some quorum have all cast `v`. -/
def Supports (H : History N D) (v : Vote D) : Prop :=
  ∃ Q, S.isQuorum Q ∧ ∀ i ∈ Q, S.honest i → (i,v) ∈ H

/-- What allows preparing `d` in a later round `r`: a quorum left for `r` without a lock, or it
left with locks no higher than `pr`, a round in which `d` itself was prepared by a quorum. -/
inductive Justified (H : History N D) (r : ℕ) (d : D) : Prop where
  | fresh (Q : Finset N) (quorum : S.isQuorum Q)
      (left : ∀ i ∈ Q, S.honest i → (i,Vote.roundChange r none) ∈ H)
  | locked (pr : ℕ) (Q : Finset N) (quorum : S.isQuorum Q)
      (left : ∀ i ∈ Q, S.honest i → ∃ l, (i,Vote.roundChange r l) ∈ H ∧ ∀ p ∈ l, p.1 ≤ pr)
      (prepared : Supports S H (.prepare pr d))

variable (bad : D → Prop)

/-- The voting rule of node `i` against the votes cast before. Leaving a round, the lock covers every
committed round, unless a bad value was committed at least as late. -/
def Rule (H : History N D) (i : N) : Vote D → Prop
  | .prepare r d => (∀ d', (i,.prepare r d') ∈ H → d'=d) ∧ (0<r → Justified S H r d)
  | .commit r d => Supports S H (.prepare r d) ∧ ∀ r' l, (i,.roundChange r' l) ∈ H → r' ≤ r
  | .roundChange r l => ∀ r₀ d₀, (i,.commit r₀ d₀) ∈ H → r₀<r →
      (∃ p ∈ l, r₀ ≤ p.1) ∨ ∃ r₂ d₂, (i,.commit r₂ d₂) ∈ H ∧ r₀ ≤ r₂ ∧ bad d₂

/-- Every vote of an honest node obeyed the rule when it was cast. -/
def Lawful : History N D → Prop
  | [] => True
  | (i,v)::H => (S.honest i → Rule S bad H i v) ∧ Lawful H

variable {S bad} {H T : History N D} {i : N} {r r₀ r₁ : ℕ} {d d₀ d₁ : D} {l : Option (ℕ × D)} {v : Vote D}

lemma Supports.mono (h : Supports S T v) (hTH : T ⊆ H) : Supports S H v := by
  obtain ⟨Q,hQ,hv⟩ := h
  exact ⟨Q,hQ,fun i hi hh => hTH (hv i hi hh)⟩

lemma Supports.exists_honest (h : Supports S H v) : ∃ i, S.honest i ∧ (i,v) ∈ H := by
  obtain ⟨Q,hQ,hv⟩ := h
  obtain ⟨i,hi,hh⟩ := S.exists_honest hQ
  exact ⟨i,hh,hv i hi hh⟩

section
variable (hL : Lawful S bad H)
include hL

lemma Lawful.of_suffix (h : T <:+ H) : Lawful S bad T := by
  induction H with
  | nil => rwa [List.suffix_nil.mp h]
  | cons e H ih =>
    rcases List.suffix_cons_iff.mp h with rfl | h
    · exact hL
    · exact ih hL.2 h

lemma Lawful.prepare_unique (hi : S.honest i)
    (h₀ : (i,.prepare r d₀) ∈ H) (h₁ : (i,.prepare r d₁) ∈ H) : d₀=d₁ := by
  induction H with
  | nil => simp at h₀
  | cons e T ih =>
    rcases List.mem_cons.mp h₀ with rfl | old₀ <;> rcases List.mem_cons.mp h₁ with h | old₁
    · cases h; rfl
    · exact ((hL.1 hi).1 _ old₁).symm
    · subst h; exact (hL.1 hi).1 _ old₀
    · exact ih hL.2 old₀ old₁

theorem Lawful.commit_prepared (hi : S.honest i) (h : (i,.commit r d) ∈ H) : Supports S H (.prepare r d) := by
  induction H with
  | nil => simp at h
  | cons e T ih =>
    rcases List.mem_cons.mp h with rfl | h
    · exact (hL.1 hi).1.mono (List.subset_cons_self _ _)
    · exact (ih hL.2 h).mono (List.subset_cons_self _ _)

theorem Lawful.commit_before (hi : S.honest i)
    (hsuf : (i,.roundChange r l)::T <:+ H) (hc : (i,.commit r₀ d₀) ∈ H) (hlt : r₀<r) : (i,.commit r₀ d₀) ∈ T := by
  induction H with
  | nil => simp at hc
  | cons e H ih =>
    rcases List.suffix_cons_iff.mp hsuf with heq | hsuf'
    · cases heq
      rcases List.mem_cons.mp hc with h | h
      · cases h
      · exact h
    · rcases List.mem_cons.mp hc with rfl | hc
      · have := (hL.1 hi).2 r l (hsuf'.subset List.mem_cons_self)
        omega
      · exact ih hL.2 hsuf' hc

lemma Lawful.prepared_unique (h₀ : Supports S H (.prepare r d₀)) (h₁ : Supports S H (.prepare r d₁)) : d₀=d₁ := by
  obtain ⟨Q₀,hQ₀,hv₀⟩ := h₀
  obtain ⟨Q₁,hQ₁,hv₁⟩ := h₁
  obtain ⟨i,hi₀,hi₁,hh⟩ := S.meet hQ₀ hQ₁
  exact hL.prepare_unique hh (hv₀ i hi₀ hh) (hv₁ i hi₁ hh)

lemma Supports.commit_prepared (h : Supports S H (.commit r d)) : Supports S H (.prepare r d) := by
  obtain ⟨i,hh,hi⟩ := h.exists_honest
  exact hL.commit_prepared hh hi

end

section Committed

variable (hL : Lawful S bad H) (hT : T <:+ H) (hc : Supports S H (.commit r₀ d₀))
  (before : ∀ j r d, S.honest j → (j,.prepare r d) ∈ T → r₀<r → d=d₀)

include hL hT hc before

/-- Once a quorum has committed `d₀` in round `r₀`, whatever a quorum has prepared since is `d₀`. -/
theorem prepared_eq_of_committed (hp : Supports S T (.prepare r d)) (hle : r₀ ≤ r) : d=d₀ := by
  rcases hle.eq_or_lt with rfl | hlt
  · exact hL.prepared_unique (hp.mono hT.subset) (hc.commit_prepared hL)
  · obtain ⟨j,hj,hv⟩ := hp.exists_honest
    exact before j r d hj hv hlt

theorem Lawful.lock_of_committed (hgood : ¬ bad d₀) (hi : S.honest i)
    (hci : (i,.commit r₀ d₀) ∈ H) (hr : (i,.roundChange r l) ∈ T) (hlt : r₀<r) : ∃ p ∈ l, r₀ ≤ p.1 := by
  obtain ⟨A,T',rfl⟩ := List.append_of_mem hr
  have hsuf : (i,.roundChange r l)::T' <:+ H := (List.suffix_append _ _).trans hT
  have hci' := hL.commit_before hi hsuf hci hlt
  rcases (hL.of_suffix hsuf).1 hi r₀ d₀ hci' hlt with hp | ⟨r₂,d₂,hc₂,hle,hbad⟩
  · exact hp
  · -- the dropped lock would be on a value other than `d₀` that a quorum prepared later
    have hp₂ := (hL.of_suffix hT).commit_prepared hi
      (List.mem_append_right A (List.mem_cons_of_mem _ hc₂))
    have heq := prepared_eq_of_committed hL hT hc before hp₂ hle
    exact absurd (heq ▸ hbad) hgood

theorem Justified.eq_of_committed (hgood : ¬ bad d₀) (hj : Justified S T r d) (hlt : r₀<r) : d=d₀ := by
  obtain ⟨Qc,hQc,hcv⟩ := id hc
  cases hj with
  | fresh Q hQ left =>
    obtain ⟨i,hiQ,hic,hh⟩ := S.meet hQ hQc
    obtain ⟨p,hp,_⟩ := hL.lock_of_committed hT hc before hgood hh (hcv i hic hh) (left i hiQ hh) hlt
    cases hp
  | locked pr Q hQ left prepared =>
    obtain ⟨i,hiQ,hic,hh⟩ := S.meet hQ hQc
    obtain ⟨l,hl,hle⟩ := left i hiQ hh
    obtain ⟨p,hp,hr₀⟩ := hL.lock_of_committed hT hc before hgood hh (hcv i hic hh) hl hlt
    exact prepared_eq_of_committed hL hT hc before prepared (hr₀.trans (hle p hp))

end Committed

/-- After a quorum has committed `d₀` in round `r₀`, honest nodes prepare nothing else in the later
rounds: by induction on the votes in the order they were cast. -/
theorem Lawful.prepare_eq_of_committed (hL : Lawful S bad H) (hc : Supports S H (.commit r₀ d₀)) (hgood : ¬ bad d₀) :
    ∀ T, T <:+ H → ∀ i r d, S.honest i → (i,.prepare r d) ∈ T → r₀<r → d=d₀ := by
  intro T
  induction T with
  | nil => intro _ i r d _ h; simp at h
  | cons e T ih =>
    intro hsuf i r d hi hmem hlt
    have hsuf' : T <:+ H := (List.suffix_cons e T).trans hsuf
    rcases List.mem_cons.mp hmem with rfl | hmem
    · exact Justified.eq_of_committed hL hsuf' hc (ih hsuf') hgood
        (((hL.of_suffix hsuf).1 hi).2 (by omega)) hlt
    · exact ih hsuf' i r d hi hmem hlt

section
variable (hL : Lawful S bad H) (h₀ : Supports S H (.commit r₀ d₀))
include hL h₀

lemma Lawful.agreement_of_le (hgood : ¬ bad d₀) (h₁ : Supports S H (.commit r₁ d₁)) (hle : r₀ ≤ r₁) : d₁=d₀ :=
  prepared_eq_of_committed hL List.suffix_rfl h₀
    (hL.prepare_eq_of_committed h₀ hgood H List.suffix_rfl) (h₁.commit_prepared hL) hle

/-- Two values committed by quorums, in whatever rounds, are equal if neither is bad. -/
theorem Lawful.agreement (hg₀ : ¬ bad d₀) (h₁ : Supports S H (.commit r₁ d₁)) (hg₁ : ¬ bad d₁) : d₀=d₁ := by
  rcases le_total r₀ r₁ with hle | hle
  · exact (hL.agreement_of_le h₀ hg₀ h₁ hle).symm
  · exact hL.agreement_of_le h₁ hg₁ h₀ hle

end

end StableNet.Lib.Locking
