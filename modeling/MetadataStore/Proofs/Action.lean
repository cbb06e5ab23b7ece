import Mathlib.Data.List.Forall2
import MetadataStore.Action

/-!
# `Proofs.Action` — what actions keep

An action keeps a property of its state when the property holds after it, whatever the outcome, whenever
it held before. What parts keep, their sequence keeps; a fault stops a sequence and cannot break what
its first part kept.

## Contents
- `bind_eq_ok`, `bind_pure_eq_ok`: a step after a result.
- `Action.Keeps`, with one lemma for each way to build an action.
- `check_bind_of_ok`: a check and what follows it.
- `exists_eq_ok_of_isOk`: what there is of an action that succeeded.
- `onFirst_eq_ok`, `onFirst_eq_error`, `Keeps.onFirst`: acting on the first of two states.
- `forall₂_of_collect`, `exists_collect_eq_ok`: results collected one by one.
-/

namespace MetadataStore

/-- A step after a result succeeds exactly when there is a result and the step succeeds on it. -/
theorem bind_eq_ok {ε α β : Type} {result : Except ε α} {next : α → Except ε β} {b : β} :
    (result >>= next) = .ok b ↔ ∃ a, result = .ok a ∧ next a = .ok b := by
  cases result with
  | error fault =>
    constructor
    · intro h
      cases h
    · rintro ⟨a, ha, -⟩
      cases ha
  | ok a =>
    constructor
    · intro h
      exact ⟨a, rfl, h⟩
    · rintro ⟨a', ha, h⟩
      cases ha
      exact h

/-- What is made of a result is made exactly when there is a result. -/
theorem bind_pure_eq_ok {ε α β : Type} {result : Except ε α} {make : α → β} {b : β} :
    (result >>= fun a => pure (make a)) = .ok b ↔ ∃ a, result = .ok a ∧ make a = b :=
  bind_eq_ok.trans (exists_congr fun _ => and_congr_right fun _ => iff_of_eq (Except.ok.injEq _ _))

namespace Action

variable {σ τ α β : Type} {I : σ → Prop}

/-- The property holds after the action whenever it held before, also after a fault. -/
def Keeps (I : σ → Prop) (action : Action σ α) : Prop :=
  ∀ s, I s → I (action s).2

namespace Keeps

theorem pure (a : α) : Keeps I (Pure.pure a : Action σ α) :=
  fun _ h => h

theorem fail (fault : Fault) : Keeps I (Action.fail fault : Action σ α) :=
  fun _ h => h

theorem get : Keeps I (Action.get : Action σ σ) :=
  fun _ h => h

theorem ofResult (result : Except Fault α) : Keeps I (Action.ofResult result : Action σ α) :=
  fun _ h => h

theorem bind {action : Action σ α} {next : α → Action σ β} (h : Keeps I action)
    (hnext : ∀ a, Keeps I (next a)) : Keeps I (action >>= next) := by
  intro s hs
  have hmid := h s hs
  rw [bind_apply]
  cases haction : action s with
  | mk outcome t =>
    rw [haction] at hmid
    cases outcome with
    | error fault => exact hmid
    | ok a => exact hnext a t hmid

theorem attempt {action : Action σ α} (h : Keeps I action) : Keeps I (Action.attempt action) :=
  fun s hs => h s hs

theorem ite {p : Prop} [Decidable p] {action other : Action σ α} (h : Keeps I action)
    (hother : Keeps I other) : Keeps I (if p then action else other) := by
  split
  · exact h
  · exact hother

theorem collect {action : α → Action σ β} {as : List α} (h : ∀ a ∈ as, Keeps I (action a)) :
    Keeps I (Action.collect action as) := by
  induction as with
  | nil => exact pure []
  | cons a rest ih =>
    refine bind (h a List.mem_cons_self) fun b => ?_
    exact bind (ih fun a' hmem => h a' (List.mem_cons_of_mem a hmem)) fun bs => pure (b :: bs)

end Keeps

/-! ## Checks -/

/-- What follows a check is done on the same state. -/
theorem check_bind_of_ok {check : Except Fault α} {a : α} (hcheck : check = .ok a)
    (next : α → Action σ β) (s : σ) : (ofResult check >>= next) s = next a s := by
  rw [hcheck]
  rfl

/-! ## Success -/

theorem exists_eq_ok_of_isOk {outcome : Except Fault α × σ} (h : outcome.1.isOk = true) :
    ∃ a s, outcome = (.ok a, s) := by
  obtain ⟨result, s⟩ := outcome
  cases result with
  | ok a => exact ⟨a, s, rfl⟩
  | error fault => cases h

/-! ## Actions on the first of two states -/

theorem onFirst_apply (action : Action σ α) (s : σ) (t : τ) :
    onFirst action (s, t) = ((action s).1, ((action s).2, t)) := rfl

theorem onFirst_eq_ok {action : Action σ α} {s : σ} {t : τ} {s' : σ × τ} {a : α} :
    onFirst action (s, t) = (.ok a, s') ↔ ∃ s₁, action s = (.ok a, s₁) ∧ s' = (s₁, t) := by
  rw [onFirst_apply]
  constructor
  · intro h
    cases h' : action s with
    | mk outcome s₁ =>
      rw [h'] at h
      simp only [Prod.mk.injEq] at h
      obtain ⟨rfl, rfl⟩ := h
      exact ⟨s₁, rfl, rfl⟩
  · rintro ⟨s₁, h, rfl⟩
    rw [h]

theorem onFirst_eq_error {action : Action σ α} {s : σ} {t : τ} {s' : σ × τ} {fault : Fault} :
    onFirst action (s, t) = (.error fault, s') ↔
      ∃ s₁, action s = (.error fault, s₁) ∧ s' = (s₁, t) := by
  rw [onFirst_apply]
  constructor
  · intro h
    cases h' : action s with
    | mk outcome s₁ =>
      rw [h'] at h
      simp only [Prod.mk.injEq] at h
      obtain ⟨rfl, rfl⟩ := h
      exact ⟨s₁, rfl, rfl⟩
  · rintro ⟨s₁, h, rfl⟩
    rw [h]

/-! ## Results collected one by one -/

theorem collect_cons_eq_ok {action : α → Action σ β} {a : α} {rest : List α} {bs : List β}
    {s s' : σ} :
    collect action (a :: rest) s = (.ok bs, s') ↔
      ∃ b t more, action a s = (.ok b, t) ∧ collect action rest t = (.ok more, s') ∧ bs = b :: more := by
  have hunfold : collect action (a :: rest) =
      action a >>= fun b => collect action rest >>= fun more => Pure.pure (b :: more) := rfl
  simp only [hunfold, bind_eq_ok, pure_apply, Prod.mk.injEq, Except.ok.injEq]
  constructor
  · rintro ⟨b, t, hb, more, t', hmore, rfl, rfl⟩
    exact ⟨b, t, more, hb, hmore, rfl⟩
  · rintro ⟨b, t, more, hb, hmore, rfl⟩
    exact ⟨b, t, hb, more, s', hmore, rfl, rfl⟩

/-- Collected results are, one by one, what the action gives while an invariant holds. -/
theorem forall₂_of_collect (I : σ → Prop) (Q : α → β → Prop) {action : α → Action σ β} {as : List α} {bs : List β}
    {s s' : σ}
    (hstep : ∀ a ∈ as, ∀ s b s', I s → action a s = (.ok b, s') → I s' ∧ Q a b)
    (hs : I s) (h : collect action as s = (.ok bs, s')) : I s' ∧ List.Forall₂ Q as bs := by
  induction as generalizing bs s with
  | nil =>
    cases h
    exact ⟨hs, .nil⟩
  | cons a rest ih =>
    obtain ⟨b, t, more, hb, hmore, rfl⟩ := collect_cons_eq_ok.1 h
    obtain ⟨ht, hQ⟩ := hstep a List.mem_cons_self s b t hs hb
    obtain ⟨hs', hall⟩ :=
      ih (fun a' hmem => hstep a' (List.mem_cons_of_mem a hmem)) ht hmore
    exact ⟨hs', .cons hQ hall⟩

/-- Results can be collected when the action succeeds for each element while an invariant holds. -/
theorem exists_collect_eq_ok (I : σ → Prop) {action : α → Action σ β} {as : List α} {s : σ}
    (hstep : ∀ a ∈ as, ∀ s, I s → ∃ b s', action a s = (.ok b, s') ∧ I s') (hs : I s) :
    ∃ bs s', collect action as s = (.ok bs, s') := by
  induction as generalizing s with
  | nil => exact ⟨[], s, rfl⟩
  | cons a rest ih =>
    obtain ⟨b, t, hb, ht⟩ := hstep a List.mem_cons_self s hs
    obtain ⟨more, s', hmore⟩ := ih (fun a' hmem => hstep a' (List.mem_cons_of_mem a hmem)) ht
    exact ⟨b :: more, s', collect_cons_eq_ok.2 ⟨b, t, more, hb, hmore, rfl⟩⟩

end Action

end MetadataStore
