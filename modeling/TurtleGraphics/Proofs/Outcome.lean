import Mathlib.Data.List.Forall2

/-!
# Outcomes

A reader gives a result or stops at the first fault. Here is what it takes for readers that run one
after another to give a result.
-/

namespace TurtleGraphics

variable {ε α β σ : Type}

theorem bind_eq_ok {x : Except ε α} {f : α → Except ε β} {b : β} :
    x >>= f = .ok b ↔ ∃ a, x = .ok a ∧ f a = .ok b := by
  cases x with
  | error e => simp [bind, Except.bind]
  | ok a => simp [bind, Except.bind]

theorem return_eq_ok {a b : α} : (return a : Except ε α) = .ok b ↔ a = b := by
  simp [pure, Except.pure]

theorem map_eq_ok {x : Except ε α} {f : α → β} {b : β} :
    f <$> x = .ok b ↔ ∃ a, x = .ok a ∧ f a = b := by
  cases x with
  | error e => simp [Functor.map, Except.map]
  | ok a => simp [Functor.map, Except.map]

theorem eq_ok_of_toOption {x : Except ε α} {a : α} (h : x.toOption = some a) : x = .ok a := by
  cases x with
  | error _ => cases h
  | ok _ => cases h; rfl

/-- No more than one thing is true of a result by which it is known. -/
theorem eq_of_eq_ok_iff {x : Except ε α} {p : α → Prop} (h : ∀ a, x = .ok a ↔ p a) {a b : α}
    (ha : p a) (hb : p b) : a = b := Except.ok.inj (((h a).2 ha).symm.trans ((h b).2 hb))

/-- A result that is made of one that is known. -/
theorem bind_return_eq_ok {x : Except ε α} {p : α → Prop} (h : ∀ a, x = .ok a ↔ p a) {f : α → β}
    {b : β} : (do return f (← x)) = .ok b ↔ ∃ a, p a ∧ f a = b := by
  rw [bind_eq_ok]
  exact exists_congr fun a ↦ and_congr (h a) return_eq_ok

theorem mapM_eq_ok {f : α → Except ε β} {as : List α} {bs : List β} :
    as.mapM f = .ok bs ↔ List.Forall₂ (fun a b ↦ f a = .ok b) as bs := by
  induction as generalizing bs with
  | nil =>
    rw [List.mapM_nil, return_eq_ok, List.forall₂_nil_left_iff, eq_comm]
  | cons a as ih =>
    rw [List.mapM_cons, bind_eq_ok, List.forall₂_cons_left_iff]
    refine exists_congr fun b ↦ ?_
    rw [bind_eq_ok]
    constructor
    · rintro ⟨hb, bs, hbs, h⟩
      cases return_eq_ok.1 h
      exact ⟨bs, hb, ih.1 hbs, rfl⟩
    · rintro ⟨bs, hb, hbs, rfl⟩
      exact ⟨hb, bs, ih.2 hbs, rfl⟩

theorem foldlM_concat_eq_ok {f : σ → α → Except ε σ} {s s' : σ} {as : List α} {a : α} :
    (as ++ [a]).foldlM f s = .ok s' ↔ ∃ t, as.foldlM f s = .ok t ∧ f t a = .ok s' := by
  rw [List.foldlM_append, bind_eq_ok]
  simp only [List.foldlM_cons, List.foldlM_nil, bind_pure]

/-- A fold that came to an end took every step. -/
theorem exists_step_of_foldlM {f : σ → α → Except ε σ} {s s' : σ} {as : List α} {a : α}
    (h : as.foldlM f s = .ok s') (ha : a ∈ as) : ∃ t t', f t a = .ok t' := by
  induction as generalizing s with
  | nil => cases ha
  | cons b as ih =>
    rw [List.foldlM_cons, bind_eq_ok] at h
    obtain ⟨t, ht, h⟩ := h
    obtain rfl | ha := List.mem_cons.1 ha
    · exact ⟨s, t, ht⟩
    · exact ih h ha

/-- A fold whose steps can all be taken comes to an end. -/
theorem exists_foldlM_eq_ok {f : σ → α → Except ε σ} {s : σ} {as : List α}
    (h : ∀ a ∈ as, ∀ t, ∃ t', f t a = .ok t') : ∃ s', as.foldlM f s = .ok s' := by
  induction as generalizing s with
  | nil => exact ⟨s, rfl⟩
  | cons a as ih =>
    obtain ⟨t, ht⟩ := h a List.mem_cons_self s
    obtain ⟨s', hs'⟩ := ih (s := t) fun b hb ↦ h b (List.mem_cons_of_mem a hb)
    exact ⟨s', by rw [List.foldlM_cons]; exact bind_eq_ok.2 ⟨t, ht, hs'⟩⟩

end TurtleGraphics
