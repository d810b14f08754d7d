import MultiNetPolicy.Lib.StateExcept

/-!
# Two stateful programs side by side

`Related P x y Q E` relates the runs of two programs that start in states related by `P`: both
succeed, with results and states related by `Q`, or both fail, in states related by `E`.  There is
one rule for each program construct, and one that lets a program be compared with itself
(`Related.same`).
-/

namespace StateExcept

variable {ε σ α β γ δ : Type}

/-- Two outcomes: successes related by `Q`, or failures related by `E`. -/
inductive Outcomes (Q : α → β → σ → σ → Prop) (E : σ → σ → Prop) :
    EStateM.Result ε σ α → EStateM.Result ε σ β → Prop
  | ok {a b s t} (h : Q a b s t) : Outcomes Q E (.ok a s) (.ok b t)
  | error {e e' s t} (h : E s t) : Outcomes Q E (.error e s) (.error e' t)

/-- Two successful runs end as the postcondition says. -/
theorem Outcomes.of_ok {Q : α → β → σ → σ → Prop} {E : σ → σ → Prop} {r : EStateM.Result ε σ α}
    {r' : EStateM.Result ε σ β} {a : α} {b : β} {s t : σ} (h : Outcomes Q E r r')
    (hr : r = .ok a s) (hr' : r' = .ok b t) : Q a b s t := by
  rw [hr, hr'] at h
  cases h with
  | ok h => exact h

/-- From related states both programs succeed in related ways, or both fail. -/
def Related (P : σ → σ → Prop) (x : EStateM ε σ α) (y : EStateM ε σ β)
    (Q : α → β → σ → σ → Prop) (E : σ → σ → Prop) : Prop :=
  ∀ s t, P s t → Outcomes Q E (x s) (y t)

/-- Weaker conditions for the ends of two runs. -/
theorem Outcomes.mono {Q Q' : α → β → σ → σ → Prop} {E E' : σ → σ → Prop}
    (hQ : ∀ a b s t, Q a b s t → Q' a b s t) (hE : ∀ s t, E s t → E' s t)
    {r : EStateM.Result ε σ α} {r' : EStateM.Result ε σ β} (h : Outcomes Q E r r') :
    Outcomes Q' E' r r' := by
  cases h with
  | ok h => exact .ok (hQ _ _ _ _ h)
  | error h => exact .error (hE _ _ h)

namespace Related

variable {P : σ → σ → Prop} {Q : α → β → σ → σ → Prop} {R : γ → δ → σ → σ → Prop}
  {E : σ → σ → Prop} {x : EStateM ε σ α} {y : EStateM ε σ β}

theorem pure {a : α} {b : β} (h : ∀ s t, P s t → Q a b s t) :
    Related P (pure a : EStateM ε σ α) (pure b) Q E := fun s t hst => .ok (h s t hst)

theorem throw {e e' : ε} (h : ∀ s t, P s t → E s t) :
    Related P (throw e : EStateM ε σ α) (throw e' : EStateM ε σ β) Q E :=
  fun s t hst => .error (h s t hst)

theorem modify {f g : σ → σ} {Q : PUnit → PUnit → σ → σ → Prop}
    (h : ∀ s t, P s t → Q ⟨⟩ ⟨⟩ (f s) (g t)) :
    Related P (modify f : EStateM ε σ PUnit) (modify g) Q E := fun s t hst => .ok (h s t hst)

/-- One command after the other. -/
theorem bind {f : α → EStateM ε σ γ} {g : β → EStateM ε σ δ} (hxy : Related P x y Q E)
    (hfg : ∀ a b, Related (Q a b) (f a) (g b) R E) : Related P (x >>= f) (y >>= g) R E := by
  intro s t hst
  have hxy := hxy s t hst
  rw [bind_apply, bind_apply]
  generalize x s = r at hxy ⊢
  generalize y t = r' at hxy ⊢
  cases hxy with
  | ok hq => exact hfg _ _ _ _ hq
  | error hE => exact .error hE

/-- Stronger preconditions and weaker postconditions. -/
theorem conseq {P' : σ → σ → Prop} {Q' : α → β → σ → σ → Prop} {E' : σ → σ → Prop}
    (h : Related P x y Q E) (hP : ∀ s t, P' s t → P s t)
    (hQ : ∀ a b s t, Q a b s t → Q' a b s t) (hE : ∀ s t, E s t → E' s t) :
    Related P' x y Q' E' := fun s t hst => (h s t (hP s t hst)).mono hQ hE

/-- What every success of the first program says about its result is known as well. -/
theorem and_of_ok {F : α → Prop} (h : Related P x y Q E)
    (hx : ∀ s a s', x s = .ok a s' → F a) : Related P x y (fun a b s t => Q a b s t ∧ F a) E := by
  intro s t hst
  have hxy := h s t hst
  have hres := hx s
  generalize x s = r at hxy hres
  generalize y t = r' at hxy
  cases hxy with
  | ok hq => exact .ok ⟨hq, hres _ _ rfl⟩
  | error hE => exact .error hE

/-- A program and itself, from equal states. -/
theorem same (x : EStateM ε σ α) : Related Eq x x (fun a b s t => a = b ∧ s = t) Eq := by
  rintro s _ rfl
  cases x s with
  | ok a s' => exact .ok ⟨rfl, rfl⟩
  | error e s' => exact .error rfl

/-- Branches that are taken together. -/
theorem ite {c d : Prop} [Decidable c] [Decidable d] {x' : EStateM ε σ α} {y' : EStateM ε σ β}
    (hcd : c ↔ d) (hx : c → Related P x y Q E) (hy : ¬ c → Related P x' y' Q E) :
    Related P (if c then x else x') (if d then y else y') Q E := by
  by_cases hc : c
  · rw [if_pos hc, if_pos (hcd.1 hc)]
    exact hx hc
  · rw [if_neg hc, if_neg (mt hcd.2 hc)]
    exact hy hc

/-- One loop run from two related states, with equal accumulators throughout. -/
theorem foldlM {f : β → α → EStateM ε σ β}
    (hf : ∀ b a, Related P (f b a) (f b a) (fun b₁ b₂ s t => b₁ = b₂ ∧ P s t) E)
    (l : List α) (b : β) :
    Related P (l.foldlM f b) (l.foldlM f b) (fun b₁ b₂ s t => b₁ = b₂ ∧ P s t) E := by
  induction l generalizing b with
  | nil => exact Related.pure fun _ _ h => ⟨rfl, h⟩
  | cons a l ih =>
    rw [List.foldlM_cons]
    refine Related.bind (hf b a) fun b₁ b₂ s t hst => ?_
    rw [← hst.1]
    exact ih b₁ s t hst.2

end Related

end StateExcept
