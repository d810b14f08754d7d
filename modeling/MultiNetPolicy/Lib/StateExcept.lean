import Mathlib

/-!
# Stateful programs that may fail

Rules for `EStateM`, where a failing program keeps the state it had reached.  `bind_eq_ok` and its
companions take a successful run apart; `Triple P x Q E` has pre- and postconditions for both
outcomes; `Keeps I x Q` says that a run of `x` keeps an invariant `I` of the state in either case
and returns something that satisfies `Q`.  Both have one rule for each program construct.
-/

namespace StateExcept

variable {ε σ α β : Type}

/-! ### Taking successful runs apart -/

theorem bind_apply (x : EStateM ε σ α) (f : α → EStateM ε σ β) (s : σ) :
    (x >>= f) s =
      match x s with
      | .ok a s' => f a s'
      | .error e s' => .error e s' := rfl

/-- A successful sequence is two successful commands. -/
theorem bind_eq_ok {x : EStateM ε σ α} {f : α → EStateM ε σ β} {s s' : σ} {b : β} :
    (x >>= f) s = .ok b s' ↔ ∃ a s₁, x s = .ok a s₁ ∧ f a s₁ = .ok b s' := by
  rw [bind_apply]
  cases x s with
  | ok a s₁ => simp
  | error e s₁ => simp

@[simp] theorem pure_eq_ok {a b : α} {s s' : σ} :
    (pure a : EStateM ε σ α) s = .ok b s' ↔ a = b ∧ s = s' := by
  change EStateM.Result.ok a s = _ ↔ _
  simp

@[simp] theorem throw_ne_ok {e : ε} {s s' : σ} {a : α} :
    ¬ (throw e : EStateM ε σ α) s = .ok a s' := by
  change ¬ EStateM.Result.error e s = _
  simp

@[simp] theorem get_eq_ok {s s' a : σ} :
    (get : EStateM ε σ σ) s = .ok a s' ↔ s = a ∧ s = s' := by
  change EStateM.Result.ok s s = _ ↔ _
  simp

@[simp] theorem modify_eq_ok {f : σ → σ} {s s' : σ} {u : PUnit} :
    (modify f : EStateM ε σ PUnit) s = .ok u s' ↔ f s = s' := by
  change EStateM.Result.ok PUnit.unit (f s) = _ ↔ _
  simp

/-! ### Triples -/

/-- From a state that satisfies `P`, a run of `x` returns something that satisfies `Q` with the
state it ends in, or fails in a state that satisfies `E`. -/
def Triple (P : σ → Prop) (x : EStateM ε σ α) (Q : α → σ → Prop) (E : σ → Prop) : Prop :=
  ∀ s, P s → match x s with
    | .ok a s' => Q a s'
    | .error _ s' => E s'

namespace Triple

variable {P : σ → Prop} {Q : α → σ → Prop} {R : β → σ → Prop} {E : σ → Prop}

/-- The postcondition holds after a successful run. -/
theorem of_ok {x : EStateM ε σ α} (h : Triple P x Q E) {s s' : σ} {a : α} (hs : P s)
    (hx : x s = .ok a s') : Q a s' := by
  have hq := h s hs
  rw [hx] at hq
  exact hq

/-- The error condition holds after a failed one. -/
theorem of_error {x : EStateM ε σ α} (h : Triple P x Q E) {s s' : σ} {e : ε} (hs : P s)
    (hx : x s = .error e s') : E s' := by
  have hq := h s hs
  rw [hx] at hq
  exact hq

theorem pure {a : α} (h : ∀ s, P s → Q a s) : Triple P (pure a : EStateM ε σ α) Q E := h

theorem throw {e : ε} (h : ∀ s, P s → E s) : Triple P (throw e : EStateM ε σ α) Q E := h

theorem modify {f : σ → σ} {Q : PUnit → σ → Prop} (h : ∀ s, P s → Q ⟨⟩ (f s)) :
    Triple P (modify f : EStateM ε σ PUnit) Q E := h

/-- One command after the other. -/
theorem bind {x : EStateM ε σ α} {f : α → EStateM ε σ β} (hx : Triple P x Q E)
    (hf : ∀ a, Triple (Q a) (f a) R E) : Triple P (x >>= f) R E := by
  intro s hs
  have hq := hx s hs
  rw [bind_apply]
  cases hxs : x s with
  | ok a s₁ =>
    rw [hxs] at hq
    exact hf a s₁ hq
  | error e s₁ =>
    rw [hxs] at hq
    exact hq

/-- Stronger preconditions and weaker postconditions. -/
theorem conseq {x : EStateM ε σ α} {P' : σ → Prop} {Q' : α → σ → Prop} (h : Triple P x Q E)
    (hP : ∀ s, P' s → P s) (hQ : ∀ a s, Q a s → Q' a s) : Triple P' x Q' E := by
  intro s hs
  have hq := h s (hP s hs)
  cases hxs : x s with
  | ok a s₁ =>
    rw [hxs] at hq
    exact hQ a s₁ hq
  | error e s₁ =>
    rw [hxs] at hq
    exact hq

theorem ite {c : Prop} [Decidable c] {x y : EStateM ε σ α} (hx : c → Triple P x Q E)
    (hy : ¬ c → Triple P y Q E) : Triple P (if c then x else y) Q E := by
  split
  · exact hx ‹_›
  · exact hy ‹_›

/-- A loop with an invariant that knows the part of the list behind it. -/
theorem foldlM {f : β → α → EStateM ε σ β} {I : List α → β → σ → Prop} {l : List α}
    (hf : ∀ done, ∀ a ∈ l, ∀ b, Triple (I done b) (f b a) (I (done ++ [a])) E) (b : β) :
    Triple (I [] b) (l.foldlM f b) (I l) E := by
  have hloop : ∀ (rest done : List α) (b : β), (∀ a ∈ rest, a ∈ l) →
      Triple (I done b) (rest.foldlM f b) (I (done ++ rest)) E := by
    intro rest
    induction rest with
    | nil =>
      intro done b _
      rw [List.append_nil]
      exact pure fun _ h => h
    | cons a rest ih =>
      intro done b hmem
      rw [List.foldlM_cons, List.append_cons]
      exact bind (hf done a (hmem a (List.mem_cons_self ..)) b) fun b' =>
        ih (done ++ [a]) b' fun x hx => hmem x (List.mem_cons_of_mem _ hx)
  exact hloop l [] b fun _ h => h

/-- **Loops**: an invariant that tells which elements are done. -/
theorem forM {f : α → EStateM ε σ PUnit} {I : List α → σ → Prop} {l : List α}
    (hf : ∀ done, ∀ a ∈ l, Triple (I done) (f a) (fun _ => I (done ++ [a])) E) :
    Triple (I []) (l.forM f) (fun _ => I l) E := by
  have hloop : ∀ (rest done : List α), (∀ a ∈ rest, a ∈ l) →
      Triple (I done) (rest.forM f) (fun _ => I (done ++ rest)) E := by
    intro rest
    induction rest with
    | nil =>
      intro done _
      rw [List.append_nil]
      exact pure fun _ h => h
    | cons a rest ih =>
      intro done hmem
      rw [List.append_cons]
      change Triple _ (f a >>= fun _ => rest.forM f) _ _
      exact bind (hf done a (hmem a (List.mem_cons_self ..))) fun _ =>
        ih (done ++ [a]) fun x hx => hmem x (List.mem_cons_of_mem _ hx)
  exact hloop l [] fun _ h => h

end Triple

/-! ### Invariants -/

/-- A run of `x` keeps the invariant, also when it fails, and returns something that satisfies
`Q`. -/
def Keeps (I : σ → Prop) (x : EStateM ε σ α) (Q : α → Prop) : Prop :=
  Triple I x (fun a s => I s ∧ Q a) I

namespace Keeps

variable {I : σ → Prop} {Q : α → Prop} {R : β → Prop}

theorem pure {a : α} (ha : Q a) : Keeps I (pure a : EStateM ε σ α) Q :=
  Triple.pure fun _ hs => ⟨hs, ha⟩

theorem throw {e : ε} : Keeps I (throw e : EStateM ε σ α) Q := Triple.throw fun _ hs => hs

theorem modify {f : σ → σ} (hf : ∀ s, I s → I (f s)) :
    Keeps I (modify f : EStateM ε σ PUnit) fun _ => True :=
  Triple.modify fun s hs => ⟨hf s hs, trivial⟩

/-- An invariant of two commands is one of their sequence. -/
theorem bind {x : EStateM ε σ α} {f : α → EStateM ε σ β} (hx : Keeps I x Q)
    (hf : ∀ a, Q a → Keeps I (f a) R) : Keeps I (x >>= f) R :=
  Triple.bind hx fun a s hs => hf a hs.2 s hs.1

theorem weaken {x : EStateM ε σ α} {Q' : α → Prop} (hx : Keeps I x Q) (h : ∀ a, Q a → Q' a) :
    Keeps I x Q' := Triple.conseq hx (fun _ hs => hs) fun a _ hs => ⟨hs.1, h a hs.2⟩

theorem ite {c : Prop} [Decidable c] {x y : EStateM ε σ α} (hx : c → Keeps I x Q)
    (hy : ¬ c → Keeps I y Q) : Keeps I (if c then x else y) Q := Triple.ite hx hy

theorem foldlM {f : β → α → EStateM ε σ β} {l : List α}
    (hf : ∀ b, ∀ a ∈ l, Keeps I (f b a) fun _ => True) (b : β) :
    Keeps I (l.foldlM f b) fun _ => True :=
  Triple.conseq (Triple.foldlM (I := fun _ _ s => I s) (fun _ a ha b =>
    Triple.conseq (hf b a ha) (fun _ hs => hs) fun _ _ hs => hs.1) b) (fun _ hs => hs)
    fun _ _ hs => ⟨hs, trivial⟩

/-- An invariant of the body is one of the loop. -/
theorem forM {f : α → EStateM ε σ PUnit} {l : List α}
    (hf : ∀ a ∈ l, Keeps I (f a) fun _ => True) : Keeps I (l.forM f) fun _ => True :=
  Triple.conseq (Triple.forM (I := fun _ s => I s) fun _ a ha =>
    Triple.conseq (hf a ha) (fun _ hs => hs) fun _ _ hs => hs.1) (fun _ hs => hs)
    fun _ _ hs => ⟨hs, trivial⟩

end Keeps

end StateExcept
