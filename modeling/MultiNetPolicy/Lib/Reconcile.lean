import Mathlib.Data.List.Basic
import Mathlib.Data.List.Range

/-!
# Reconciling a list with the one that is wanted

An updater that cannot reorder leaves what is already there in its place, appends what is missing,
and removes what is no longer wanted.  `reconcile old want` is what it ends with: the elements are
those that are wanted, but their order is the order of the history.

* `reconcile_append_eq_iff`, `reconcile_shrink_eq_iff`: when growing or shrinking the list at its
  end leaves exactly the list that is wanted.
* `reconcile_blocks_eq_iff`: the same for lists that are made of blocks.
* `framed_eq`: an updater that also keeps one element at the front and one at the end.
* `Closes`: every element of one kind is followed by a closing element, a property that
  `reconcile` keeps when the closing element is never older than what it closes.
-/

namespace Reconcile

variable {α : Type*}

section Reconcile

variable [DecidableEq α] {old want l r : List α} {x : α}

/-- What is wanted of the old elements, then the wanted ones that are missing. -/
def reconcile (old want : List α) : List α :=
  old.filter (· ∈ want) ++ want.filter (· ∉ old)

/-- Nothing but what is wanted is there in the end. -/
theorem mem_reconcile : x ∈ reconcile old want ↔ x ∈ want := by
  unfold reconcile
  simp only [List.mem_append, List.mem_filter, decide_eq_true_eq]
  constructor
  · rintro (h | h)
    · exact h.2
    · exact h.1
  · intro hx
    by_cases hold : x ∈ old
    · exact .inl ⟨hold, hx⟩
    · exact .inr ⟨hx, hold⟩

@[simp] theorem reconcile_nil_left : reconcile [] want = want := by
  unfold reconcile
  rw [List.filter_nil, List.nil_append]
  exact List.filter_eq_self.2 fun x _ => by simp

@[simp] theorem reconcile_nil_right : reconcile old [] = [] := by
  unfold reconcile
  rw [List.filter_nil, List.append_nil, List.filter_eq_nil_iff]
  intro x _
  simp

/-- Appending what is missing and then removing what is not wanted. -/
theorem filter_append_missing (old want : List α) :
    (old ++ want.filter (· ∉ old)).filter (· ∈ want) = reconcile old want := by
  unfold reconcile
  rw [List.filter_append]
  congr 1
  refine List.filter_eq_self.2 fun x hx => ?_
  exact decide_eq_true (List.mem_of_mem_filter hx)

/-- A longer list is reached when what is new at its end is new altogether. -/
theorem reconcile_append_eq_iff : reconcile l (l ++ r) = l ++ r ↔ ∀ x ∈ r, x ∉ l := by
  have hkeep : l.filter (· ∈ l ++ r) = l :=
    List.filter_eq_self.2 fun x hx => decide_eq_true (List.mem_append_left _ hx)
  have hnone : l.filter (· ∉ l) = [] := by
    rw [List.filter_eq_nil_iff]
    intro x hx
    simp [hx]
  unfold reconcile
  rw [hkeep, List.filter_append, hnone, List.nil_append, List.append_right_inj,
    List.filter_eq_self]
  simp only [decide_eq_true_eq]

/-- A shorter list is reached when what goes at the end was nowhere else. -/
theorem reconcile_shrink_eq_iff : reconcile (l ++ r) l = l ↔ ∀ x ∈ r, x ∉ l := by
  have hkeep : l.filter (· ∈ l) = l := List.filter_eq_self.2 fun x hx => decide_eq_true hx
  have hnone : l.filter (· ∉ l ++ r) = [] := by
    rw [List.filter_eq_nil_iff]
    intro x hx
    simp [hx]
  unfold reconcile
  rw [hnone, List.append_nil, List.filter_append, hkeep, List.append_right_eq_self,
    List.filter_eq_nil_iff]
  simp only [decide_eq_true_eq]

end Reconcile

/-! ### Lists of blocks -/

section Blocks

/-- The first blocks of a sequence. -/
def blocks (B : ℕ → List α) (n : ℕ) : List α := (List.range n).flatMap B

theorem mem_blocks {B : ℕ → List α} {n : ℕ} {x : α} : x ∈ blocks B n ↔ ∃ a < n, x ∈ B a := by
  unfold blocks
  simp only [List.mem_flatMap, List.mem_range]

/-- The first blocks, and the others. -/
theorem blocks_add (B : ℕ → List α) (m n : ℕ) :
    blocks B (m + n) = blocks B m ++ blocks (fun a => B (m + a)) n := by
  unfold blocks
  rw [List.range_add, List.flatMap_append, List.flatMap_map]

variable [DecidableEq α]

/-- **Blocks that come and go at the end** leave the blocks that are wanted exactly when the blocks
that come or go share nothing with those that stay. -/
theorem reconcile_blocks_eq_iff {B : ℕ → List α} {m n : ℕ} :
    reconcile (blocks B m) (blocks B n) = blocks B n ↔
      ∀ a < min m n, ∀ b < max m n, min m n ≤ b → ∀ x ∈ B b, x ∉ B a := by
  have hdisj : ∀ {k l : ℕ}, (∀ x ∈ blocks (fun a => B (k + a)) l, x ∉ blocks B k) ↔
      ∀ a < k, ∀ b < k + l, k ≤ b → ∀ x ∈ B b, x ∉ B a := by
    intro k l
    constructor
    · intro h a ha b hbl hkb x hx hxa
      refine h x (mem_blocks.2 ⟨b - k, by omega, ?_⟩) (mem_blocks.2 ⟨a, ha, hxa⟩)
      rwa [Nat.add_sub_cancel' hkb]
    · intro h x hx hxk
      obtain ⟨c, hc, hx⟩ := mem_blocks.1 hx
      obtain ⟨a, ha, hxa⟩ := mem_blocks.1 hxk
      exact h a ha (k + c) (by omega) (by omega) x hx hxa
  rcases Nat.le_total m n with hmn | hnm
  · obtain ⟨l, rfl⟩ := Nat.exists_eq_add_of_le hmn
    rw [blocks_add, reconcile_append_eq_iff, hdisj, Nat.min_eq_left hmn, Nat.max_eq_right hmn]
  · obtain ⟨l, rfl⟩ := Nat.exists_eq_add_of_le hnm
    rw [blocks_add, reconcile_shrink_eq_iff, hdisj, Nat.min_eq_right hnm, Nat.max_eq_left hnm]

end Blocks

/-! ### A first and a last element -/

section Framed

variable [DecidableEq α] {a z : α} {first body want final : List α} {force last : Bool}

/-- An updater that puts `a` to the front when it is missing, and `z` to the end when it is missing
or when it is forced to move it there; what is not wanted is removed. -/
def framed (a z : α) (force last : Bool) (old want : List α) : List α :=
  ((if a ∈ old then [] else [a]) ++ (if last && force then old.erase z else old) ++
    want.filter (· ∉ old) ++ (if last && (force || decide (z ∉ old)) then [z] else [])).filter
    (· ∈ a :: (want ++ if last then [z] else []))

/-- **The frame is kept** when the last element is moved as soon as something is new. -/
theorem framed_eq (hz : a ≠ z) (hbody : a ∉ body ∧ z ∉ body) (hwant : a ∉ want ∧ z ∉ want)
    (hfirst : first = [] ∨ first = [a]) (hfinal : final = [] ∨ final = [z])
    (hlast : last = false → want = [])
    (hforce : final = [z] → last = true → force = false → ∀ x ∈ want, x ∈ body) :
    framed a z force last (first ++ body ++ final) want =
      a :: (reconcile body want ++ if last then [z] else []) := by
  have hold : ∀ x ∈ want, (x ∈ first ++ body ++ final ↔ x ∈ body) := by
    intro x hx
    have hxa : x ≠ a := fun h => hwant.1 (h ▸ hx)
    have hxz : x ≠ z := fun h => hwant.2 (h ▸ hx)
    rcases hfirst with rfl | rfl <;> rcases hfinal with rfl | rfl <;> simp [hxa, hxz]
  have hmissing : want.filter (· ∉ first ++ body ++ final) = want.filter (· ∉ body) :=
    List.filter_congr fun x hx => by rw [decide_eq_decide, hold x hx]
  have hkeep : body.filter (· ∈ a :: (want ++ if last then [z] else [])) =
      body.filter (· ∈ want) := by
    refine List.filter_congr fun x hx => ?_
    have hxa : x ≠ a := fun h => hbody.1 (h ▸ hx)
    have hxz : x ≠ z := fun h => hbody.2 (h ▸ hx)
    cases last <;> simp [hxa, hxz]
  have hnew : (want.filter (· ∉ body)).filter
      (· ∈ a :: (want ++ if last then [z] else [])) = want.filter (· ∉ body) := by
    refine List.filter_eq_self.2 fun x hx => ?_
    simp [List.mem_of_mem_filter hx]
  -- the first element, old or new
  have hfront : (if a ∈ first ++ body ++ final then [] else [a]) ++ first = [a] := by
    rcases hfirst with rfl | rfl
    · have hnot : a ∉ final := by rcases hfinal with rfl | rfl <;> simp [hz]
      simp [hbody.1, hnot]
    · simp
  have hzfirst : z ∉ first := by rcases hfirst with rfl | rfl <;> simp [Ne.symm hz]
  unfold framed reconcile
  rw [hmissing]
  generalize (if a ∈ first ++ body ++ final then [] else [a]) = front at hfront ⊢
  cases last with
  | false =>
    have hgone : final.filter (· ∈ a :: (want ++ [])) = [] := by
      rcases hfinal with rfl | rfl <;> simp [Ne.symm hz, hwant.2]
    rw [hlast rfl] at hkeep hgone ⊢
    simp only [Bool.false_and, Bool.false_eq_true, if_false, List.append_nil, List.filter_nil,
      ← List.append_assoc] at hkeep hgone ⊢
    rw [hfront, List.filter_append, List.filter_append, hkeep, hgone]
    simp
  | true =>
    simp only [Bool.true_and, if_true] at hkeep hnew ⊢
    -- the old elements without the last one, the new ones, the last one
    have hcase : front ++
        (if force = true then (first ++ body ++ final).erase z else first ++ body ++ final) ++
        want.filter (· ∉ body) ++
        (if (force || decide (z ∉ first ++ body ++ final)) = true then [z] else []) =
        [a] ++ body ++ want.filter (· ∉ body) ++ [z] := by
      rw [← hfront]
      have hnot : z ∉ first ++ body := by simp [hzfirst, hbody.2]
      rcases hfinal with rfl | rfl
      · rw [List.append_nil, List.erase_of_not_mem hnot, ite_self, if_pos (by simp [hnot])]
        simp only [List.append_assoc]
      · cases force with
        | true =>
          rw [if_pos rfl, List.erase_append_right _ hnot, List.erase_cons_head, List.append_nil,
            if_pos (by simp)]
          simp only [List.append_assoc]
        | false =>
          have hnone : want.filter (· ∉ body) = [] := by
            rw [List.filter_eq_nil_iff]
            intro x hx
            simp [hforce rfl rfl rfl x hx]
          rw [if_neg Bool.false_ne_true, if_neg (by simp), hnone]
          simp only [List.append_assoc, List.append_nil]
    rw [hcase, List.filter_append, List.filter_append, List.filter_append, hkeep, hnew]
    simp

end Framed

/-! ### Closing elements -/

/-- Every element that satisfies `J` is followed by `c`, with only elements that satisfy `B` in
between. -/
def Closes (J B : α → Prop) (c : α) (l : List α) : Prop :=
  ∀ l₁ j l₂, l = l₁ ++ j :: l₂ → J j → ∃ js rest, l₂ = js ++ c :: rest ∧ ∀ x ∈ js, B x

namespace Closes

variable {J B : α → Prop} {c x : α} {l l' : List α}

theorem nil : Closes J B c [] := by
  intro l₁ j l₂ h
  simp at h

theorem of_none (h : ∀ x ∈ l, ¬J x) : Closes J B c l := by
  rintro l₁ j l₂ rfl hj
  exact absurd hj (h j (by simp))

/-- Lists one after the other, each of which closes what it opens. -/
theorem append (h : Closes J B c l) (h' : Closes J B c l') : Closes J B c (l ++ l') := by
  intro l₁ j l₂ heq hj
  rcases List.append_eq_append_iff.1 heq with ⟨m, rfl, hm⟩ | ⟨m, rfl, hm⟩
  · exact h' m j l₂ hm hj
  · -- the element may be in the first list or be the first one of the second
    cases m with
    | nil =>
      rw [List.nil_append] at hm
      exact h' [] j l₂ hm.symm hj
    | cons y m =>
      rw [List.cons_append, List.cons.injEq] at hm
      obtain ⟨rfl, rfl⟩ := hm
      obtain ⟨js, rest, rfl, hjs⟩ := h l₁ j m rfl hj
      exact ⟨js, rest ++ l', by simp, hjs⟩

/-- The same for many lists. -/
theorem flatten {ls : List (List α)} (h : ∀ l ∈ ls, Closes J B c l) : Closes J B c ls.flatten := by
  induction ls with
  | nil => exact nil
  | cons l ls ih =>
    rw [List.flatten_cons]
    exact (h l (List.mem_cons_self ..)).append (ih fun l' hl' => h l' (List.mem_cons_of_mem _ hl'))

/-- A block that ends with the closing element. -/
theorem concat (h : ∀ x ∈ l, B x) (hc : ¬J c) : Closes J B c (l ++ [c]) := by
  intro l₁ j l₂ heq hj
  rcases List.append_eq_append_iff.1 heq with ⟨m, rfl, hm⟩ | ⟨m, rfl, hm⟩
  · cases m with
    | nil =>
      rw [List.nil_append, List.cons.injEq] at hm
      exact absurd (hm.1 ▸ hj) hc
    | cons y m => simp at hm
  · cases m with
    | nil =>
      rw [List.nil_append, List.cons.injEq] at hm
      exact absurd (hm.1 ▸ hj) hc
    | cons y m =>
      rw [List.cons_append, List.cons.injEq] at hm
      obtain ⟨rfl, rfl⟩ := hm
      exact ⟨m, [], rfl, fun x hx => h x (by simp [hx])⟩

/-- Removing elements, but never a closing element without what it closes. -/
theorem filter (h : Closes J B c l) {p : α → Bool}
    (hp : ∀ j ∈ l, J j → p j = true → p c = true) : Closes J B c (l.filter p) := by
  intro l₁ j l₂ heq hj
  rw [List.filter_eq_append_iff] at heq
  obtain ⟨m₁, m₂, rfl, -, hm₂⟩ := heq
  rw [List.filter_eq_cons_iff] at hm₂
  obtain ⟨n₁, n₂, rfl, -, hpj, rfl⟩ := hm₂
  obtain ⟨js, rest, rfl, hjs⟩ := h (m₁ ++ n₁) j n₂ (by simp) hj
  have hpc : p c = true := hp j (by simp) hj hpj
  refine ⟨js.filter p, rest.filter p, ?_, fun x hx => hjs x (List.mem_of_mem_filter hx)⟩
  rw [List.filter_append, List.filter_cons_of_pos hpc]

/-- **Reconciling keeps the closing elements**, when one that is already there closes nothing that
is new. -/
theorem reconcile [DecidableEq α] {old want : List α} (hold : Closes J B c old)
    (hwant : Closes J B c want) (hc : c ∈ want)
    (hnew : c ∈ old → ∀ j ∈ want, J j → j ∈ old) : Closes J B c (reconcile old want) := by
  refine Closes.append (hold.filter fun _ _ _ _ => decide_eq_true hc) (hwant.filter ?_)
  intro j hj hJ hpj
  rw [decide_eq_true_eq] at hpj ⊢
  exact fun hmem => hpj (hnew hmem j hj hJ)

/-- Where a closing element is already there, nothing new is closed. -/
theorem mem_of_reconcile [DecidableEq α] {front old want back : List α}
    (h : Closes J B c (front ++ (Reconcile.reconcile old want ++ back))) (hback : c ∉ back)
    (hc : c ∈ old) {j : α} (hj : j ∈ want) (hJ : J j) : j ∈ old := by
  by_contra hnot
  have hmem : j ∈ want.filter (· ∉ old) := List.mem_filter.2 ⟨hj, decide_eq_true hnot⟩
  obtain ⟨l₁, l₂, hl⟩ := List.append_of_mem hmem
  obtain ⟨js, rest, hrest, -⟩ := h (front ++ (old.filter (· ∈ want) ++ l₁)) j (l₂ ++ back)
    (by unfold Reconcile.reconcile; rw [hl]; simp only [List.append_assoc, List.cons_append]) hJ
  -- the closing element would be among the missing ones
  have hin : c ∈ l₂ ++ back := by
    rw [hrest]
    simp
  rcases List.mem_append.1 hin with hin | hin
  · have hmissing : c ∈ want.filter (· ∉ old) := by
      rw [hl]
      simp [hin]
    have hnew := List.of_mem_filter hmissing
    rw [decide_eq_true_eq] at hnew
    exact hnew hc
  · exact hback hin

end Closes

end Reconcile
