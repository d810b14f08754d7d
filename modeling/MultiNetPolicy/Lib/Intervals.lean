import Mathlib

/-!
# Sets of intervals written as markers

An interval set is stored as start and end markers, without saying which end belongs to which
start.  A point is inside when the last marker up to it is a start (`Marked`); the intervals that
the markers come from cover a point when one of them contains it (`Covered`).

* `marked_iff`: the last marker is a start exactly when no end separates the point from some start.
* `Marked.covered`: a marked point is covered.
* `marked_of_covered_iff`: every covered point is marked exactly when the list is `Unbroken`: where
  an interval ends inside another one, some interval starts.
-/

namespace Intervals

variable {α : Type} [LinearOrder α]

/-- The points from `first` up to but not including `after`; all points from `first` on when there
is no `after`. -/
structure HalfOpen (α : Type) [LinearOrder α] where
  first : α
  after : Option α
  first_lt : ∀ e ∈ after, first < e

/-- The point lies in the interval. -/
def HalfOpen.Contains (i : HalfOpen α) (x : α) : Prop := i.first ≤ x ∧ ∀ e ∈ i.after, x < e

instance (i : HalfOpen α) (x : α) : Decidable (i.Contains x) :=
  inferInstanceAs (Decidable (_ ∧ _))

/-- Some interval contains the point. -/
def Covered (l : List (HalfOpen α)) (x : α) : Prop := ∃ i ∈ l, i.Contains x

/-- The greatest marker not above the point is a start; a start wins over an end at the same
place. -/
def Marked (starts ends : List α) (x : α) : Prop :=
  ∃ s ∈ starts, s ≤ x ∧ ∀ y ∈ starts ++ ends, y ≤ x → y ≤ s

/-- Where an interval ends inside another one, some interval starts. -/
def Unbroken (l : List (HalfOpen α)) : Prop :=
  ∀ i ∈ l, ∀ e ∈ i.after, Covered l e → ∃ j ∈ l, j.first = e

instance (l : List (HalfOpen α)) (x : α) : Decidable (Covered l x) :=
  inferInstanceAs (Decidable (∃ _ ∈ l, _))

instance (l : List (HalfOpen α)) : Decidable (Unbroken l) :=
  inferInstanceAs (Decidable (∀ i ∈ l, ∀ e ∈ i.after, Covered l e → _))

/-- The last marker at or before a point. -/
theorem exists_greatest {l : List α} {x : α} (h : ∃ a ∈ l, a ≤ x) :
    ∃ s ∈ l, s ≤ x ∧ ∀ y ∈ l, y ≤ x → y ≤ s := by
  obtain ⟨a, ha, hax⟩ := h
  have hne : (l.toFinset.filter fun y => y ≤ x).Nonempty := ⟨a, by simp [ha, hax]⟩
  obtain ⟨s, hs, hmax⟩ := Finset.exists_max_image _ id hne
  rw [Finset.mem_filter, List.mem_toFinset] at hs
  refine ⟨s, hs.1, hs.2, fun y hy hyx => ?_⟩
  exact hmax y (by simp [hy, hyx])

/-- A point is marked when no end separates it from some start before it. -/
theorem marked_iff {starts ends : List α} {x : α} :
    Marked starts ends x ↔ ∃ s ∈ starts, s ≤ x ∧ ∀ e ∈ ends, e ≤ s ∨ x < e := by
  constructor
  · rintro ⟨s, hs, hsx, hgreatest⟩
    refine ⟨s, hs, hsx, fun e he => ?_⟩
    rcases le_or_gt e x with hex | hxe
    · exact .inl (hgreatest e (List.mem_append_right _ he) hex)
    · exact .inr hxe
  · rintro ⟨s₀, hs₀, hsx₀, hends⟩
    obtain ⟨s, hs, hsx, hgreatest⟩ := exists_greatest ⟨s₀, hs₀, hsx₀⟩
    refine ⟨s, hs, hsx, fun y hy hyx => ?_⟩
    rcases List.mem_append.1 hy with hy | hy
    · exact hgreatest y hy hyx
    · have hys₀ : y ≤ s₀ := (hends y hy).resolve_right (not_lt.2 hyx)
      exact hys₀.trans (hgreatest s₀ hs₀ hsx₀)

/-- The markers of a list of intervals; further ends stand below every point. -/
structure MarkersOf (l : List (HalfOpen α)) (starts ends : List α) : Prop where
  mem_starts : ∀ s, s ∈ starts ↔ ∃ i ∈ l, i.first = s
  mem_ends : ∀ i ∈ l, ∀ e ∈ i.after, e ∈ ends
  of_mem_ends : ∀ e ∈ ends, (∃ i ∈ l, e ∈ i.after) ∨ ∀ x, e ≤ x

variable {l : List (HalfOpen α)} {starts ends : List α}

/-- A marked point is covered. -/
theorem Marked.covered (hm : MarkersOf l starts ends) {x : α} (hx : Marked starts ends x) :
    Covered l x := by
  obtain ⟨s, hs, hsx, hends⟩ := marked_iff.1 hx
  obtain ⟨i, hi, rfl⟩ := (hm.mem_starts s).1 hs
  refine ⟨i, hi, hsx, fun e he => ?_⟩
  -- the end of the interval is behind its start, so it does not stand before the point
  exact (hends e (hm.mem_ends i hi e he)).resolve_left (not_le.2 (i.first_lt e he))

/-- In an unbroken list the last start before a covered point is not separated from it. -/
theorem Unbroken.marked (hm : MarkersOf l starts ends) (hl : Unbroken l) {x : α}
    (hx : Covered l x) : Marked starts ends x := by
  obtain ⟨j, hj, hjx, hafter⟩ := hx
  obtain ⟨s, hs, hsx, hgreatest⟩ := exists_greatest ⟨j.first, (hm.mem_starts _).2 ⟨j, hj, rfl⟩, hjx⟩
  refine marked_iff.2 ⟨s, hs, hsx, fun e he => ?_⟩
  by_contra hbetween
  push Not at hbetween
  obtain ⟨hse, hex⟩ := hbetween
  rcases hm.of_mem_ends e he with ⟨i, hi, hie⟩ | hbelow
  · have hjs : j.first ≤ s := hgreatest _ ((hm.mem_starts _).2 ⟨j, hj, rfl⟩) hjx
    have hje : j.Contains e := ⟨hjs.trans hse.le, fun a ha => hex.trans_lt (hafter a ha)⟩
    obtain ⟨i', hi', hfirst⟩ := hl i hi e hie ⟨j, hj, hje⟩
    exact absurd (hgreatest e ((hm.mem_starts e).2 ⟨i', hi', hfirst⟩) hex) (not_le.2 hse)
  · exact absurd (hbelow s) (not_le.2 hse)

/-- **The markers lose nothing exactly when the list is unbroken.**  The points may be restricted to
any range that contains the ends of the intervals. -/
theorem marked_of_covered_iff (hm : MarkersOf l starts ends) {D : α → Prop}
    (hD : ∀ i ∈ l, ∀ e ∈ i.after, D e) :
    (∀ x, D x → (Marked starts ends x ↔ Covered l x)) ↔ Unbroken l := by
  constructor
  · intro h i hi e he hcovered
    obtain ⟨s, hs, hse, hends⟩ := marked_iff.1 ((h e (hD i hi e he)).2 hcovered)
    have hes : e ≤ s := (hends e (hm.mem_ends i hi e he)).resolve_right (lt_irrefl e)
    obtain ⟨j, hj, hfirst⟩ := (hm.mem_starts s).1 hs
    exact ⟨j, hj, hfirst.trans (le_antisymm hse hes)⟩
  · intro hl x _
    exact ⟨fun h => h.covered hm, hl.marked hm⟩

end Intervals
