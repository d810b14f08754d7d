import Mathlib

/-!
# Tasks that each work at one key of a store

A list of tasks goes over a store `K → V` and collects reports.  A task only reports, or it reads
and writes the store at its key and reports what it met there (`Task`).

When no two tasks have the same key, every task meets what was there at the start: the store
afterwards is told key by key (`runAll_of_mem`, `runAll_of_not_mem`), and so are the reports
(`runAll_reports`).

A list of tasks may also end at the first report of some kind (`runUntil`).  Then the tasks up to
this one (`reached`) are run, and the report is all that is left.
-/

namespace Keyed

/-- A task on a store with keys `K` and values `V` that reports `E`s. -/
inductive Task (K V E : Type*) where
  | report (es : List E)
  | work (key : K) (act : V → List E × V)

variable {K V E : Type*} [DecidableEq K]

namespace Task

/-- The key at which a task works. -/
def key? : Task K V E → Option K
  | report _ => none
  | work key _ => some key

/-- What a task reports that meets the store `s`. -/
def reports (s : K → V) : Task K V E → List E
  | report es => es
  | work key act => (act (s key)).1

/-- One task: the reports so far and the store. -/
def run : Task K V E → List E × (K → V) → List E × (K → V)
  | report es, st => (st.1 ++ es, st.2)
  | work key act, st => (st.1 ++ (act (st.2 key)).1, Function.update st.2 key (act (st.2 key)).2)

/-- A task reports behind what is reported already. -/
theorem run_fst (t : Task K V E) (st : List E × (K → V)) :
    (t.run st).1 = st.1 ++ t.reports st.2 := by
  cases t <;> rfl

theorem run_work (key : K) (act : V → List E × V) (st : List E × (K → V)) :
    ((work key act).run st).2 key = (act (st.2 key)).2 := Function.update_self ..

/-- A task leaves the other keys alone. -/
theorem run_of_ne (t : Task K V E) (st : List E × (K → V)) {key : K} (h : t.key? ≠ some key) :
    (t.run st).2 key = st.2 key := by
  cases t with
  | report es => rfl
  | work key' act => exact Function.update_of_ne (fun heq => h (congrArg some heq.symm)) _ _

omit [DecidableEq K] in
/-- A task reports by the value of its own key alone. -/
theorem reports_congr {t : Task K V E} {s s' : K → V}
    (h : ∀ key, t.key? = some key → s key = s' key) :
    t.reports s = t.reports s' := by
  cases t with
  | report es => rfl
  | work key act => rw [reports, reports, h key rfl]

end Task

/-- The tasks one after the other. -/
def runAll (tasks : List (Task K V E)) (st : List E × (K → V)) : List E × (K → V) :=
  tasks.foldl (fun st t => t.run st) st

variable {tasks : List (Task K V E)} {st : List E × (K → V)} {key : K}

/-- A key of no task keeps its value. -/
theorem runAll_of_not_mem (h : key ∉ tasks.filterMap Task.key?) :
    (runAll tasks st).2 key = st.2 key := by
  induction tasks generalizing st with
  | nil => rfl
  | cons t ts ih =>
    simp only [List.mem_filterMap, List.mem_cons, not_exists, not_and] at h
    have hts : key ∉ ts.filterMap Task.key? := by
      simp only [List.mem_filterMap, not_exists, not_and]
      exact fun t' ht' => h t' (.inr ht')
    rw [runAll, List.foldl_cons]
    exact (ih hts).trans (t.run_of_ne st (h t (.inl rfl)))

omit [DecidableEq K] in
/-- Distinct keys, for the first task and the others. -/
theorem nodup_cons_iff {t : Task K V E} :
    ((t :: tasks).filterMap Task.key?).Nodup ↔
      (∀ key, t.key? = some key → key ∉ tasks.filterMap Task.key?) ∧
        (tasks.filterMap Task.key?).Nodup := by
  cases h : t.key? with
  | none => simp [List.filterMap_cons_none h]
  | some key => simp [List.filterMap_cons_some h]

/-- The value at a key is what its task makes of the value that was there at the start. -/
theorem runAll_of_mem (hnd : (tasks.filterMap Task.key?).Nodup) {act : V → List E × V}
    (h : .work key act ∈ tasks) : (runAll tasks st).2 key = (act (st.2 key)).2 := by
  induction tasks generalizing st with
  | nil => cases h
  | cons t ts ih =>
    obtain ⟨hkey, hts⟩ := nodup_cons_iff.1 hnd
    rw [runAll, List.foldl_cons]
    rcases List.mem_cons.1 h with rfl | h
    · exact (runAll_of_not_mem (hkey key rfl)).trans (Task.run_work key act st)
    · have hne : t.key? ≠ some key := by
        intro heq
        exact hkey key heq (List.mem_filterMap.2 ⟨_, h, rfl⟩)
      rw [← t.run_of_ne st hne]
      exact ih hts h

/-- What is left behind a task is the same for the tasks with other keys. -/
theorem reports_run {t : Task K V E}
    (h : ∀ key, t.key? = some key → key ∉ tasks.filterMap Task.key?) :
    ∀ t' ∈ tasks, t'.reports (t.run st).2 = t'.reports st.2 := by
  refine fun t' ht' => Task.reports_congr fun key hk => ?_
  refine t.run_of_ne st fun heq => ?_
  exact h key heq (List.mem_filterMap.2 ⟨t', ht', hk⟩)

/-- The reports are those of the tasks on the store at the start. -/
theorem runAll_reports (hnd : (tasks.filterMap Task.key?).Nodup) :
    (runAll tasks st).1 = st.1 ++ tasks.flatMap (Task.reports st.2) := by
  induction tasks generalizing st with
  | nil => exact (List.append_nil _).symm
  | cons t ts ih =>
    obtain ⟨hkey, hts⟩ := nodup_cons_iff.1 hnd
    rw [runAll, List.foldl_cons]
    refine (ih hts).trans ?_
    rw [List.flatMap_congr (reports_run hkey), t.run_fst, List.append_assoc, List.flatMap_cons]

/-! ### Tasks that may be the last ones -/

section UpTo

variable {α β : Type*} {p q : α → Bool}

/-- The elements up to the first with a property, and this one. -/
def upTo (p : α → Bool) : List α → List α
  | [] => []
  | a :: l => if p a then [a] else a :: upTo p l

theorem upTo_sublist (p : α → Bool) (l : List α) : (upTo p l).Sublist l := by
  induction l with
  | nil => exact .slnil
  | cons a l ih =>
    rw [upTo]
    split
    · exact (List.nil_sublist l).cons_cons a
    · exact ih.cons_cons a

/-- Where to stop is told by the elements of the list. -/
theorem upTo_congr {l : List α} (h : ∀ a ∈ l, p a = q a) : upTo p l = upTo q l := by
  induction l with
  | nil => rfl
  | cons a l ih =>
    rw [List.forall_mem_cons] at h
    rw [upTo, upTo, h.1, ih h.2]

theorem upTo_map (f : β → α) (l : List β) : upTo p (l.map f) = (upTo (p ∘ f) l).map f := by
  induction l with
  | nil => rfl
  | cons b l ih =>
    rw [List.map_cons, upTo, upTo, ih, Function.comp_apply]
    split <;> rfl

/-- All elements are there when the property holds of none. -/
theorem upTo_eq_self {l : List α} (h : ∀ a ∈ l, p a = false) : upTo p l = l := by
  induction l with
  | nil => rfl
  | cons a l ih =>
    rw [List.forall_mem_cons] at h
    rw [upTo, h.1, if_neg Bool.false_ne_true, ih h.2]

end UpTo

/-- Elements with the same key are the same. -/
theorem eq_of_nodup_filterMap {α β : Type*} {f : α → Option β} {l : List α}
    (hnd : (l.filterMap f).Nodup) {a a' : α} (ha : a ∈ l) (ha' : a' ∈ l) {b : β}
    (h : f a = some b) (h' : f a' = some b) : a = a' := by
  have hapart := List.pairwise_filterMap.1 hnd
  have hsymm : Std.Symm fun a a' : α => ∀ b, f a = some b → ∀ b', f a' = some b' → b ≠ b' :=
    ⟨fun _ _ hne b hb b' hb' => (hne b' hb' b hb).symm⟩
  by_contra hne
  exact hapart.forall ha ha' hne b h b h' rfl

variable [DecidableEq E] {last : E}

/-- The tasks one after the other, up to the first that reports `last`; then `last` is all that is
reported. -/
def runUntil (last : E) : List (Task K V E) → List E × (K → V) → List E × (K → V)
  | [], st => st
  | t :: ts, st =>
    if last ∈ (t.run st).1 then ([last], (t.run st).2) else runUntil last ts (t.run st)

/-- The tasks that are run on the store `s`. -/
def reached (last : E) (s : K → V) (tasks : List (Task K V E)) : List (Task K V E) :=
  upTo (fun t => decide (last ∈ t.reports s)) tasks

/-- The store is that of the tasks that are run. -/
theorem runUntil_store (hnd : (tasks.filterMap Task.key?).Nodup) (hst : last ∉ st.1) :
    (runUntil last tasks st).2 = (runAll (reached last st.2 tasks) st).2 := by
  induction tasks generalizing st with
  | nil => rfl
  | cons t ts ih =>
    obtain ⟨hkey, hts⟩ := nodup_cons_iff.1 hnd
    have hnow : last ∈ (t.run st).1 ↔ last ∈ t.reports st.2 := by
      rw [t.run_fst, List.mem_append, or_iff_right hst]
    rw [runUntil, reached, upTo]
    by_cases hlast : last ∈ t.reports st.2
    · rw [if_pos (hnow.2 hlast), if_pos (decide_eq_true hlast)]
      rfl
    · rw [if_neg fun h => hlast (hnow.1 h), if_neg fun h => hlast (of_decide_eq_true h),
        ih hts fun h => hlast (hnow.1 h)]
      -- the tasks behind meet the store of before at their keys
      have hsame : reached last (t.run st).2 ts = reached last st.2 ts :=
        upTo_congr fun t' ht' => by rw [reports_run hkey t' ht']
      rw [hsame]
      rfl

/-- The reports are those of all tasks, or `last` alone. -/
theorem runUntil_reports (hnd : (tasks.filterMap Task.key?).Nodup) (hst : last ∉ st.1) :
    (runUntil last tasks st).1 =
      if ∃ t ∈ tasks, last ∈ t.reports st.2 then [last]
      else st.1 ++ tasks.flatMap (Task.reports st.2) := by
  induction tasks generalizing st with
  | nil => simp [runUntil]
  | cons t ts ih =>
    obtain ⟨hkey, hts⟩ := nodup_cons_iff.1 hnd
    have hnow : last ∈ (t.run st).1 ↔ last ∈ t.reports st.2 := by
      rw [t.run_fst, List.mem_append, or_iff_right hst]
    rw [runUntil]
    by_cases hlast : last ∈ t.reports st.2
    · rw [if_pos (hnow.2 hlast), if_pos ⟨t, List.mem_cons_self, hlast⟩]
    · have hlater : (∃ t' ∈ ts, last ∈ t'.reports (t.run st).2) ↔
          ∃ t' ∈ t :: ts, last ∈ t'.reports st.2 := by
        rw [List.exists_mem_cons_iff, or_iff_right hlast]
        exact exists_congr fun t' => and_congr_right fun ht' => by rw [reports_run hkey t' ht']
      rw [if_neg fun h => hlast (hnow.1 h), ih hts fun h => hlast (hnow.1 h),
        if_congr hlater rfl rfl,
        List.flatMap_congr (reports_run hkey), t.run_fst, List.append_assoc, List.flatMap_cons]

end Keyed
