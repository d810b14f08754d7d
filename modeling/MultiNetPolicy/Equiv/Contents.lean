import MultiNetPolicy.Equiv.Busy
import MultiNetPolicy.Equiv.Sets
import MultiNetPolicy.Equiv.Stale

/-!
# The contents of sets after a batch

Every call of a run compares the wanted elements with the committed ones, not with what earlier
calls have queued.  What a batch leaves in a set is therefore the committed contents under the keys
that every call for the set wants, and what some call wants under keys that were not there
(`Queued.mem_contents`).  A set that was not there is the one of the first call for it
(`Queued.findSet`).
-/

namespace MultiNetPolicy

open ByteString

variable {k k' : Kernel} {t n : Str} {x : Str × Bool}

/-! ### Messages about other sets -/

theorem filter_foldl_addElement {t' n' : Str} (hne : ¬ (t' = t ∧ n' = n)) :
    ∀ (els : List SetElement) (stored : List StoredElement),
      (els.foldl (Kernel.addElement t' n') stored).filter (StoredElement.inSet t n) =
        stored.filter (StoredElement.inSet t n)
  | [], _ => rfl
  | d :: els, stored => by
    rw [List.foldl_cons, filter_foldl_addElement hne els]
    unfold Kernel.addElement
    split
    · rfl
    · have hnew : StoredElement.inSet t n ⟨t', n', d⟩ = false := by
        rw [← Bool.not_eq_true, inSet_iff]
        exact hne
      rw [List.filter_append, List.filter_cons_of_neg (by rw [hnew]; exact Bool.false_ne_true),
        List.filter_nil, List.append_nil]

/-- A message that neither changes nor deletes a set keeps its elements. -/
theorem Kernel.getElements_apply {op : Op} (hop : op.changesSet t n = false)
    (hdel : op ≠ .delSet t n) : (k.apply op).getElements t n = k.getElements t n := by
  have hother : ∀ {t' n' : Str}, (t' == t && n' == n) = false → ¬ (t' = t ∧ n' = n) := by
    rintro t' n' hb ⟨rfl, rfl⟩
    simp at hb
  have hout : ∀ {t' n' : Str} {e : StoredElement}, ¬ (t' = t ∧ n' = n) → e.inSet t n = true →
      e.inSet t' n' = false := by
    intro t' n' e hne hin
    obtain ⟨rfl, rfl⟩ := inSet_iff.1 hin
    rw [← Bool.not_eq_true, inSet_iff]
    exact fun ⟨h₁, h₂⟩ => hne ⟨h₁.symm, h₂.symm⟩
  -- deletions elsewhere pass every element of the set
  have hfilter : ∀ p : StoredElement → Bool, (∀ e, e.inSet t n = true → p e = true) →
      (k.elements.filter p).filter (StoredElement.inSet t n) =
        k.elements.filter (StoredElement.inSet t n) := by
    intro p hp
    rw [List.filter_filter]
    refine List.filter_congr fun e _ => ?_
    rw [Bool.eq_iff_iff, Bool.and_eq_true, and_iff_left_iff_imp]
    exact hp e
  unfold getElements
  congr 1
  cases op with
  | addElements t' n' els => exact filter_foldl_addElement (hother hop) els k.elements
  | deleteElements t' n' els =>
    refine hfilter _ fun e hin => ?_
    rw [hout (hother hop) hin]
    rfl
  | delSet t' n' =>
    refine hfilter _ fun e hin => ?_
    rw [hout (fun ⟨h₁, h₂⟩ => hdel (by rw [h₁, h₂])) hin]
    rfl
  | addTable t' =>
    simp only [apply]
    split <;> rfl
  | addChain c =>
    simp only [apply]
    split <;> rfl
  | addSet s =>
    simp only [apply]
    split <;> rfl
  | delChain t' c => rfl
  | addRule r => rfl
  | insertRule r => rfl
  | delRule t' c handle => rfl

/-- A set that no message is about. -/
theorem Kernel.getElements_commit : ∀ {ops : List Op},
    (∀ op ∈ ops, op.changesSet t n = false ∧ op ≠ .delSet t n) → ∀ k : Kernel,
      (k.commit ops).getElements t n = k.getElements t n
  | [], _, _ => rfl
  | op :: ops, h, k => by
    obtain ⟨hop, hdel⟩ := h op (List.mem_cons_self ..)
    rw [commit_cons, getElements_commit (fun o ho => h o (List.mem_cons_of_mem _ ho)),
      getElements_apply hop hdel]

/-! ### What one call changes -/

/-- The call takes an element out of a set: it is committed, and its key is not wanted. -/
def Event.Drops (k : Kernel) (t n : Str) (x : Str × Bool) : Event → Prop
  | .set s els fresh => (s.table = t ∧ s.name = n) ∧ fresh = false ∧
      x ∈ contentsOf (k.getElements t n) ∧ ∀ d ∈ els, d.key ≠ x.1
  | _ => False

/-- The call puts an element into a set: it is wanted, and its key is not committed. -/
def Event.Puts (k : Kernel) (t n : Str) (x : Str × Bool) : Event → Prop
  | .set s els fresh => (s.table = t ∧ s.name = n) ∧ x ∈ contentsOf els ∧
      (fresh = false → ∀ d ∈ k.getElements t n, d.key ≠ x.1)
  | _ => False

/-- The elements of one list with keys that the other lacks. -/
theorem mem_contentsOf_findNonCommon {a b : List SetElement} :
    x ∈ contentsOf (findNonCommon a b) ↔ x ∈ contentsOf a ∧ ∀ d ∈ b, d.key ≠ x.1 := by
  simp only [mem_contentsOf, mem_findNonCommon]
  constructor
  · rintro ⟨e, ⟨he, hne⟩, h₁, h₂⟩
    exact ⟨⟨e, he, h₁, h₂⟩, fun d hd => by rw [← h₁]; exact hne d hd⟩
  · rintro ⟨⟨e, he, h₁, h₂⟩, hne⟩
    exact ⟨e, ⟨he, fun d hd => by rw [h₁]; exact hne d hd⟩, h₁, h₂⟩

/-- A call for something else leaves a set alone. -/
theorem Event.Queues.spares {e : Event} {ops : List Op} (he : e.Queues k ops)
    (hne : ∀ s els fresh, e = .set s els fresh → ¬ (s.table = t ∧ s.name = n)) :
    ∀ op ∈ ops, op.changesSet t n = false ∧ op ≠ .delSet t n := by
  intro op hop
  have hkept : op ≠ .delSet t n := by
    intro hdel
    have hremoves := (he.table op hop).2
    rw [hdel] at hremoves
    cases hremoves
  refine ⟨?_, hkept⟩
  have hother : ∀ {s els fresh}, e = .set s els fresh → (s.table == t && s.name == n) = false := by
    intro s els fresh heq
    rw [← Bool.not_eq_true, Bool.and_eq_true, beq_iff_eq, beq_iff_eq]
    exact hne s els fresh heq
  cases he.sends op hop with
  | chain c => rfl
  | set s els fresh => rfl
  | addElements s els fresh added => exact hother rfl
  | deleteElements s els fresh deleted => exact hother rfl
  | rule r action force isNew => cases action <;> rfl
  | delRule r action force isNew x hx => rfl

/-- **One call.**  The ruleset may have changed since the call compared elements. -/
theorem Event.Queues.mem_contents {e : Event} {ops : List Op} (he : e.Queues k ops) :
    x ∈ contentsOf ((k'.commit ops).getElements t n) ↔
      (x ∈ contentsOf (k'.getElements t n) ∧ ¬ e.Drops k t n x) ∨ e.Puts k t n x := by
  -- only a call for this set touches its elements
  by_cases hset : ∃ s els fresh, e = .set s els fresh ∧ s.table = t ∧ s.name = n
  · obtain ⟨s, els, fresh, rfl, rfl, rfl⟩ := hset
    obtain ⟨hfresh, rfl⟩ := he
    cases fresh with
    | true =>
      have hsame : (k'.apply (.addSet s)).getElements s.table s.name =
          k'.getElements s.table s.name := Kernel.getElements_apply rfl nofun
      rw [if_pos rfl, Kernel.commit_cons, Kernel.mem_contentsOf_addElements, hsame]
      simp [Event.Drops, Event.Puts]
    | false =>
      rw [if_neg Bool.false_ne_true, updateElementOps, Kernel.commit_append,
        Kernel.mem_contentsOf_addElements, Kernel.mem_contentsOf_deleteElements,
        mem_contentsOf_findNonCommon, mem_contentsOf_findNonCommon]
      simp [Event.Drops, Event.Puts]
  · have hne : ∀ s els fresh, e = .set s els fresh → ¬ (s.table = t ∧ s.name = n) :=
      fun s els fresh heq h => hset ⟨s, els, fresh, heq, h.1, h.2⟩
    have hdrops : ¬ e.Drops k t n x := by
      cases e with
      | set s els fresh => exact fun h => hne s els fresh rfl h.1
      | chain c => exact id
      | rule r action force isNew => exact id
    have hputs : ¬ e.Puts k t n x := by
      cases e with
      | set s els fresh => exact fun h => hne s els fresh rfl h.1
      | chain c => exact id
      | rule r action force isNew => exact id
    rw [Kernel.getElements_commit (he.spares hne)]
    simp [hdrops, hputs]

/-- What one call puts into a set no call takes out: the one has a key that is not committed. -/
theorem Event.Queues.not_drops_of_puts {e e' : Event} {ops ops' : List Op} (he : e.Queues k ops)
    (he' : e'.Queues k ops') (hputs : e.Puts k t n x) : ¬ e'.Drops k t n x := by
  intro hdrops
  cases e with
  | chain c => exact hputs
  | rule r action force isNew => exact hputs
  | set s els fresh =>
    cases e' with
    | chain c => exact hdrops
    | rule r action force isNew => exact hdrops
    | set s' els' fresh' =>
      obtain ⟨⟨rfl, rfl⟩, hx, hnew⟩ := hputs
      obtain ⟨⟨ht, hn⟩, rfl, hold, -⟩ := hdrops
      have hfresh : fresh = false := by
        rw [he.1, ← ht, ← hn, ← he'.1]
      obtain ⟨d, hd, hkey, -⟩ := mem_contentsOf.1 hold
      exact hnew hfresh d hd hkey

/-- **The contents of a set after the calls of an execution.** -/
theorem Queued.mem_contents : ∀ {es : List Event} {ops : List Op} {k' : Kernel}, Queued k es ops →
    (x ∈ contentsOf ((k'.commit ops).getElements t n) ↔
      (x ∈ contentsOf (k'.getElements t n) ∧ ∀ e ∈ es, ¬ e.Drops k t n x) ∨
        ∃ e ∈ es, e.Puts k t n x)
  | [], ops, k', hq => by
    obtain ⟨_, ⟨⟩, rfl⟩ := hq
    simp
  | e :: es, ops, k', hq => by
    obtain ⟨ops₁, ops₂, he, hq', rfl⟩ := hq.cons_inv
    rw [Kernel.commit_append, Queued.mem_contents hq', he.mem_contents]
    simp only [List.mem_cons, forall_eq_or_imp, exists_eq_or_imp]
    constructor
    · rintro (⟨⟨hx, hdrops⟩ | hputs, hrest⟩ | hrest)
      · exact .inl ⟨hx, hdrops, hrest⟩
      · exact .inr (.inl hputs)
      · exact .inr (.inr hrest)
    · rintro (⟨hx, hdrops, hrest⟩ | hputs | hrest)
      · exact .inl ⟨.inl ⟨hx, hdrops⟩, hrest⟩
      · refine .inl ⟨.inr hputs, fun e' he' => ?_⟩
        obtain ⟨ops', hqueues, -⟩ := hq'.queues_of_mem _ he'
        exact he.not_drops_of_puts hqueues hputs
      · exact .inr hrest

/-! ### New sets -/

/-- The set that a message adds under a name. -/
def Op.addedSet (t n : Str) : Op → Option NftSet
  | .addSet s => if s.table = t ∧ s.name = n then some s else none
  | _ => none

/-- The set that a call asks for under a name. -/
def Event.setFor (t n : Str) : Event → Option NftSet
  | .set s _ _ => if s.table = t ∧ s.name = n then some s else none
  | _ => none

/-- A set is found, or added by the message. -/
theorem Kernel.findSet_apply {op : Op} (hop : op.removes = false) :
    (k.apply op).findSet t n = (k.findSet t n).or (op.addedSet t n) := by
  cases op with
  | addSet s =>
    have hadded : (Op.addSet s).addedSet t n =
        if s.table = t ∧ s.name = n then some s else none := rfl
    simp only [apply]
    split
    · rename_i hold
      rw [hadded]
      split
      · rename_i hs
        rw [hasSet, hs.1, hs.2] at hold
        rw [Option.or_of_isSome hold]
      · rw [Option.or_none]
    · unfold findSet
      rw [List.find?_append, hadded]
      congr 1
      simp only [List.find?_singleton, Bool.and_eq_true, beq_iff_eq]
  | addTable t' =>
    simp only [apply, Op.addedSet, Option.or_none]
    split <;> rfl
  | addChain c =>
    simp only [apply, Op.addedSet, Option.or_none]
    split <;> rfl
  | delSet t' n' => cases hop
  | delChain t' c => cases hop
  | _ => exact (Option.or_none ..).symm

/-- A set is found, or added by the first message that does. -/
theorem Kernel.findSet_commit : ∀ {ops : List Op}, (∀ op ∈ ops, op.removes = false) →
    ∀ k : Kernel, (k.commit ops).findSet t n = (k.findSet t n).or (ops.findSome? (Op.addedSet t n))
  | [], _, _ => (Option.or_none ..).symm
  | op :: ops, h, k => by
    rw [commit_cons, findSet_commit (fun o ho => h o (List.mem_cons_of_mem _ ho)),
      findSet_apply (h op (List.mem_cons_self ..)), Option.or_assoc, List.findSome?_cons]
    cases op.addedSet t n <;> rfl

/-- One call, for a set that is not committed. -/
theorem Event.Queues.findSome?_addedSet {e : Event} {ops : List Op} (he : e.Queues k ops)
    (hk : k.findSet t n = none) : ops.findSome? (Op.addedSet t n) = e.setFor t n := by
  cases he' : e with
  | chain c =>
    subst he'
    rw [List.findSome?_eq_none_iff.2]
    · rfl
    · intro op hop
      cases he.sends op hop
      rfl
  | rule r action force isNew =>
    subst he'
    rw [List.findSome?_eq_none_iff.2]
    · rfl
    · intro op hop
      cases he.sends op hop with
      | rule => cases action <;> rfl
      | delRule => rfl
  | set s els fresh =>
    subst he'
    -- only a call for this set adds it, and only because it is not there
    by_cases hs : s.table = t ∧ s.name = n
    · obtain ⟨hfresh, rfl⟩ := he
      have hnew : fresh = true := by
        rw [hfresh, Kernel.hasSet, hs.1, hs.2, hk]
        rfl
      rw [if_pos hnew, List.findSome?_cons]
      simp only [Op.addedSet, Event.setFor, if_pos hs]
    · rw [List.findSome?_eq_none_iff.2]
      · simp only [Event.setFor, if_neg hs]
      · intro op hop
        cases he.sends op hop with
        | set => simp only [Op.addedSet, if_neg hs]
        | addElements => rfl
        | deleteElements => rfl

/-- **A set that was not there** is the one of the first call for it. -/
theorem Queued.findSet (hk : k.findSet t n = none) : ∀ {es : List Event} {ops : List Op}
    {k' : Kernel}, Queued k es ops →
    (k'.commit ops).findSet t n = (k'.findSet t n).or (es.findSome? (Event.setFor t n))
  | [], ops, k', hq => by
    obtain ⟨_, ⟨⟩, rfl⟩ := hq
    exact (Option.or_none ..).symm
  | e :: es, ops, k', hq => by
    obtain ⟨ops₁, ops₂, he, hq', rfl⟩ := hq.cons_inv
    rw [Kernel.commit_append, Queued.findSet hk hq',
      Kernel.findSet_commit (fun op hop => (he.table op hop).2), he.findSome?_addedSet hk,
      Option.or_assoc, List.findSome?_cons]
    cases e.setFor t n <;> rfl

end MultiNetPolicy
