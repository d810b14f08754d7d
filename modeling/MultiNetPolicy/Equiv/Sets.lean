import MultiNetPolicy.Equiv.Exec
import MultiNetPolicy.Nft.Eval
import MultiNetPolicy.Server.Ports

/-!
# Updating the contents of a set

`updateSet` compares the wanted elements with the listed ones by key alone and sends the
difference.  The contents of a set are the pairs of a key and an interval flag; the update reaches
the wanted contents exactly when every key that occurs on both sides has the same flags on both
(`updateSet_contents_iff`).  Lookups see nothing but the contents (`setContains_congr`).
-/

namespace MultiNetPolicy

open ByteString

/-- The contents of a list of elements. -/
def contentsOf (els : List SetElement) : List (Str × Bool) :=
  els.map fun e => (e.key, e.intervalEnd)

/-- What a set contains: keys, and whether they end an interval. -/
theorem mem_contentsOf {els : List SetElement} {x : Str × Bool} :
    x ∈ contentsOf els ↔ ∃ e ∈ els, e.key = x.1 ∧ e.intervalEnd = x.2 := by
  unfold contentsOf
  rw [List.mem_map]
  constructor
  · rintro ⟨e, he, rfl⟩
    exact ⟨e, he, rfl, rfl⟩
  · rintro ⟨e, he, h₁, h₂⟩
    exact ⟨e, he, Prod.ext h₁ h₂⟩

/-- Lookups see nothing but the contents. -/
theorem setContains_congr {a b : List SetElement} (h : ∀ x, x ∈ contentsOf a ↔ x ∈ contentsOf b)
    (interval : Bool) (key : Str) : setContains interval a key = setContains interval b key := by
  have hany : ∀ f : Str × Bool → Bool, (a.any fun e => f (e.key, e.intervalEnd)) =
      b.any fun e => f (e.key, e.intervalEnd) := by
    intro f
    have hmap : ∀ l : List SetElement, (l.any fun e => f (e.key, e.intervalEnd)) =
        (contentsOf l).any f := fun l => by rw [contentsOf, List.any_map]; rfl
    rw [hmap, hmap, Bool.eq_iff_iff, List.any_eq_true, List.any_eq_true]
    exact exists_congr fun x => and_congr_left fun _ => h x
  have hall : ∀ start, (a.all fun e => !e.intervalEnd || le e.key start || !le e.key key) =
      b.all fun e => !e.intervalEnd || le e.key start || !le e.key key := by
    intro start
    rw [← Bool.not_inj_iff, List.not_all_eq_any_not, List.not_all_eq_any_not]
    exact hany fun x => !(!x.2 || le x.1 start || !le x.1 key)
  unfold setContains
  split
  · simp only [hall]
    exact hany fun x => !x.2 && le x.1 key && b.all fun e =>
      !e.intervalEnd || le e.key x.1 || !le e.key key
  · exact hany fun x => x.1 == key

/-- The elements with keys that the other list lacks. -/
theorem mem_findNonCommon {a b : List SetElement} {e : SetElement} :
    e ∈ findNonCommon a b ↔ e ∈ a ∧ ∀ x ∈ b, x.key ≠ e.key := by
  unfold findNonCommon isPresent
  rw [List.mem_filter, Bool.not_eq_true', List.any_eq_false]
  refine and_congr_right fun _ => forall₂_congr fun x _ => ?_
  rw [beq_iff_eq]
  exact not_congr eq_comm

theorem sameAs_iff {e : StoredElement} {x : SetElement} :
    e.sameAs x = true ↔ e.elem.key = x.key ∧ e.elem.intervalEnd = x.intervalEnd := by
  simp [StoredElement.sameAs]

theorem inSet_iff {e : StoredElement} {t n : Str} :
    e.inSet t n = true ↔ e.table = t ∧ e.set = n := by
  simp [StoredElement.inSet]

namespace Kernel

/-- The contents of a set after some of its elements have been deleted. -/
theorem mem_contentsOf_deleteElements {k : Kernel} {t n : Str} {els : List SetElement}
    {x : Str × Bool} :
    x ∈ contentsOf ((k.commit (Conn.elementOps (.deleteElements t n) els)).getElements t n) ↔
      x ∈ contentsOf (k.getElements t n) ∧ x ∉ contentsOf els := by
  by_cases hels : els = []
  · simp [hels, Conn.elementOps, contentsOf]
  · have hcommit : (k.commit (Conn.elementOps (.deleteElements t n) els)).elements =
        k.elements.filter fun e => !(e.inSet t n && els.any e.sameAs) := by
      rw [Conn.elementOps, if_neg hels]
      rfl
    unfold getElements
    rw [hcommit]
    simp only [mem_contentsOf, List.mem_map, List.mem_filter, Bool.not_eq_true',
      Bool.and_eq_false_iff]
    constructor
    · rintro ⟨_, ⟨e, ⟨⟨he, hkeep⟩, hin⟩, rfl⟩, h₁, h₂⟩
      refine ⟨⟨_, ⟨e, ⟨he, hin⟩, rfl⟩, h₁, h₂⟩, ?_⟩
      rintro ⟨d, hd, hd₁, hd₂⟩
      rcases hkeep with hkeep | hkeep
      · rw [hin] at hkeep
        cases hkeep
      · rw [List.any_eq_false] at hkeep
        exact hkeep d hd (sameAs_iff.2 ⟨h₁.trans hd₁.symm, h₂.trans hd₂.symm⟩)
    · rintro ⟨⟨_, ⟨e, ⟨he, hin⟩, rfl⟩, h₁, h₂⟩, hnot⟩
      refine ⟨_, ⟨e, ⟨⟨he, .inr ?_⟩, hin⟩, rfl⟩, h₁, h₂⟩
      rw [List.any_eq_false]
      intro d hd hsame
      obtain ⟨hd₁, hd₂⟩ := sameAs_iff.1 hsame
      exact hnot ⟨d, hd, hd₁.symm.trans h₁, hd₂.symm.trans h₂⟩

/-- Adding elements to a set. -/
theorem mem_foldl_addElement {t n : Str} {x : Str × Bool} : ∀ {els : List SetElement}
    {stored : List StoredElement},
    (∃ e ∈ els.foldl (addElement t n) stored,
      e.inSet t n = true ∧ (e.elem.key, e.elem.intervalEnd) = x) ↔
      (∃ e ∈ stored, e.inSet t n = true ∧ (e.elem.key, e.elem.intervalEnd) = x) ∨ x ∈ contentsOf els
  | [], stored => by simp [contentsOf]
  | d :: els, stored => by
    rw [List.foldl_cons, mem_foldl_addElement]
    have hcons : x ∈ contentsOf (d :: els) ↔ (d.key, d.intervalEnd) = x ∨ x ∈ contentsOf els := by
      simp [contentsOf, eq_comm]
    rw [hcons, ← or_assoc]
    refine or_congr_left ?_
    unfold addElement
    split
    · rename_i hany
      obtain ⟨e, he, hsame⟩ := List.any_eq_true.1 hany
      rw [Bool.and_eq_true] at hsame
      obtain ⟨h₁, h₂⟩ := sameAs_iff.1 hsame.2
      constructor
      · exact .inl
      · rintro (h | rfl)
        · exact h
        · exact ⟨e, he, hsame.1, by rw [h₁, h₂]⟩
    · simp only [List.mem_append, List.mem_singleton]
      constructor
      · rintro ⟨e, he | rfl, hin, hx⟩
        · exact .inl ⟨e, he, hin, hx⟩
        · exact .inr hx
      · rintro (⟨e, he, h⟩ | hx)
        · exact ⟨e, .inl he, h⟩
        · exact ⟨_, .inr rfl, by simp [StoredElement.inSet], hx⟩

/-- The contents of a set after elements have been added. -/
theorem mem_contentsOf_addElements {k : Kernel} {t n : Str} {els : List SetElement}
    {x : Str × Bool} :
    x ∈ contentsOf ((k.commit (Conn.elementOps (.addElements t n) els)).getElements t n) ↔
      x ∈ contentsOf (k.getElements t n) ∨ x ∈ contentsOf els := by
  have hstored : ∀ k : Kernel, x ∈ contentsOf (k.getElements t n) ↔
      ∃ e ∈ k.elements, e.inSet t n = true ∧ (e.elem.key, e.elem.intervalEnd) = x := by
    intro k
    simp only [contentsOf, getElements, List.map_map, List.mem_map, List.mem_filter, and_assoc,
      Function.comp_apply]
  by_cases hels : els = []
  · simp [hels, Conn.elementOps, contentsOf]
  · rw [hstored, hstored, Conn.elementOps, if_neg hels]
    exact mem_foldl_addElement

/-- The contents of a set after an update: what was there under a key that stays wanted, and what is
wanted under a key that was not there. -/
theorem mem_contentsOf_update {k : Kernel} {s : NftSet} {els : List SetElement} {x : Str × Bool} :
    x ∈ contentsOf ((k.commit (updateElementOps s els (k.getElements s.table s.name))).getElements
        s.table s.name) ↔
      (x ∈ contentsOf (k.getElements s.table s.name) ∧ ∃ d ∈ els, d.key = x.1) ∨
        (x ∈ contentsOf els ∧ ∀ e ∈ k.getElements s.table s.name, e.key ≠ x.1) := by
  unfold updateElementOps
  rw [commit_append, mem_contentsOf_addElements, mem_contentsOf_deleteElements]
  refine or_congr ?_ ?_
  · refine and_congr_right fun hx => ?_
    rw [mem_contentsOf]
    simp only [mem_findNonCommon]
    constructor
    · intro hnot
      by_contra hno
      obtain ⟨e, he, h₁, h₂⟩ := mem_contentsOf.1 hx
      refine hnot ⟨e, ⟨he, fun d hd hde => hno ⟨d, hd, ?_⟩⟩, h₁, h₂⟩
      rw [hde, h₁]
    · rintro ⟨d, hd, hdx⟩ ⟨e, ⟨-, hne⟩, h₁, -⟩
      exact hne d hd (hdx.trans h₁.symm)
  · simp only [mem_contentsOf, mem_findNonCommon]
    constructor
    · rintro ⟨e, ⟨he, hne⟩, h₁, h₂⟩
      exact ⟨⟨e, he, h₁, h₂⟩, fun y hy => by rw [← h₁]; exact hne y hy⟩
    · rintro ⟨⟨e, he, h₁, h₂⟩, hne⟩
      exact ⟨e, ⟨he, fun y hy => by rw [h₁]; exact hne y hy⟩, h₁, h₂⟩

end Kernel

/-! ### When an update reaches the wanted contents -/

/-- Under a key that occurs on both sides, both have the same flags. -/
def FlagsAgree (wanted existing : List SetElement) : Prop :=
  ∀ d ∈ wanted, ∀ e ∈ existing, d.key = e.key →
    (d.key, d.intervalEnd) ∈ contentsOf existing ∧ (e.key, e.intervalEnd) ∈ contentsOf wanted

instance (wanted existing : List SetElement) : Decidable (FlagsAgree wanted existing) :=
  inferInstanceAs (Decidable (∀ d ∈ wanted, ∀ e ∈ existing, d.key = e.key →
    (d.key, d.intervalEnd) ∈ contentsOf existing ∧ (e.key, e.intervalEnd) ∈ contentsOf wanted))

/-- What an update leaves is what is wanted exactly when the flags agree. -/
theorem forall_update_iff_flagsAgree {els cur : List SetElement} :
    (∀ c, ((c ∈ contentsOf cur ∧ ∃ d ∈ els, d.key = c.1) ∨
        (c ∈ contentsOf els ∧ ∀ e ∈ cur, e.key ≠ c.1)) ↔ c ∈ contentsOf els) ↔
      FlagsAgree els cur := by
  constructor
  · intro h d hd e he hde
    refine ⟨?_, (h _).1 (.inl ⟨mem_contentsOf.2 ⟨e, he, rfl, rfl⟩, d, hd, hde⟩)⟩
    rcases (h (d.key, d.intervalEnd)).2 (mem_contentsOf.2 ⟨d, hd, rfl, rfl⟩) with hcur | hnew
    · exact hcur.1
    · exact absurd hde.symm (hnew.2 e he)
  · intro h c
    constructor
    · rintro (⟨hcur, d, hd, hdc⟩ | hnew)
      · obtain ⟨e, he, h₁, h₂⟩ := mem_contentsOf.1 hcur
        have := (h d hd e he (hdc.trans h₁.symm)).2
        rwa [h₁, h₂] at this
      · exact hnew.1
    · intro hc
      obtain ⟨d, hd, h₁, h₂⟩ := mem_contentsOf.1 hc
      by_cases hex : ∃ e ∈ cur, e.key = c.1
      · obtain ⟨e, he, hec⟩ := hex
        have := (h d hd e he (h₁.trans hec.symm)).1
        rw [h₁, h₂] at this
        exact .inl ⟨this, d, hd, h₁⟩
      · exact .inr ⟨hc, fun e he hec => hex ⟨e, he, hec⟩⟩

/-- **An update reaches the wanted contents exactly when the flags agree.**  The update is what
`updateSet` queues for a set that exists; it then matches the keys that a new set would match. -/
theorem updateSet_contents_iff {h : Host} {set x : NftSet} {els : List SetElement} {s s' : State}
    (hold : s.kernel.hasSet set.table (shortName set.name)) (hmsg : s.messages = [])
    (hs : updateSet h set els s = .ok x s') :
    ((∀ c, c ∈ contentsOf ((s'.kernel.commit s'.messages).getElements set.table
        (shortName set.name)) ↔ c ∈ contentsOf els) ↔
      FlagsAgree els (s.kernel.getElements set.table (shortName set.name))) ∧
    (FlagsAgree els (s.kernel.getElements set.table (shortName set.name)) → ∀ interval key,
      setContains interval ((s'.kernel.commit s'.messages).getElements set.table
        (shortName set.name)) key = setContains interval els key) := by
  obtain ⟨id, fresh, -, rfl, hadv⟩ := updateSet_advance hs
  obtain ⟨ops, hq, hmsgs⟩ := hadv.messages
  obtain ⟨ops₁, ops₂, ⟨hfresh, hops⟩, hnil, rfl⟩ := hq.cons_inv
  obtain ⟨_, ⟨⟩, rfl⟩ := hnil
  -- the set exists, so that only the difference is sent
  have hnew : fresh = false := by
    rw [hfresh, Bool.not_eq_false']
    exact hold
  have hcommit : s'.kernel.commit s'.messages = s.kernel.commit (updateElementOps (set.short id) els
      (s.kernel.getElements set.table (shortName set.name))) := by
    rw [hadv.kernel, hmsgs, hmsg, hops, hnew]
    simp [NftSet.short]
  have hagree : (∀ c, c ∈ contentsOf ((s'.kernel.commit s'.messages).getElements set.table
      (shortName set.name)) ↔ c ∈ contentsOf els) ↔
      FlagsAgree els (s.kernel.getElements set.table (shortName set.name)) := by
    rw [hcommit, ← forall_update_iff_flagsAgree]
    exact forall_congr' fun c => iff_congr
      (@Kernel.mem_contentsOf_update s.kernel (set.short id) els c) Iff.rfl
  exact ⟨hagree, fun hflags interval key => setContains_congr (hagree.2 hflags) interval key⟩

/-- An interval set of ports. -/
def portsSet : NftSet where
  table := filterTableName
  name := str "ports_tcp"
  id := 0
  anonymous := false
  constant := false
  interval := true
  counter := false
  keyType := .inetService
  comment := []

/-- A ruleset that holds the set and nothing else. -/
def portsKernel (els : List SetElement) : Kernel where
  tables := [filterTableName]
  chains := []
  rules := []
  sets := [portsSet]
  elements := els.map fun e => ⟨filterTableName, portsSet.name, e⟩
  nextHandle := 1

/-- The elements of one port. -/
def onePort (port : Nat) : List SetElement :=
  [⟨putUint16 port, false, []⟩, ⟨putUint16 (port + 1), true, []⟩]

/-- Port 443 is kept and port 80 replaced by port 22. -/
theorem updateSet_contents_kept : ∃ x s',
    updateSet Host.reliable portsSet (onePort 22 ++ onePort 443)
      (.new (portsKernel (onePort 80 ++ onePort 443))) = .ok x s' ∧
    ∀ c, c ∈ contentsOf ((s'.kernel.commit s'.messages).getElements portsSet.table
      (shortName portsSet.name)) ↔ c ∈ contentsOf (onePort 22 ++ onePort 443) :=
  ⟨_, _, rfl, (updateSet_contents_iff (h := Host.reliable)
    (s := .new (portsKernel (onePort 80 ++ onePort 443))) (by decide) rfl rfl).1.2 (by decide)⟩

/-- Port 81 takes the place of port 80: the end of the old interval is taken for the start of the
new one, both ends are left and no port matches. -/
theorem updateSet_loses_adjacent_port : ∃ x s',
    updateSet Host.reliable portsSet (onePort 81) (.new (portsKernel (onePort 80))) = .ok x s' ∧
    contentsOf ((s'.kernel.commit s'.messages).getElements portsSet.table
      (shortName portsSet.name)) = [(putUint16 81, true), (putUint16 82, true)] ∧
    contentsOf (onePort 81) = [(putUint16 81, false), (putUint16 82, true)] ∧
    setContains true ((s'.kernel.commit s'.messages).getElements portsSet.table
      (shortName portsSet.name)) (putUint16 81) = false ∧
    setContains true (onePort 81) (putUint16 81) = true :=
  ⟨_, _, rfl, by decide, by decide, by decide, by decide⟩

end MultiNetPolicy
